/-
FluidScss/Proofs/MissingEntry.lean

Entries that are missing do not disturb a batch.  A missing entry is found
missing before anything is written, so its turn leaves the workspace as it
was, and the batch without it does the same (`run_generateEach_succeeded`).

The batch without the missing entries is that of another configuration, with a
shorter list.  A generation does not look at the list, so it is the same under
both (`run_generateEntry_fill`).
-/
import FluidScss.Proofs.KitFault

namespace FluidScss

open FluidScss.Action

variable {w w' w₁ : Workspace} {c : Config} {settings : Autofill} {entry : Text}
variable {result : EntryResult} {results : List EntryResult} {entries : List Text}
variable {targets : Option (List Path)} {output : Option Path}

/-! ### Missing entries -/

/-- The result of an entry that is missing. -/
def EntryResult.Missing (r : EntryResult) : Prop := r.outcome = .error "file not found"

/-- An entry has a report, or it is missing and nothing was done. -/
theorem run_generateConfigured_cases (h : run (generateConfigured c entry) w = (.ok result, w₁)) :
    (result.ok = true ∧ ¬ result.Missing) ∨ (result.ok = false ∧ result.Missing ∧ w₁ = w) := by
  rw [run_generateConfigured_eq] at h
  rcases hr : run (generateEntry c (Path.ofText entry) none) w with ⟨fault | r, w₂⟩ <;>
    rw [hr] at h
  · cases fault with
    | sourceNotFound p =>
      have hsame := traceless_generateEntry c (Path.ofText entry) none w _ w₂ hr rfl
      cases h
      exact .inr ⟨rfl, rfl, hsame⟩
    | _ => cases h
  · cases h
    exact .inl ⟨rfl, nofun⟩

/-- The entries that have a report, given the results in order. -/
def succeeded : List Text → List EntryResult → List Text
  | [], _ => []
  | entry :: entries, results =>
    if results.head?.any EntryResult.ok then entry :: succeeded entries results.tail
    else succeeded entries results.tail

/-- **A batch without its missing entries** gives the other results, and leaves
the same workspace. -/
theorem run_generateEach_succeeded (h : run (generateEach c entries) w = (.ok results, w')) :
    run (generateEach c (succeeded entries results)) w
      = (.ok (results.filter EntryResult.ok), w') := by
  induction entries generalizing w results with
  | nil =>
    cases h
    rfl
  | cons entry entries ih =>
    obtain ⟨result, w₁, rest, hfirst, hrest, rfl⟩ := run_generateEach_cons.mp h
    rcases run_generateConfigured_cases hfirst with ⟨hok, -⟩ | ⟨hfailed, -, rfl⟩
    · rw [succeeded, List.head?_cons, Option.any_some, if_pos hok, List.filter_cons, if_pos hok]
      exact run_generateEach_cons.mpr ⟨result, w₁, _, hfirst, ih hrest, rfl⟩
    · -- the turn that is left out ends where it began
      have hno : ¬ result.ok = true := by simp [hfailed]
      rw [succeeded, List.head?_cons, Option.any_some, if_neg hno, List.filter_cons, if_neg hno]
      exact ih hrest

theorem missing_iff_of_run_generateEach (h : run (generateEach c entries) w = (.ok results, w')) :
    ∀ r ∈ results, r.ok = false ↔ r.Missing := by
  induction entries generalizing w results with
  | nil =>
    cases h
    exact nofun
  | cons entry entries ih =>
    obtain ⟨result, w₁, rest, hfirst, hrest, rfl⟩ := run_generateEach_cons.mp h
    refine List.forall_mem_cons.mpr ⟨?_, ih hrest⟩
    rcases run_generateConfigured_cases hfirst with ⟨hok, hthere⟩ | ⟨hfailed, hmissing, -⟩
    · simp [hok, hthere]
    · simp [hfailed, hmissing]

/-! ### Generations do not look at the list -/

namespace EntrySlot

variable (slot : EntrySlot) (root : Path) (items items' : List Json)

theorem targetsFiles_fill (output : Path) (targets : List Path) :
    targetsFiles (slot.config root items') output targets
      = targetsFiles (slot.config root items) output targets := by
  induction targets with
  | nil => rfl
  | cons target targets ih =>
    rw [targetsFiles, targetsFiles, ih]
    rfl

theorem runFiles_fill (settings : Autofill) (output : Path) (targets : Option (List Path)) :
    runFiles (slot.config root items') { settings with entries := entryTexts items' } output targets
      = runFiles (slot.config root items) settings output targets := by
  cases targets with
  | none => rfl
  | some targets => exact slot.targetsFiles_fill root items items' output targets

theorem run_gather_fill (targets : Option (List Path)) (output : Option Path) (w : Workspace) :
    run (gather (slot.config root items') targets output) w
      = Prod.map (Except.map fun i =>
          { i with settings := { i.settings with entries := entryTexts items' } }) id
        (run (gather (slot.config root items) targets output) w) := by
  rw [gather_eq, gather_eq, run_bind, run_bind, run_lift, run_lift,
    slot.autofill_fill root items' items]
  rcases (slot.config root items).autofill with e | settings
  · rfl
  -- the list is in the settings, and what follows asks for the others
  have hout : runOutput (slot.config root items')
      { settings with entries := entryTexts items' } output
      = runOutput (slot.config root items) settings output := by
    cases output <;> rfl
  dsimp only [Except.map]
  rw [hout, slot.runFiles_fill root items items', run_bind, run_bind]
  rcases run (runFiles (slot.config root items) settings _ targets) w with ⟨e | files, w₁⟩
  · rfl
  dsimp only
  rw [run_bind, run_bind]
  rcases run (collectOverrides settings.marker 0 files) w₁ with ⟨e | overrides, w₂⟩ <;> rfl

theorem run_generate_fill (targets : Option (List Path)) (output : Option Path) (w : Workspace) :
    run (generate (slot.config root items') targets output) w
      = run (generate (slot.config root items) targets output) w := by
  unfold generate
  rw [run_bind, run_bind, slot.run_gather_fill root items items']
  rcases run (gather (slot.config root items) targets output) w with ⟨e | i, w'⟩ <;> rfl

theorem run_generateEntry_fill (entry : Path) (w : Workspace) :
    run (generateEntry (slot.config root items') entry none) w
      = run (generateEntry (slot.config root items) entry none) w := by
  have htarget : entryTarget (slot.config root items') entry none
      = entryTarget (slot.config root items) entry none := by
    unfold entryTarget Config.entryOutput
    rw [slot.sourceDir_fill root items' items]
    rfl
  unfold generateEntry
  rw [htarget, run_bind, run_bind]
  rcases run (entryTarget (slot.config root items) entry none) w with ⟨e | output, w'⟩
  · rfl
  · exact slot.run_generate_fill root items items' _ _ _

theorem generateEach_fill (entries : List Text) :
    generateEach (slot.config root items') entries
      = generateEach (slot.config root items) entries := by
  induction entries with
  | nil => rfl
  | cons entry entries ih =>
    have hentry : generateConfigured (slot.config root items') entry
        = generateConfigured (slot.config root items) entry := by
      funext w
      have hrun := run_generateConfigured_eq (slot.config root items') entry w
      rw [slot.run_generateEntry_fill root items items'] at hrun
      exact hrun.trans (run_generateConfigured_eq (slot.config root items) entry w).symm
    rw [generateEach, generateEach, hentry, ih]

end EntrySlot

/-! ### The list without its missing entries -/

/-- A list of entries without those that have no report; void ones have no
result, and stay. -/
def withoutMissing : List Json → List EntryResult → List Json
  | [], _ => []
  | item :: items, results =>
    if item.isVoid then item :: withoutMissing items results
    else if results.head?.any EntryResult.ok then item :: withoutMissing items results.tail
    else withoutMissing items results.tail

theorem entryTexts_cons (item : Json) (items : List Json) :
    entryTexts (item :: items)
      = if item.isVoid then entryTexts items else item.shown :: entryTexts items := by
  cases h : item.isVoid <;> simp [entryTexts, h]

theorem entryTexts_withoutMissing (items : List Json) (results : List EntryResult) :
    entryTexts (withoutMissing items results) = succeeded (entryTexts items) results := by
  induction items generalizing results with
  | nil => rfl
  | cons item items ih =>
    rw [withoutMissing, entryTexts_cons]
    split
    · rename_i hvoid
      rw [entryTexts_cons, if_pos hvoid, ih]
    · rename_i hvoid
      rw [succeeded]
      split
      · rw [entryTexts_cons, if_neg hvoid, ih]
      · exact ih _

theorem Json.eq_of_given? {setting : Option Json} {value : Json}
    (h : Json.given? setting = some value) : setting = some value := by
  rcases setting with - | v
  · cases h
  · rw [Json.given?] at h
    split at h
    · cases h
    · exact h

theorem Config.exists_of_sectionOf {name key : Text} {value : Json}
    (h : Json.member? (c.sectionOf name) key = some value) :
    ∃ members, Json.member? c.data name = some (.obj members) ∧
      Json.member? members key = some value := by
  rw [Config.sectionOf] at h
  split at h
  · rename_i members hsection
    exact ⟨members, hsection, h⟩
  · cases h

/-- Settings with entries have them from a list. -/
theorem EntrySlot.exists_of_autofill (hc : c.autofill = .ok settings)
    (hne : settings.entries ≠ []) :
    ∃ (slot : EntrySlot) (items : List Json), c.data = slot.fill items := by
  unfold Config.autofill at hc
  obtain ⟨marker, -, hc⟩ := exists_of_except_bind hc
  dsimp only at hc
  split at hc
  · -- without a list there are no entries
    obtain ⟨entries, hentries, hc⟩ := exists_of_except_bind hc
    obtain ⟨mobileMax, -, hc⟩ := exists_of_except_bind hc
    obtain ⟨elements, -, hc⟩ := exists_of_except_bind hc
    obtain ⟨scanDirs, -, hc⟩ := exists_of_except_bind hc
    obtain ⟨output, -, hc⟩ := exists_of_except_bind hc
    cases hentries
    cases hc
    exact absurd rfl hne
  · rename_i items hitems
    obtain ⟨members, hsection, hlist⟩ := Config.exists_of_sectionOf (Json.eq_of_given? hitems)
    obtain ⟨slot, hdata, -⟩ := EntrySlot.exists_of_member? hsection hlist
    exact ⟨slot, items, hdata⟩
  · obtain ⟨entries, hentries, -⟩ := exists_of_except_bind hc
    cases hentries

theorem EntrySlot.entries_of_autofill {slot : EntrySlot} {root : Path} {items : List Json}
    (hc : (slot.config root items).autofill = .ok settings) :
    settings.entries = entryTexts items := by
  have hself := slot.autofill_fill root items items
  rw [hc] at hself
  exact congrArg Autofill.entries (Except.ok.inj hself)

/-- **Missing entries do not disturb a batch**: the results that are not ok are
those of entries that are missing, and unless all are, the batch without them
gives the other results, in order, and leaves the same workspace. -/
theorem generateEntries_withoutMissing (h : run (generateEntries c) w = (.ok results, w')) :
    (∀ r ∈ results, r.ok = false ↔ r.Missing) ∧
    (allOk results = true ↔ ∀ r ∈ results, ¬ r.Missing) ∧
    (∃ (slot : EntrySlot) (items : List Json), c.data = slot.fill items) ∧
    ∀ (slot : EntrySlot) (items : List Json), c.data = slot.fill items →
      (∃ r ∈ results, ¬ r.Missing) →
      run (generateEntries (slot.config c.root (withoutMissing items results))) w
        = (.ok (results.filter EntryResult.ok), w') := by
  obtain ⟨settings, hc, hne, heach⟩ := run_generateEntries_iff.mp h
  have hmissing := missing_iff_of_run_generateEach heach
  refine ⟨hmissing, ?_, EntrySlot.exists_of_autofill hc hne, ?_⟩
  · rw [allOk, List.all_eq_true]
    refine forall₂_congr fun r hr => ?_
    rw [← hmissing r hr, Bool.not_eq_false]
  · rintro slot items hdata ⟨r, hr, hthere⟩
    have hconfig : slot.config c.root items = c := by rw [EntrySlot.config, ← hdata]
    have hc' := slot.autofill_fill c.root (withoutMissing items results) items
    rw [hconfig, hc] at hc'
    have hentries : settings.entries = entryTexts items :=
      EntrySlot.entries_of_autofill (hconfig.symm ▸ hc)
    have hless := run_generateEach_succeeded heach
    rw [hentries, ← entryTexts_withoutMissing, ← hconfig,
      ← slot.generateEach_fill c.root items (withoutMissing items results)] at hless
    refine run_generateEntries_iff.mpr ⟨_, hc', fun hnone => ?_, hless⟩
    -- a report stays, so the list is not empty
    have hempty : entryTexts (withoutMissing items results) = [] := hnone
    have hok : r.ok = true := by rwa [← hmissing r hr, Bool.not_eq_false] at hthere
    have hstays : r ∈ results.filter EntryResult.ok := List.mem_filter.mpr ⟨hr, hok⟩
    rw [hempty] at hless
    obtain ⟨hresults, -⟩ := Prod.mk.inj hless
    rw [← Except.ok.inj hresults] at hstays
    cases hstays

/-! ### A batch with a missing entry -/

/-- The slot of the watched project's list. -/
def watchedSlot : EntrySlot := ⟨[], [], [], [], nofun, nofun⟩

/-- Of two entries one is missing, and the batch of the other alone is the
same. -/
theorem generateEntries_withoutMissing_example :
    ∃ missing there w', run (generateEntries
        (watchedConfig ["src/styles/gone.scss", "src/styles/x.scss"]))
          (watchedProject watchedText [] []) = (.ok [missing, there], w') ∧
      missing.Missing ∧ allOk [missing, there] = false ∧
      run (generateEntries (watchedConfig ["src/styles/x.scss"])) (watchedProject watchedText [] [])
        = (.ok [there], w') := by
  have hc : (watchedConfig ["src/styles/gone.scss", "src/styles/x.scss"]).autofill
      = .ok ⟨⟨"r", "resp"⟩, 850, [⟨.single, ["watched", "src", "styles"]⟩],
        ⟨.single, ["watched", "src", "styles", "_responsive-autofill.generated.scss"]⟩,
        ["src/styles/gone.scss", "src/styles/x.scss"]⟩ := rfl
  have hgone : run (generateConfigured (watchedConfig ["src/styles/gone.scss", "src/styles/x.scss"])
      "src/styles/gone.scss") (watchedProject watchedText [] [])
      = (.ok ⟨"src/styles/gone.scss", .error "file not found"⟩, watchedProject watchedText [] []) :=
    run_generateConfigured_eq _ _ _
  have hread : run (readSource
      ((watchedConfig ["src/styles/gone.scss", "src/styles/x.scss"]).resolve
        (Path.ofText "src/styles/x.scss"))) (watchedProject watchedText [] []) = (.ok [], _) :=
    run_readSource_iff.mpr ⟨rfl, rfl, _, rfl, readSource_nil⟩
  have hstored : ∀ content, run (store ⟨.single, watchedSheet⟩ content)
      (watchedProject watchedText [] []) = (.ok (), ⟨(watchedProject watchedText [] []).tree.set
        watchedSheet (.file (Text.encode content)), []⟩) := fun content =>
    run_store_iff.mpr ⟨_, watchedSheet, ⟨rfl, rfl, rfl, nofun⟩, rfl⟩
  obtain ⟨r, log, hgen, -⟩ := run_generateEntry_of rfl hc hread rfl (.created rfl (hstored _))
  obtain ⟨there, hthere, hr⟩ := run_generateConfigured_of hgen
  have hrun := run_generateEntries_iff.mpr ⟨_, hc, by simp, run_generateEach_cons.mpr
    ⟨_, _, [there], hgone, run_generateEach_cons.mpr ⟨there, _, [], hthere, rfl, rfl⟩, rfl⟩⟩
  have hok : there.ok = true := by rw [EntryResult.ok, hr]; rfl
  have hnot : EntryResult.ok ⟨"src/styles/gone.scss", .error "file not found"⟩ = false := rfl
  have hkept : withoutMissing [.str "src/styles/gone.scss", .str "src/styles/x.scss"]
      [⟨"src/styles/gone.scss", .error "file not found"⟩, there] = [.str "src/styles/x.scss"] := by
    rw [withoutMissing, if_neg (by decide), List.head?_cons, Option.any_some,
      if_neg (by rw [hnot]; exact Bool.false_ne_true), List.tail_cons, withoutMissing,
      if_neg (by decide), List.head?_cons, Option.any_some, if_pos hok]
    rfl
  obtain ⟨hmissing, -, -, hless⟩ := generateEntries_withoutMissing hrun
  have hthere' : ¬ there.Missing := by
    rw [← hmissing there (by simp), hok]
    exact Bool.noConfusion
  have hlist := hless watchedSlot [.str "src/styles/gone.scss", .str "src/styles/x.scss"] rfl
    ⟨there, by simp, hthere'⟩
  rw [hkept, List.filter_cons, hnot, List.filter_cons, hok] at hlist
  exact ⟨_, there, _, hrun, rfl, rfl, hlist⟩

end FluidScss
