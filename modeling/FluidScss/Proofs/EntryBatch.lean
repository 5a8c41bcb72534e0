/-
FluidScss/Proofs/EntryBatch.lean

Stylesheets of many entries.  A batch generates its entries in turn, and the
stylesheet of an entry is named for the entry's name alone, so two entries
with one name in different directories share a file.

`w.Shows path content` says that a file reads as generated content.  A safe
write shows what it reports (`shows_of_safelyWritten`), and one to another
name in the same directory, or a generation that fails, leaves what is shown
(`Shows.of_confined`).  So by induction along the batch each output shows the
content of the last report on it, and an entry's own overrides are there in
the end exactly if that content is its own (`entryText_iff`).
-/
import FluidScss.Proofs.Confined
import Mathlib

namespace FluidScss

open FluidScss.Action

variable {w w' w₁ : Workspace} {c : Config} {path target dir : Path} {content text : Text}
variable {plan : WritePlan} {results : List EntryResult} {r : GenerateReport}

/-! ### What is shown -/

/-- A path leads to a file that reads as generated content. -/
structure Workspace.Shows (w : Workspace) (path : Path) (content : Text) : Prop where
  reads : run (readText path) w = (.ok (Text.unifyNewlines content), w)
  stamped : Text.contains generatedStamp (Text.unifyNewlines content) = true

/-- What is written elsewhere leaves what is shown. -/
theorem Workspace.Shows.of_confined {S : Place → Prop} (h : w.Shows path content)
    (hc : w.Confined S w₁) (hS : ¬ S path.place) : w₁.Shows path content :=
  ⟨hc.reads hS h.reads, h.stamped⟩

theorem Workspace.Shows.of_tree (h : w.Shows path content) (ht : w₁.tree = w.tree) :
    w₁.Shows path content :=
  h.of_confined (S := fun _ => False) (.of_tree ht) id

theorem shows_of_stored {place : Place}
    (hs : Text.contains generatedStamp (Text.unifyNewlines content) = true)
    (h : w.Stored path content w₁ place) : w₁.Shows path content :=
  ⟨run_readText_of_encoded h.leads h.holds h.named, hs⟩

/-- A safe write whose target is not someone else's shows its content there. -/
theorem shows_of_safelyWritten (hp : SafelyWritten target content w plan w₁)
    (hs : Text.contains generatedStamp (Text.unifyNewlines content) = true)
    (hm : plan.mode ≠ .conflict) : w₁.Shows target content := by
  cases hp with
  | created missing stored =>
    obtain ⟨place, hst⟩ := stored_of_run_store stored
    exact shows_of_stored hs hst
  | unchanged there reads stamped =>
    -- what was read has its newlines unified already
    obtain ⟨-, -, bytes, -, hdec⟩ := run_readText_iff.mp reads
    obtain ⟨raw, -, rfl⟩ := Option.map_eq_some_iff.mp hdec
    refine ⟨?_, hs⟩
    rw [Text.unifyNewlines_eq_self (Text.cr_not_mem_unifyNewlines raw)]
    exact reads
  | overwritten there reads stamped differs stored =>
    obtain ⟨place, hst⟩ := stored_of_run_store stored
    exact shows_of_stored hs hst
  | conflict => exact absurd rfl hm

/-! ### One entry of a batch -/

/-- A file that is missing is the entry's result; other faults are the
batch's. -/
theorem run_generateConfigured_eq (c : Config) (entry : Text) (w : Workspace) :
    run (generateConfigured c entry) w
      = match run (generateEntry c (Path.ofText entry) none) w with
        | (.ok r, w') => (.ok ⟨c.relative (c.resolve (Path.ofText entry)), .ok r⟩, w')
        | (.error (.sourceNotFound _), w') => (.ok ⟨entry, .error "file not found"⟩, w')
        | (.error fault, w') => (.error fault, w') := by
  have hattempt : run (attempt (generateEntry c (Path.ofText entry) none)) w
      = (.ok (run (generateEntry c (Path.ofText entry) none) w).1,
        (run (generateEntry c (Path.ofText entry) none) w).2) := rfl
  unfold generateConfigured
  rw [run_bind_of_ok hattempt]
  rcases run (generateEntry c (Path.ofText entry) none) w with ⟨fault | r, w'⟩
  · cases fault <;> rfl
  · rfl

/-- The generation of a configured entry gives its report, or finds no file
and does nothing that counts. -/
theorem run_generateConfigured {entry : Text} {result : EntryResult}
    (h : run (generateConfigured c entry) w = (.ok result, w₁)) :
    (∃ r, result.outcome = .ok r ∧
        run (generateEntry c (Path.ofText entry) none) w = (.ok r, w₁)) ∨
      (∃ reason, result.outcome = .error reason) ∧ w.Spared w₁ := by
  rw [run_generateConfigured_eq] at h
  rcases hr : run (generateEntry c (Path.ofText entry) none) w with ⟨fault | r, w₂⟩ <;>
    rw [hr] at h
  · have hspared := spares_generateEntry c (Path.ofText entry) none w fault w₂ hr
    cases fault with
    | sourceNotFound p =>
      cases h
      exact .inr ⟨⟨_, rfl⟩, hspared⟩
    | _ => cases h
  · cases h
    exact .inl ⟨r, rfl, rfl⟩

/-- An entry that is generated is reported so. -/
theorem run_generateConfigured_of {entry : Text}
    (h : run (generateEntry c (Path.ofText entry) none) w = (.ok r, w')) :
    ∃ result, run (generateConfigured c entry) w = (.ok result, w') ∧ result.outcome = .ok r := by
  rw [run_generateConfigured_eq, h]
  exact ⟨_, rfl, rfl⟩

/-! ### The batch -/

/-- The reports of a batch on one output, in order. -/
def reportsTo (output : Path) (results : List EntryResult) : List GenerateReport :=
  (results.filterMap fun result => result.outcome.toOption).filter fun r => r.output = output

/-- A batch is its first entry, and then the others from where that ends. -/
theorem run_generateEach_cons {entry : Text} {entries : List Text} :
    run (generateEach c (entry :: entries)) w = (.ok results, w') ↔
      ∃ result w₁ rest, run (generateConfigured c entry) w = (.ok result, w₁) ∧
        run (generateEach c entries) w₁ = (.ok rest, w') ∧ results = result :: rest := by
  constructor
  · intro h
    obtain ⟨result, w₁, h1, h⟩ := exists_of_run_bind h
    obtain ⟨rest, w₂, h2, h⟩ := exists_of_run_bind h
    cases h
    exact ⟨result, w₁, rest, h1, h2, rfl⟩
  · rintro ⟨result, w₁, rest, h1, h2, rfl⟩
    rw [generateEach, run_bind_of_ok h1, run_bind_of_ok h2]
    rfl

/-- Each result is that of its entry, in the workspace that the entries before
it leave, and the entries behind it go on from there. -/
theorem exists_turn {entries : List Text} {k : Nat} {result : EntryResult}
    (h : run (generateEach c entries) w = (.ok results, w')) (hk : results[k]? = some result) :
    ∃ entry w₁, entries[k]? = some entry ∧
      run (generateConfigured c entry) (run (generateEach c (entries.take k)) w).2
        = (.ok result, w₁) ∧
      run (generateEach c (entries.drop (k + 1))) w₁ = (.ok (results.drop (k + 1)), w') := by
  induction entries generalizing w results k with
  | nil =>
    cases h
    cases hk
  | cons entry entries ih =>
    obtain ⟨first, w₁, rest, h1, h2, rfl⟩ := run_generateEach_cons.mp h
    cases k with
    | zero =>
      cases hk
      exact ⟨entry, w₁, rfl, h1, h2⟩
    | succ k =>
      obtain ⟨entry', w₂, he, hrun, hrest⟩ := ih h2 hk
      refine ⟨entry', w₂, he, ?_, hrest⟩
      have hturn : (run (generateEach c (entry :: entries.take k)) w).2
          = (run (generateEach c (entries.take k)) w₁).2 := by
        rw [generateEach, run_bind_of_ok h1]
        exact snd_run_bind_pure _ _ _
      rw [List.take_succ_cons, hturn]
      exact hrun

/-- What one entry of a batch does to what is shown in the sources' directory:
a report on it replaces it, everything else leaves it. -/
theorem shows_generateConfigured (hroot : c.root.isAbsolute = true)
    (hdir : c.sourceDir = .ok dir) {name entry : Text} (hname : FileTree.IsSourceName name)
    {result : EntryResult} (hs : w.Shows ((c.resolve dir).child name) content)
    (h : run (generateConfigured c entry) w = (.ok result, w₁)) :
    w₁.Shows ((c.resolve dir).child name)
      (((reportsTo ((c.resolve dir).child name) [result]).getLast?.map (·.plan.content)).getD
        content) := by
  rcases run_generateConfigured h with ⟨r, hr, hrun⟩ | ⟨⟨reason, hr⟩, hspared⟩
  · obtain ⟨settings, source, g⟩ := entryGenerated hroot hrun
    obtain ⟨w', hp, ht⟩ := g.written
    by_cases hsame : r.output = (c.resolve dir).child name
    · have hlast : reportsTo ((c.resolve dir).child name) [result] = [r] := by
        simp [reportsTo, hr, Except.toOption, hsame]
      rw [hlast]
      rw [hsame] at hp
      have hmode := hp.mode_ne_conflict hs.reads hs.stamped
      exact (shows_of_safelyWritten hp g.stamped hmode).of_tree ht
    · have hnone : reportsTo ((c.resolve dir).child name) [result] = [] := by
        simp [reportsTo, hr, Except.toOption, hsame]
      rw [hnone]
      obtain ⟨dir', hdir', hout⟩ := g.named
      obtain rfl : dir = dir' := Except.ok.inj (hdir.symm.trans hdir')
      refine (hs.of_confined hp.confined ?_).of_tree ht
      -- the names in the sources' directory tell the places apart
      rw [hout, besidePath, Path.parent_child, Path.name_child]
      rintro (h | h)
      · exact hsame (hout.trans (congrArg _ (Path.name_of_place_child hname.ne_upwards
          (isOverridesName_entryName _).ne_upwards h).symm))
      · have hnew := Path.name_of_place_child hname.ne_upwards
          (isOverridesName_entryName_new _).ne_upwards h
        rw [hnew] at hname
        exact not_isSourceName_new _ hname
  · have hnone : reportsTo ((c.resolve dir).child name) [result] = [] := by
      simp [reportsTo, hr, Except.toOption]
    rw [hnone]
    exact hs.of_confined (S := fun _ => False) hspared.confined id

theorem reportsTo_cons (output : Path) (result : EntryResult) (rest : List EntryResult) :
    reportsTo output (result :: rest) = reportsTo output [result] ++ reportsTo output rest := by
  rw [reportsTo, reportsTo, reportsTo, ← List.filter_append, ← List.filterMap_append,
    List.singleton_append]

/-- The last report on an output that a result reports on is its own, or stands
behind it. -/
theorem getLast?_reportsTo {k : Nat} {result : EntryResult} (hk : results[k]? = some result)
    (hr : result.outcome = .ok r) :
    (reportsTo r.output results).getLast?
      = some ((reportsTo r.output (results.drop (k + 1))).getLast?.getD r) := by
  have hsplit : results = results.take k ++ result :: results.drop (k + 1) := by
    obtain ⟨hlt, hget⟩ := List.getElem?_eq_some_iff.mp hk
    rw [← hget, List.getElem_cons_drop, List.take_append_drop]
  have hself : reportsTo r.output [result] = [r] := by
    simp [reportsTo, hr, Except.toOption]
  have hreports : reportsTo r.output results = reportsTo r.output (results.take k)
      ++ (r :: reportsTo r.output (results.drop (k + 1))) := by
    conv => lhs; rw [hsplit]
    rw [reportsTo, List.filterMap_append, List.filter_append, ← reportsTo, ← reportsTo,
      reportsTo_cons, hself]
    rfl
  rw [hreports, List.getLast?_append, List.getLast?_cons]
  rfl

/-- What is shown in the sources' directory when a batch begins is replaced by
the last report on it, if there is one. -/
theorem shows_generateEach (hroot : c.root.isAbsolute = true) (hdir : c.sourceDir = .ok dir)
    {name : Text} (hname : FileTree.IsSourceName name) {entries : List Text}
    (hs : w.Shows ((c.resolve dir).child name) content)
    (h : run (generateEach c entries) w = (.ok results, w')) :
    w'.Shows ((c.resolve dir).child name)
      (((reportsTo ((c.resolve dir).child name) results).getLast?.map (·.plan.content)).getD
        content) := by
  induction entries generalizing w content results with
  | nil =>
    cases h
    exact hs
  | cons entry entries ih =>
    obtain ⟨first, w₁, rest, h1, h2, rfl⟩ := run_generateEach_cons.mp h
    have hrest := ih (shows_generateConfigured hroot hdir hname hs h1) h2
    rw [reportsTo_cons, List.getLast?_append]
    rcases hl : (reportsTo ((c.resolve dir).child name) rest).getLast? with - | last
    · rw [hl] at hrest
      exact hrest
    · rw [hl] at hrest
      exact hrest

/-! ### Own overrides -/

/-- The workspace in which an entry of a batch is generated. -/
def turn (c : Config) (entries : List Text) (k : Nat) (w : Workspace) : Workspace :=
  (run (generateEach c (entries.take k)) w).2

/-- The stylesheet of an entry's own overrides, as its file stands. -/
def ownStylesheet (c : Config) (settings : Autofill) (entry : Text) (w : Workspace) :
    Option Text :=
  match (run (readSource (c.resolve (Path.ofText entry))) w).1 with
  | .ok source =>
    some (renderOverrides settings.marker settings.mobileMax (scanSheet settings.marker source 0))
  | .error _ => none

/-- A batch generates the configured entries, if there are any. -/
theorem run_generateEntries_iff : run (generateEntries c) w = (.ok results, w') ↔
    ∃ settings, c.autofill = .ok settings ∧ settings.entries ≠ [] ∧
      run (generateEach c settings.entries) w = (.ok results, w') := by
  unfold generateEntries
  constructor
  · intro h
    obtain ⟨settings, hs, h⟩ := exists_of_asks_bind (within_lift c.autofill) h
    rw [run_lift] at hs
    split at h
    · cases h
    · exact ⟨settings, (Prod.mk.inj hs).1, by assumption, h⟩
  · rintro ⟨settings, hc, hne, h⟩
    rw [run_lift_bind hc, if_neg hne]
    exact h

/-- **An entry's own overrides**: after a batch, a report that was not turned
away names a file that reads as the last report on that file says.  So the
entry's own overrides, as they were when its turn came, are there exactly if
they are those of the last report on the file; and the file is named for the
entry's name alone. -/
theorem entryText_iff (hroot : c.root.isAbsolute = true)
    (h : run (generateEntries c) w = (.ok results, w')) {k : Nat} {result : EntryResult}
    (hk : results[k]? = some result) (hr : result.outcome = .ok r)
    (hm : r.plan.mode ≠ .conflict) :
    ∃ settings entry dir own last,
      c.autofill = .ok settings ∧ settings.entries[k]? = some entry ∧ c.sourceDir = .ok dir ∧
      r.output = (c.resolve dir).child (entryName (c.resolve (Path.ofText entry))) ∧
      ownStylesheet c settings entry (turn c settings.entries k w) = some own ∧
      (reportsTo r.output results).getLast? = some last ∧
      run (readText r.output) w' = (.ok (Text.unifyNewlines last.plan.content), w') ∧
      (run (readText r.output) w' = (.ok (Text.unifyNewlines own), w') ↔
        Text.unifyNewlines last.plan.content = Text.unifyNewlines own) := by
  obtain ⟨settings, hc, -, heach⟩ := run_generateEntries_iff.mp h
  obtain ⟨entry, w₁, he, hturn, hrest⟩ := exists_turn heach hk
  rcases run_generateConfigured hturn with ⟨r', hr', hrun⟩ | ⟨⟨reason, hr'⟩, -⟩
  · obtain rfl : r = r' := Except.ok.inj (hr.symm.trans hr')
    obtain ⟨settings', source, g⟩ := entryGenerated hroot hrun
    obtain rfl : settings = settings' := Except.ok.inj (hc.symm.trans g.accepted)
    obtain ⟨dir, hdir, hout⟩ := g.named
    obtain ⟨w₂, hp, ht⟩ := g.written
    have hown : ownStylesheet c settings entry (turn c settings.entries k w)
        = some r.plan.content := by
      rw [ownStylesheet, turn, g.read, g.rendered]
    -- the report shows its content, and the entries behind it go on from there
    have hshown : w₁.Shows r.output r.plan.content :=
      (shows_of_safelyWritten hp g.stamped hm).of_tree ht
    rw [hout] at hshown
    have hend := shows_generateEach hroot hdir (isSourceName_entryName _) hshown hrest
    rw [← hout] at hend
    have hread : run (readText r.output) w' = (.ok (Text.unifyNewlines
        ((reportsTo r.output (results.drop (k + 1))).getLast?.getD r).plan.content), w') := by
      rcases hl : (reportsTo r.output (results.drop (k + 1))).getLast? with - | last
      · rw [hl] at hend
        exact hend.reads
      · rw [hl] at hend
        exact hend.reads
    refine ⟨settings, entry, dir, r.plan.content,
      (reportsTo r.output (results.drop (k + 1))).getLast?.getD r, hc, he, hdir, hout, hown,
      getLast?_reportsTo hk hr, hread, fun h => ?_, fun h => ?_⟩
    · rw [hread] at h
      exact Except.ok.inj (Prod.mk.inj h).1
    · rw [hread, h]
  · rw [hr] at hr'
    cases hr'

/-! ### Two entries with one name -/

/-- The settings of a project with two entries of one name. -/
def twinConfig : Config where
  root := ⟨.single, ["twins"]⟩
  data := [("autofill",
    .obj [("entries", .arr [.str "src/styles/a/x.scss", .str "src/styles/b/x.scss"])])]

/-- The settings that generations have from them. -/
def twinSettings : Autofill where
  marker := ⟨"r", "resp"⟩
  mobileMax := 850
  scanDirs := [⟨.single, ["twins", "src", "styles"]⟩]
  output := ⟨.single, ["twins", "src", "styles", "_responsive-autofill.generated.scss"]⟩
  entries := ["src/styles/a/x.scss", "src/styles/b/x.scss"]

/-- The project: a call of the marker stands in the first entry, and nothing
in the second. -/
def twinProject : Workspace where
  tree := ⟨[(["twins"], .directory), (["twins", "src"], .directory),
    (["twins", "src", "styles"], .directory), (["twins", "src", "styles", "a"], .directory),
    (["twins", "src", "styles", "b"], .directory),
    (["twins", "src", "styles", "a", "x.scss"], .file (Text.encode "a\x7bw:r.resp(1,2,h)\x7d")),
    (["twins", "src", "styles", "b", "x.scss"], .file (Text.encode []))]⟩

/-- Where the stylesheets of both go. -/
def twinPlace : Place := ["twins", "src", "styles", "_responsive-autofill.x.generated.scss"]

theorem autofill_twinConfig : twinConfig.autofill = .ok twinSettings := rfl

/-- The stylesheet of the first entry. -/
def firstTwinText : Text :=
  renderOverrides ⟨"r", "resp"⟩ 850 (scanSheet ⟨"r", "resp"⟩ "a\x7bw:r.resp(1,2,h)\x7d" 0)

/-- The stylesheet of the second. -/
def secondTwinText : Text :=
  renderOverrides ⟨"r", "resp"⟩ 850 (scanSheet ⟨"r", "resp"⟩ [] 0)

/-- The overrides of the first entry are rendered, and of the second none. -/
theorem clamp_twins :
    Text.contains "clamp_mb" firstTwinText = true ∧
      Text.contains "clamp_mb" secondTwinText = false := by
  have hdrafts : sheetDrafts ⟨"r", "resp"⟩ "a\x7bw:r.resp(1,2,h)\x7d"
      = [⟨"a", "w", "r.clamp_mb(2, r.min_px(2, h, mobile))"⟩] := by cbv
  have hnone : sheetDrafts ⟨"r", "resp"⟩ [] = [] := by cbv
  have hmerged : ∀ d : Draft, mergeRules (number 0 [d])
      = [(d.selector, [(d.property, d.value)])] := by
    intro d
    unfold mergeRules number number
    rw [List.mergeSort_singleton]
    rfl
  have hempty : mergeRules (number 0 []) = [] := by
    unfold mergeRules number
    rw [List.mergeSort_nil]
    rfl
  rw [firstTwinText, secondTwinText, scanSheet, scanSheet, hdrafts, hnone, renderOverrides,
    renderOverrides, hmerged, hempty]
  exact ⟨by decide +kernel, by decide +kernel⟩

/-- The two stylesheets do not read alike. -/
theorem twinTexts_differ :
    Text.unifyNewlines secondTwinText ≠ Text.unifyNewlines firstTwinText := by
  obtain ⟨hfirst, hsecond⟩ := clamp_twins
  intro he
  -- a call is in the first, and none in the second
  have hcall := Text.contains_unifyNewlines (by decide) (by decide) hfirst
  rw [← he] at hcall
  rw [Text.contains_of_contains_unifyNewlines (by decide) hcall] at hsecond
  cases hsecond

/-- The source of the first entry. -/
theorem readSource?_firstTwin : Text.readSource? (Text.encode "a\x7bw:r.resp(1,2,h)\x7d")
    = some "a\x7bw:r.resp(1,2,h)\x7d" := by
  rw [Text.readSource?, Text.decode_encode]
  rfl

/-- The tree once the first entry has been generated. -/
def firstTwinTree : FileTree :=
  twinProject.tree.set twinPlace (.file (Text.encode firstTwinText))

/-- The first turn creates the stylesheet. -/
theorem run_firstTwin :
    ∃ result r log, run (generateConfigured twinConfig "src/styles/a/x.scss") twinProject
        = (.ok result, ⟨firstTwinTree, log⟩) ∧
      result.outcome = .ok r ∧ r.plan.mode = .created ∧ r.output = ⟨.single, twinPlace⟩ := by
  have hp : SafelyWritten ⟨.single, twinPlace⟩ firstTwinText twinProject
      ⟨⟨.single, twinPlace⟩, ⟨.single, twinPlace⟩, firstTwinText, .created⟩
      { twinProject with tree := firstTwinTree } :=
    .created rfl (run_store_iff.mpr ⟨_, twinPlace, ⟨rfl, rfl, rfl, nofun⟩, rfl⟩)
  have hs : run (readSource (twinConfig.resolve (Path.ofText "src/styles/a/x.scss"))) twinProject
      = (.ok "a\x7bw:r.resp(1,2,h)\x7d", twinProject) :=
    run_readSource_iff.mpr ⟨rfl, rfl, _, rfl, readSource?_firstTwin⟩
  obtain ⟨r, log, hentry, hplan, hout⟩ := run_generateEntry_of rfl autofill_twinConfig hs rfl hp
  obtain ⟨result, hrun, hr⟩ := run_generateConfigured_of hentry
  exact ⟨result, r, log, hrun, hr, by rw [hplan], hout⟩

/-- The second turn finds that stylesheet, and overwrites it with its own. -/
theorem run_secondTwin (log : List LogLine) :
    ∃ result r log', run (generateConfigured twinConfig "src/styles/b/x.scss") ⟨firstTwinTree, log⟩
        = (.ok result,
          ⟨firstTwinTree.set twinPlace (.file (Text.encode secondTwinText)), log'⟩) ∧
      result.outcome = .ok r ∧ r.plan.mode = .overwritten := by
  have hl : firstTwinTree.locate ⟨.single, twinPlace⟩ = .ok twinPlace := rfl
  have hread : run (readText ⟨.single, twinPlace⟩) ⟨firstTwinTree, log⟩
      = (.ok (Text.unifyNewlines firstTwinText), _) := run_readText_of_encoded hl rfl rfl
  have hdiffers : Text.unifyNewlines firstTwinText ≠ secondTwinText := by
    intro he
    refine twinTexts_differ ?_
    rw [← he, Text.unifyNewlines_eq_self (Text.cr_not_mem_unifyNewlines _)]
  have hp : SafelyWritten ⟨.single, twinPlace⟩ secondTwinText ⟨firstTwinTree, log⟩
      ⟨⟨.single, twinPlace⟩, ⟨.single, twinPlace⟩, secondTwinText, .overwritten⟩ ⟨_, log⟩ :=
    .overwritten rfl hread
      (Text.contains_unifyNewlines (by decide) (by decide) (stamp_renderOverrides _ _ _)) hdiffers
      (run_store_iff.mpr ⟨_, twinPlace, ⟨rfl, rfl, rfl, nofun⟩, rfl⟩)
  have hs : run (readSource (twinConfig.resolve (Path.ofText "src/styles/b/x.scss")))
      ⟨firstTwinTree, log⟩ = (.ok [], _) :=
    run_readSource_iff.mpr ⟨rfl, rfl, _, rfl, readSource_nil⟩
  obtain ⟨r, log', hentry, hplan, -⟩ := run_generateEntry_of rfl autofill_twinConfig hs rfl hp
  obtain ⟨result, hrun, hr⟩ := run_generateConfigured_of hentry
  exact ⟨result, r, log', hrun, hr, by rw [hplan]⟩

/-- The batch reports on both entries, with one output. -/
theorem run_generateEntries_twins :
    ∃ result₁ result₂ r₁ r₂ w₂, run (generateEntries twinConfig) twinProject
        = (.ok [result₁, result₂], w₂) ∧
      result₁.outcome = .ok r₁ ∧ result₂.outcome = .ok r₂ ∧
      r₁.plan.mode = .created ∧ r₂.plan.mode = .overwritten ∧
      r₁.output = ⟨.single, twinPlace⟩ ∧
      run (readText r₁.output) w₂ = (.ok (Text.unifyNewlines secondTwinText), w₂) ∧
      run (readSource (twinConfig.resolve (Path.ofText "src/styles/a/x.scss"))) w₂
        = (.ok "a\x7bw:r.resp(1,2,h)\x7d", w₂) := by
  obtain ⟨result₁, r₁, log₁, hrun₁, hr₁, hmode₁, hout⟩ := run_firstTwin
  obtain ⟨result₂, r₂, log₂, hrun₂, hr₂, hmode₂⟩ := run_secondTwin log₁
  refine ⟨result₁, result₂, r₁, r₂,
    ⟨firstTwinTree.set twinPlace (.file (Text.encode secondTwinText)), log₂⟩,
    ?_, hr₁, hr₂, hmode₁, hmode₂, hout, ?_, ?_⟩
  · exact run_generateEntries_iff.mpr ⟨twinSettings, autofill_twinConfig, by decide,
      run_generateEach_cons.mpr ⟨result₁, _, [result₂], hrun₁,
        run_generateEach_cons.mpr ⟨result₂, _, [], hrun₂, rfl, rfl⟩, rfl⟩⟩
  · rw [hout]
    exact run_readText_of_encoded rfl rfl rfl
  · exact run_readSource_iff.mpr ⟨rfl, rfl, _, rfl, readSource?_firstTwin⟩

/-- Both entries are reported as written, but the overrides of the first are
gone: the second has replaced its stylesheet. -/
theorem twins_share_output :
    ∃ result₁ result₂ r₁ w₂ own read, run (generateEntries twinConfig) twinProject
        = (.ok [result₁, result₂], w₂) ∧
      result₁.outcome = .ok r₁ ∧ r₁.plan.mode = .created ∧
      ownStylesheet twinConfig twinSettings "src/styles/a/x.scss" w₂ = some own ∧
      run (readText r₁.output) w₂ = (.ok read, w₂) ∧ read ≠ Text.unifyNewlines own := by
  obtain ⟨result₁, result₂, r₁, r₂, w₂, hrun, hr₁, -, hmode, -, -, hread, hs⟩ :=
    run_generateEntries_twins
  have hown : ownStylesheet twinConfig twinSettings "src/styles/a/x.scss" w₂
      = some firstTwinText := by
    rw [ownStylesheet, hs]
    rfl
  exact ⟨result₁, result₂, r₁, w₂, _, _, hrun, hr₁, hmode, hown, hread, twinTexts_differ⟩

/-- The first of the two entries of one name: its stylesheet reads as the
second's, the last report on it. -/
theorem entryText_iff_example :
    ∃ results w' result r, run (generateEntries twinConfig) twinProject = (.ok results, w') ∧
      results[0]? = some result ∧ result.outcome = .ok r ∧ r.plan.mode ≠ .conflict ∧
      ∃ settings entry dir own last,
        twinConfig.autofill = .ok settings ∧ settings.entries[0]? = some entry ∧
        twinConfig.sourceDir = .ok dir ∧
        r.output = (twinConfig.resolve dir).child
          (entryName (twinConfig.resolve (Path.ofText entry))) ∧
        ownStylesheet twinConfig settings entry
          (turn twinConfig settings.entries 0 twinProject) = some own ∧
        (reportsTo r.output results).getLast? = some last ∧
        run (readText r.output) w' = (.ok (Text.unifyNewlines last.plan.content), w') ∧
        (run (readText r.output) w' = (.ok (Text.unifyNewlines own), w') ↔
          Text.unifyNewlines last.plan.content = Text.unifyNewlines own) := by
  obtain ⟨result₁, result₂, r₁, r₂, w₂, hrun, hr₁, -, hmode, -⟩ := run_generateEntries_twins
  have hm : r₁.plan.mode ≠ .conflict := by
    rw [hmode]
    exact nofun
  exact ⟨_, _, _, _, hrun, rfl, hr₁, hm, entryText_iff (k := 0) rfl hrun rfl hr₁ hm⟩

end FluidScss
