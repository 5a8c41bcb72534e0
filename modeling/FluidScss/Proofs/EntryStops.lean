/-
FluidScss/Proofs/EntryStops.lean

What ends a loop while stylesheets of entries are generated.  An entry that is
a file is read, and the stylesheet that stands where its own goes is read
before it is replaced: either may be no text.  Settings that pass the checks
may still not be built.  `Config.EntryStops` lists these reasons, and a batch
stops at its first entry that has one of them when its turn comes
(`Config.BatchStops`); an entry that is missing is no reason.
-/
import FluidScss.Proofs.Settings
import FluidScss.Proofs.Stopping

namespace FluidScss

open FluidScss.Action
open FluidScss.Workspace

variable {w w' : Workspace} {c : Config} {settings : Autofill} {e : Fault}
variable {p path entry output : Path}

/-! ### Generating an entry -/

/-- Why the generation of an entry stops: the entry is a file, and it or the
stylesheet that stands where its own goes is no text, or settings are amiss. -/
inductive Config.EntryStops (c : Config) (path : Path) (t : FileTree) : Prop
  | sources (isFile : t.isFile path = true) (untold : ¬ c.sourceSetting.IsText)
  | settings (isFile : t.isFile path = true) (unchecked : c.Unchecked)
  | source {settings : Autofill} (isFile : t.isFile path = true)
      (accepted : c.autofill = .ok settings) (garbled : t.Garbled Text.readSource? path)
  | output {settings : Autofill} {output : Path} (isFile : t.isFile path = true)
      (accepted : c.autofill = .ok settings) (named : c.entryOutput path = .ok output)
      (garbled : t.Garbled Text.read? output)

theorem Config.EntryStops.isFile {t : FileTree} (h : c.EntryStops path t) :
    t.isFile path = true := by
  cases h <;> assumption

/-- A file is no text, or it is read. -/
theorem exists_read_of_isFile {decode : ByteArray → Option Text} (h : w.tree.isFile p = true)
    (hg : ¬ w.tree.Garbled decode p) :
    ∃ text, run (do decoded decode (← readBytes p)) w = (.ok text, w) := by
  obtain ⟨hnul, hbytes⟩ := not_or.mp hg
  obtain ⟨place, bytes, hl, hf⟩ := FileTree.isFile_iff.mp h
  have hb := (FileTree.readBytes_eq_ok_iff hl).mpr hf
  rcases hd : decode bytes with - | text
  · exact absurd ⟨bytes, hb, hd⟩ hbytes
  · exact ⟨text, run_decoded_iff.mpr ⟨rfl, by simpa using hnul, bytes, hb, hd⟩⟩

theorem unchecked_iff_isLogged (h : c.autofill = .error e) : c.Unchecked ↔ e.isLogged = false := by
  rw [unchecked_iff h, Fault.isLogged, Bool.or_eq_false_iff]
  refine ⟨fun hkit => ⟨hkit, ?_⟩, And.left⟩
  cases autofill_eq_error_iff.mp h <;> rfl

theorem stops_autofill_iff : Stops (liftM c.autofill : Action Autofill) w ↔ c.Unchecked := by
  rw [stops_lift_iff]
  constructor
  · rintro ⟨e, he, hlogged⟩
    exact (unchecked_iff_isLogged he).mpr hlogged
  · intro h
    obtain ⟨e, he, -⟩ := h.autofill
    exact ⟨e, he, (unchecked_iff_isLogged he).mp h⟩

/-- Reading for a run with one file stops at settings and at the file. -/
theorem stops_gather_file_iff (hf : w.tree.isFile (c.resolve p) = true) :
    Stops (gather c (some [p]) (some output)) w ↔ c.Unchecked ∨
      (∃ settings, c.autofill = .ok settings) ∧
        w.tree.Garbled Text.readSource? (c.resolve p) := by
  rw [gather_eq, stops_bind_iff, stops_autofill_iff]
  refine or_congr_right ?_
  have hscan : ∀ settings : Autofill, Stops (do
        let files ← runFiles c settings (runOutput c settings (some output)) (some [p])
        let overrides ← collectOverrides settings.marker 0 files
        return (⟨settings, runOutput c settings (some output), files, overrides⟩ : GenerateInput)) w
      ↔ w.tree.Garbled Text.readSource? (c.resolve p) := by
    intro settings
    have hfiles : run (runFiles c settings (runOutput c settings (some output)) (some [p])) w
        = (.ok [c.resolve p], w) := run_targetsFiles_file hf _
    have hnone : ∀ start, Lasting (collectOverrides settings.marker start []) := fun _ =>
      failsOnly_pure []
    rw [stops_bind_of_ok hfiles, stops_bind_of_lasting fun _ => failsOnly_pure _,
      collectOverrides, stops_bind_of_lasting fun _ => (hnone _).bind fun _ => failsOnly_pure _,
      scanFile, stops_bind_of_lasting fun _ => failsOnly_pure _]
    exact stops_read_iff
  constructor
  · rintro ⟨settings, w', hs, hstops⟩
    rw [run_lift] at hs
    obtain ⟨hc, rfl⟩ := Prod.mk.inj hs
    exact ⟨⟨settings, hc⟩, (hscan settings).mp hstops⟩
  · rintro ⟨⟨settings, hc⟩, hgarbled⟩
    exact ⟨settings, w, by rw [run_lift, hc], (hscan settings).mpr hgarbled⟩

theorem hasNul_entryOutput (hnamed : c.entryOutput path = .ok output)
    (hpath : path.hasNul = false) : output.name ≠ [] ∧ output.parent.hasNul = output.hasNul := by
  obtain ⟨dir, -, rfl⟩ := entryOutput_eq_ok_iff.mp hnamed
  have hbase : Config.entryBase path ⊆ path.name := by
    by_cases hs : FileTree.IsSourceName path.name
    · rw [entryBase_of_isSourceName hs]
      exact (List.take_prefix _ _).subset
    · rw [entryBase_of_not_isSourceName hs]
      exact (List.take_prefix _ _).subset
  have hnul : '\x00' ∉ entryName path := by
    rw [entryName, List.mem_append, List.mem_append, not_or, not_or]
    exact ⟨⟨by decide, fun h => Path.not_mem_name hpath (hbase h)⟩, by decide⟩
  rw [Path.name_child, Path.parent_child, Path.hasNul_child, decide_eq_false hnul, Bool.or_false]
  refine ⟨fun hempty => ?_, rfl⟩
  have hlength := length_entryName path
  rw [hempty] at hlength
  cases hlength

/-- What a generation does after it has read stops where the stylesheet that is
there is no text. -/
theorem stops_written_iff {targets : Option (List Path)} {i : GenerateInput}
    (hname : i.output.name ≠ []) (hparent : i.output.parent.hasNul = i.output.hasNul) :
    Stops (do
      let plan ← writeSafely i.output i.content generatedStamp
      Action.log .info (runLine c plan i.overrides.length)
      return (⟨i.output, i.files.length, i.overrides.length, plan, singleTarget targets i.files⟩ :
        GenerateReport)) w ↔ w.tree.Garbled Text.read? i.output := by
  rw [stops_bind_of_lasting fun _ => (failsOnly_log _ _).bind fun _ => failsOnly_pure _]
  exact stops_writeSafely_iff hname hparent

theorem Config.resolve_entryOutput (hroot : c.root.isAbsolute = true)
    (h : c.entryOutput path = .ok output) : c.resolve output = output := by
  obtain ⟨dir, hdir, rfl⟩ := entryOutput_eq_ok_iff.mp h
  rw [c.resolve_child, Config.resolve_sourceDir hroot hdir]

/-- A generation for one entry stops at settings, at the entry, and at the
stylesheet that is there. -/
theorem stops_generate_file_iff (hroot : c.root.isAbsolute = true)
    (hf : w.tree.isFile path = true) (hpath : c.resolve path = path)
    (hnamed : c.entryOutput path = .ok output) :
    Stops (generate c (some [path]) (some output)) w ↔ c.Unchecked ∨
      (∃ settings, c.autofill = .ok settings) ∧
        (w.tree.Garbled Text.readSource? path ∨ w.tree.Garbled Text.read? output) := by
  have hfile : w.tree.isFile (c.resolve path) = true := hpath.symm ▸ hf
  have hout := Config.resolve_entryOutput hroot hnamed
  rw [generate, stops_bind_iff, stops_gather_file_iff hfile, hpath]
  constructor
  · rintro ((hu | ⟨hsettings, hg⟩) | ⟨i, w', hi, hw⟩)
    · exact .inl hu
    · exact .inr ⟨hsettings, .inl hg⟩
    · -- what was gathered is told, and the output with it
      obtain ⟨rfl, hc, hoi, -, source, hs, -⟩ := (run_gather_file_iff hfile).mp hi
      rw [hpath] at hs
      rw [hout] at hoi
      obtain ⟨hname, hparent⟩ := hasNul_entryOutput hnamed (hasNul_of_read hs)
      rw [← hoi] at hname hparent ⊢
      exact .inr ⟨⟨_, hc⟩, .inr ((stops_written_iff hname hparent).mp hw)⟩
  · rintro (hu | ⟨⟨settings, hc⟩, hgarbled⟩)
    · exact .inl (.inl hu)
    by_cases hg : w.tree.Garbled Text.readSource? path
    · exact .inl (.inr ⟨⟨_, hc⟩, hg⟩)
    · -- the entry is read, and so the run comes to the stylesheet
      obtain ⟨source, hs⟩ := exists_read_of_isFile hf hg
      obtain ⟨hname, hparent⟩ := hasNul_entryOutput hnamed (hasNul_of_read hs)
      have hi : run (gather c (some [path]) (some output)) w
          = (.ok ⟨settings, output, [path], scanSheet settings.marker source 0⟩, w) := by
        refine (run_gather_file_iff hfile).mpr ⟨rfl, hc, hout.symm, ?_, source, ?_, rfl⟩
        · rw [hpath]
        · rw [hpath]
          exact hs
      exact .inr ⟨_, w, hi,
        (stops_written_iff hname hparent).mpr (hgarbled.resolve_left hg)⟩

/-- **Generating an entry** stops for the reasons listed. -/
theorem stops_generateEntry_iff (hroot : c.root.isAbsolute = true) :
    Stops (generateEntry c entry none) w ↔ c.EntryStops (c.resolve entry) w.tree := by
  have hfile : run (isFile (c.resolve entry)) w = (.ok (w.tree.isFile (c.resolve entry)), w) := rfl
  unfold generateEntry
  cases hf : w.tree.isFile (c.resolve entry) with
  | false =>
    -- a missing entry is a fault of the project
    have htarget : run (entryTarget c entry none) w
        = (.error (.sourceNotFound entry.toText), w) := by
      rw [entryTarget, run_bind_of_ok hfile, hf]
      rfl
    refine iff_of_false (not_stops_of_error (run_bind_of_error htarget) rfl) fun h => ?_
    have hf' := h.isFile
    rw [hf] at hf'
    cases hf'
  | true =>
    have htarget : run (entryTarget c entry none) w = (c.entryOutput (c.resolve entry), w) := by
      rw [entryTarget, run_bind_of_ok hfile, hf]
      exact run_lift _ _
    rcases ho : c.entryOutput (c.resolve entry) with e | output <;> rw [ho] at htarget
    · obtain ⟨huntold, rfl⟩ := (demands_entryOutput _ _).error_iff.mp ho
      exact iff_of_true ⟨_, w, run_bind_of_error htarget, rfl⟩ (.sources hf huntold)
    rw [stops_bind_of_ok htarget,
      stops_generate_file_iff hroot hf (c.resolve_resolve hroot entry) ho]
    constructor
    · rintro (hu | ⟨⟨settings, hc⟩, hg | hg⟩)
      · exact .settings hf hu
      · exact .source hf hc hg
      · exact .output hf hc ho hg
    · intro h
      cases h with
      | sources isFile untold =>
        exact absurd ((demands_entryOutput _ _).succeeds.mp ⟨_, ho⟩) untold
      | settings isFile unchecked => exact .inl unchecked
      | source isFile accepted garbled => exact .inr ⟨⟨_, accepted⟩, .inl garbled⟩
      | output isFile accepted named garbled =>
        obtain rfl := Except.ok.inj (ho.symm.trans named)
        exact .inr ⟨⟨_, accepted⟩, .inr garbled⟩

/-! ### A batch -/

/-- Why a batch stops: the entry whose turn it is does, or it is done with and
the batch stops behind it. -/
inductive Config.BatchStops (c : Config) : List Text → Workspace → Prop
  | here {entry : Text} {entries : List Text} {w : Workspace}
      (stops : c.EntryStops (c.resolve (Path.ofText entry)) w.tree) :
      BatchStops c (entry :: entries) w
  | later {entry : Text} {entries : List Text} {w w' : Workspace} {result : EntryResult}
      (done : run (generateConfigured c entry) w = (.ok result, w'))
      (stops : BatchStops c entries w') : BatchStops c (entry :: entries) w

/-- A missing entry is a result; all else is as for the entry alone. -/
theorem stops_generateConfigured_iff (hroot : c.root.isAbsolute = true) {name : Text} :
    Stops (generateConfigured c name) w ↔
      c.EntryStops (c.resolve (Path.ofText name)) w.tree := by
  rw [← stops_generateEntry_iff hroot]
  have heq := run_generateConfigured_eq c name w
  rcases hr : run (generateEntry c (Path.ofText name) none) w with ⟨fault | r, w'⟩ <;>
    rw [hr] at heq
  · -- the one fault that the batch takes for a result would have been logged
    rw [stops_iff_of_error hr]
    cases fault
    case sourceNotFound => exact iff_of_false (not_stops_of_ok heq) nofun
    all_goals exact stops_iff_of_error heq
  · exact iff_of_false (not_stops_of_ok heq) (not_stops_of_ok hr)

/-- **A batch** stops at its first entry that does. -/
theorem stops_generateEach_iff (hroot : c.root.isAbsolute = true) {entries : List Text} :
    Stops (generateEach c entries) w ↔ c.BatchStops entries w := by
  induction entries generalizing w with
  | nil =>
    have hnone : ¬ Stops (generateEach c []) w := not_stops_of_ok rfl
    exact ⟨fun h => absurd h hnone, nofun⟩
  | cons entry entries ih =>
    rw [generateEach, stops_bind_iff, stops_generateConfigured_iff hroot]
    constructor
    · rintro (h | ⟨result, w', done, h⟩)
      · exact .here h
      · rw [stops_bind_of_lasting fun _ => failsOnly_pure _, ih] at h
        exact .later done h
    · intro h
      cases h with
      | here stops => exact .inl stops
      | later done stops =>
        refine .inr ⟨_, _, done, ?_⟩
        rw [stops_bind_of_lasting fun _ => failsOnly_pure _, ih]
        exact stops

/-- The configured entries stop at settings or as a batch. -/
theorem stops_generateEntries_iff (hroot : c.root.isAbsolute = true) :
    Stops (generateEntries c) w ↔ c.Unchecked ∨
      ∃ settings, c.autofill = .ok settings ∧ c.BatchStops settings.entries w := by
  unfold generateEntries
  rw [stops_bind_iff, stops_autofill_iff]
  refine or_congr_right ?_
  constructor
  · rintro ⟨settings, w', hs, h⟩
    rw [run_lift] at hs
    obtain ⟨hc, rfl⟩ := Prod.mk.inj hs
    refine ⟨settings, hc, ?_⟩
    split at h
    · exact absurd h (not_stops_of_error rfl rfl)
    · exact (stops_generateEach_iff hroot).mp h
  · rintro ⟨settings, hc, h⟩
    refine ⟨settings, w, by rw [run_lift, hc], ?_⟩
    have hne : settings.entries ≠ [] := by
      intro hempty
      rw [hempty] at h
      cases h
    rw [if_neg hne]
    exact (stops_generateEach_iff hroot).mpr h

end FluidScss
