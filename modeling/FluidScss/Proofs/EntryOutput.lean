/-
FluidScss/Proofs/EntryOutput.lean

The stylesheet of one entry.  It stands in the directory of the sources and
takes its name from the entry's: stem, base name, ending (`entryName`).  No
entry has the name of its own stylesheet or of the file beside that one
(`name_ne_entryName`, `name_ne_entryName_new`), so an entry is never what its
generation writes.

Generating an entry that is a file is a run with this one file
(`run_generateEntry_iff`, `run_gather_file_iff`): it reads the file, renders
its overrides and writes them safely.
-/
import FluidScss.Proofs.Gather

namespace FluidScss

open FluidScss.Action

variable {w w' w₁ : Workspace} {c : Config} {p q entry output : Path} {r : GenerateReport}

/-! ### Names -/

theorem Path.name_child (p : Path) (name : Text) : (p.child name).name = name := by
  simp [child, Path.name]

theorem Path.parent_child (p : Path) (name : Text) : (p.child name).parent = p := by
  simp [child, parent]

/-- The name of an entry's stylesheet. -/
def entryName (entry : Path) : Text :=
  overridesStem ++ "." ++ Config.entryBase entry ++ overridesEnding

theorem length_entryName (entry : Path) :
    (entryName entry).length = (Config.entryBase entry).length + 36 := by
  have hstem : overridesStem.length = 20 := rfl
  have hdot : (".".toList).length = 1 := rfl
  have hending : overridesEnding.length = 15 := rfl
  rw [entryName, List.length_append, List.length_append, List.length_append, hstem, hdot, hending]
  omega

theorem isSourceName_entryName (entry : Path) : FileTree.IsSourceName (entryName entry) := by
  have hending : sheetEnding <:+ overridesEnding := by decide
  rw [FileTree.IsSourceName, List.isSuffixOf_iff_suffix, entryName]
  exact hending.trans (List.suffix_append _ _)

theorem FileTree.IsSourceName.ne_upwards {name : Text} (h : FileTree.IsSourceName name) :
    name ≠ upwards := by
  rintro rfl
  revert h
  rw [IsSourceName]
  decide

/-- The ending of conflict files is not that of sources. -/
theorem not_isSourceName_new (name : Text) : ¬ FileTree.IsSourceName (name ++ (".new" : Text)) := by
  intro h
  rw [FileTree.IsSourceName, List.isSuffixOf_iff_suffix] at h
  obtain ⟨front, hfront⟩ := h
  have hlast := congrArg List.getLast? hfront
  have hs : sheetEnding.getLast? = some 's' := rfl
  have hw : (".new" : Text).getLast? = some 'w' := rfl
  rw [List.getLast?_append, List.getLast?_append, hs, hw] at hlast
  cases hlast

theorem entryBase_of_isSourceName (h : FileTree.IsSourceName p.name) :
    Config.entryBase p = p.name.take (p.name.length - 5) := by
  have hdrop : Text.dropSuffix? sheetEnding p.name = some (p.name.take (p.name.length - 5)) :=
    if_pos h
  rw [Config.entryBase, hdrop]

theorem entryBase_of_not_isSourceName (h : ¬ FileTree.IsSourceName p.name) :
    Config.entryBase p = p.stem := by
  have hdrop : Text.dropSuffix? sheetEnding p.name = none := if_neg h
  rw [Config.entryBase, hdrop]

/-- The stem of a conflict file is the name of the file it stands beside. -/
theorem stem_of_name_new {name : Text} (hne : name ≠ []) (h : p.name = name ++ (".new" : Text)) :
    p.stem = name := by
  have hrev : (name ++ (".new" : Text)).reverse = ("wen" : Text) ++ '.' :: name.reverse := by
    rw [List.reverse_append]
    rfl
  have hlength : Path.stemLength (name ++ (".new" : Text)) = name.length := by
    rw [Path.stemLength, hrev, Text.breakOn_append_cons (by decide)]
    simp [hne]
  rw [Path.stem, h, hlength, List.take_left]

/-- An entry has not the name of its stylesheet, which is longer. -/
theorem name_ne_entryName (p : Path) : p.name ≠ entryName p := by
  intro h
  have hs : FileTree.IsSourceName p.name := h ▸ isSourceName_entryName p
  have hlength := congrArg List.length h
  rw [length_entryName, entryBase_of_isSourceName hs, List.length_take] at hlength
  omega

/-- An entry has not the name of the file beside its stylesheet either. -/
theorem name_ne_entryName_new (p : Path) : p.name ≠ entryName p ++ (".new" : Text) := by
  intro h
  have hs : ¬ FileTree.IsSourceName p.name := h ▸ not_isSourceName_new _
  have hne : entryName p ≠ [] := by
    intro he
    have := length_entryName p
    rw [he] at this
    simp at this
  have hbase : Config.entryBase p = entryName p :=
    (entryBase_of_not_isSourceName hs).trans (stem_of_name_new hne h)
  have := congrArg List.length hbase
  rw [length_entryName] at this
  omega

/-! ### Paths -/

theorem Config.resolve_child (c : Config) (p : Path) (name : Text) :
    c.resolve (p.child name) = (c.resolve p).child name := by
  rw [resolve, resolve, Path.join, Path.join]
  have habs : (p.child name).isAbsolute = p.isAbsolute := rfl
  rw [habs]
  split
  · rfl
  · rw [Path.child, Path.child, List.append_assoc]

theorem Config.isAbsolute_resolve (h : c.root.isAbsolute = true) (p : Path) :
    (c.resolve p).isAbsolute = true := by
  rw [resolve, Path.join]
  split
  · assumption
  · exact h

theorem Config.resolve_of_isAbsolute (h : p.isAbsolute = true) : c.resolve p = p := by
  rw [resolve, Path.join, if_pos h]

/-- From an absolute root a path is resolved once and for all. -/
theorem Config.resolve_resolve (h : c.root.isAbsolute = true) (p : Path) :
    c.resolve (c.resolve p) = c.resolve p :=
  resolve_of_isAbsolute (c.isAbsolute_resolve h p)

theorem Config.name_resolve_resolve (c : Config) (p : Path) :
    (c.resolve (c.resolve p)).name = (c.resolve p).name := by
  rcases hr : c.root.isAbsolute with - | -
  · -- a relative root is put in front twice
    rw [resolve, Path.join]
    split
    · rfl
    · rename_i hrel
      have hp : p.isAbsolute = false := by
        rcases hp : p.isAbsolute with - | -
        · rfl
        · rw [resolve, Path.join, if_pos hp] at hrel
          exact absurd hp hrel
      rw [resolve, Path.join, hp, if_neg Bool.false_ne_true, Path.name, Path.name]
      dsimp only
      rcases hparts : c.root.parts ++ p.parts with - | ⟨first, rest⟩
      · rw [(List.append_eq_nil_iff.mp hparts).1, List.append_nil]
      · rw [List.getLast?_append, List.getLast?_cons]
        rfl
  · rw [resolve_resolve hr]

/-! ### Where the stylesheet goes -/

theorem entryOutput_eq_ok_iff : c.entryOutput entry = .ok output ↔
    ∃ dir, c.sourceDir = .ok dir ∧ output = dir.child (entryName entry) := by
  rw [Config.entryOutput]
  rcases c.sourceDir with e | dir
  · simp [Except.map]
  · simp [Except.map, entryName, eq_comm]

theorem run_entryTarget_iff {given : Option Path} :
    run (entryTarget c entry given) w = (.ok output, w') ↔
      w' = w ∧ w.tree.isFile (c.resolve entry) = true ∧
        given.elim (c.entryOutput (c.resolve entry)) .ok = .ok output := by
  have hfile : run (isFile (c.resolve entry)) w
      = (.ok (w.tree.isFile (c.resolve entry)), w) := rfl
  unfold entryTarget
  rw [run_bind_of_ok hfile]
  rcases w.tree.isFile (c.resolve entry) with - | -
  · constructor
    · intro h
      cases h
    · rintro ⟨-, h, -⟩
      cases h
  · cases given with
    | some given =>
      constructor
      · intro h
        cases h
        exact ⟨rfl, rfl, rfl⟩
      · rintro ⟨rfl, -, h⟩
        cases h
        rfl
    | none =>
      show run (liftM (c.entryOutput (c.resolve entry)) : Action Path) w = (.ok output, w') ↔ _
      rw [run_lift]
      constructor
      · intro h
        obtain ⟨ho, rfl⟩ := Prod.mk.inj h
        exact ⟨rfl, rfl, ho⟩
      · rintro ⟨rfl, -, ho⟩
        exact congrArg (·, w') ho

/-- Generating an entry is a run with the entry as its target, if it is a
file. -/
theorem run_generateEntry_iff {given : Option Path} :
    run (generateEntry c entry given) w = (.ok r, w₁) ↔
      w.tree.isFile (c.resolve entry) = true ∧
        ∃ output, given.elim (c.entryOutput (c.resolve entry)) .ok = .ok output ∧
          run (generate c (some [c.resolve entry]) (some output)) w = (.ok r, w₁) := by
  unfold generateEntry
  constructor
  · intro h
    obtain ⟨output, h1, h2⟩ := exists_of_asks_bind (asks_entryTarget c entry given) h
    obtain ⟨-, hf, ho⟩ := run_entryTarget_iff.mp h1
    exact ⟨hf, output, ho, h2⟩
  · rintro ⟨hf, output, ho, h⟩
    rw [run_bind_of_ok (run_entryTarget_iff.mpr ⟨rfl, hf, ho⟩)]
    exact h

/-! ### Runs with one file -/

theorem run_targetsFiles_file (hf : w.tree.isFile (c.resolve p) = true) (output : Path) :
    run (targetsFiles c output [p]) w = (.ok [c.resolve p], w) := by
  have hd := FileTree.isDirectory_of_isFile hf
  have hdir : run (isDirectory (c.resolve p)) w = (.ok false, w) := by
    rw [← hd]
    rfl
  have hfile : run (isFile (c.resolve p)) w = (.ok true, w) := by
    rw [← hf]
    rfl
  have htarget : run (targetFiles c output p) w = (.ok [c.resolve p], w) := by
    rw [targetFiles, run_bind_of_ok hdir, if_neg Bool.false_ne_true, run_bind_of_ok hfile]
    rfl
  rw [targetsFiles, run_bind_of_ok htarget]
  rfl

/-- A run with one target that is a file reads this file. -/
theorem run_gather_file_iff (hf : w.tree.isFile (c.resolve p) = true) {i : GenerateInput} :
    run (gather c (some [p]) (some output)) w = (.ok i, w') ↔
      w' = w ∧ c.autofill = .ok i.settings ∧ i.output = c.resolve output ∧
        i.files = [c.resolve p] ∧
        ∃ source, run (readSource (c.resolve p)) w = (.ok source, w) ∧
          i.overrides = scanSheet i.settings.marker source 0 := by
  rw [run_gather_iff]
  have hfiles : run (runFiles c i.settings i.output (some [p])) w = (.ok [c.resolve p], w) :=
    run_targetsFiles_file hf i.output
  rw [hfiles, run_collectOverrides_iff]
  constructor
  · rintro ⟨rfl, hc, ho, hi, -, hread, hover⟩
    have hi' : i.files = [c.resolve p] := (Except.ok.inj (Prod.mk.inj hi).1).symm
    rw [hi'] at hread hover
    obtain ⟨source, hs⟩ := hread _ (List.mem_singleton_self _)
    refine ⟨rfl, hc, ho, hi', source, hs, ?_⟩
    rw [hover, List.flatMap_cons, draftsIn, hs]
    simp [scanSheet]
  · rintro ⟨rfl, hc, ho, hi, source, hs, hover⟩
    refine ⟨rfl, hc, ho, by rw [hi], rfl, ?_, ?_⟩
    · intro q hq
      rw [hi, List.mem_singleton] at hq
      exact ⟨source, hq ▸ hs⟩
    · rw [hover, hi, List.flatMap_cons, draftsIn, hs]
      simp [scanSheet]

/-! ### What a generation has done -/

/-- What the generation of one entry that succeeds has done: it has read the
entry, and written the stylesheet rendered from it safely. -/
structure EntryGenerated (c : Config) (entry : Path) (w : Workspace) (r : GenerateReport)
    (w₁ : Workspace) (settings : Autofill) (source : Text) : Prop where
  accepted : c.autofill = .ok settings
  read : run (readSource (c.resolve entry)) w = (.ok source, w)
  rendered : r.plan.content
    = renderOverrides settings.marker settings.mobileMax (scanSheet settings.marker source 0)
  named : ∃ dir, c.sourceDir = .ok dir ∧
    r.output = (c.resolve dir).child (entryName (c.resolve entry))
  written : ∃ w', SafelyWritten r.output r.plan.content w r.plan w' ∧ w₁.tree = w'.tree

theorem EntryGenerated.stamped {settings : Autofill} {source : Text}
    (g : EntryGenerated c entry w r w₁ settings source) :
    Text.contains generatedStamp (Text.unifyNewlines r.plan.content) = true := by
  rw [g.rendered]
  exact Text.contains_unifyNewlines (by decide) (by decide) (stamp_renderOverrides _ _ _)

theorem entryGenerated (hroot : c.root.isAbsolute = true)
    (h : run (generateEntry c entry none) w = (.ok r, w₁)) :
    ∃ settings source, EntryGenerated c entry w r w₁ settings source := by
  obtain ⟨hfile, output, ho, h⟩ := run_generateEntry_iff.mp h
  obtain ⟨dir, hdir, rfl⟩ := entryOutput_eq_ok_iff.mp ho
  obtain ⟨i, plan, w', hi, hp, hw, rfl⟩ := run_generate_iff.mp h
  rw [← c.resolve_resolve hroot] at hfile
  obtain ⟨-, hc, hout, -, source, hs, hover⟩ := (run_gather_file_iff hfile).mp hi
  rw [c.resolve_resolve hroot] at hs
  have hcontent : plan.content = i.content := hp.content_eq
  refine ⟨i.settings, source, hc, hs, ?_, ⟨dir, hdir, ?_⟩, w', ?_, by rw [hw]⟩
  · rw [hcontent, GenerateInput.content, hover]
  · rw [hout, c.resolve_child]
  · rw [hcontent]
    exact hp

/-- Conversely, an entry that is read and whose stylesheet is written safely is
generated. -/
theorem run_generateEntry_of (hroot : c.root.isAbsolute = true) {settings : Autofill}
    {source : Text} {dir : Path} {plan : WritePlan} (hc : c.autofill = .ok settings)
    (hs : run (readSource (c.resolve entry)) w = (.ok source, w)) (hdir : c.sourceDir = .ok dir)
    (hp : SafelyWritten ((c.resolve dir).child (entryName (c.resolve entry)))
      (renderOverrides settings.marker settings.mobileMax (scanSheet settings.marker source 0))
      w plan w') :
    ∃ r log, run (generateEntry c entry none) w = (.ok r, ⟨w'.tree, log⟩) ∧ r.plan = plan ∧
      r.output = (c.resolve dir).child (entryName (c.resolve entry)) := by
  obtain ⟨-, -, bytes, hb, -⟩ := run_readSource_iff.mp hs
  obtain ⟨place, hl, hf⟩ := FileTree.locate_of_readBytes hb
  have hfile : w.tree.isFile (c.resolve entry) = true := FileTree.isFile_of_locate hl hf
  have hfile' : w.tree.isFile (c.resolve (c.resolve entry)) = true := by
    rw [c.resolve_resolve hroot]
    exact hfile
  rw [← c.resolve_child] at hp ⊢
  have hi : run (gather c (some [c.resolve entry])
        (some (dir.child (entryName (c.resolve entry))))) w
      = (.ok ⟨settings, c.resolve (dir.child (entryName (c.resolve entry))),
          [c.resolve (c.resolve entry)], scanSheet settings.marker source 0⟩, w) := by
    refine (run_gather_file_iff hfile').mpr ⟨rfl, hc, rfl, rfl, source, ?_, rfl⟩
    rw [c.resolve_resolve hroot]
    exact hs
  exact ⟨_, _, run_generateEntry_iff.mpr ⟨hfile, _, entryOutput_eq_ok_iff.mpr ⟨dir, hdir, rfl⟩,
    run_generate_iff.mpr ⟨_, plan, w', hi, hp, rfl, rfl⟩⟩, rfl, rfl⟩

end FluidScss
