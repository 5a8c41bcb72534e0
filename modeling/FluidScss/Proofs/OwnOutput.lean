/-
FluidScss/Proofs/OwnOutput.lean

Runs and their own output.  What a run renders does not depend on the text of
its output, unless the output is one of its targets and the marker can be
found in some text (`output_unread_iff`).  A search through directories never
finds the output: a path that leads there has the output's normal form, and is
passed over.  A target that is a file is not held against the output, so a
run that is given its own output as a target scans what it is about to
replace (`output_read_as_target`).

For the other direction two texts are enough, the empty one and one in which
the marker is found: every file of the run has as many drafts with the one as
with the other, or fewer, and the output has fewer.
-/
import FluidScss.Proofs.Gather
import Mathlib

namespace FluidScss

open FluidScss.Action

variable {w w' w₁ : Workspace} {c : Config} {settings : Autofill} {m : Marker} {p : Path}
variable {targets : Option (List Path)} {output : Option Path} {place : Place}
variable {before text after source : Text} {files : List Path}

/-! ### Texts of sources -/

/-- Nothing is found in the empty text. -/
theorem sheetDrafts_nil (m : Marker) : sheetDrafts m [] = [] := by
  have hparse : parseSheet [] = .ok [] := by cbv
  rw [sheetDrafts, treeDrafts, hparse]
  rfl

/-- A marker that is found in no text. -/
def Marker.Blind (m : Marker) : Prop :=
  ∀ text source, Text.readSource? (Text.encode text) = some source → sheetDrafts m source = []

/-! ### Another text in a file -/

/-- The workspace with another text in the file at a place. -/
def Workspace.withText (w : Workspace) (place : Place) (text : Text) : Workspace :=
  { w with tree := w.tree.set place (.file (Text.encode text)) }

theorem run_readSource_of_text (hf : w.tree.find? place = some (.file (Text.encode text)))
    (hl : w.tree.locate p = .ok place) (hn : p.hasNul = false)
    (hs : Text.readSource? (Text.encode text) = some source) :
    run (readSource p) w = (.ok source, w) :=
  run_readSource_iff.mpr
    ⟨rfl, hn, Text.encode text, (FileTree.readBytes_eq_ok_iff hl).mpr hf, hs⟩

section Replaced

variable (hf : w.tree.find? place = some (.file (Text.encode before)))

include hf

theorem find?_withText (text : Text) :
    (w.withText place text).tree.find? place = some (.file (Text.encode text)) := by
  have hne : place ≠ [] := FileTree.ne_nil_of_find? (FileTree.ne_directory hf)
  exact (FileTree.find?_set w.tree hne _ place).trans (if_pos rfl)

theorem locate_withText (text : Text) (p : Path) :
    (w.withText place text).tree.locate p = w.tree.locate p :=
  FileTree.locate_set_file hf _ p

/-- The first text back in its place is the workspace there was. -/
theorem withText_withText (text : Text) :
    (w.withText place text).withText place before = w := by
  rw [Workspace.withText, Workspace.withText, FileTree.set_set, FileTree.set_eq_self hf]

/-- A path that does not lead to the place is read alike. -/
theorem alike_readSource_withText (hl : w.tree.locate p ≠ .ok place) (text : Text) :
    Alike (readSource p) w (w.withText place text) :=
  alike_readSource (FileTree.readBytes_set_file hf _ hl)

/-- What can be read can be read with another text in the file, and the other
way round. -/
theorem readable_withText (text : Text) (p : Path) :
    (∃ source, run (readSource p) (w.withText place text) = (.ok source, w.withText place text)) ↔
      ∃ source, run (readSource p) w = (.ok source, w) := by
  by_cases hl : w.tree.locate p = .ok place
  · -- both files are text, so only the path can be at fault
    constructor
    · rintro ⟨source, hs⟩
      obtain ⟨-, hn, -⟩ := run_readSource_iff.mp hs
      obtain ⟨source', hs'⟩ := Text.exists_readSource before
      exact ⟨source', run_readSource_of_text hf hl hn hs'⟩
    · rintro ⟨source, hs⟩
      obtain ⟨-, hn, -⟩ := run_readSource_iff.mp hs
      obtain ⟨source', hs'⟩ := Text.exists_readSource text
      exact ⟨source', run_readSource_of_text (find?_withText hf text)
        ((locate_withText hf text p).trans hl) hn hs'⟩
  · have ha := alike_readSource_withText hf hl text
    constructor
    · rintro ⟨source, hs⟩
      exact ⟨source, Alike.run_of_run ha.symm (asks_readSource p) hs⟩
    · rintro ⟨source, hs⟩
      exact ⟨source, ha.run_of_run (asks_readSource p) hs⟩

theorem draftsIn_withText (hl : w.tree.locate p = .ok place) (hn : p.hasNul = false)
    (hs : Text.readSource? (Text.encode text) = some source) :
    draftsIn m (w.withText place text) p = sheetDrafts m source := by
  rw [draftsIn, run_readSource_of_text (find?_withText hf text)
    ((locate_withText hf text p).trans hl) hn hs]

theorem draftsIn_withText_of_ne (hl : w.tree.locate p ≠ .ok place) (text : Text) :
    draftsIn m (w.withText place text) p = draftsIn m w p := by
  have ha := alike_readSource_withText hf hl text
  rw [draftsIn, draftsIn, ← ha]

/-- A run finds the same files, whatever the text in one of them. -/
theorem alike_runFiles_withText (text : Text) (out : Path) :
    Alike (runFiles c settings out targets) w (w.withText place text) := by
  have hd := FileTree.ne_directory hf
  refine alike_runFiles (fun dir => ?_) (fun p => ?_) fun target _ => ?_
  · exact FileTree.sourcesBelow_set_file hd _ (fun hnone => by rw [hf] at hnone; cases hnone) dir
  · exact FileTree.isDirectory_set_file hd _ p
  · exact FileTree.isFile_set_file_eq hf _ _

end Replaced

/-! ### What a run renders -/

/-- What a run makes of its sources: how many rules they have, and the
stylesheet of them. -/
def rendered (c : Config) (targets : Option (List Path)) (output : Option Path)
    (w : Workspace) : Option (Nat × Text) :=
  (run (gather c targets output) w).1.toOption.map fun i => (i.overrides.length, i.content)

/-- What a run reports is what it renders. -/
theorem rendered_of_generate {r : GenerateReport}
    (h : run (generate c targets output) w = (.ok r, w₁)) :
    rendered c targets output w = some (r.rules, r.plan.content) := by
  obtain ⟨i, plan, w', hi, hp, -, rfl⟩ := run_generate_iff.mp h
  rw [rendered, hi, hp.content_eq]
  rfl

theorem rendered_of_gather {i : GenerateInput}
    (h : run (gather c targets output) w = (.ok i, w')) :
    rendered c targets output w = some (i.overrides.length, i.content) := by
  rw [rendered, h]
  rfl

theorem exists_of_rendered (h : rendered c targets output w ≠ none) :
    ∃ i, run (gather c targets output) w = (.ok i, w) := by
  rw [rendered] at h
  rw [(asks_gather c targets output).run_eq w]
  rcases hr : (run (gather c targets output) w).1 with e | i
  · rw [hr] at h
    exact absurd rfl h
  · exact ⟨i, rfl⟩

/-- Whether one of the targets leads to a place. -/
def Names (c : Config) (targets : Option (List Path)) (t : FileTree) (place : Place) : Prop :=
  ∃ target ∈ targets.getD [], t.locate (c.resolve target) = .ok place

/-- A file of a run that leads to the output is one of its targets. -/
theorem names_of_mem_runFiles (hl : w.tree.locate (runOutput c settings output) = .ok place)
    (h : run (runFiles c settings (runOutput c settings output) targets) w = (.ok files, w'))
    (hp : p ∈ files) (hlp : w.tree.locate p = .ok place) : Names c targets w.tree place := by
  rcases mem_runFiles h hp with ⟨dir, -, hne⟩ | ⟨target, hm, rfl, -⟩
  · exact absurd (FileTree.normalize_eq_of_locate hlp hl) hne
  · exact ⟨target, hm, hlp⟩

/-- A target that is a file is among the files of a run. -/
theorem exists_mem_runFiles_of_names (hf : w.tree.find? place = some (.file (Text.encode before)))
    (hn : Names c targets w.tree place) {out : Path}
    (h : run (runFiles c settings out targets) w = (.ok files, w')) :
    ∃ p ∈ files, w.tree.locate p = .ok place := by
  obtain ⟨target, hm, hl⟩ := hn
  cases targets with
  | none => cases hm
  | some targets =>
    have hd : w.tree.isDirectory (c.resolve target) = false := by
      rw [FileTree.isDirectory, FileTree.entryAt_of_locate hl hf]
    exact ⟨c.resolve target, mem_targetsFiles hm hd h, hl⟩

section Output

variable (hc : c.autofill = .ok settings)
variable (hl : w.tree.locate (runOutput c settings output) = .ok place)
variable (hf : w.tree.find? place = some (.file (Text.encode before)))

include hc hl hf

/-- A run whose output is none of its targets, or whose marker is found in no
text, does not depend on the text of its output. -/
theorem alike_gather_withText (h : Names c targets w.tree place → settings.marker.Blind)
    (text : Text) : Alike (gather c targets output) w (w.withText place text) := by
  rw [gather_eq, hc]
  refine alike_bind (within_lift _) (alike_lift _) fun s hs => ?_
  cases hs
  refine alike_bind (asks_runFiles _ _ _ _) (alike_runFiles_withText hf _ _) fun files hfiles => ?_
  refine alike_bind (asks_collectOverrides _ _ _) ?_ fun overrides _ => alike_pure _
  refine alike_collectOverrides fun p hp start => ?_
  by_cases hlp : w.tree.locate p = .ok place
  · -- both texts are scanned, and nothing is found in either
    have hblind := h (names_of_mem_runFiles hl hfiles hp hlp)
    by_cases hn : p.hasNul = true
    · refine alike_bind (asks_readSource p) ?_ fun source _ => alike_pure _
      refine alike_bind (asks_readBytes p) ?_ fun bytes hb => ?_
      · rw [Alike, run_readBytes, run_readBytes, hn, if_pos rfl, if_pos rfl]
      · rw [run_readBytes, hn, if_pos rfl] at hb
        cases hb
    · rw [Bool.not_eq_true] at hn
      obtain ⟨s₁, h₁⟩ := Text.exists_readSource before
      obtain ⟨s₂, h₂⟩ := Text.exists_readSource text
      rw [Alike, scanFile, run_bind_of_ok (run_readSource_of_text hf hlp hn h₁),
        run_bind_of_ok (run_readSource_of_text (find?_withText hf text)
          ((locate_withText hf text p).trans hlp) hn h₂), scanSheet, scanSheet,
        hblind _ _ h₁, hblind _ _ h₂]
      rfl
  · exact alike_bind (asks_readSource p) (alike_readSource_withText hf hlp text)
      fun source _ => alike_pure _

/-- A run that reads its sources reads the same files whatever the text of its
output. -/
theorem run_gather_withText {i : GenerateInput} (text : Text)
    (h : run (gather c targets output) w = (.ok i, w)) :
    ∃ i', run (gather c targets output) (w.withText place text)
        = (.ok i', w.withText place text) ∧
      i'.overrides
        = number 0 (i.files.flatMap (draftsIn settings.marker (w.withText place text))) := by
  obtain ⟨-, hs, hout, hfiles, ho⟩ := run_gather_iff.mp h
  obtain rfl : settings = i.settings := Except.ok.inj (hc.symm.trans hs)
  obtain ⟨-, hread, -⟩ := run_collectOverrides_iff.mp ho
  refine ⟨⟨i.settings, i.output, i.files, number 0 (i.files.flatMap
      (draftsIn i.settings.marker (w.withText place text)))⟩,
    run_gather_iff.mpr ⟨rfl, hs, hout, ?_, ?_⟩, rfl⟩
  · exact (alike_runFiles_withText hf text _).run_of_run (asks_runFiles _ _ _ _) hfiles
  · exact run_collectOverrides_iff.mpr
      ⟨rfl, fun p hp => (readable_withText hf text p).mpr (hread p hp), rfl⟩

/-- A run that fails to read its sources fails whatever the text of its output. -/
theorem rendered_withText_eq_none (text : Text) (h : rendered c targets output w = none) :
    rendered c targets output (w.withText place text) = none := by
  by_contra hne
  obtain ⟨i, hi⟩ := exists_of_rendered hne
  obtain ⟨i', hi', -⟩ := run_gather_withText hc ((locate_withText hf text _).trans hl)
    (find?_withText hf text) before hi
  rw [withText_withText hf] at hi'
  rw [rendered_of_gather hi'] at h
  cases h

end Output

/-- If the output is a target, a text in which the marker is found gives more
rules than the empty one. -/
theorem rules_lt_of_names (hf : w.tree.find? place = some (.file (Text.encode before)))
    (hn : Names c targets w.tree place) {i i₀ i₁ : GenerateInput}
    (hi : run (gather c targets output) w = (.ok i, w))
    (ho₀ : i₀.overrides
      = number 0 (i.files.flatMap (draftsIn settings.marker (w.withText place []))))
    (ho₁ : i₁.overrides
      = number 0 (i.files.flatMap (draftsIn settings.marker (w.withText place text))))
    (hs : Text.readSource? (Text.encode text) = some source)
    (hne : sheetDrafts settings.marker source ≠ []) :
    i₀.overrides.length < i₁.overrides.length := by
  obtain ⟨-, -, -, hfiles, ho⟩ := run_gather_iff.mp hi
  obtain ⟨-, hread, -⟩ := run_collectOverrides_iff.mp ho
  have hsame : ∀ p ∈ i.files, w.tree.locate p = .ok place →
      draftsIn settings.marker (w.withText place []) p = [] ∧
        draftsIn settings.marker (w.withText place text) p
          = sheetDrafts settings.marker source := by
    intro p hp hlp
    obtain ⟨_, hr⟩ := hread p hp
    obtain ⟨-, hnul, -⟩ := run_readSource_iff.mp hr
    exact ⟨(draftsIn_withText hf hlp hnul readSource_nil).trans (sheetDrafts_nil _),
      draftsIn_withText hf hlp hnul hs⟩
  rw [ho₀, ho₁, length_number, length_number, List.length_flatMap, List.length_flatMap]
  refine List.sum_lt_sum _ _ (fun p hp => ?_) ?_
  · by_cases hlp : w.tree.locate p = .ok place
    · rw [(hsame p hp hlp).1]
      exact Nat.zero_le _
    · rw [draftsIn_withText_of_ne hf hlp, draftsIn_withText_of_ne hf hlp]
  · obtain ⟨p, hp, hlp⟩ := exists_mem_runFiles_of_names hf hn hfiles
    refine ⟨p, hp, ?_⟩
    rw [(hsame p hp hlp).1, (hsame p hp hlp).2]
    exact List.length_pos_iff.mpr hne

/-- **The output and what is rendered**: a run reports what it renders, and
what it renders is the same for every text of its output if, and only if, the
output is none of its targets, or its marker is found in no text, or it fails
to read its sources. -/
theorem output_unread_iff (hc : c.autofill = .ok settings)
    (hl : w.tree.locate (runOutput c settings output) = .ok place)
    (hf : w.tree.find? place = some (.file (Text.encode before))) :
    (∀ v r v₁, run (generate c targets output) v = (.ok r, v₁) →
        rendered c targets output v = some (r.rules, r.plan.content)) ∧
      ((∀ after, rendered c targets output (w.withText place after) = rendered c targets output w) ↔
        (Names c targets w.tree place →
          settings.marker.Blind ∨ rendered c targets output w = none)) := by
  refine ⟨fun v r v₁ => rendered_of_generate, fun h hn => ?_, fun h after => ?_⟩
  · by_cases hr : rendered c targets output w = none
    · exact .inr hr
    · left
      intro text source hs
      by_contra hne
      obtain ⟨i, hi⟩ := exists_of_rendered hr
      obtain ⟨i₀, h₀, ho₀⟩ := run_gather_withText hc hl hf [] hi
      obtain ⟨i₁, h₁, ho₁⟩ := run_gather_withText hc hl hf text hi
      have hlt := rules_lt_of_names hf hn hi ho₀ ho₁ hs hne
      have heq := (h []).trans (h text).symm
      rw [rendered_of_gather h₀, rendered_of_gather h₁] at heq
      have hlen := congrArg Prod.fst (Option.some.inj heq)
      exact absurd hlen (Nat.ne_of_lt hlt)
  · by_cases hr : rendered c targets output w = none
    · rw [hr]
      exact rendered_withText_eq_none hc hl hf after hr
    · have hblind : Names c targets w.tree place → settings.marker.Blind := fun hn =>
        (h hn).resolve_right hr
      have ha := alike_gather_withText hc hl hf hblind after
      rw [rendered, rendered, ← ha]

/-! ### An output that is a target -/

/-- The directory of a small project. -/
def smallRoot : Path := ⟨.single, ["small"]⟩

/-- The project: one style sheet and no settings. -/
def smallProject (text : Text) : Workspace where
  tree := ⟨[(["small"], .directory), (["small", "out.scss"], .file (Text.encode text))]⟩

def smallConfig : Config := ⟨smallRoot, []⟩

/-- The style sheet, as a target and as the output. -/
def smallSheet : Path := ⟨.relative, ["out.scss"]⟩

/-- The settings of a project that has none. -/
def smallSettings : Autofill where
  marker := ⟨"r", "resp"⟩
  mobileMax := 850
  scanDirs := [⟨.single, ["small", "src", "styles"]⟩]
  output := ⟨.single, ["small", "src", "styles", "_responsive-autofill.generated.scss"]⟩
  entries := []

theorem autofill_smallConfig : smallConfig.autofill = .ok smallSettings := rfl

theorem output_unread_iff_example :
    smallConfig.autofill = .ok smallSettings ∧
      ∀ after, rendered smallConfig none (some smallSheet)
          ((smallProject []).withText ["small", "out.scss"] after)
        = rendered smallConfig none (some smallSheet) (smallProject []) :=
  ⟨autofill_smallConfig, (output_unread_iff autofill_smallConfig rfl rfl).2.mpr fun hn => by
    obtain ⟨target, hm, -⟩ := hn
    cases hm⟩

/-- A run from the style sheet to itself scans it, and reports what it holds. -/
theorem run_generate_smallProject (hs : Text.readSource? (Text.encode text) = some source)
    (hstamp : Text.contains generatedStamp (Text.unifyNewlines text) = false) :
    ∃ r w₁, run (generate smallConfig (some [smallSheet]) (some smallSheet)) (smallProject text)
        = (.ok r, w₁) ∧
      r.rules = (sheetDrafts smallSettings.marker source).length := by
  have hf : (smallProject text).tree.find? ["small", "out.scss"]
      = some (.file (Text.encode text)) := rfl
  have hl : (smallProject text).tree.locate (smallConfig.resolve smallSheet)
      = .ok ["small", "out.scss"] := rfl
  have hread := run_readSource_of_text hf hl rfl hs
  have hdrafts : draftsIn smallSettings.marker (smallProject text)
      (smallConfig.resolve smallSheet) = sheetDrafts smallSettings.marker source := by
    rw [draftsIn, hread]
  have hi : run (gather smallConfig (some [smallSheet]) (some smallSheet)) (smallProject text)
      = (.ok ⟨smallSettings, smallConfig.resolve smallSheet, [smallConfig.resolve smallSheet],
          number 0 (sheetDrafts smallSettings.marker source ++ [])⟩, smallProject text) := by
    refine run_gather_iff.mpr ⟨rfl, autofill_smallConfig, rfl, rfl,
      run_collectOverrides_iff.mpr ⟨rfl, fun p hp => ?_, ?_⟩⟩
    · rw [List.mem_singleton.mp hp]
      exact ⟨source, hread⟩
    · rw [List.flatMap_cons, hdrafts]
      rfl
  -- the style sheet is not stamped, so what is rendered goes to a file beside it
  have hstored : ∀ content, ∃ w₁, run (store (besidePath (smallConfig.resolve smallSheet)) content)
      (smallProject text) = (.ok (), w₁) := fun content =>
    ⟨_, run_store_iff.mpr ⟨_, ["small", "out.scss.new"], ⟨rfl, rfl, rfl, fun h => by cases h⟩, rfl⟩⟩
  have hname : (smallConfig.resolve smallSheet).name ≠ [] := by decide
  obtain ⟨w₁, hw₁⟩ := hstored _
  refine ⟨_, _, run_generate_iff.mpr ⟨_, _, w₁, hi,
    .conflict rfl (run_readText_of_encoded hl hf rfl) hstamp hname hw₁, rfl, rfl⟩, ?_⟩
  rw [length_number, List.append_nil]

/-- The run counts no rules if the style sheet is empty, and one rule if a
marker call stands in it. -/
theorem output_read_as_target :
    (smallProject []).tree.locate (smallConfig.resolve smallSheet) = .ok ["small", "out.scss"] ∧
      ∃ r w₁ r' w₁',
        run (generate smallConfig (some [smallSheet]) (some smallSheet)) (smallProject [])
          = (.ok r, w₁) ∧
        run (generate smallConfig (some [smallSheet]) (some smallSheet))
          ((smallProject []).withText ["small", "out.scss"] "a\x7bw:r.resp(1,2,h)\x7d")
          = (.ok r', w₁') ∧
        r.rules = 0 ∧ r'.rules = 1 := by
  have hread : Text.readSource? (Text.encode "a\x7bw:r.resp(1,2,h)\x7d")
      = some "a\x7bw:r.resp(1,2,h)\x7d" := by
    rw [Text.readSource?, Text.decode_encode]
    rfl
  have hdrafts : (sheetDrafts smallSettings.marker "a\x7bw:r.resp(1,2,h)\x7d").length = 1 := by
    cbv
  obtain ⟨r, w₁, hr, hrules⟩ := run_generate_smallProject readSource_nil rfl
  obtain ⟨r', w₁', hr', hrules'⟩ := run_generate_smallProject hread rfl
  rw [sheetDrafts_nil] at hrules
  exact ⟨rfl, r, w₁, r', w₁', hr, hr', hrules, hrules'.trans hdrafts⟩

end FluidScss
