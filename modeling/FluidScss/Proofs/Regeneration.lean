/-
FluidScss/Proofs/Regeneration.lean

Generating twice.  Where the output is there already, one run of a generation
writes at most one file: the output, or the file beside it.  Neither is a
source of the run.  A search passes over whatever has the output's normal
form, the file beside the output has not the name of a source, and an entry
has neither of the two names.  So the second run reads what the first one
read, renders the same, and finds it in place (`regenerate`).

That the second run reports its output as unchanged takes one thing more: the
content must read back as it was written, and it does unless there is a
carriage return in the marker's name.
-/
import FluidScss.Proofs.EntryOutput
import FluidScss.Proofs.OwnOutput
import FluidScss.Proofs.Provenance

namespace FluidScss

open FluidScss.Action

variable {w w' w₁ : Workspace} {c : Config} {r : GenerateReport} {i : GenerateInput}
variable {targets : Option (List Path)} {given : Option Path} {output : Path}
variable {settings : Autofill}

/-! ### What is rendered -/

theorem mem_of_mem_number {start : Int} {drafts : List Draft} {o : Override}
    (h : o ∈ number start drafts) : o.toDraft ∈ drafts := by
  induction drafts generalizing start with
  | nil => cases h
  | cons d ds ih =>
    rcases List.mem_cons.mp h with rfl | hm
    · exact List.mem_cons_self ..
    · exact List.mem_cons_of_mem _ (ih hm)

theorem Marker.unified_of_qualified {m : Marker} (h : '\r' ∉ m.qualified) : m.Unified := by
  have hq : Text.Unified (m.ns ++ "." ++ m.fn) := h
  rw [Text.unified_append, Text.unified_append] at hq
  exact ⟨hq.1.1, hq.2⟩

/-- What a run renders reads back as it was written, if the marker's name
does. -/
theorem unified_content (h : run (gather c targets given) w = (.ok i, w'))
    (hm : i.settings.marker.Unified) : Text.unifyNewlines i.content = i.content := by
  obtain ⟨-, -, -, -, ho⟩ := run_gather_iff.mp h
  obtain ⟨-, -, hover⟩ := run_collectOverrides_iff.mp ho
  refine Text.unifyNewlines_eq_self (unified_renderOverrides hm _ fun o hmem => ?_)
  rw [hover] at hmem
  obtain ⟨p, -, hd⟩ := List.mem_flatMap.mp (mem_of_mem_number hmem)
  rw [draftsIn] at hd
  split at hd
  · rename_i source hs
    have hread : run (readSource p) w = (.ok source, w) := by
      rw [(asks_readSource p).run_eq w, hs]
    obtain ⟨-, -, bytes, -, hdec⟩ := run_readSource_iff.mp hread
    exact unified_sheetDrafts hm (unified_readSource hdec) _ hd
  · cases hd

/-- What a run renders is stamped, and reads back stamped. -/
theorem stamped_content (i : GenerateInput) :
    Text.contains generatedStamp (Text.unifyNewlines i.content) = true :=
  Text.contains_unifyNewlines (by decide) (by decide) (stamp_renderOverrides _ _ _)

/-! ### One file written -/

/-- The file beside an output has not the name of a source. -/
theorem not_isSourceName_beside {t : FileTree} {place : Place}
    (hs : t.slot (besidePath output) = .ok place) :
    ∀ name, place.getLast? = some name → ¬ FileTree.IsSourceName name := by
  intro name hname
  rw [getLast?_beside hs] at hname
  cases hname
  exact not_isSourceName_new output.name

/-- A safe write to an output that is there leaves the tree alone or sets one
file: the output, which was there, or the file beside it. -/
theorem SafelyWritten.tree_eq {content : Text} {plan : WritePlan}
    (h : SafelyWritten output content w plan w') (hf : w.tree.isFile output = true) :
    w'.tree = w.tree ∨
      ∃ place, w.tree.find? place ≠ some .directory ∧
        w'.tree = w.tree.set place (.file (Text.encode content)) ∧
        (w.tree.locate output = .ok place ∧ w.tree.find? place ≠ none ∨
          w.tree.slot (besidePath output) = .ok place) := by
  obtain ⟨place, bytes, hl, hfind⟩ := FileTree.isFile_iff.mp hf
  have hd := FileTree.ne_directory hfind
  have hparent := FileTree.isDirectory_parent hl hd
  cases h with
  | created missing stored =>
    rw [FileTree.has_iff_locate.mpr ⟨place, hl⟩] at missing
    cases missing
  | unchanged there reads stamped => exact .inl rfl
  | overwritten there reads stamped differs stored =>
    obtain ⟨place', hs, hd', rfl⟩ := set_of_run_store stored hparent
    obtain rfl : place = place' := Except.ok.inj ((FileTree.slot_of_locate hl).symm.trans hs)
    exact .inr ⟨place, hd, rfl, .inl ⟨hl, by rw [hfind]; exact nofun⟩⟩
  | conflict there reads foreign hasName stored =>
    rw [← Path.parent_child output.parent (output.name ++ ".new")] at hparent
    obtain ⟨place', hs, hd', rfl⟩ := set_of_run_store stored hparent
    exact .inr ⟨place', hd', rfl, .inr hs⟩

/-- **Running again**: a run whose output is there, and is not one of the files
it reads, can be repeated; the second run counts the same and leaves the
tree as the first one left it.  An output that was stamped is found unchanged,
unless there is a carriage return in the marker's name. -/
theorem run_generate_again (hi : run (gather c targets given) w = (.ok i, w))
    (hf : w.tree.isFile i.output = true)
    (hown : ∀ p ∈ i.files, ∀ place, w.tree.locate i.output = .ok place →
      w.tree.locate p ≠ .ok place)
    (hbeside : ∀ p ∈ i.files, p.name ≠ i.output.name ++ (".new" : Text))
    (h : run (generate c targets given) w = (.ok r, w₁)) :
    ∃ r' w₂, run (generate c targets given) w₁ = (.ok r', w₂) ∧ w₂.tree = w₁.tree ∧
      r'.rules = r.rules ∧ r'.scannedFiles = r.scannedFiles ∧
      ∀ text, '\r' ∉ i.settings.marker.qualified →
        run (readText i.output) w = (.ok text, w) → Text.contains generatedStamp text = true →
        r'.plan.mode = .unchanged := by
  obtain ⟨i', plan, w', hi', hp, hw, rfl⟩ := run_generate_iff.mp h
  obtain rfl : i = i' := by
    rw [hi] at hi'
    exact Except.ok.inj (Prod.mk.inj hi').1
  have ht₁ : w₁.tree = w'.tree := by rw [hw]
  -- the second run reads the same, for the file written is none of those read
  have hread : run (gather c targets given) w₁ = (.ok i, w₁) := by
    rcases hp.tree_eq hf with ht | ⟨place, hd, ht, hplace⟩
    · exact run_gather_of_tree hi (ht₁.trans ht)
    · refine run_gather_of_set hi hd ?_ ?_ (ht₁.trans ht)
      · intro hnone
        rcases hplace with ⟨-, hthere⟩ | hs
        · exact absurd hnone hthere
        · exact not_isSourceName_beside hs
      · intro p hp hlp
        rcases hplace with ⟨hl, -⟩ | hs
        · exact hown p hp place hl hlp
        · have hname := FileTree.getLast?_of_locate hlp hd
          rw [getLast?_beside hs] at hname
          exact hbeside p hp (Option.some.inj hname).symm
  obtain ⟨plan', hp', -, hm⟩ := hp.again (stamped_content i) ht₁
  refine ⟨_, _, run_generate_iff.mpr ⟨i, plan', _, hread, hp', rfl, rfl⟩, rfl, rfl, rfl, ?_⟩
  intro text hmarker hr hs
  exact hm (hp.mode_ne_conflict hr hs) (unified_content hi (Marker.unified_of_qualified hmarker))

/-! ### Generations -/

/-- A file that a run reads is a source with another normal form than the
output, or one of the targets. -/
theorem mem_files (hi : run (gather c targets given) w = (.ok i, w')) {p : Path}
    (hp : p ∈ i.files) :
    (p.normalize ≠ i.output.normalize ∧ FileTree.IsSourceName p.name) ∨
      ∃ target ∈ targets.getD [], p = c.resolve target := by
  obtain ⟨-, -, -, hfiles, -⟩ := run_gather_iff.mp hi
  rcases mem_runFiles hfiles hp with ⟨dir, hbelow, hne⟩ | ⟨target, hm, hp, -⟩
  · obtain ⟨name, hname, hs⟩ := FileTree.name_of_mem_sourcesBelow hbelow
    refine .inl ⟨hne, ?_⟩
    rw [Path.name, hname]
    exact hs
  · exact .inr ⟨target, hm, hp⟩

/-- If no target has the name of the output or of the file beside it, none of
the files that are read is the output, or has the name of the file beside. -/
theorem files_apart (hi : run (gather c targets given) w = (.ok i, w'))
    (hf : w.tree.isFile i.output = true)
    (htargets : ∀ target ∈ targets.getD [], (c.resolve target).name ≠ i.output.name ∧
      (c.resolve target).name ≠ i.output.name ++ (".new" : Text)) {p : Path} (hp : p ∈ i.files) :
    (∀ place, w.tree.locate i.output = .ok place → w.tree.locate p ≠ .ok place) ∧
      p.name ≠ i.output.name ++ (".new" : Text) := by
  rcases mem_files hi hp with ⟨hne, hsource⟩ | ⟨target, hm, rfl⟩
  · refine ⟨fun place hl hlp => hne (FileTree.normalize_eq_of_locate hlp hl), fun hnew => ?_⟩
    rw [hnew] at hsource
    exact not_isSourceName_new _ hsource
  · obtain ⟨hname, hnew⟩ := htargets target hm
    refine ⟨fun place hl hlp => ?_, hnew⟩
    obtain ⟨place', bytes, hl', hfind⟩ := FileTree.isFile_iff.mp hf
    obtain rfl : place' = place := Except.ok.inj (hl'.symm.trans hl)
    exact hname (FileTree.name_eq_of_locate hlp hl (FileTree.ne_directory hfind))

/-- A generation without an output of its own: of all scan directories, or of
one entry. -/
inductive Regeneration
  | all
  | entry (path : Path)

namespace Regeneration

/-- What a generation does. -/
def work (c : Config) : Regeneration → Action GenerateReport
  | all => generateAll c
  | entry path => generateEntry c path none

/-- Where the stylesheet of a generation goes. -/
def stylesheet (c : Config) : Regeneration → Except Fault Path
  | all => c.autofill.map Autofill.output
  | entry path => (c.entryOutput (c.resolve path)).map c.resolve

theorem all_again (hc : c.autofill = .ok settings) (hf : w.tree.isFile settings.output = true)
    (h : run (generateAll c) w = (.ok r, w₁)) :
    ∃ r' w₂, run (generateAll c) w₁ = (.ok r', w₂) ∧ w₂.tree = w₁.tree ∧
      r'.rules = r.rules ∧ r'.scannedFiles = r.scannedFiles ∧
      ∀ text, '\r' ∉ settings.marker.qualified →
        run (readText settings.output) w = (.ok text, w) →
        Text.contains generatedStamp text = true → r'.plan.mode = .unchanged := by
  obtain ⟨i, plan, w', hi, -⟩ := run_generate_iff.mp h
  obtain ⟨-, hs, hout, -⟩ := run_gather_iff.mp hi
  obtain rfl : settings = i.settings := Except.ok.inj (hc.symm.trans hs)
  replace hout : i.output = i.settings.output := hout
  rw [← hout] at hf ⊢
  have hapart := fun p hp => files_apart (p := p) hi hf (fun _ hm => nomatch hm) hp
  exact run_generate_again hi hf (fun p hp => (hapart p hp).1) (fun p hp => (hapart p hp).2) h

theorem entry_again {path output : Path} (ho : c.entryOutput (c.resolve path) = .ok output)
    (hf : w.tree.isFile (c.resolve output) = true)
    (h : run (generateEntry c path none) w = (.ok r, w₁)) :
    ∃ r' w₂, run (generateEntry c path none) w₁ = (.ok r', w₂) ∧ w₂.tree = w₁.tree ∧
      r'.rules = r.rules ∧ r'.scannedFiles = r.scannedFiles ∧
      ∀ settings text, c.autofill = .ok settings → '\r' ∉ settings.marker.qualified →
        run (readText (c.resolve output)) w = (.ok text, w) →
        Text.contains generatedStamp text = true → r'.plan.mode = .unchanged := by
  obtain ⟨hentry, output', ho', h⟩ := run_generateEntry_iff.mp h
  obtain rfl : output = output' := Except.ok.inj (ho.symm.trans ho')
  obtain ⟨i, plan, w', hi, hp, hw, -⟩ := run_generate_iff.mp h
  obtain ⟨-, hs, hout, -⟩ := run_gather_iff.mp hi
  replace hout : i.output = c.resolve output := hout
  -- the entry has neither the name of its stylesheet nor that of the file beside it
  obtain ⟨dir, -, rfl⟩ := entryOutput_eq_ok_iff.mp ho
  have hname : i.output.name = entryName (c.resolve path) := by
    rw [hout, Config.resolve_child, Path.name_child]
  have htargets : ∀ target ∈ [c.resolve path], (c.resolve target).name ≠ i.output.name ∧
      (c.resolve target).name ≠ i.output.name ++ (".new" : Text) := by
    intro target hm
    rw [List.mem_singleton.mp hm, c.name_resolve_resolve, hname]
    exact ⟨name_ne_entryName _, name_ne_entryName_new _⟩
  rw [← hout] at hf ⊢
  have hapart := fun p hp => files_apart (p := p) hi hf htargets hp
  obtain ⟨r', w₂, h', ht, hrules, hscanned, hmode⟩ :=
    run_generate_again hi hf (fun p hp => (hapart p hp).1) (fun p hp => (hapart p hp).2) h
  have hentry' : w₁.tree.isFile (c.resolve path) = true := by
    rw [hw]
    rcases hp.tree_eq hf with hsame | ⟨place, hd, hset, -⟩
    · exact (congrArg (·.isFile (c.resolve path)) hsame).trans hentry
    · rw [hset]
      exact FileTree.isFile_set_file hentry hd _
  refine ⟨r', w₂, run_generateEntry_iff.mpr ⟨hentry', _, ho, h'⟩, ht, hrules, hscanned, ?_⟩
  intro settings text hc
  obtain rfl : settings = i.settings := Except.ok.inj (hc.symm.trans hs)
  exact hmode text

/-- **Generating again**: a generation that succeeds, and whose stylesheet was
there, succeeds again; the tree stays as the first one left it and the counts
are the same.  If the stylesheet was stamped and the marker's name has no
carriage return, it is found unchanged. -/
theorem work_again (g : Regeneration) {output : Path} (hout : g.stylesheet c = .ok output)
    (hf : w.tree.isFile output = true) (h : run (g.work c) w = (.ok r, w₁)) :
    ∃ r' w₂, run (g.work c) w₁ = (.ok r', w₂) ∧ w₂.tree = w₁.tree ∧
      r'.rules = r.rules ∧ r'.scannedFiles = r.scannedFiles ∧
      ∀ settings text, c.autofill = .ok settings → '\r' ∉ settings.marker.qualified →
        run (readText output) w = (.ok text, w) → Text.contains generatedStamp text = true →
        r'.plan.mode = .unchanged := by
  cases g with
  | all =>
    rw [stylesheet] at hout
    rcases hc : c.autofill with e | settings
    · rw [hc] at hout
      cases hout
    · rw [hc] at hout
      cases hout
      obtain ⟨r', w₂, h', ht, hrules, hscanned, hmode⟩ := all_again hc hf h
      refine ⟨r', w₂, h', ht, hrules, hscanned, fun settings' text hc' => ?_⟩
      cases hc'
      exact hmode text
  | entry path =>
    rw [stylesheet] at hout
    rcases ho : c.entryOutput (c.resolve path) with e | given
    · rw [ho] at hout
      cases hout
    · rw [ho] at hout
      cases hout
      exact entry_again ho hf h

/-! ### A style sheet as its own stylesheet -/

/-- The settings of a project whose one style sheet is its output. -/
def smallOutput : Config := ⟨smallRoot, [("autofill", .obj [("output", .str "out.scss")])]⟩

/-- The output, which holds the stamp alone, is replaced in a first run and
found unchanged in a second. -/
theorem work_again_example :
    ∃ r w₁ r' w₂, run (generateAll smallOutput) (smallProject generatedStamp) = (.ok r, w₁) ∧
      r.plan.mode = .overwritten ∧ run (generateAll smallOutput) w₁ = (.ok r', w₂) ∧
      w₂.tree = w₁.tree ∧ r'.plan.mode = .unchanged := by
  have hc : smallOutput.autofill
      = .ok { smallSettings with output := smallRoot.child "out.scss" } := rfl
  have hi : run (gather smallOutput none none) (smallProject generatedStamp)
      = (.ok ⟨{ smallSettings with output := smallRoot.child "out.scss" },
          smallRoot.child "out.scss", [], []⟩, smallProject generatedStamp) := rfl
  have hl : (smallProject generatedStamp).tree.locate (smallRoot.child "out.scss")
      = .ok ["small", "out.scss"] := rfl
  have hread : run (readText (smallRoot.child "out.scss")) (smallProject generatedStamp)
      = (.ok (Text.unifyNewlines generatedStamp), smallProject generatedStamp) :=
    run_readText_of_encoded hl rfl rfl
  have hstamp : Text.contains generatedStamp (Text.unifyNewlines generatedStamp) = true := rfl
  obtain ⟨w₁, hw₁⟩ : ∃ w₁, run (store (smallRoot.child "out.scss")
      (renderOverrides ⟨"r", "resp"⟩ 850 [])) (smallProject generatedStamp) = (.ok (), w₁) :=
    ⟨_, run_store_iff.mpr ⟨_, ["small", "out.scss"], ⟨rfl, rfl, rfl, nofun⟩, rfl⟩⟩
  have hfirst := run_generate_iff.mpr
    ⟨_, _, w₁, hi, .overwritten rfl hread hstamp (by decide) hw₁, rfl, rfl⟩
  obtain ⟨r', w₂, h, ht, -, -, hm⟩ := work_again .all rfl rfl hfirst
  exact ⟨_, _, r', w₂, hfirst, rfl, h, ht, hm _ _ hc (by decide) hread hstamp⟩

end Regeneration

end FluidScss
