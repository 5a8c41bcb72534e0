/-
FluidScss/Proofs/Gather.lean

What a run reads.  `gather` only asks, so its answer is all there is to it,
and `Alike a w w'` says that work answers alike in two workspaces, by the same
result or the same fault.  This is closed under everything asking work is put
together from (`alike_bind`): it is enough that the questions asked on the
way in the first workspace are answered alike.

A run asks for the directories of its search, for its targets and for the
text of every file it finds (`alike_gather`).  What it finds lies below a
directory and is not spelled like the output, or is a target that is a file
(`mem_runFiles`); the files' drafts, one after the other and numbered, are its
overrides (`run_collectOverrides_iff`).
-/
import FluidScss.Proofs.SafeWrite

namespace FluidScss

variable {α β : Type} {w w' w₁ : Workspace} {c : Config} {m : Marker}
variable {output target : Path} {targets : Option (List Path)} {files : List Path}

namespace Action

/-! ### Answering alike -/

/-- Work has one answer in two workspaces. -/
def Alike (a : Action α) (w w' : Workspace) : Prop := (run a w).1 = (run a w').1

theorem Asks.run_eq {a : Action α} (ha : Asks a) (w : Workspace) :
    run a w = ((run a w).1, w) :=
  Prod.ext rfl (ha w).symm

/-- The answer of work that asks is its run in the other workspace. -/
theorem Alike.run_of_run {a : Action α} (h : Alike a w w') (ha : Asks a) {r : Except Fault α}
    (hr : run a w = (r, w₁)) : run a w' = (r, w') := by
  rw [ha.run_eq w', ← h, hr]

theorem alike_pure (x : α) : Alike (pure x) w w' := rfl

theorem alike_lift (e : Except Fault α) : Alike (liftM e : Action α) w w' := by
  rw [Alike, run_lift, run_lift]

/-- Work in two parts answers alike if its first part does, and what follows
does on the answer of the first. -/
theorem alike_bind {a : Action α} {f : α → Action β} (ha : Asks a) (h : Alike a w w')
    (hf : ∀ x, run a w = (.ok x, w) → Alike (f x) w w') : Alike (a >>= f) w w' := by
  rcases hr : run a w with ⟨e | x, w₁⟩
  · rw [Alike, run_bind_of_error hr, run_bind_of_error (h.run_of_run ha hr)]
  · obtain rfl := ha.eq hr
    rw [Alike, run_bind_of_ok hr, run_bind_of_ok (h.run_of_run ha hr)]
    exact hf x hr

theorem alike_isDirectory {p : Path} (h : w'.tree.isDirectory p = w.tree.isDirectory p) :
    Alike (isDirectory p) w w' :=
  congrArg Except.ok h.symm

theorem alike_isFile {p : Path} (h : w'.tree.isFile p = w.tree.isFile p) :
    Alike (isFile p) w w' :=
  congrArg Except.ok h.symm

/-- Files with the same bytes are read alike. -/
theorem alike_readSource {p : Path} (h : w'.tree.readBytes p = w.tree.readBytes p) :
    Alike (readSource p) w w' := by
  refine alike_bind (asks_readBytes p) ?_ fun bytes _ => ?_
  · rw [Alike, run_readBytes, run_readBytes, h]
  · rw [decoded]
    split
    · exact alike_pure _
    · rfl

/-- The text of a source that can be read. -/
theorem run_readSource_iff {p : Path} {source : Text} :
    run (readSource p) w = (.ok source, w') ↔
      w' = w ∧ p.hasNul = false ∧
        ∃ bytes, w.tree.readBytes p = .ok bytes ∧ Text.readSource? bytes = some source :=
  run_decoded_iff

end Action

open FluidScss.Action

/-- A file written as text can be read as a source. -/
theorem Text.exists_readSource (text : Text) :
    ∃ source, Text.readSource? (Text.encode text) = some source := by
  rw [Text.readSource?, Text.decode_encode]
  split
  · exact ⟨_, rfl⟩
  · exact ⟨_, rfl⟩

theorem readSource_nil : Text.readSource? (Text.encode []) = some [] := by
  rw [Text.readSource?, Text.decode_encode]
  split <;> rfl

/-! ### The files of a run -/

/-- Where a run's stylesheet goes. -/
def runOutput (c : Config) (settings : Autofill) : Option Path → Path
  | some output => c.resolve output
  | none => settings.output

/-- The files of a run. -/
def runFiles (c : Config) (settings : Autofill) (output : Path) :
    Option (List Path) → Action (List Path)
  | none => discover settings.scanDirs [output]
  | some targets => targetsFiles c output targets

theorem asks_runFiles (c : Config) (settings : Autofill) (output : Path)
    (targets : Option (List Path)) : Asks (runFiles c settings output targets) := by
  cases targets with
  | none => exact asks_discover _ _
  | some targets => exact asks_targetsFiles _ _ _

theorem gather_eq (c : Config) (targets : Option (List Path)) (output : Option Path) :
    gather c targets output = (do
      let settings ← c.autofill
      let files ← runFiles c settings (runOutput c settings output) targets
      let overrides ← collectOverrides settings.marker 0 files
      return ⟨settings, runOutput c settings output, files, overrides⟩) := by
  cases targets <;> cases output <;> rfl

/-- A search that succeeds finds the sources that are not excluded. -/
theorem run_discover {dirs : List Path} (h : run (discover dirs [output]) w = (.ok files, w')) :
    files = discoverIn w.tree dirs [output.normalize] := by
  obtain ⟨excluded, he, hf⟩ := exists_of_asks_bind (asks_mapM_normalize _) h
  have hexcluded : excluded = [output.normalize] := by
    rw [List.mapM_cons, List.mapM_nil] at he
    obtain ⟨n, hn, he⟩ := exists_of_asks_bind (asks_normalize output) he
    cases he
    rw [Action.normalize, Path.normalize?] at hn
    by_cases hnul : output.hasNul = true
    · rw [hnul] at hn
      cases hn
    · rw [if_neg hnul] at hn
      cases hn
      rfl
  cases hf
  rw [hexcluded]

/-- A file that a run finds in a directory is a source below it, and is not
spelled like the output. -/
theorem mem_discoverIn {t : FileTree} {dirs : List Path} {p : Path}
    (h : p ∈ discoverIn t dirs [output.normalize]) :
    ∃ dir ∈ dirs, p ∈ sourcesBelow t dir ∧ p.normalize ≠ output.normalize := by
  rw [discoverIn, List.mem_flatMap] at h
  obtain ⟨dir, hdir, hp⟩ := h
  rw [List.mem_filter] at hp
  exact ⟨dir, hdir, hp.1, by simpa using hp.2⟩

/-- The files of a target that a run accepts: those found below it, or the
target itself. -/
theorem run_targetFiles (h : run (targetFiles c output target) w = (.ok files, w')) :
    files = discoverIn w.tree [c.resolve target] [output.normalize] ∨
      w.tree.isDirectory (c.resolve target) = false ∧
        w.tree.isFile (c.resolve target) = true ∧ files = [c.resolve target] := by
  have hdir : run (isDirectory (c.resolve target)) w
      = (.ok (w.tree.isDirectory (c.resolve target)), w) := rfl
  have hfile : run (isFile (c.resolve target)) w
      = (.ok (w.tree.isFile (c.resolve target)), w) := rfl
  rw [targetFiles, run_bind_of_ok hdir] at h
  rcases hd : w.tree.isDirectory (c.resolve target) with - | -
  · rw [hd, if_neg Bool.false_ne_true, run_bind_of_ok hfile] at h
    rcases hf : w.tree.isFile (c.resolve target) with - | -
    · rw [hf] at h
      cases h
    · rw [hf] at h
      cases h
      exact .inr ⟨rfl, rfl, rfl⟩
  · rw [hd, if_pos rfl] at h
    exact .inl (run_discover h)

/-- **What a run finds** lies below a directory and is not spelled like the
output, or is a target that is a file. -/
theorem mem_runFiles {settings : Autofill} {p : Path}
    (h : run (runFiles c settings output targets) w = (.ok files, w')) (hp : p ∈ files) :
    (∃ dir, p ∈ sourcesBelow w.tree dir ∧ p.normalize ≠ output.normalize) ∨
      ∃ target ∈ targets.getD [], p = c.resolve target ∧
        w.tree.isDirectory p = false ∧ w.tree.isFile p = true := by
  have hfound : ∀ dirs, p ∈ discoverIn w.tree dirs [output.normalize] →
      ∃ dir, p ∈ sourcesBelow w.tree dir ∧ p.normalize ≠ output.normalize := fun dirs hm =>
    let ⟨dir, _, hbelow⟩ := mem_discoverIn hm
    ⟨dir, hbelow⟩
  cases targets with
  | none =>
    rw [run_discover h] at hp
    exact .inl (hfound _ hp)
  | some targets =>
    replace h : run (targetsFiles c output targets) w = (.ok files, w') := h
    induction targets generalizing files with
    | nil =>
      cases h
      cases hp
    | cons target targets ih =>
      obtain ⟨first, h1, h⟩ := exists_of_asks_bind (asks_targetFiles c output target) h
      obtain ⟨rest, h2, h⟩ := exists_of_asks_bind (asks_targetsFiles c output targets) h
      cases h
      rcases List.mem_append.mp hp with hp | hp
      · rcases run_targetFiles h1 with rfl | ⟨hd, hf, rfl⟩
        · exact .inl (hfound _ hp)
        · rw [List.mem_singleton] at hp
          subst hp
          exact .inr ⟨target, List.mem_cons_self .., rfl, hd, hf⟩
      · rcases ih hp h2 with hbelow | ⟨target', hm, hrest⟩
        · exact .inl hbelow
        · exact .inr ⟨target', List.mem_cons_of_mem _ hm, hrest⟩

/-- The targets of a run that succeeds are there. -/
theorem exists_of_run_targetsFiles {ts : List Path}
    (h : run (targetsFiles c output ts) w = (.ok files, w')) (hm : target ∈ ts) :
    w.tree.isDirectory (c.resolve target) = true ∨ w.tree.isFile (c.resolve target) = true := by
  induction ts generalizing files with
  | nil => cases hm
  | cons first ts ih =>
    obtain ⟨found, h1, h⟩ := exists_of_asks_bind (asks_targetFiles c output first) h
    obtain ⟨rest, h2, h⟩ := exists_of_asks_bind (asks_targetsFiles c output ts) h
    cases h
    rcases List.mem_cons.mp hm with rfl | hm
    · rw [targetFiles] at h1
      obtain ⟨dir, hdir, h1⟩ := exists_of_asks_bind (asks_isDirectory _) h1
      cases hdir
      rcases hd : w.tree.isDirectory (c.resolve target) with - | -
      · rw [hd, if_neg Bool.false_ne_true] at h1
        obtain ⟨file, hfile, h1⟩ := exists_of_asks_bind (asks_isFile _) h1
        cases hfile
        rcases hf : w.tree.isFile (c.resolve target) with - | -
        · rw [hf] at h1
          cases h1
        · exact .inr rfl
      · exact .inl rfl
    · exact ih h2 hm

theorem mem_targetsFiles {ts : List Path} (hm : target ∈ ts)
    (hd : w.tree.isDirectory (c.resolve target) = false)
    (h : run (targetsFiles c output ts) w = (.ok files, w')) : c.resolve target ∈ files := by
  induction ts generalizing files with
  | nil => cases hm
  | cons first ts ih =>
    obtain ⟨found, h1, h⟩ := exists_of_asks_bind (asks_targetFiles c output first) h
    obtain ⟨rest, h2, h⟩ := exists_of_asks_bind (asks_targetsFiles c output ts) h
    cases h
    rcases List.mem_cons.mp hm with rfl | hm
    · refine List.mem_append_left _ ?_
      have hdir : run (isDirectory (c.resolve target)) w
          = (.ok (w.tree.isDirectory (c.resolve target)), w) := rfl
      have hfile : run (isFile (c.resolve target)) w
          = (.ok (w.tree.isFile (c.resolve target)), w) := rfl
      rw [targetFiles, run_bind_of_ok hdir, hd, if_neg Bool.false_ne_true,
        run_bind_of_ok hfile] at h1
      rcases hf : w.tree.isFile (c.resolve target) with - | - <;> rw [hf] at h1 <;> cases h1
      exact List.mem_singleton_self _
    · exact List.mem_append_right _ (ih hm h2)

/-! ### The overrides of a run -/

/-- The drafts of a file, none if it cannot be read. -/
def draftsIn (m : Marker) (w : Workspace) (p : Path) : List Draft :=
  match (run (readSource p) w).1 with
  | .ok source => sheetDrafts m source
  | .error _ => []

/-- The overrides of files are their drafts, numbered through all of them. -/
theorem run_collectOverrides_iff {start : Int} {overrides : List Override} :
    run (collectOverrides m start files) w = (.ok overrides, w') ↔
      w' = w ∧ (∀ p ∈ files, ∃ source, run (readSource p) w = (.ok source, w)) ∧
        overrides = number start (files.flatMap (draftsIn m w)) := by
  induction files generalizing start overrides with
  | nil =>
    constructor
    · intro h
      cases h
      exact ⟨rfl, nofun, rfl⟩
    · rintro ⟨rfl, -, rfl⟩
      rfl
  | cons p files ih =>
    have hscan : ∀ {source}, run (readSource p) w = (.ok source, w) →
        run (scanFile m p start) w = (.ok (number start (draftsIn m w p)), w) := by
      intro source hs
      rw [scanFile, run_bind_of_ok hs, draftsIn, hs]
      rfl
    constructor
    · intro h
      obtain ⟨found, h1, h⟩ := exists_of_asks_bind (asks_scanFile m p start) h
      obtain ⟨source, hs, -⟩ := exists_of_asks_bind (asks_readSource p) h1
      rw [hscan hs] at h1
      cases h1
      obtain ⟨rest, h2, h⟩ := exists_of_asks_bind (asks_collectOverrides m _ files) h
      cases h
      obtain ⟨-, hread, rfl⟩ := ih.mp h2
      refine ⟨rfl, ?_, ?_⟩
      · intro q hq
        rcases List.mem_cons.mp hq with rfl | hq
        · exact ⟨source, hs⟩
        · exact hread q hq
      · rw [List.flatMap_cons, number_append, length_number]
    · rintro ⟨rfl, hread, rfl⟩
      obtain ⟨source, hs⟩ := hread p (List.mem_cons_self ..)
      have hrest : run (collectOverrides m (start + (number start (draftsIn m w' p)).length) files)
          w' = (.ok _, w') :=
        ih.mpr ⟨rfl, fun q hq => hread q (List.mem_cons_of_mem _ hq), rfl⟩
      rw [collectOverrides, run_bind_of_ok (hscan hs), run_bind_of_ok hrest, List.flatMap_cons,
        number_append, length_number]
      rfl

/-! ### Runs that read alike -/

theorem alike_discover {dirs excluded : List Path}
    (h : ∀ dir, sourcesBelow w'.tree dir = sourcesBelow w.tree dir) :
    Alike (discover dirs excluded) w w' := by
  refine alike_bind (asks_mapM_normalize _) ?_ fun excluded _ => ?_
  · -- normal forms are taken without looking at the files
    induction excluded with
    | nil => rfl
    | cons p ps ih =>
      rw [List.mapM_cons]
      refine alike_bind (asks_normalize p) ?_ fun q _ => ?_
      · rw [Action.normalize]
        split <;> rfl
      · exact alike_bind (asks_mapM_normalize ps) ih fun qs _ => alike_pure _
  · show Except.ok (discoverIn w.tree dirs excluded) = .ok (discoverIn w'.tree dirs excluded)
    rw [discoverIn, discoverIn, funext h]

theorem alike_targetFiles (hbelow : ∀ dir, sourcesBelow w'.tree dir = sourcesBelow w.tree dir)
    (hdir : ∀ p, w'.tree.isDirectory p = w.tree.isDirectory p)
    (hfile : w'.tree.isFile (c.resolve target) = w.tree.isFile (c.resolve target)) :
    Alike (targetFiles c output target) w w' := by
  refine alike_bind (asks_isDirectory _) (alike_isDirectory (hdir _)) fun found _ => ?_
  cases found
  · refine alike_bind (asks_isFile _) (alike_isFile hfile) fun found _ => ?_
    cases found <;> rfl
  · exact alike_discover hbelow

theorem alike_runFiles {settings : Autofill}
    (hbelow : ∀ dir, sourcesBelow w'.tree dir = sourcesBelow w.tree dir)
    (hdir : ∀ p, w'.tree.isDirectory p = w.tree.isDirectory p)
    (hfile : ∀ target ∈ targets.getD [],
      w'.tree.isFile (c.resolve target) = w.tree.isFile (c.resolve target)) :
    Alike (runFiles c settings output targets) w w' := by
  cases targets with
  | none => exact alike_discover hbelow
  | some targets =>
    show Alike (targetsFiles c output targets) w w'
    replace hfile : ∀ target ∈ targets,
      w'.tree.isFile (c.resolve target) = w.tree.isFile (c.resolve target) := hfile
    induction targets with
    | nil => rfl
    | cons target targets ih =>
      refine alike_bind (asks_targetFiles _ _ _)
        (alike_targetFiles hbelow hdir (hfile target (List.mem_cons_self ..))) fun first _ => ?_
      have hrest := ih fun q hq => hfile q (List.mem_cons_of_mem _ hq)
      exact alike_bind (asks_targetsFiles _ _ _) hrest fun rest _ => alike_pure _

theorem alike_collectOverrides {start : Int}
    (h : ∀ p ∈ files, ∀ start, Alike (scanFile m p start) w w') :
    Alike (collectOverrides m start files) w w' := by
  induction files generalizing start with
  | nil => rfl
  | cons p files ih =>
    have hrest : ∀ start, Alike (collectOverrides m start files) w w' := fun _ =>
      ih fun q hq => h q (List.mem_cons_of_mem _ hq)
    refine alike_bind (asks_scanFile _ _ _) (h p (List.mem_cons_self ..) start) fun found _ => ?_
    exact alike_bind (asks_collectOverrides _ _ _) (hrest _) fun rest _ => alike_pure _

/-- Two runs read alike if their searches find the same, their targets are
the same and every file found is scanned alike. -/
theorem alike_gather {settings : Autofill} {output : Option Path}
    (hc : c.autofill = .ok settings)
    (hbelow : ∀ dir, sourcesBelow w'.tree dir = sourcesBelow w.tree dir)
    (hdir : ∀ p, w'.tree.isDirectory p = w.tree.isDirectory p)
    (hfile : ∀ target ∈ targets.getD [],
      w'.tree.isFile (c.resolve target) = w.tree.isFile (c.resolve target))
    (hscan : ∀ files, run (runFiles c settings (runOutput c settings output) targets) w
        = (.ok files, w) → ∀ p ∈ files, ∀ start, Alike (scanFile settings.marker p start) w w') :
    Alike (gather c targets output) w w' := by
  rw [gather_eq, hc]
  refine alike_bind (within_lift _) (alike_lift _) fun s hs => ?_
  cases hs
  refine alike_bind (asks_runFiles _ _ _ _) (alike_runFiles hbelow hdir hfile) fun files hf => ?_
  exact alike_bind (asks_collectOverrides _ _ _) (alike_collectOverrides (hscan files hf))
    fun overrides _ => alike_pure _

/-! ### Runs that succeed -/

/-- What a run has read, part by part. -/
theorem run_gather_iff {output : Option Path} {i : GenerateInput} :
    run (gather c targets output) w = (.ok i, w') ↔
      w' = w ∧ c.autofill = .ok i.settings ∧ i.output = runOutput c i.settings output ∧
        run (runFiles c i.settings i.output targets) w = (.ok i.files, w) ∧
        run (collectOverrides i.settings.marker 0 i.files) w = (.ok i.overrides, w) := by
  rw [gather_eq]
  constructor
  · intro h
    obtain ⟨settings, hs, h⟩ := exists_of_asks_bind (within_lift c.autofill) h
    rw [run_lift] at hs
    have hc : c.autofill = .ok settings := congrArg Prod.fst hs
    obtain ⟨files, hf, h⟩ := exists_of_asks_bind (asks_runFiles _ _ _ _) h
    obtain ⟨overrides, ho, h⟩ := exists_of_asks_bind (asks_collectOverrides _ _ _) h
    cases h
    exact ⟨rfl, hc, rfl, hf, ho⟩
  · obtain ⟨settings, out, files, overrides⟩ := i
    rintro ⟨rfl, hc, hout, hf, ho⟩
    dsimp only at hc hout hf ho
    subst hout
    have hs : run (liftM c.autofill : Action Autofill) w' = (.ok settings, w') := by
      rw [run_lift, hc]
    rw [run_bind_of_ok hs, run_bind_of_ok hf, run_bind_of_ok ho]
    rfl

/-- What a run reads depends on the tree alone. -/
theorem run_gather_of_tree {output : Option Path} {i : GenerateInput}
    (h : run (gather c targets output) w = (.ok i, w)) (ht : w₁.tree = w.tree) :
    run (gather c targets output) w₁ = (.ok i, w₁) := by
  obtain ⟨-, hc, -⟩ := run_gather_iff.mp h
  have halike : Alike (gather c targets output) w w₁ := by
    refine alike_gather hc (fun dir => by rw [ht]) (fun p => by rw [ht]) (fun _ _ => by rw [ht]) ?_
    intro files _ p _ start
    exact alike_bind (asks_readSource p) (alike_readSource (by rw [ht])) fun _ _ => alike_pure _
  exact halike.run_of_run (asks_gather _ _ _) h

/-- A run that succeeds reads the same again after one file was written, if
that file is none of those it read, and was there before or is no source. -/
theorem run_gather_of_set {output : Option Path} {i : GenerateInput} {place : Place}
    {bytes : ByteArray} (h : run (gather c targets output) w = (.ok i, w))
    (hd : w.tree.find? place ≠ some .directory)
    (hsource : w.tree.find? place = none →
      ∀ name, place.getLast? = some name → ¬ FileTree.IsSourceName name)
    (hother : ∀ p ∈ i.files, w.tree.locate p ≠ .ok place)
    (ht : w₁.tree = w.tree.set place (.file bytes)) :
    run (gather c targets output) w₁ = (.ok i, w₁) := by
  obtain ⟨-, hc, hout, hfiles, ho⟩ := run_gather_iff.mp h
  obtain ⟨-, hread, -⟩ := run_collectOverrides_iff.mp ho
  have hdir : ∀ p, w₁.tree.isDirectory p = w.tree.isDirectory p := fun p => by
    rw [ht, FileTree.isDirectory_set_file hd]
  have hgrows : w.tree.Grows w₁.tree := by
    rw [ht]
    exact FileTree.grows_set_file hd bytes
  have halike : Alike (gather c targets output) w w₁ := by
    refine alike_gather hc (fun dir => ?_) hdir (fun target hm => ?_) fun files hf p hp start => ?_
    · rw [ht, FileTree.sourcesBelow_set_file hd bytes hsource]
    · -- a target of a run that succeeds is a file or a directory, and stays what it is
      cases targets with
      | none => cases hm
      | some targets =>
        rcases exists_of_run_targetsFiles hfiles hm with hisdir | hisfile
        · rw [FileTree.isFile_of_isDirectory hisdir, FileTree.isFile_of_isDirectory]
          rw [hdir, hisdir]
        · rw [hisfile, ht, FileTree.isFile_set_file hisfile hd]
    · rw [← hout, hfiles] at hf
      cases hf
      obtain ⟨source, hs⟩ := hread p hp
      obtain ⟨-, -, read, hb, -⟩ := run_readSource_iff.mp hs
      obtain ⟨q, hl, -⟩ := FileTree.locate_of_readBytes hb
      have hq : q ≠ place := by
        rintro rfl
        exact hother p hp hl
      have hsame : w₁.tree.find? q = w.tree.find? q := by
        rw [ht, FileTree.find?_set _ (FileTree.ne_nil_of_find? hd), if_neg hq]
      exact alike_bind (asks_readSource p)
        (alike_readSource (FileTree.readBytes_of_grows hgrows hl hsame)) fun _ _ => alike_pure _
  exact halike.run_of_run (asks_gather _ _ _) h

/-- A run reads, writes what it has rendered, and reports. -/
theorem run_generate_iff {output : Option Path} {r : GenerateReport} :
    run (generate c targets output) w = (.ok r, w₁) ↔
      ∃ i plan w', run (gather c targets output) w = (.ok i, w) ∧
        SafelyWritten i.output i.content w plan w' ∧
        w₁ = { w' with log := w'.log ++ [⟨.info, runLine c plan i.overrides.length⟩] } ∧
        r = ⟨i.output, i.files.length, i.overrides.length, plan,
          singleTarget targets i.files⟩ := by
  unfold generate
  constructor
  · intro h
    obtain ⟨i, hi, h⟩ := exists_of_asks_bind (asks_gather _ _ _) h
    obtain ⟨plan, w', hp, h⟩ := exists_of_run_bind h
    cases h
    exact ⟨i, plan, w', hi, run_writeSafely_iff.mp hp, rfl, rfl⟩
  · rintro ⟨i, plan, w', hi, hp, rfl, rfl⟩
    rw [run_bind_of_ok hi, run_bind_of_ok (run_writeSafely_iff.mpr hp)]
    rfl

end FluidScss
