/-
FluidScss/Proofs/Workspace.lean

What the parts of the library's work do to a workspace.  Looking, reading,
finding sources, scanning them and loading a configuration ask and change
nothing; making directories and logging only add (`Workspace.Adds`).  What is
left are the writes, and all of them go through `Action.change`, whose run is
given in full (`run_change`).
-/
import FluidScss.Proofs.Action
import FluidScss.Proofs.FileTree

namespace FluidScss

variable {α β : Type}

/-- All that stood in the tree stands there as it was. -/
def Workspace.Adds (w w' : Workspace) : Prop := w.tree.Extends w'.tree

instance : IsPreorder Workspace Workspace.Adds where
  refl w := FileTree.Extends.refl w.tree
  trans _ _ _ h h' := FileTree.Extends.trans h h'

namespace Action

/-! ### Asking -/

@[simp] theorem run_isFile (p : Path) (w : Workspace) :
    run (isFile p) w = (.ok (w.tree.isFile p), w) := rfl

theorem asks_fileExists (p : Path) : Asks (fileExists p) :=
  within_bind within_tree fun _ => within_pure _

theorem asks_isDirectory (p : Path) : Asks (isDirectory p) :=
  within_bind within_tree fun _ => within_pure _

theorem asks_isFile (p : Path) : Asks (isFile p) :=
  within_bind within_tree fun _ => within_pure _

theorem asks_normalize (p : Path) : Asks (normalize p) := by
  unfold normalize
  split
  · exact within_pure _
  · exact within_throw _

theorem asks_readBytes (p : Path) : Asks (readBytes p) := by
  unfold readBytes
  split
  · exact within_throw_bind _ _
  · exact within_bind within_tree fun _ => within_ofSystem p _

theorem asks_decoded (decode : ByteArray → Option Text) (bytes : ByteArray) :
    Asks (decoded decode bytes) := by
  unfold decoded
  split
  · exact within_pure _
  · exact within_throw _

theorem asks_readText (p : Path) : Asks (readText p) :=
  within_bind (asks_readBytes p) fun _ => asks_decoded _ _

theorem asks_readSource (p : Path) : Asks (readSource p) :=
  within_bind (asks_readBytes p) fun _ => asks_decoded _ _

theorem asks_readRaw (p : Path) : Asks (readRaw p) :=
  within_bind (asks_readBytes p) fun _ => asks_decoded _ _

/-- A file that was read is there, and its bytes decode. -/
theorem run_decoded {decode : ByteArray → Option Text} {p : Path} {w w' : Workspace}
    {text : Text} (h : run (do decoded decode (← readBytes p)) w = (.ok text, w')) :
    ∃ place bytes, w.tree.locate p = .ok place ∧ w.tree.find? place = some (.file bytes) ∧
      decode bytes = some text := by
  have hw := asks_readBytes p w
  rcases hr : run (readBytes p) w with ⟨e | bytes, w''⟩ <;> rw [hr] at hw
  · rw [run_bind_of_error hr] at h
    cases h
  · rw [run_bind_of_ok hr] at h
    have hbytes : w.tree.readBytes p = .ok bytes := by
      unfold readBytes at hr
      split at hr
      · cases hr
      · rw [run_bind_of_ok (run_tree w)] at hr
        rcases hb : w.tree.readBytes p with e | read <;> rw [hb] at hr <;> cases hr
        rfl
    obtain ⟨place, hl, hf⟩ := FileTree.locate_of_readBytes hbytes
    refine ⟨place, bytes, hl, hf, ?_⟩
    unfold decoded at h
    split at h
    · rename_i text' hd
      cases h
      exact hd
    · cases h

theorem asks_mapM_normalize (ps : List Path) : Asks (ps.mapM normalize) := by
  induction ps with
  | nil => exact within_pure []
  | cons p ps ih =>
    rw [List.mapM_cons]
    exact within_bind (asks_normalize p) fun _ => within_bind ih fun _ => within_pure _

/-! ### Writing -/

/-- A change is made in full or not at all. -/
theorem run_change (p : Path) (f : FileTree → Except SystemFault FileTree) (w : Workspace) :
    run (change p f) w =
      if p.hasNul then (.error .invalidValue, w)
      else match f w.tree with
        | .ok t => (.ok (), { w with tree := t })
        | .error e => (.error (.system e p), w) := by
  unfold change
  by_cases hp : p.hasNul = true
  · simp only [hp, if_true]
    rfl
  · simp only [hp]
    rcases hf : f w.tree with e | t
    · have h : run (ofSystem p (f w.tree)) w = (.error (.system e p), w) := by
        rw [hf]
        rfl
      exact (run_bind_of_ok (run_tree w)).trans (run_bind_of_error h)
    · have h : run (ofSystem p (f w.tree)) w = (.ok t, w) := by
        rw [hf]
        rfl
      exact (run_bind_of_ok (run_tree w)).trans (run_bind_of_ok h)

/-! ### Adding -/

theorem adds_log (level : Level) (message : Text) : Within Workspace.Adds (log level message) :=
  fun w => FileTree.Extends.refl w.tree

theorem adds_makeDirectoryIn (p : Path) : Within Workspace.Adds (makeDirectoryIn p) := by
  unfold makeDirectoryIn
  split
  · exact within_throw_bind _ _
  · intro w
    rw [run_bind, run_tree]
    dsimp only
    rcases hm : w.tree.makeDirectory p with e | t
    · cases e
      case notFound => exact refl w
      all_goals
        refine within_bind (asks_isDirectory p).within (fun found => ?_) w
        cases found
        · exact within_throw _
        · exact within_pure ()
    · exact FileTree.extends_of_makeDirectory hm

theorem adds_makeDirectoriesFrom (root : Root) (parts : List Text) :
    Within Workspace.Adds (makeDirectoriesFrom root parts) := by
  induction parts with
  | nil => exact adds_makeDirectoryIn _
  | cons part parts ih =>
    rw [makeDirectoriesFrom]
    split
    · exact within_throw_bind _ _
    · exact within_bind within_tree fun _ => by
        split
        · exact within_bind ih fun _ => adds_makeDirectoryIn _
        · exact adds_makeDirectoryIn _

theorem adds_makeDirectories (p : Path) : Within Workspace.Adds (makeDirectories p) :=
  adds_makeDirectoriesFrom p.root p.parts.reverse

end Action

/-! ### Reading a project -/

open FluidScss.Action

theorem asks_discover (dirs exclude : List Path) : Asks (discover dirs exclude) :=
  within_bind (asks_mapM_normalize exclude) fun _ => within_bind within_tree fun _ => within_pure _

theorem asks_scanFile (m : Marker) (path : Path) (start : Int) : Asks (scanFile m path start) :=
  within_bind (asks_readSource path) fun _ => within_pure _

theorem asks_collectOverrides (m : Marker) (start : Int) (paths : List Path) :
    Asks (collectOverrides m start paths) := by
  induction paths generalizing start with
  | nil => exact within_pure []
  | cons path paths ih =>
    exact within_bind (asks_scanFile m path start) fun found =>
      within_bind (ih _) fun _ => within_pure _

theorem asks_targetFiles (c : Config) (output target : Path) :
    Asks (targetFiles c output target) := by
  refine within_bind (asks_isDirectory _) fun found => ?_
  cases found
  · refine within_bind (asks_isFile _) fun found => ?_
    cases found
    · exact within_throw _
    · exact within_pure _
  · exact asks_discover _ _

theorem asks_targetsFiles (c : Config) (output : Path) (targets : List Path) :
    Asks (targetsFiles c output targets) := by
  induction targets with
  | nil => exact within_pure []
  | cons target targets ih =>
    exact within_bind (asks_targetFiles c output target) fun _ =>
      within_bind ih fun _ => within_pure _

/-- A run reads everything before it writes anything. -/
theorem asks_gather (c : Config) (targets : Option (List Path)) (output : Option Path) :
    Asks (gather c targets output) := by
  refine within_bind (within_lift c.autofill) fun settings => ?_
  have hrest : ∀ (out : Path) (files : List Path), Asks (do
      let overrides ← collectOverrides settings.marker 0 files
      return { settings, output := out, files, overrides : GenerateInput }) := fun out files =>
    within_bind (asks_collectOverrides _ _ files) fun _ => within_pure _
  cases targets with
  | none => exact within_bind (asks_discover _ _) fun files => hrest _ files
  | some targets => exact within_bind (asks_targetsFiles _ _ targets) fun files => hrest _ files

theorem asks_entryTarget (c : Config) (entry : Path) (output : Option Path) :
    Asks (entryTarget c entry output) := by
  refine within_bind (asks_isFile _) fun found => ?_
  cases found
  · exact within_throw_bind _ _
  · cases output
    · exact within_lift _
    · exact within_pure _

theorem asks_load (root : Path) : Asks (Config.load root) := by
  refine within_bind (asks_fileExists _) fun found => ?_
  cases found
  · exact within_throw_bind _ _
  · exact within_bind (asks_readText _) fun _ => within_lift _

theorem run_load (root : Path) (w : Workspace) :
    run (Config.load root) w =
      if w.tree.has (Config.fileIn root) then
        run (do Config.ofText root (← readText (Config.fileIn root))) w
      else (.error (.configuration .missingFile), w) := by
  have hexists : run (fileExists (Config.fileIn root)) w
      = (.ok (w.tree.has (Config.fileIn root)), w) := rfl
  unfold Config.load
  rw [run_bind_of_ok hexists]
  rcases w.tree.has (Config.fileIn root) with - | - <;> rfl

/-- The configuration that is loaded for a root is that of the root. -/
theorem root_of_load {root : Path} {c : Config} {w w' : Workspace}
    (h : run (Config.load root) w = (.ok c, w')) : c.root = root := by
  rw [run_load] at h
  split at h
  · rcases hr : run (readText (Config.fileIn root)) w with ⟨e | text, w''⟩
    · rw [run_bind_of_error hr] at h
      cases h
    · rw [run_bind_of_ok hr, run_lift, Config.ofText] at h
      split at h <;> cases h
      rfl
  · cases h

end FluidScss
