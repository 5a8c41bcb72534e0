/-
FluidScss/Proofs/KitFault.lean

Faults of the project leave no trace.  A step reads before it writes, and what
writes meets faults of the file system only: `a.Blameless` says so of all
failing runs of `a`, and is closed under what work is put together from.  So a
step that asks first and writes then has done nothing yet when it ends with a
fault of the project (`a.Traceless`).

Two steps go on asking after they have written.  A batch meets no other fault
of the project than a missing source, which it keeps to itself, once its
settings are in order.  And following a change gives the entry its first lines
and registers it before the entry is generated: by then the entry is a file,
and the configuration that is loaded again has the settings of the one before.
-/
import FluidScss.Proofs.EntryBatch
import FluidScss.Proofs.Registration

namespace FluidScss

open FluidScss.Action
open FluidScss.Workspace

variable {α β : Type} {w w' w₁ w₂ : Workspace} {e : Fault} {P Q : Fault → Prop}
variable {c c' : Config} {root entry p path : Path} {settings : Autofill} {s : Step}

namespace Action

/-! ### Faults of work -/

/-- All faults that runs of the work end with are of this kind. -/
def FailsOnly (P : Fault → Prop) (a : Action α) : Prop :=
  ∀ w e w', run a w = (.error e, w') → P e

/-- Work whose faults do not lie in the project. -/
abbrev Blameless (a : Action α) : Prop := FailsOnly (·.isKitFault = false) a

/-- Runs that end with a fault of the project leave the workspace as it was. -/
def Traceless (a : Action α) : Prop :=
  ∀ w e w', run a w = (.error e, w') → e.isKitFault = true → w' = w

/-- A run in two parts that fails has failed in one of them. -/
theorem cases_of_run_bind {a : Action α} {f : α → Action β}
    (h : run (a >>= f) w = (.error e, w')) :
    run a w = (.error e, w') ∨ ∃ x w₁, run a w = (.ok x, w₁) ∧ run (f x) w₁ = (.error e, w') := by
  rcases hr : run a w with ⟨e' | x, w₁⟩
  · rw [run_bind_of_error hr] at h
    cases h
    exact .inl rfl
  · rw [run_bind_of_ok hr] at h
    exact .inr ⟨x, w₁, rfl, h⟩

theorem FailsOnly.mono {a : Action α} (h : FailsOnly P a) (hP : ∀ e, P e → Q e) :
    FailsOnly Q a :=
  fun w e w' hr => hP e (h w e w' hr)

theorem failsOnly_pure (x : α) : FailsOnly P (pure x : Action α) := nofun

theorem failsOnly_throw (h : P e) : FailsOnly P (throw e : Action α) := by
  intro w e' w' hr
  cases hr
  exact h

theorem failsOnly_lift {r : Except Fault α} (h : ∀ e, r = .error e → P e) :
    FailsOnly P (liftM r : Action α) := by
  intro w e w' hr
  rw [run_lift] at hr
  exact h e (Prod.mk.inj hr).1

theorem failsOnly_tree : FailsOnly P tree := nofun

theorem failsOnly_log (level : Level) (message : Text) : FailsOnly P (log level message) := nofun

theorem FailsOnly.bind {a : Action α} {f : α → Action β} (ha : FailsOnly P a)
    (hf : ∀ x, FailsOnly P (f x)) : FailsOnly P (a >>= f) := by
  intro w e w' h
  rcases cases_of_run_bind h with h | ⟨x, w₁, -, h⟩
  · exact ha w e w' h
  · exact hf x w₁ e w' h

/-- What follows a fault is not run. -/
theorem failsOnly_throw_bind (h : P e) (f : α → Action β) :
    FailsOnly P ((throw e : Action α) >>= f) := by
  intro w e' w' hr
  cases hr
  exact h

theorem blameless_throw_bind (h : e.isKitFault = false) (f : α → Action β) :
    Blameless ((throw e : Action α) >>= f) :=
  failsOnly_throw_bind h f

/-! ### Traces -/

theorem Blameless.traceless {a : Action α} (h : Blameless a) : Traceless a := by
  intro w e w' hr he
  rw [h w e w' hr] at he
  cases he

theorem Traceless.bind_asks {a : Action α} {f : α → Action β} (ha : Asks a)
    (hf : ∀ x, Traceless (f x)) : Traceless (a >>= f) := by
  intro w e w' h he
  rcases cases_of_run_bind h with h | ⟨x, w₁, hx, h⟩
  · exact ha.eq h
  · rw [← ha.eq hx]
    exact hf x w₁ e w' h he

/-! ### The file system -/

theorem blameless_ofSystem (p : Path) (r : Except SystemFault α) : Blameless (ofSystem p r) := by
  cases r
  · exact failsOnly_throw rfl
  · exact failsOnly_pure _

theorem blameless_normalize (p : Path) : Blameless (Action.normalize p) := by
  unfold Action.normalize
  split
  · exact failsOnly_pure _
  · exact failsOnly_throw rfl

theorem blameless_fileExists (p : Path) : Blameless (fileExists p) :=
  failsOnly_tree.bind fun _ => failsOnly_pure _

theorem blameless_isDirectory (p : Path) : Blameless (isDirectory p) :=
  failsOnly_tree.bind fun _ => failsOnly_pure _

theorem blameless_isFile (p : Path) : Blameless (isFile p) :=
  failsOnly_tree.bind fun _ => failsOnly_pure _

theorem blameless_readBytes (p : Path) : Blameless (readBytes p) := by
  unfold readBytes
  split
  · exact blameless_throw_bind rfl _
  · exact failsOnly_tree.bind fun _ => blameless_ofSystem p _

/-- Reading a text finds no file, or no text in it. -/
theorem blameless_readDecoded (p : Path) (decode : ByteArray → Option Text) :
    Blameless (do decoded decode (← readBytes p)) := by
  refine (blameless_readBytes p).bind fun bytes => ?_
  unfold decoded
  split
  · exact failsOnly_pure _
  · exact failsOnly_throw rfl

theorem blameless_writeText (p : Path) (text : Text) : Blameless (writeText p text) := by
  intro w e w' h
  rw [writeText, run_change] at h
  split at h
  · cases h
    rfl
  · split at h <;> cases h
    rfl

theorem blameless_makeDirectoryIn (p : Path) : Blameless (makeDirectoryIn p) := by
  unfold makeDirectoryIn
  split
  · exact blameless_throw_bind rfl _
  · refine failsOnly_tree.bind fun t => ?_
    split
    · exact nofun
    · exact failsOnly_throw rfl
    · refine (blameless_isDirectory p).bind fun found => ?_
      cases found
      · exact failsOnly_throw rfl
      · exact failsOnly_pure ()

theorem blameless_makeDirectories (p : Path) : Blameless (makeDirectories p) := by
  unfold makeDirectories
  induction p.parts.reverse with
  | nil => exact blameless_makeDirectoryIn _
  | cons part parts ih =>
    rw [makeDirectoriesFrom]
    split
    · exact blameless_throw_bind rfl _
    · refine failsOnly_tree.bind fun t => ?_
      split
      · exact ih.bind fun _ => blameless_makeDirectoryIn _
      · exact blameless_makeDirectoryIn _

theorem blameless_store (p : Path) (text : Text) : Blameless (store p text) :=
  (blameless_makeDirectories _).bind fun _ => blameless_writeText p text

end Action

/-! ### Writing safely -/

theorem blameless_make {target : Path} {content stamp : Text} {existing : Option Text}
    (h : WritePlan.make target content existing stamp = .error e) : e.isKitFault = false := by
  unfold WritePlan.make at h
  split at h
  · cases h
  · split at h
    · cases h
    · split at h <;> cases h
      rfl

/-- **A safe write** meets no fault of the project. -/
theorem blameless_writeSafely (target : Path) (content stamp : Text) :
    Blameless (writeSafely target content stamp) := by
  refine (blameless_fileExists target).bind fun found => ?_
  -- whatever is there, the plan is made of it and then carried out
  have hplan : ∀ existing, Blameless (do
      let plan ← WritePlan.make target content existing stamp
      plan.apply
      return plan) := by
    intro existing
    refine (failsOnly_lift fun e => blameless_make).bind fun plan => FailsOnly.bind ?_ fun _ =>
      failsOnly_pure plan
    rw [WritePlan.apply_eq]
    split
    · exact failsOnly_pure ()
    · exact blameless_store _ _
  cases found
  · exact (failsOnly_pure none).bind hplan
  · refine FailsOnly.bind ?_ hplan
    rw [← bind_pure_comp]
    exact (blameless_readDecoded target _).bind fun _ => failsOnly_pure _

/-! ### Settings of directories -/

theorem blameless_resolveJson {value : Json} (h : c.resolveJson value = .error e) :
    e.isKitFault = false := by
  unfold Config.resolveJson Path.ofJson at h
  split at h <;> cases h
  rfl

theorem blameless_entryOutput (h : c.entryOutput entry = .error e) : e.isKitFault = false := by
  unfold Config.entryOutput at h
  rcases hdir : c.sourceDir with fault | dir <;> rw [hdir] at h <;> cases h
  exact blameless_resolveJson hdir

/-! ### Generating -/

/-- A fault that, if it lies in the project, is a missing source. -/
def MissesOnly (e : Fault) : Prop := e.isKitFault = true → ∃ p, e = .sourceNotFound p

theorem missesOnly_of_not_isKitFault (h : e.isKitFault = false) : MissesOnly e := by
  intro he
  rw [h] at he
  cases he

theorem missesOnly_sourceNotFound (text : Text) : MissesOnly (.sourceNotFound text) :=
  fun _ => ⟨text, rfl⟩

theorem blameless_discover (dirs exclude : List Path) : Blameless (discover dirs exclude) := by
  have hmap : Blameless (exclude.mapM Action.normalize) := by
    induction exclude with
    | nil => exact failsOnly_pure []
    | cons p ps ih =>
      rw [List.mapM_cons]
      exact (blameless_normalize p).bind fun _ => ih.bind fun _ => failsOnly_pure _
  exact hmap.bind fun _ => failsOnly_tree.bind fun _ => failsOnly_pure _

theorem blameless_collectOverrides (m : Marker) (start : Int) (paths : List Path) :
    Blameless (collectOverrides m start paths) := by
  induction paths generalizing start with
  | nil => exact failsOnly_pure []
  | cons path paths ih =>
    have hscan : Blameless (scanFile m path start) :=
      (blameless_readDecoded path _).bind fun _ => failsOnly_pure _
    exact hscan.bind fun found => (ih _).bind fun _ => failsOnly_pure _

/-- A target is missing, or there is no fault of the project. -/
theorem missesOnly_targetsFiles (c : Config) (output : Path) (targets : List Path) :
    FailsOnly MissesOnly (targetsFiles c output targets) := by
  induction targets with
  | nil => exact failsOnly_pure []
  | cons target targets ih =>
    have hfiles : FailsOnly MissesOnly (targetFiles c output target) := by
      refine ((blameless_isDirectory _).mono fun _ => missesOnly_of_not_isKitFault).bind
        fun found => ?_
      cases found
      · refine ((blameless_isFile _).mono fun _ => missesOnly_of_not_isKitFault).bind
          fun found => ?_
        cases found
        · exact failsOnly_throw (missesOnly_sourceNotFound _)
        · exact failsOnly_pure _
      · exact (blameless_discover _ _).mono fun _ => missesOnly_of_not_isKitFault
    exact hfiles.bind fun _ => ih.bind fun _ => failsOnly_pure _

/-- What a generation does after it has read. -/
theorem blameless_written (c : Config) (targets : Option (List Path)) (i : GenerateInput) :
    Blameless (do
      let plan ← writeSafely i.output i.content generatedStamp
      Action.log .info (runLine c plan i.overrides.length)
      return (⟨i.output, i.files.length, i.overrides.length, plan, singleTarget targets i.files⟩ :
        GenerateReport)) :=
  (blameless_writeSafely _ _ _).bind fun _ => (failsOnly_log _ _).bind fun _ => failsOnly_pure _

theorem traceless_generate (c : Config) (targets : Option (List Path)) (output : Option Path) :
    Traceless (generate c targets output) :=
  .bind_asks (asks_gather c targets output) fun i => (blameless_written c targets i).traceless

theorem traceless_generateEntry (c : Config) (entry : Path) (output : Option Path) :
    Traceless (generateEntry c entry output) :=
  .bind_asks (asks_entryTarget c entry output) fun _ => traceless_generate _ _ _

/-- With settings in order only the entry can be missing. -/
theorem missesOnly_generateEntry (hc : c.autofill = .ok settings) (entry : Path) :
    FailsOnly MissesOnly (generateEntry c entry none) := by
  have hof : ∀ {α : Type} {a : Action α}, Blameless a → FailsOnly MissesOnly a :=
    fun h => h.mono fun _ => missesOnly_of_not_isKitFault
  have htarget : FailsOnly MissesOnly (entryTarget c entry none) := by
    refine (hof (blameless_isFile _)).bind fun found => ?_
    cases found
    · exact failsOnly_throw_bind (missesOnly_sourceNotFound _) _
    · exact hof (failsOnly_lift fun e => blameless_entryOutput)
  refine htarget.bind fun output => ?_
  have hgather : FailsOnly MissesOnly (gather c (some [c.resolve entry]) (some output)) := by
    rw [gather_eq, hc]
    exact (failsOnly_pure settings).bind fun settings => (missesOnly_targetsFiles _ _ _).bind
      fun files => (hof (blameless_collectOverrides _ _ _)).bind fun _ => failsOnly_pure _
  exact hgather.bind fun i => hof (blameless_written _ _ i)

/-- An entry that is a file is not missing either. -/
theorem not_isKitFault_of_generateEntry (hroot : c.root.isAbsolute = true)
    (hc : c.autofill = .ok settings) (hf : w.tree.isFile (c.resolve entry) = true)
    (hrun : run (generateEntry c entry none) w = (.error e, w')) : e.isKitFault = false := by
  rcases cases_of_run_bind hrun with h | ⟨output, w₁, htarget, hgen⟩
  · rw [entryTarget, run_bind_of_ok (run_isFile _ _), hf] at h
    exact failsOnly_lift (fun e => blameless_entryOutput) w e w' h
  · obtain rfl := (asks_entryTarget c entry none).eq htarget
    rcases cases_of_run_bind hgen with h | ⟨i, w₂, -, h⟩
    · have hfiles : run (runFiles c settings (runOutput c settings (some output))
          (some [c.resolve entry])) w₁ = (.ok [c.resolve (c.resolve entry)], w₁) :=
        run_targetsFiles_file (by rw [c.resolve_resolve hroot]; exact hf) _
      rw [gather_eq, run_lift_bind hc, run_bind_of_ok hfiles] at h
      exact ((blameless_collectOverrides _ _ _).bind fun _ => failsOnly_pure _) w₁ e w' h
    · exact blameless_written _ _ i w₂ e w' h

/-! ### A batch -/

/-- A missing entry is the entry's result, so with settings in order a batch
meets no fault of the project. -/
theorem blameless_generateConfigured (hc : c.autofill = .ok settings) (entry : Text) :
    Blameless (generateConfigured c entry) := by
  intro w e w' h
  rw [run_generateConfigured_eq] at h
  rcases hr : run (generateEntry c (Path.ofText entry) none) w with ⟨fault | r, w₂⟩ <;>
    rw [hr] at h
  · -- a fault of the project is a missing source, and that is a result
    have hmisses := missesOnly_generateEntry hc _ w fault w₂ hr
    cases hfault : fault.isKitFault with
    | false => cases fault <;> cases h <;> exact hfault
    | true =>
      obtain ⟨p, rfl⟩ := hmisses hfault
      cases h
  · cases h

theorem blameless_generateEach (hc : c.autofill = .ok settings) (entries : List Text) :
    Blameless (generateEach c entries) := by
  induction entries with
  | nil => exact failsOnly_pure []
  | cons entry entries ih =>
    exact (blameless_generateConfigured hc entry).bind fun _ => ih.bind fun _ => failsOnly_pure _

theorem traceless_generateEntries (c : Config) : Traceless (generateEntries c) := by
  intro w e w' h he
  have hasks : Asks (liftM c.autofill : Action Autofill) := within_lift _
  rcases cases_of_run_bind h with h | ⟨settings, w₁, hs, hrest⟩
  · exact hasks.eq h
  · -- settings that were told are in order
    obtain rfl := hasks.eq hs
    rw [run_lift] at hs
    split at hrest
    · cases hrest
      rfl
    · exact (blameless_generateEach (Prod.mk.inj hs).1 _).traceless w₁ e w' hrest he

/-! ### First lines and registering -/

theorem blameless_ensureBoilerplate (path : Path) (ns : Text) :
    Blameless (ensureBoilerplate path ns) := by
  refine (blameless_isFile path).bind fun found => ?_
  cases found
  · exact failsOnly_pure false
  · refine (blameless_readDecoded path _).bind fun text => ?_
    split
    · exact (blameless_writeText _ _).bind fun _ => failsOnly_pure true
    · exact failsOnly_pure false

theorem blameless_addEntry? {data : List (Text × Json)} {name : Text}
    (h : addEntry? data name = .error e) : e.isKitFault = false := by
  unfold addEntry? at h
  split at h
  · cases h
  · split at h
    · split at h <;> cases h
    · cases h
  · cases h
    rfl

theorem blameless_registerEntry (c : Config) (entry : Path) :
    Blameless (registerEntry c entry) := by
  refine (blameless_normalize _).bind fun place => ?_
  refine (failsOnly_lift fun e => blameless_resolveJson).bind fun dir => ?_
  refine (blameless_normalize _).bind fun sources => ?_
  split
  · refine (blameless_readDecoded _ _).bind fun text => ?_
    split
    · refine (failsOnly_lift fun e => blameless_addEntry?).bind fun added => ?_
      split
      · exact (blameless_writeText _ _).bind fun _ => failsOnly_pure true
      · exact failsOnly_pure false
    all_goals exact failsOnly_throw rfl
  · exact failsOnly_pure false

/-- The configuration that is loaded after an entry was registered has the
settings of the one before but for the entries, so they are in order, too. -/
theorem exists_autofill_of_registered (hload : run (Config.load c.root) w = (.ok c, w))
    (hwhole : (Json.obj c.data).Whole) (hc : c.autofill = .ok settings)
    (h : run (registerEntry c entry) w = (.ok true, w₁)) :
    ∃ c' settings', run (Config.load c.root) w₁ = (.ok c', w₁) ∧ c'.autofill = .ok settings' := by
  obtain ⟨slot, items, hdata, hafter⟩ := run_load_of_registerEntry hload hwhole h
  have hbefore : slot.config c.root items = c := by rw [EntrySlot.config, ← hdata]
  have hautofill := slot.autofill_fill c.root
    (items ++ [.str (c.relative (c.resolve entry))]) items
  rw [hbefore, hc] at hautofill
  exact ⟨_, _, hafter, hautofill⟩

theorem run_load_of_tree (ht : w₁.tree = w.tree) (hload : run (Config.load root) w = (.ok c, w)) :
    run (Config.load root) w₁ = (.ok c, w₁) :=
  (Confined.of_tree (S := fun _ => False) ht).load id hload

/-- What is done with an entry that was given its first lines. -/
def registerAndLoad (c : Config) (path : Path) : Action Config := do
  Action.log .info ("added boilerplate to " ++ c.relative path)
  if ← registerEntry c path then
    Action.log .info ("registered entry " ++ c.relative path)
    Config.load c.root
  else return c

theorem bootstrapEntry_eq (c : Config) (path : Path) :
    bootstrapEntry c path = (do
      let settings ← c.autofill
      if ← ensureBoilerplate path settings.marker.ns then registerAndLoad c path
      else return c) := rfl

theorem exists_run_log (level : Level) (message : Text) (w : Workspace) :
    ∃ w', run (Action.log level message) w = (.ok (), w') ∧ w'.tree = w.tree :=
  ⟨_, rfl, rfl⟩

/-- The configuration in force then has its settings in order. -/
theorem run_registerAndLoad (hload : run (Config.load c.root) w = (.ok c, w))
    (hwhole : (Json.obj c.data).Whole) (hc : c.autofill = .ok settings)
    {r : Except Fault Config} (h : run (registerAndLoad c path) w = (r, w₁)) :
    (∃ e, r = .error e ∧ e.isKitFault = false) ∨
      ∃ c' settings', r = .ok c' ∧ c'.root = c.root ∧ c'.autofill = .ok settings' := by
  obtain ⟨w', hlog, ht⟩ :=
    exists_run_log .info ("added boilerplate to " ++ c.relative path) w
  rw [registerAndLoad, run_bind_of_ok hlog, run_bind] at h
  rcases hregister : run (registerEntry c path) w' with ⟨fault | added, w₂⟩ <;>
    rw [hregister] at h
  · cases h
    exact .inl ⟨_, rfl, blameless_registerEntry _ _ _ _ _ hregister⟩
  · cases added with
    | false =>
      cases h
      exact .inr ⟨c, settings, rfl, rfl, hc⟩
    | true =>
      obtain ⟨c', settings', hafter, hc'⟩ :=
        exists_autofill_of_registered (run_load_of_tree ht hload) hwhole hc hregister
      obtain ⟨w₃, hlog', ht'⟩ := exists_run_log .info ("registered entry " ++ c.relative path) w₂
      dsimp only at h
      rw [if_pos rfl, run_bind_of_ok hlog', run_load_of_tree ht' hafter] at h
      cases h
      exact .inr ⟨c', settings', rfl, root_of_load hafter, hc'⟩

/-- All that giving an entry its first lines can come to. -/
inductive BootstrapRun (c : Config) (path : Path) (w : Workspace) :
    Except Fault Config → Workspace → Prop
  | kept : BootstrapRun c path w (.ok c) w
  | refused (e : Fault) : BootstrapRun c path w (.error e) w
  | failed {e : Fault} {w₁ : Workspace} (blameless : e.isKitFault = false) :
      BootstrapRun c path w (.error e) w₁
  | begun {c' : Config} {settings : Autofill} {w₁ : Workspace} (sameRoot : c'.root = c.root)
      (inOrder : c'.autofill = .ok settings) (isFile : w₁.tree.isFile path = true) :
      BootstrapRun c path w (.ok c') w₁

theorem bootstrapRun (he : IsEntry path) (hload : run (Config.load c.root) w = (.ok c, w))
    (hwhole : (Json.obj c.data).Whole) {r : Except Fault Config}
    (hrun : run (bootstrapEntry c path) w = (r, w₁)) : BootstrapRun c path w r w₁ := by
  have h := hrun
  rw [bootstrapEntry_eq, run_bind, run_lift] at h
  rcases hc : c.autofill with fault | settings <;> rw [hc] at h
  · cases h
    exact .refused fault
  dsimp only at h
  rw [run_bind] at h
  rcases hlines : run (ensureBoilerplate path settings.marker.ns) w with ⟨fault | written, w₂⟩ <;>
    rw [hlines] at h
  · cases h
    exact .failed (blameless_ensureBoilerplate _ _ _ _ _ hlines)
  rcases run_ensureBoilerplate_cases hlines with ⟨rfl, rfl, -⟩ | ⟨rfl, hbegun⟩
  · cases h
    exact .kept
  · -- the entry was written, and the configuration is another file
    have hwrote := confined_ensureBoilerplate (S := (· = path.place)) rfl settings.marker.ns w
    rw [hlines] at hwrote
    have hne : (Config.fileIn c.root).place ≠ path.place := by
      obtain ⟨place, bytes, hl, hfind⟩ := FileTree.isFile_iff.mp hbegun.isFile
      rw [FileTree.place_of_locate hl]
      exact (he.ne_config (FileTree.getLast?_of_locate hl (FileTree.ne_directory hfind))).symm
    rcases run_registerAndLoad (hwrote.load hne hload) hwhole hc h with
      ⟨e, rfl, hfault⟩ | ⟨c', settings', rfl, hroot, hc'⟩
    · exact .failed hfault
    · rcases run_bootstrapEntry_cases hrun with ⟨rfl, rfl, -⟩ | ⟨w₃, -, hbegun', hconfig, -⟩
      · exact .kept
      · exact .begun hroot hc' (hbegun'.of_confined hconfig hne.symm).isFile

/-! ### Steps -/

/-- A change that is followed ends with a fault of the project before it
touches a file. -/
theorem traceless_handleChange (hroot : c.root.isAbsolute = true)
    (hload : run (Config.load c.root) w = (.ok c, w)) (hwhole : (Json.obj c.data).Whole)
    (h : run (handleChange c p) w = (.error e, w₁)) (hkit : e.isKitFault = true) : w₁ = w := by
  by_cases hp : Unfollowed (c.resolve p)
  · rw [handleChange_of_unfollowed hp] at h
    cases h
  rw [handleChange_of_followed hp] at h
  cases hpartial : isPartialPath (c.resolve p) with
  | true =>
    rw [hpartial, if_pos rfl] at h
    rcases cases_of_run_bind h with h | ⟨results, w₂, -, h⟩
    · exact traceless_generateEntries c w e w₁ h hkit
    · cases h
  | false =>
    rw [hpartial, if_neg Bool.false_ne_true] at h
    rcases cases_of_run_bind h with h | ⟨c', w₂, hboot, hrest⟩
    · cases bootstrapRun ⟨hp, hpartial⟩ hload hwhole h with
      | refused => rfl
      | failed blameless =>
        rw [blameless] at hkit
        cases hkit
    · rcases cases_of_run_bind hrest with hgen | ⟨report, w₃, -, hdone⟩
      · cases bootstrapRun ⟨hp, hpartial⟩ hload hwhole hboot with
        | kept => exact traceless_generateEntry _ _ _ w e w₁ hgen hkit
        | begun sameRoot inOrder isFile =>
          -- the entry is a file now, so its generation blames the project for nothing
          have hroot' : c'.root.isAbsolute = true := by rwa [sameRoot]
          have hresolve : c'.resolve (c.resolve p) = c.resolve p :=
            Config.resolve_of_isAbsolute (c.isAbsolute_resolve hroot p)
          rw [← hresolve] at isFile
          rw [not_isKitFault_of_generateEntry hroot' inOrder isFile hgen] at hkit
          cases hkit
      · cases hdone

theorem traceless_writeHelper (c : Config) : Traceless (writeHelper c) :=
  .bind_asks (within_lift _) fun _ => .bind_asks (within_lift _) fun _ =>
    (blameless_writeSafely _ _ _).traceless

/-- A step whose report is dropped ends with the fault it would end with. -/
theorem error_of_run_discard {a : Action α} (h : run (discard a) w = (.error e, w₁)) :
    run a w = (.error e, w₁) := by
  have hbind : discard a = a >>= fun _ => pure () := by
    rw [bind_pure_comp]
    rfl
  rw [hbind] at h
  rcases cases_of_run_bind h with h | ⟨x, w', -, hdone⟩
  · exact h
  · cases hdone

/-- **Faults of the project leave no trace**: a request that ends with one, if
it does not set the project up, has changed neither a file nor a directory, and
logged nothing. -/
theorem kitFault_leaves_no_trace (hs : s ≠ .init)
    (hroot : ∀ p, s = .change p → root.isAbsolute = true)
    (hwhole : ∀ c, run (Config.load root) w = (.ok c, w) → (Json.obj c.data).Whole)
    (h : run (s.act root) w = (.error e, w₁)) (hkit : e.isKitFault = true) : w₁ = w := by
  rcases cases_of_run_bind h with h | ⟨c, w', hload, hwork⟩
  · exact (asks_load root).eq h
  obtain rfl := (asks_load root).eq hload
  obtain rfl := root_of_load hload
  cases s with
  | init => exact absurd rfl hs
  | helper => exact traceless_writeHelper c _ _ _ (error_of_run_discard hwork) hkit
  | run targets output =>
    exact traceless_generate c targets output _ _ _ (error_of_run_discard hwork) hkit
  | generateAll => exact traceless_generate c none none _ _ _ (error_of_run_discard hwork) hkit
  | generateEntry entry output =>
    exact traceless_generateEntry c entry output _ _ _ (error_of_run_discard hwork) hkit
  | generateEntries =>
    exact traceless_generateEntries c _ _ _ (error_of_run_discard hwork) hkit
  | change p =>
    exact traceless_handleChange (hroot p rfl) hload (hwhole c hload) (error_of_run_discard hwork)
      hkit

/-- The change of an entry that is missing ends so. -/
theorem kitFault_leaves_no_trace_of_missing :
    ∃ e w₁, run (Step.act watchedRoot (.change (.ofText "src/styles/gone.scss")))
        (watchedProject motleyText [] []) = (.error e, w₁) ∧ e.isKitFault = true ∧
      (∀ c, run (Config.load watchedRoot) (watchedProject motleyText [] [])
        = (.ok c, watchedProject motleyText [] []) → (Json.obj c.data).Whole) ∧
      w₁ = watchedProject motleyText [] [] := by
  have hload : run (Config.load watchedRoot) (watchedProject motleyText [] [])
      = (.ok (motleyConfig ["a.scss"]), watchedProject motleyText [] []) :=
    run_load_iff.mpr ⟨rfl, _, run_readConfig_watched [] (by decide +kernel),
      ofText_eq_ok_iff.mpr ⟨rfl, read_motleyText⟩⟩
  have hwhole : ∀ c, run (Config.load watchedRoot) (watchedProject motleyText [] [])
      = (.ok c, watchedProject motleyText [] []) → (Json.obj c.data).Whole := by
    intro c hc
    cases hload.symm.trans hc
    exact whole_motleyConfig
  have hchange : run (Step.act watchedRoot (.change (.ofText "src/styles/gone.scss")))
      (watchedProject motleyText [] [])
      = (.error (.sourceNotFound "/watched/src/styles/gone.scss"),
        watchedProject motleyText [] []) := by
    rw [Step.act, run_bind_of_ok hload]
    rfl
  have hstep : Step.change (.ofText "src/styles/gone.scss") ≠ .init := by
    intro hinit
    cases hinit
  exact ⟨_, _, hchange, rfl, hwhole,
    kitFault_leaves_no_trace hstep (fun _ _ => rfl) hwhole hchange rfl⟩

end FluidScss
