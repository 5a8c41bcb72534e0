/-
FluidScss/Proofs/Session.lean

Sessions: one request after the other to the project of a root, each from
the configuration that is on disk by then.  A request that fails leaves what
it did before it failed, and the session goes on.

Beside what a request does stands what it *aims* at: the targets it hands to
`writeSafely`, each with the workspace as it is found at that moment.  The
aims follow the work, part by part (`Aims.next`).

A write asks whether something stands at its target before it makes the
directories around it.  It *overlooks* a place if the target leads nowhere
when it asks, and names that place by the time it writes.
-/
import FluidScss.Proofs.Workspace

namespace FluidScss

/-! ### Requests -/

/-- A request to a project. -/
inductive Step
  | init
  | helper
  | run (targets : Option (List Path)) (output : Option Path)
  | generateAll
  | generateEntry (entry : Path) (output : Option Path)
  | generateEntries
  | change (path : Path)

namespace Step

/-- What a request does with a configuration; its report is dropped. -/
def work (c : Config) : Step → Action Unit
  | init => discard (initProject c)
  | helper => discard (writeHelper c)
  | run targets output => discard (generate c targets output)
  | generateAll => discard (FluidScss.generateAll c)
  | generateEntry entry output => discard (FluidScss.generateEntry c entry output)
  | generateEntries => discard (FluidScss.generateEntries c)
  | change path => discard (handleChange c path)

/-- What a request does in the project of a root. -/
def act (root : Path) (s : Step) : Action Unit := do s.work (← Config.load root)

end Step

/-- The workspace after a session. -/
def session (root : Path) : List Step → Workspace → Workspace
  | [], w => w
  | s :: steps, w => session root steps (Action.run (s.act root) w).2

/-! ### Aims -/

/-- Targets of generated writes, each with the workspace that the write
finds, for work that begins in a given workspace. -/
abbrev Aims := Workspace → List (Workspace × Path)

namespace Aims

/-- No aims. -/
def none : Aims := fun _ => []

/-- One aim. -/
def at_ (target : Path) : Aims := fun w => [(w, target)]

/-- The aims of what follows `a`, if `a` succeeds. -/
def next {α : Type} (a : Action α) (f : α → Aims) : Aims := fun w =>
  match Action.run a w with
  | (.ok x, w') => f x w'
  | (.error _, _) => []

/-- The aims of `a` and of what follows it. -/
def andNext {α : Type} (A : Aims) (a : Action α) (f : α → Aims) : Aims :=
  fun w => A w ++ next a f w

/-- The aims of writing the helper module. -/
def helper (c : Config) : Aims :=
  next (liftM c.helperPath) fun path => next (liftM (renderHelper c)) fun _ => at_ path

/-- The aims of initialising a project. -/
def init (c : Config) : Aims :=
  next (do Action.makeDirectories (← c.sourceDir)) fun _ =>
    andNext (helper c) (writeHelper c) fun _ =>
      match c.autofill with
      | .ok settings => at_ settings.output
      | .error _ => none

/-- The aims of a run. -/
def generate (c : Config) (targets : Option (List Path)) (output : Option Path) : Aims :=
  next (gather c targets output) fun i => at_ i.output

/-- The aims of generating the stylesheet of an entry. -/
def entry (c : Config) (entry : Path) (output : Option Path) : Aims :=
  next (entryTarget c entry output) fun output =>
    generate c (some [c.resolve entry]) (some output)

/-- The aims of generating the stylesheets of entries, in order. -/
def each (c : Config) : List Text → Aims
  | [] => none
  | e :: entries =>
    andNext (entry c (Path.ofText e) .none) (generateConfigured c e) fun _ => each c entries

/-- The aims of generating the stylesheets of all configured entries. -/
def entries (c : Config) : Aims := next (liftM c.autofill) fun settings => each c settings.entries

/-- The aims of following a change. -/
def change (c : Config) (changed : Path) : Aims :=
  let path := c.resolve changed
  if isGeneratedPath path || !sheetEnding.isSuffixOf path.name then none
  else if isPartialPath path then entries c
  else next (bootstrapEntry c path) fun c => entry c path .none

/-- The aims of a request, given its configuration. -/
def step (c : Config) : Step → Aims
  | .init => init c
  | .helper => helper c
  | .run targets output => generate c targets output
  | .generateAll => generate c .none .none
  | .generateEntry e output => entry c e output
  | .generateEntries => entries c
  | .change path => change c path

end Aims

/-- The aims of a session. -/
def sessionAims (root : Path) : List Step → Aims
  | [] => Aims.none
  | s :: steps => fun w =>
    Aims.next (Config.load root) (fun c => Aims.step c s) w
      ++ sessionAims root steps (Action.run (s.act root) w).2

/-! ### Overlooking -/

namespace Workspace

/-- A file written to `path` comes to stand at `place` in `w'`, which is `w`
with the directories around it made. -/
structure Puts (w : Workspace) (path : Path) (w' : Workspace) (place : Place) : Prop where
  made : Action.run (Action.makeDirectories path.parent) w = (.ok (), w')
  named : path.hasNul = false
  slot : w'.tree.slot path = .ok place
  free : w'.tree.find? place ≠ some .directory

/-- The target leads nowhere, but a file written to it comes to stand at
`place`. -/
def Overlooks (w : Workspace) (target : Path) (place : Place) : Prop :=
  w.tree.has target = false ∧ ∃ w', w.Puts target w' place

/-- What a write overlooks it comes to by a double dot. -/
theorem upwards_mem_of_overlooks {w : Workspace} {target : Path} {place : Place}
    (hr : w.tree.Reachable place) (h : w.Overlooks target place) : upwards ∈ target.parts := by
  by_contra hu
  obtain ⟨hno, w', hp⟩ := h
  rw [FileTree.has_of_slot hu hp.slot hr] at hno
  cases hno

end Workspace

end FluidScss
