/-
FluidScss/Write.lean

Writing generated files without losing written ones.  A file belongs to this
program if it carries the stamp of generated files.  `WritePlan.make` decides
from what stands at the target, and touches nothing: where nothing stands the
content is written, a stamped file is replaced or left alone if it is the
same, and next to any other file the content goes to a file of its own, whose
name ends in `.new`.  `WritePlan.apply` writes.
-/
import FluidScss.Workspace

namespace FluidScss

/-- How content reaches the disk. -/
inductive WriteMode
  | created
  | overwritten
  | unchanged
  | conflict
deriving DecidableEq

/-- The word of a mode. -/
def WriteMode.name : WriteMode → Text
  | .created => "created"
  | .overwritten => "overwritten"
  | .unchanged => "unchanged"
  | .conflict => "conflict_new_file"

/-- Where content goes that was meant for a target, and why. -/
structure WritePlan where
  target : Path
  path : Path
  content : Text
  mode : WriteMode
deriving DecidableEq

/-- The file that takes the content when the target is someone else's. -/
def conflictPath? (target : Path) : Option Path := target.withName? (target.name ++ ".new")

namespace WritePlan

/-- The plan for content, given the text at the target if there is a file. -/
def make (target : Path) (content : Text) (existing : Option Text) (stamp : Text) :
    Except Fault WritePlan :=
  match existing with
  | none => .ok ⟨target, target, content, .created⟩
  | some text =>
    if Text.contains stamp text then
      .ok ⟨target, target, content, if text = content then .unchanged else .overwritten⟩
    else
      match conflictPath? target with
      | some path => .ok ⟨target, path, content, .conflict⟩
      | none => .error .invalidValue

/-- Carries out a plan; what is the same is not written again. -/
def apply (plan : WritePlan) : Action Unit := do
  unless plan.mode = .unchanged do
    Action.makeDirectories plan.path.parent
    Action.writeText plan.path plan.content

end WritePlan

/-- Reads the target, plans and writes. -/
def writeSafely (target : Path) (content stamp : Text) : Action WritePlan := do
  let existing ← if ← Action.fileExists target then some <$> Action.readText target else pure none
  let plan ← WritePlan.make target content existing stamp
  plan.apply
  return plan

end FluidScss
