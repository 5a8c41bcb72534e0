/-
FluidScss/Snapshot.lean

Snapshots of projects.  A snapshot is a JSON object: every path with the text
of its file, with the numbers of its bytes where they are no text, or with
null for a directory.  Paths are taken from the root of the tree, and the
directories around a file need not be listed.

`Snapshot.report` tells what a command did to a snapshot: its reply, the log
and the changes, in the same form.
-/
import FluidScss.Command
import FluidScss.FileTree.Changes

namespace FluidScss

/-- Writes bytes to a file, with the directories around it. -/
def Action.plant (p : Path) (bytes : ByteArray) : Action Unit := do
  Action.makeDirectories p.parent
  Action.change p (·.writeBytes p bytes)

/-- Takes a path and all below it out of the tree.  A directory is emptied
first and then looked up again, so that one whose path leads through what was
below it stays. -/
def Action.uproot (p : Path) : Action Unit := do
  if p.hasNul then throw .invalidValue
  let place ← ofSystem p ((← Action.tree).locate p)
  modify fun w => { w with tree := w.tree.clear place }
  change p fun t => (t.locate p).map t.prune

namespace Snapshot

/-- The directory from which paths are taken. -/
def directory : Path := ⟨.single, []⟩

/-- A byte that a value gives. -/
def byte? : Json → Option UInt8
  | .int n => if 0 ≤ n ∧ n < 256 then some (UInt8.ofNat n.toNat) else none
  | _ => none

/-- Puts a path of a snapshot into the tree. -/
def plant (name : Text) (content : Json) : Action Unit :=
  let p := (directory.join (Path.ofText name)).normalize
  match content with
  | .null => Action.makeDirectories p
  | .str text => Action.plant p (Text.encode text)
  | .arr items =>
    match items.mapM byte? with
    | some bytes => Action.plant p ⟨bytes.toArray⟩
    | none => throw .wrongType
  | _ => throw .wrongType

/-- Puts the paths of a snapshot into the tree, in order. -/
def plantAll : List (Text × Json) → Action Unit
  | [] => return ()
  | (name, content) :: rest => do
    plant name content
    plantAll rest

/-- The content of a file as a snapshot gives it. -/
def content (bytes : ByteArray) : Json :=
  match Text.decode? bytes with
  | some text => .str text
  | none => .arr (bytes.toList.map fun b => .int b.toNat)

/-- The places of a list as a snapshot gives them. -/
def places (found : List Place) : Json := .arr (found.map fun p => .str (Place.seenFrom [] p))

/-- The log as a snapshot gives it. -/
def logLines (log : List LogLine) : Json :=
  .arr (log.map fun l => .str (l.level.name ++ " " ++ l.message))

/-- What a command answered, with the log and the changes. -/
def report (answered : Except Fault Reply) (before after : Workspace) : Json :=
  let changes := before.tree.changes after.tree
  let outcome : List (Text × Json) := match answered with
    | .ok reply => [("status", .int reply.status), ("output", .str reply.output)]
    | .error fault => [("fault", .str fault.message)]
  let effects : List (Text × Json) :=
    [("log", logLines after.log),
     ("files", .obj (changes.written.map fun (p, bytes) => (Place.seenFrom [] p, content bytes))),
     ("directories", places changes.made), ("removed", places changes.removed)]
  .obj (outcome ++ effects)

/-- Carries out a command line on a snapshot. -/
def run (members : List (Text × Json)) (line : List Text) : Except Fault Json :=
  match plantAll members { tree := {} } with
  | (.error fault, _) => .error fault
  | (.ok (), before) =>
    let (answered, after) := answer directory (fun _ => .missing) line before
    .ok (report answered before after)

end Snapshot

end FluidScss
