/-
FluidScss/Watch/Event.lean

File events and who hears of them.  A handler has patterns of files to hear
of and patterns to ignore.  An event passes if one of its paths, where it
happened or where it led, matches a pattern and none to ignore; directories
never pass.  Of the events that pass, a file created or modified is reported
by its path, and a file moved by where it went.

A pattern may not be on both lists.
-/
import FluidScss.Fault
import FluidScss.Names
import FluidScss.Watch.Pattern

namespace FluidScss

/-- What happened to a file. -/
inductive EventKind
  | created
  | modified
  | deleted
  | closed
  | opened
  | moved
deriving DecidableEq

/-- A file event; only a move has a destination. -/
structure FileEvent where
  kind : EventKind
  source : Text
  destination : Text := []
  isDirectory : Bool := false
deriving DecidableEq

/-- The patterns of a handler: files to hear of and files to ignore. -/
structure ChangeFilter where
  patterns : List Text
  ignored : List Text := []
deriving DecidableEq

namespace ChangeFilter

/-- The filter of compiled stylesheets. -/
def css : ChangeFilter := ⟨["*.css"], []⟩

/-- The filter of sources. -/
def responsive : ChangeFilter := ⟨["*.scss"], [overridesStem ++ "*" ++ overridesEnding]⟩

/-- Whether a path matches one of the patterns. -/
def anyMatches (path : Text) : List Text → Except Fault Bool
  | [] => .ok false
  | pattern :: patterns =>
    match matchesPattern? (Text.lower pattern) path with
    | none => .error .invalidValue
    | some true => .ok true
    | some false => anyMatches path patterns

/-- Whether a path is one to hear of. -/
def admits (f : ChangeFilter) (path : Text) : Except Fault Bool := do
  if f.patterns.any fun p => Text.lower p ∈ f.ignored.map Text.lower then throw .invalidValue
  if ← anyMatches path f.patterns then return !(← anyMatches path f.ignored)
  else return false

/-- Whether an event passes. -/
def passes (f : ChangeFilter) (e : FileEvent) : Except Fault Bool := do
  if e.isDirectory then return false
  if ← f.admits e.destination then return true
  if e.source = [] then return false
  f.admits e.source

/-- The path by which an event is reported, if its kind is. -/
def reportedPath? (e : FileEvent) : Option Text :=
  match e.kind with
  | .created => some e.source
  | .modified => some e.source
  | .moved => some e.destination
  | _ => none

/-- The paths that an event reports to its handler. -/
def dispatch (f : ChangeFilter) (e : FileEvent) : Except Fault (List Path) := do
  if ← f.passes e then return ((reportedPath? e).map Path.ofText).toList
  else return []

end ChangeFilter

end FluidScss
