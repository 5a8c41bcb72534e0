/-
FluidScss/Workspace.lean

Work on a project: a file tree that changes, a log that grows, and faults.
An `Action` that fails keeps what it did before, as files written stay
written.

Reading a text file unifies its newlines; writing keeps them.  A path with
the NUL character leads to nothing, and cannot be read, written or made.  Names
may have any length; `lookUp` alone is a question that the system may refuse.
-/
import FluidScss.Fault
import FluidScss.Text.Utf8

namespace FluidScss

/-- How serious a line of the log is. -/
inductive Level
  | info
  | warning
  | error
deriving DecidableEq

/-- The word of a level. -/
def Level.name : Level → Text
  | .info => "INFO"
  | .warning => "WARNING"
  | .error => "ERROR"

/-- A line of the log. -/
structure LogLine where
  level : Level
  message : Text
deriving DecidableEq

/-- A project's files and what was logged so far. -/
structure Workspace where
  tree : FileTree
  log : List LogLine := []

/-- Work on a project that may fail. -/
abbrev Action := ExceptT Fault (StateM Workspace)

namespace Action

/-- The files as they are now. -/
def tree : Action FileTree := return (← get).tree

/-- Adds a line to the log. -/
def log (level : Level) (message : Text) : Action Unit :=
  modify fun w => { w with log := w.log ++ [⟨level, message⟩] }

/-- The result of a system call on a path. -/
def ofSystem {α : Type} (p : Path) : Except SystemFault α → Action α
  | .ok a => return a
  | .error fault => throw (.system fault p)

/-- Changes the files by a system call on a path that can name a file. -/
def change (p : Path) (f : FileTree → Except SystemFault FileTree) : Action Unit := do
  if p.hasNul then throw .invalidValue
  let t ← ofSystem p (f (← tree))
  modify fun w => { w with tree := t }

/-! ### Questions -/

/-- Whether a path leads to something. -/
def fileExists (p : Path) : Action Bool := return (← tree).has p

/-- Whether a path leads to something, asked of a system that may refuse. -/
def lookUp (p : Path) : Action Bool := do
  let t ← tree
  if t.refuses p then throw (.system .nameTooLong p)
  return t.has p

/-- Whether a path leads to a directory. -/
def isDirectory (p : Path) : Action Bool := return (← tree).isDirectory p

/-- Whether a path leads to a file. -/
def isFile (p : Path) : Action Bool := return (← tree).isFile p

/-- The normal form of a path. -/
def normalize (p : Path) : Action Path :=
  match p.normalize? with
  | some p => return p
  | none => throw .invalidValue

/-! ### Files -/

/-- The bytes of a file. -/
def readBytes (p : Path) : Action ByteArray := do
  if p.hasNul then throw .invalidValue
  ofSystem p ((← tree).readBytes p)

/-- The text that bytes spell, read by `decode`. -/
def decoded (decode : ByteArray → Option Text) (bytes : ByteArray) : Action Text :=
  match decode bytes with
  | some text => return text
  | none => throw .notUtf8

/-- The text of a file, its newlines unified. -/
def readText (p : Path) : Action Text := do decoded Text.read? (← readBytes p)

/-- The text of a source file, without a byte order mark. -/
def readSource (p : Path) : Action Text := do decoded Text.readSource? (← readBytes p)

/-- The text of a file with its newlines as they are. -/
def readRaw (p : Path) : Action Text := do decoded Text.decode? (← readBytes p)

/-- Writes a text to a file. -/
def writeText (p : Path) (text : Text) : Action Unit := change p (·.writeBytes p (Text.encode text))

/-! ### Directories -/

/-- Makes a directory that may exist already; the one around it must. -/
def makeDirectoryIn (p : Path) : Action Unit := do
  if p.hasNul then throw .invalidValue
  match (← tree).makeDirectory p with
  | .ok t => modify fun w => { w with tree := t }
  | .error .notFound => throw (.system .notFound p)
  | .error fault => unless (← isDirectory p) do throw (.system fault p)

/-- Makes a directory and those around it: where the one around is missing,
it is made first.  The components come in reverse. -/
def makeDirectoriesFrom (root : Root) : List Text → Action Unit
  | [] => makeDirectoryIn ⟨root, []⟩
  | part :: parts => do
    let p : Path := ⟨root, (part :: parts).reverse⟩
    if p.hasNul then throw .invalidValue
    match (← tree).makeDirectory p with
    | .error .notFound =>
      makeDirectoriesFrom root parts
      makeDirectoryIn p
    | _ => makeDirectoryIn p

/-- Makes a directory and those around it; they may exist already. -/
def makeDirectories (p : Path) : Action Unit := makeDirectoriesFrom p.root p.parts.reverse

/-! ### Failing -/

/-- The result of work or its fault; what was done stays. -/
def attempt {α : Type} (a : Action α) : Action (Except Fault α) := fun w =>
  match a w with
  | (result, w) => (.ok result, w)

end Action

end FluidScss
