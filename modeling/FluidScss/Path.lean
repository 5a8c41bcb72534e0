/-
FluidScss/Path.lean

Paths in the notation of POSIX.  Reading a path drops empty components and
single dots and keeps double dots, for what they lead to depends on the file
tree; a path that begins with exactly two slashes has a root of its own.

`normalize` is the lexical reading of a path: a double dot takes back the
component before it.  That is where the path leads, if it leads anywhere, for
file trees have no links (`FluidScss/FileTree`).

A path cannot hold the NUL character.  Such a text still makes a `Path`, but
no file has it, and normalising it fails (`normalize?`).
-/
import FluidScss.Text

namespace FluidScss

/-- What a path is taken from. -/
inductive Root
  | relative
  | single
  | double
deriving DecidableEq

/-- A path: its root and its components. -/
structure Path where
  root : Root
  parts : List Text
deriving DecidableEq

namespace Path

/-! ### Reading and writing -/

/-- The root of a path's text and the text behind it. -/
def rootOf : Text → Root × Text
  | '/' :: '/' :: '/' :: rest => (.single, rest)
  | '/' :: '/' :: rest => (.double, rest)
  | '/' :: rest => (.single, rest)
  | text => (.relative, text)

/-- Whether a component is kept. -/
def isComponent (part : Text) : Bool := part ≠ [] && part ≠ ['.']

/-- The path that a text spells. -/
def ofText (text : Text) : Path :=
  let (root, rest) := rootOf text
  ⟨root, (Text.splitOn '/' rest).filter isComponent⟩

/-- The text of a root. -/
def rootText : Root → Text
  | .relative => []
  | .single => ['/']
  | .double => ['/', '/']

/-- The text of a path; the empty path is a dot. -/
def toText (p : Path) : Text :=
  match p with
  | ⟨.relative, []⟩ => ['.']
  | ⟨root, parts⟩ => rootText root ++ Text.join ['/'] parts

/-- The text with every backslash turned into a slash. -/
def posix (text : Text) : Text := text.map fun c => if c = '\\' then '/' else c

/-! ### Parts -/

/-- Whether the path begins at a root. -/
def isAbsolute (p : Path) : Bool := p.root ≠ .relative

/-- The path `q` taken from `p`; an absolute `q` stays as it is. -/
def join (p q : Path) : Path := if q.isAbsolute then q else { p with parts := p.parts ++ q.parts }

/-- The path with one more component. -/
def child (p : Path) (name : Text) : Path := { p with parts := p.parts ++ [name] }

/-- The path without its last component. -/
def parent (p : Path) : Path := { p with parts := p.parts.dropLast }

/-- The last component, or nothing. -/
def name (p : Path) : Text := p.parts.getLast?.getD []

/-- The path with another last component, if it has one. -/
def withName? (p : Path) (name : Text) : Option Path :=
  if p.name = [] then none else some (p.parent.child name)

/-- The length of a file name up to its last dot, unless that dot begins or
ends it. -/
def stemLength (name : Text) : Nat :=
  match Text.breakOn ['.'] name.reverse with
  | some (ending, stem) => if ending = [] ∨ stem = [] then name.length else stem.length
  | none => name.length

/-- The last component without its ending. -/
def stem (p : Path) : Text := p.name.take (stemLength p.name)

/-- The path with another ending, if it has a name. -/
def withEnding? (p : Path) (ending : Text) : Option Path := p.withName? (p.stem ++ ending)

/-! ### Normalising -/

/-- One component walked on from the components `stack`, latest first. -/
def walkPart (stack : List Text) (part : Text) : List Text :=
  if part = ['.', '.'] then stack.tail else part :: stack

/-- The components with double dots taken back; the root has no parent. -/
def normalParts (parts : List Text) : List Text := (parts.foldl walkPart []).reverse

/-- The absolute path without double dots that the path spells. -/
def normalize (p : Path) : Path := ⟨.single, normalParts p.parts⟩

/-- Whether a component holds the NUL character. -/
def hasNul (p : Path) : Bool := p.parts.any fun part => '\x00' ∈ part

/-- The normal form of a path that can name a file. -/
def normalize? (p : Path) : Option Path := if p.hasNul then none else some p.normalize

/-! ### Relative paths -/

/-- What is behind the components `base`, if the list begins with them. -/
def dropParts? : List Text → List Text → Option (List Text)
  | [], parts => some parts
  | _ :: _, [] => none
  | b :: base, p :: parts => if b = p then dropParts? base parts else none

/-- The path `p` taken from `base`, if it lies there by its components. -/
def relativeTo? (p base : Path) : Option Path :=
  if p.root = base.root then (dropParts? base.parts p.parts).map fun parts => ⟨.relative, parts⟩
  else none

/-- Whether `p` lies at or below `base` by its components. -/
def isWithin (p base : Path) : Bool := (p.relativeTo? base).isSome

end Path

end FluidScss
