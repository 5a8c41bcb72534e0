/-
FluidScss/Sheet/Outline.lean

The outline of a style sheet: its lexemes grouped by braces and semicolons,
before anyone asks what a statement means.

An `Item` is a semicolon on its own, a statement (chunks closed by a
semicolon) or a block (chunks, and a body in braces).  The last statement of
a body, or of the sheet, may go without its semicolon; it is kept apart as
`last`.

`Outline.read?` groups the lexemes from left to right with the open blocks on
a stack.  A sheet is malformed at the first character where no lexeme
begins, at a closing brace that closes nothing, or, when it ends inside a
block, at its last lexeme that is not ignored.
-/
import FluidScss.Sheet.Lexeme

namespace FluidScss

/-! ### Positions -/

/-- A place in a text: line and column, both from one; only LF ends a line. -/
structure Position where
  line : Nat := 1
  column : Nat := 1
deriving DecidableEq

namespace Position

/-- The place behind one more character. -/
def next (p : Position) (c : Char) : Position :=
  if c = '\n' then ⟨p.line + 1, 1⟩ else ⟨p.line, p.column + 1⟩

/-- The place behind a text that begins here. -/
def after (p : Position) (text : Text) : Position := text.foldl next p

end Position

/-- The lexemes with the places where they begin. -/
def place (p : Position) : List Lexeme → List (Position × Lexeme)
  | [] => []
  | l :: ls => (p, l) :: place (p.after l.source) ls

/-! ### Outlines -/

/-- The text of a chunk and the line where it begins. -/
structure Chunk where
  text : Text
  line : Nat
deriving DecidableEq

/-- A part of a sheet as braces and semicolons cut it.  A block without
chunks in front of its brace has an empty `head`. -/
inductive Item
  | empty
  | statement (chunks : List Chunk)
  | block (head : List Chunk) (body : List Item) (last : List Chunk)

/-- The items of a sheet, and the chunks behind the last of them. -/
structure Outline where
  items : List Item
  last : List Chunk

/-- What is wrong with a sheet. -/
inductive SheetDefect
  | malformed (position : Position)
  | tooDeep
deriving DecidableEq

namespace Outline

/-- A block whose brace is still open, with the items read before it, the
latest first. -/
structure OpenBlock where
  head : List Chunk
  before : List Item

/-- A sheet read in part: the open blocks, the innermost first, and in the
innermost body the items and then the chunks read so far, the latest first. -/
structure Progress where
  outer : List OpenBlock := []
  items : List Item := []
  chunks : List Chunk := []

/-- Reads one lexeme; a closing brace needs an open block. -/
def Progress.step (p : Progress) : Position × Lexeme → Except SheetDefect Progress
  | (_, .ignored _) => .ok p
  | (at_, .chunk text) => .ok { p with chunks := ⟨text, at_.line⟩ :: p.chunks }
  | (_, .semicolon) =>
    let item := if p.chunks.isEmpty then .empty else .statement p.chunks.reverse
    .ok { p with items := item :: p.items, chunks := [] }
  | (_, .openBrace) => .ok { outer := ⟨p.chunks.reverse, p.items⟩ :: p.outer }
  | (at_, .closeBrace) =>
    match p.outer with
    | [] => .error (.malformed at_)
    | b :: outer =>
      .ok { outer, items := .block b.head p.items.reverse p.chunks.reverse :: b.before }

/-- Reads lexemes from left to right. -/
def Progress.steps (p : Progress) : List (Position × Lexeme) → Except SheetDefect Progress
  | [] => .ok p
  | l :: ls =>
    match p.step l with
    | .ok p => p.steps ls
    | .error defect => .error defect

/-- Whether a lexeme belongs to the sheet's structure. -/
def isSignificant : Position × Lexeme → Bool
  | (_, .ignored _) => false
  | _ => true

/-- The greatest number of blocks open at once, where `depth` are open. -/
def deepest (depth : Nat) : List Lexeme → Nat
  | [] => depth
  | .openBrace :: ls => max depth (deepest (depth + 1) ls)
  | .closeBrace :: ls => max depth (deepest (depth - 1) ls)
  | _ :: ls => deepest depth ls

/-- The deepest nesting of blocks that is read. -/
def nestingLimit : Nat := 500

/-- The outline of a sheet. -/
def read? (source : Text) : Except SheetDefect Outline :=
  let (found, rest) := lexemes source
  let placed := place {} found
  match Progress.steps {} placed with
  | .error defect => .error defect
  | .ok p =>
    if rest ≠ [] then .error (.malformed (Position.after {} (found.flatMap Lexeme.source)))
    else if p.outer ≠ [] then
      .error (.malformed (((placed.filter isSignificant).getLast?.map Prod.fst).getD {}))
    else if nestingLimit < deepest 0 found then .error .tooDeep
    else .ok ⟨p.items.reverse, p.chunks.reverse⟩

end Outline

end FluidScss
