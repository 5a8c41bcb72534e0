/-
FluidScss/Watch/Pattern.lean

File name patterns.  A pattern is a list of globs, one for each component,
and is compared from the last component on, case aside; a pattern with an
anchor (a root, a drive or a share) must match the whole path.  Slashes and
backslashes both separate, in paths and in patterns.

In a glob `*` stands for any text, `?` for any character and brackets for one
of the characters or ranges in them, or with `!` in front for any other one;
a bracket that is not closed stands for itself.  Ranges from a higher to a
lower character are taken out of the brackets first, so that `!` may come to
the front, and brackets may hold nothing.

Main fact: matching, which looks at every character once for each part,
decides the relation between globs and the texts they spell (`spells_iff`).
-/
import FluidScss.Text.Lower

namespace FluidScss

/-! ### Globs -/

/-- A part of a glob. -/
inductive Glob
  | many
  | one
  | literal (c : Char)
  | among (negated : Bool) (ranges : List (Char × Char))
deriving DecidableEq

namespace Glob

/-! ### Brackets -/

/-- What stands in brackets, behind the opening one, and the text behind the
closing one; a closing bracket that comes first stands for itself. -/
def bracket? (text : Text) : Option (Text × Text) :=
  let negation := if text.head? = some '!' then 1 else 0
  let first := if (text.drop negation).head? = some ']' then negation + 1 else negation
  (Text.breakOn [']'] (text.drop first)).map fun (inside, after) =>
    (text.take first ++ inside, after)

/-- The pieces between the hyphens that join two characters to a range.  The
first `skip` characters hold no such hyphen, nor do the two behind one, and
a hyphen at the end joins nothing. -/
def pieces (skip : Nat) (text : Text) : List Text :=
  match _h : Text.breakOn ['-'] (text.drop skip) with
  | none => [text]
  | some (_, []) => [text]
  | some (before, c :: after) => (text.take skip ++ before) :: pieces 2 (c :: after)
termination_by text.length
decreasing_by
  have := Text.length_of_breakOn (by simp) _h
  simp only [List.length_drop] at this
  omega

/-- Whether the last character of one piece and the first of the next are a
range that holds nothing. -/
def isEmptyRange (left right : Text) : Bool :=
  match left.getLast?, right.head? with
  | some low, some high => high < low
  | _, _ => false

/-- The pieces without their empty ranges: the two ends of such a range go,
and what is left of the two pieces becomes one. -/
def dropEmptyRanges : List Text → List Text
  | [] => []
  | left :: rest =>
    match dropEmptyRanges rest with
    | [] => [left]
    | right :: more =>
      if isEmptyRange left right then (left.dropLast ++ right.tail) :: more
      else left :: right :: more

/-- The range between two pieces; a hyphen behind nothing is itself. -/
def joint (left right : Text) : Char × Char :=
  match left.getLast?, right.head? with
  | some low, some high => (low, high)
  | _, _ => ('-', '-')

/-- The characters of pieces and the ranges between them; a single character
is a range of its own. -/
def ranges : List Text → List (Char × Char)
  | [] => []
  | [piece] => piece.map fun c => (c, c)
  | left :: right :: more => left.map (fun c => (c, c)) ++ joint left right :: ranges (right :: more)

/-- The part of a glob that brackets spell.  An exclamation mark negates if it
stands first once the empty ranges are gone. -/
def ofBracket (inside : Text) : Glob :=
  match dropEmptyRanges (pieces (if inside.head? = some '!' then 2 else 1) inside) with
  | ('!' :: piece) :: more => .among true (ranges (piece :: more))
  | found => .among false (ranges found)

theorem length_bracket? {text inside after : Text} (h : bracket? text = some (inside, after)) :
    after.length < text.length := by
  obtain ⟨⟨b, a⟩, hb, he⟩ := Option.map_eq_some_iff.1 h
  simp only [Prod.mk.injEq] at he
  obtain ⟨_, rfl⟩ := he
  have := Text.length_of_breakOn (by simp) hb
  simp only [List.length_drop] at this
  omega

/-- The parts of a glob. -/
def parse (text : Text) : List Glob :=
  match text with
  | [] => []
  | '*' :: rest => .many :: parse rest
  | '?' :: rest => .one :: parse rest
  | '[' :: rest =>
    match _h : bracket? rest with
    | some (inside, after) => ofBracket inside :: parse after
    | none => .literal '[' :: parse rest
  | c :: rest => .literal c :: parse rest
termination_by text.length
decreasing_by
  all_goals simp only [List.length_cons]
  all_goals first
    | omega
    | exact Nat.lt_succ_of_lt (length_bracket? _h)

/-! ### Matching -/

/-- Whether a part spells the character `c` alone. -/
def admits (c : Char) : Glob → Bool
  | many => false
  | one => true
  | literal d => c = d
  | among negated ranges => (ranges.any fun (low, high) => low ≤ c && c ≤ high) != negated

/-- Parts that spell a text. -/
inductive Spells : List Glob → Text → Prop
  | nil : Spells [] []
  | skip {parts text} : Spells parts text → Spells (many :: parts) text
  | more {parts c text} : Spells (many :: parts) text → Spells (many :: parts) (c :: text)
  | one {part parts c text} : part.admits c = true → Spells parts text →
      Spells (part :: parts) (c :: text)

/-- For the parts and each rest of them, whether they spell the empty text. -/
def emptyRow : List Glob → List Bool
  | [] => [true]
  | part :: parts =>
    let row := emptyRow parts
    (part = many && row.headD false) :: row

/-- For the parts and each rest of them, whether they spell a text that begins
with `c`, given the same for the text behind `c`. -/
def rowBefore (c : Char) : List Glob → List Bool → List Bool
  | part :: parts, here :: rest =>
    let row := rowBefore c parts rest
    (if part = many then here || row.headD false else part.admits c && rest.headD false) :: row
  | _, _ => [false]

/-- For the parts and each rest of them, whether they spell the text. -/
def row (parts : List Glob) (text : Text) : List Bool :=
  text.foldr (fun c row => rowBefore c parts row) (emptyRow parts)

/-- Whether the parts of a glob spell a text. -/
def spells (parts : List Glob) (text : Text) : Bool := (row parts text).headD false

theorem row_cons (part : Glob) (parts : List Glob) (text : Text) :
    row (part :: parts) text = spells (part :: parts) text :: row parts text := by
  induction text with
  | nil => rfl
  | cons c text ih =>
    have h : row (part :: parts) (c :: text)
        = rowBefore c (part :: parts) (row (part :: parts) text) := rfl
    rw [spells, h, ih]
    rfl

theorem spells_many_cons (parts : List Glob) (c : Char) (text : Text) :
    spells (many :: parts) (c :: text)
      = (spells (many :: parts) text || spells parts (c :: text)) := by
  have h : row (many :: parts) (c :: text)
      = rowBefore c (many :: parts) (row (many :: parts) text) := rfl
  rw [spells, h, row_cons]
  simp [rowBefore, spells, row]

theorem spells_cons_cons {part : Glob} (hpart : part ≠ many) (parts : List Glob) (c : Char)
    (text : Text) :
    spells (part :: parts) (c :: text) = (part.admits c && spells parts text) := by
  have h : row (part :: parts) (c :: text)
      = rowBefore c (part :: parts) (row (part :: parts) text) := rfl
  rw [spells, h, row_cons]
  simp [rowBefore, hpart, spells]

theorem spells_cons_nil (part : Glob) (parts : List Glob) :
    spells (part :: parts) [] = (decide (part = many) && spells parts []) := rfl

/-- The rows decide what parts spell. -/
theorem spells_iff {parts : List Glob} {text : Text} :
    spells parts text = true ↔ Spells parts text := by
  induction parts generalizing text with
  | nil =>
    cases text with
    | nil => exact ⟨fun _ => .nil, fun _ => rfl⟩
    | cons c text => exact ⟨fun h => by simp [spells, row, rowBefore] at h, fun h => by cases h⟩
  | cons part parts ih =>
    induction text with
    | nil =>
      rw [spells_cons_nil, Bool.and_eq_true, decide_eq_true_eq, ih]
      constructor
      · rintro ⟨rfl, h⟩; exact .skip h
      · intro h; cases h; exact ⟨rfl, by assumption⟩
    | cons c text iht =>
      by_cases hpart : part = many
      · subst hpart
        rw [spells_many_cons, Bool.or_eq_true, ih, iht]
        constructor
        · rintro (h | h)
          · exact .more h
          · exact .skip h
        · intro h
          cases h with
          | skip h => exact .inr h
          | more h => exact .inl h
          | one h _ => simp [admits] at h
      · rw [spells_cons_cons hpart, Bool.and_eq_true, ih]
        constructor
        · rintro ⟨h1, h2⟩; exact .one h1 h2
        · intro h
          cases h with
          | skip h => exact absurd rfl hpart
          | more h => exact absurd rfl hpart
          | one h1 h2 => exact ⟨h1, h2⟩

/-- Whether a glob matches a text. -/
def covers (glob text : Text) : Bool := spells (parse glob) text

end Glob

/-! ### Anchored paths -/

/-- A path for comparing: its drive or share, its root, and its components,
of which the anchor, if there is one, is the first. -/
structure AnchoredPath where
  drive : Text
  root : Text
  parts : List Text
deriving DecidableEq

namespace AnchoredPath

/-- The mark of a long path, and the text behind it. -/
def splitLong (text : Text) : Text × Text :=
  if ("\\\\?\\" : Text).isPrefixOf text then
    let rest := text.drop 4
    if ("UNC\\" : Text).isPrefixOf rest then (text.take 4 ++ rest.take 3, '\\' :: rest.drop 3)
    else (text.take 4, rest)
  else ([], text)

/-- The share at the front of a text, server and name, and what is behind. -/
def splitShare? (text : Text) : Option (Text × Text) :=
  match text with
  | '\\' :: '\\' :: rest =>
    match Text.cut '\\' rest with
    | (server, some behind) =>
      if server = [] ∨ behind.head? = some '\\' then none
      else
        match Text.cut '\\' behind with
        | (share, behind) => some ('\\' :: '\\' :: server ++ '\\' :: share, behind.getD [])
    | (_, none) => none
  | _ => none

/-- The drive letter at the front of a text and what is behind. -/
def splitDrive (text : Text) : Text × Text :=
  match text with
  | letter :: ':' :: rest => if letter.isAlpha then ([letter, ':'], rest) else ([], text)
  | _ => ([], text)

/-- Drive, root and rest of a text whose separators are backslashes. -/
def splitAnchor (text : Text) : Text × Text × Text :=
  let (long, text) := splitLong text
  match splitShare? text with
  | some (share, rest) => (if long = [] then share else long ++ share.drop 1, ['\\'], rest)
  | none =>
    let (drive, rest) := splitDrive text
    if rest.head? = some '\\' then (long ++ drive, ['\\'], rest.dropWhile (· = '\\'))
    else (long ++ drive, [], rest)

/-- The path that a text spells. -/
def ofText (text : Text) : AnchoredPath :=
  let (drive, root, rest) := splitAnchor (text.map fun c => if c = '/' then '\\' else c)
  let names := (Text.splitOn '\\' rest).filter fun part => part ≠ [] && part ≠ ['.']
  ⟨drive, root, if drive = [] ∧ root = [] then names else (drive ++ root) :: names⟩

end AnchoredPath

/-! ### Patterns -/

/-- Whether the last components match globs, compared from the last on. -/
def endsMatch (globs parts : List Text) : Bool :=
  (globs.reverse.zip parts.reverse).all fun (glob, part) => Glob.covers glob part

/-- Whether a path matches a pattern in lower case; a pattern without
components matches nothing, and is none. -/
def matchesPattern? (pattern path : Text) : Option Bool :=
  let p := AnchoredPath.ofText pattern
  let q := AnchoredPath.ofText path
  let parts := q.parts.map Text.lower
  if p.parts = [] then none
  else if p.drive ≠ [] ∧ p.drive ≠ Text.lower q.drive then some false
  else if p.root ≠ [] ∧ p.root ≠ q.root then some false
  else if p.drive ≠ [] ∨ p.root ≠ [] then
    some (p.parts.length = parts.length && endsMatch p.parts.tail parts)
  else some (p.parts.length ≤ parts.length && endsMatch p.parts parts)

end FluidScss
