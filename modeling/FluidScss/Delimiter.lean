/-
FluidScss/Delimiter.lean

Quotes and parentheses.  Two scans share one rule for quotes, written once
as `Quoting.step`: a quote character outside of strings opens a string, and
the same character closes it again unless a backslash stands right before
it.  Characters outside of strings that are no quotes are *bare*; only bare
parentheses count.

* `breakAtClose` reads from just behind an opening parenthesis to the one
  that closes it; `closingParen` is its position in a text.
* `splitTopLevel` cuts at the bare separators outside of all parentheses.
  `pieces` are the raw parts; joined by the separator they give the text
  back (`join_pieces`).  The result trims them and drops a last one that is
  blank.

The splitting scan forgives a closing parenthesis too many; the closing scan
never meets one, for it stops there.
-/
import FluidScss.Text.Blank

namespace FluidScss

/-! ### Quotes -/

/-- Where a scan stands: the character read last and the quote that is open. -/
structure Quoting where
  last : Option Char := none
  quote : Option Char := none
deriving DecidableEq

/-- The characters that delimit strings. -/
def isQuote (c : Char) : Bool := c = '\'' || c = '"'

namespace Quoting

/-- The scan after the character `c`. -/
def step (s : Quoting) (c : Char) : Quoting where
  last := some c
  quote :=
    match s.quote with
    | some q => if c = q ∧ s.last ≠ some '\\' then none else some q
    | none => if isQuote c then some c else none

/-- Whether `c`, read next, stands outside of strings and opens none. -/
def bare (s : Quoting) (c : Char) : Bool := s.quote.isNone && !isQuote c

/-- The number of open parentheses after `c`; one too many closes nothing. -/
def depthAfter (s : Quoting) (depth : Nat) (c : Char) : Nat :=
  if s.bare c then
    if c = '(' then depth + 1 else if c = ')' then depth - 1 else depth
  else depth

end Quoting

/-! ### The closing parenthesis -/

/-- The text up to the parenthesis that closes the one open outside of all
`depth` others, and the text behind it. -/
def breakAtCloseFrom (s : Quoting) (depth : Nat) : Text → Option (Text × Text)
  | [] => none
  | c :: rest =>
    if s.bare c ∧ c = ')' ∧ depth = 0 then some ([], rest)
    else (breakAtCloseFrom (s.step c) (s.depthAfter depth c) rest).map
      fun (inside, after) => (c :: inside, after)

/-- What stands between an opening parenthesis, just read, and the one that
closes it, and the text behind it. -/
def breakAtClose (text : Text) : Option (Text × Text) := breakAtCloseFrom {} 0 text

/-- The position of the parenthesis that closes one opened just before
`start`. -/
def closingParen (text : Text) (start : Nat) : Option Nat :=
  (breakAtClose (text.drop start)).map fun (inside, _) => start + inside.length

theorem eq_of_breakAtCloseFrom {s : Quoting} {depth : Nat} {text inside after : Text}
    (h : breakAtCloseFrom s depth text = some (inside, after)) :
    text = inside ++ ')' :: after := by
  induction text generalizing s depth inside with
  | nil => simp [breakAtCloseFrom] at h
  | cons c rest ih =>
    rw [breakAtCloseFrom] at h
    split at h
    · rename_i hc
      simp only [Option.some.injEq, Prod.mk.injEq] at h
      obtain ⟨rfl, rfl⟩ := h
      simp [hc.2.1]
    · obtain ⟨⟨i, a⟩, hi, he⟩ := Option.map_eq_some_iff.1 h
      simp only [Prod.mk.injEq] at he
      obtain ⟨rfl, rfl⟩ := he
      simp [ih hi]

/-- The closing parenthesis splits the text. -/
theorem eq_of_breakAtClose {text inside after : Text}
    (h : breakAtClose text = some (inside, after)) : text = inside ++ ')' :: after :=
  eq_of_breakAtCloseFrom h

theorem length_of_breakAtClose {text inside after : Text}
    (h : breakAtClose text = some (inside, after)) : after.length < text.length := by
  have := congrArg List.length (eq_of_breakAtClose h)
  simp only [List.length_append, List.length_cons] at this
  omega

/-! ### Splitting at the top level -/

/-- The raw parts between separators, where `depth` parentheses are open. -/
def piecesFrom (sep : Text) (s : Quoting) (depth : Nat) : Text → List Text
  | [] => [[]]
  | c :: rest =>
    if s.bare c ∧ c ≠ '(' ∧ c ≠ ')' ∧ [c] = sep ∧ depth = 0 then
      [] :: piecesFrom sep (s.step c) depth rest
    else Text.consHead c (piecesFrom sep (s.step c) (s.depthAfter depth c) rest)

/-- The raw parts between the separators outside of parentheses and strings. -/
def pieces (sep text : Text) : List Text := piecesFrom sep {} 0 text

/-- The parts without their outer blanks.  Empty parts stay, except at the
end.  A separator is compared with single characters, so that one of any
other length never separates. -/
def splitTopLevel (sep text : Text) : List Text :=
  let parts := (pieces sep text).map Text.trim
  if parts.getLast? = some [] then parts.dropLast else parts

theorem piecesFrom_ne_nil (sep : Text) (s : Quoting) (depth : Nat) (text : Text) :
    piecesFrom sep s depth text ≠ [] := by
  cases text with
  | nil => simp [piecesFrom]
  | cons c rest =>
    rw [piecesFrom]
    split
    · simp
    · cases piecesFrom sep (s.step c) (s.depthAfter depth c) rest <;> simp [Text.consHead]

theorem join_piecesFrom (c : Char) (s : Quoting) (depth : Nat) (text : Text) :
    Text.join [c] (piecesFrom [c] s depth text) = text := by
  induction text generalizing s depth with
  | nil => simp [piecesFrom, Text.join, List.intercalate]
  | cons d rest ih =>
    rw [piecesFrom]
    split
    · rename_i hd
      have hdc : d = c := by simpa using hd.2.2.2.1
      rw [Text.join_nil_cons _ (piecesFrom_ne_nil _ _ _ _), ih, hdc]
      rfl
    · rw [Text.join_consHead _ _ (piecesFrom_ne_nil _ _ _ _), ih]

/-- Splitting loses nothing: the raw parts joined give the text back. -/
theorem join_pieces (c : Char) (text : Text) : Text.join [c] (pieces [c] text) = text :=
  join_piecesFrom c {} 0 text

end FluidScss
