/-
FluidScss/Important.lean

The `!important` flag at the end of a value.  It is written in any case; the
dotted capital I and the dotless small one stand for `i` too.  A style sheet
may have blanks between the exclamation mark and the word, a single line
that is read on its own may not, which is the `gap` of `splitImportant`.
-/
import FluidScss.Text.Blank

namespace FluidScss

/-- Whether `c` is the small letter `letter`, case aside. -/
def matchesLetter (c letter : Char) : Bool :=
  c.toLower = letter || (letter = 'i' && (c = '\u0130' || c = '\u0131'))

/-- What follows `word` at the front of the text, case aside. -/
def dropWord? : Text → Text → Option Text
  | [], text => some text
  | _ :: _, [] => none
  | letter :: word, c :: text => if matchesLetter c letter then dropWord? word text else none

/-- The text before an exclamation mark and the word `important` that end
`value`, trimmed. -/
def beforeImportant? (gap : Bool) (value : Text) : Option Text :=
  match dropWord? "tnatropmi" (value.reverse.dropWhile isBlank) with
  | some rest =>
    match if gap then rest.dropWhile isBlank else rest with
    | '!' :: before => some (Text.trim before.reverse)
    | _ => none
  | none => none

/-- A value without its flag, and whether it had one. -/
def splitImportant (gap : Bool) (value : Text) : Text × Bool :=
  match beforeImportant? gap value with
  | some before => (before, true)
  | none => (value, false)

/-- The value with the flag, if it is set. -/
def withImportant (value : Text) (important : Bool) : Text :=
  if important then value ++ " !important" else value

end FluidScss
