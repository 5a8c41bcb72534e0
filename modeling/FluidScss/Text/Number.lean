/-
FluidScss/Text/Number.lean

Numbers given as text.  Around a number blanks are allowed, but not the four
information separators; in front of it a sign.  Digits may be of any decimal
set, with single underscores between two of them.

`readInt?` reads whole numbers of at most `maxDigits` digits.
`readFloat?` reads numbers with a fraction or an exponent or without them,
and the words for infinity and for no number.
-/
import FluidScss.Decimal.Binary64
import FluidScss.Text.Blank
import FluidScss.Text.Digit

namespace FluidScss

/-- Whether `c` may stand around a number. -/
def isNumberBlank (c : Char) : Bool := isBlank c && !(0x1c ≤ c.toNat && c.toNat ≤ 0x1f)

namespace Text

/-- The text without the blanks that may stand around a number. -/
def trimNumber (text : Text) : Text :=
  ((text.dropWhile isNumberBlank).reverse.dropWhile isNumberBlank).reverse

/-- A sign and the text behind it. -/
def splitSign : Text → Bool × Text
  | '-' :: rest => (true, rest)
  | '+' :: rest => (false, rest)
  | text => (false, text)

/-- The digits of a run with single underscores between two of them. -/
def digitRun? : Text → Option Text
  | [] => none
  | [c] => if isDigit c then some [c] else none
  | c :: '_' :: rest => if isDigit c then (digitRun? rest).map (c :: ·) else none
  | c :: rest => if isDigit c then (digitRun? rest).map (c :: ·) else none

/-- The most digits that a whole number may have. -/
def maxDigits : Nat := 4300

/-- The whole number that a text spells. -/
def readInt? (text : Text) : Option Int :=
  let (negative, rest) := splitSign (trimNumber text)
  match digitRun? rest with
  | some digits =>
    if maxDigits < digits.length then none
    else
      let n : Int := digitsToNat digits
      some (if negative then -n else n)
  | none => none

/-- The digits before and behind the point of a text that is digits with at
most one point among or around them. -/
def readMantissa? (text : Text) : Option (Text × Text) :=
  match cut '.' text with
  | (digits, none) => (digitRun? digits).map fun digits => (digits, [])
  | ([], some fraction) => (digitRun? fraction).map fun fraction => ([], fraction)
  | (whole, some []) => (digitRun? whole).map fun whole => (whole, [])
  | (whole, some fraction) =>
    match digitRun? whole, digitRun? fraction with
    | some whole, some fraction => some (whole, fraction)
    | _, _ => none

/-- The exponent that a text spells. -/
def readExponent? (text : Text) : Option Int :=
  let (negative, rest) := splitSign text
  (digitRun? rest).map fun digits =>
    let n : Int := digitsToNat digits
    if negative then -n else n

/-- The number with these digits and this exponent. -/
def decimalNumber (negative : Bool) (digits : Text × Text) (exponent : Int) : Binary64 :=
  .ofDecimal negative (digitsToNat (digits.1 ++ digits.2)) (exponent - digits.2.length)

/-- The words for infinity, in lower case. -/
def infinityWords : List Text := ["inf", "infinity"]

/-- The number that a text spells. -/
def readFloat? (text : Text) : Option Binary64 :=
  let (negative, rest) := splitSign (trimNumber text)
  let rest := rest.map Char.toLower
  if rest ∈ infinityWords then some (.infinite negative)
  else if rest = ("nan" : Text) then some .nan
  else
    match cut 'e' rest with
    | (mantissa, none) => (readMantissa? mantissa).map (decimalNumber negative · 0)
    | (mantissa, some exponent) =>
      match readMantissa? mantissa, readExponent? exponent with
      | some digits, some exponent => some (decimalNumber negative digits exponent)
      | _, _ => none

end Text

end FluidScss
