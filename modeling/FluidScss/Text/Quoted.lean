/-
FluidScss/Text/Quoted.lean

Texts in quotes, as messages show them.  Single quotes are used unless the
text holds one and no double quote.  The quote in use, the backslash and the
characters that are not printable are written with a backslash.
-/
import FluidScss.Text.Printable

namespace FluidScss

/-- The `width` lowest hexadecimal digits of `n`, in lower case. -/
def hexDigits (width n : Nat) : Text :=
  let digits := Nat.toDigits 16 n
  List.replicate (width - digits.length) '0' ++ digits

namespace Text

/-- One character of a quoted text, where `quote` encloses it. -/
def quotedChar (quote c : Char) : Text :=
  if c = quote || c = '\\' then ['\\', c]
  else if c = '\n' then "\\n"
  else if c = '\r' then "\\r"
  else if c = '\t' then "\\t"
  else if isPrintable c then [c]
  else if c.toNat < 0x100 then "\\x" ++ hexDigits 2 c.toNat
  else if c.toNat < 0x10000 then "\\u" ++ hexDigits 4 c.toNat
  else "\\U" ++ hexDigits 8 c.toNat

/-- The quote that encloses `text`. -/
def quoteFor (text : Text) : Char :=
  if '\'' ∈ text ∧ '"' ∉ text then '"' else '\''

/-- The text in quotes. -/
def quoted (text : Text) : Text :=
  [quoteFor text] ++ text.flatMap (quotedChar (quoteFor text)) ++ [quoteFor text]

end Text

end FluidScss
