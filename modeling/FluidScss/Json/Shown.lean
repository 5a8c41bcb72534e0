/-
FluidScss/Json/Shown.lean

Values as messages and generated files show them.  A value on its own is
`shown`: a text as it is, everything else as its `literal`.  In a literal
texts are quoted, lists stand in brackets and members in braces, with a comma
and a blank between two; null, true and false are `None`, `True` and
`False`.
-/
import FluidScss.Decimal.Shortest
import FluidScss.Json
import FluidScss.Text.Quoted

namespace FluidScss

namespace Json

mutual

/-- A value as a literal. -/
def literal : Json → Text
  | .null => "None"
  | .bool b => if b then "True" else "False"
  | .int n => Text.ofInt n
  | .num x => x.shown "inf" "nan"
  | .str text => Text.quoted text
  | .arr items => "[" ++ Text.join ", " (literals items) ++ "]"
  | .obj members => "\x7b" ++ Text.join ", " (memberLiterals members) ++ "\x7d"

/-- The literals of values, in order. -/
def literals : List Json → List Text
  | [] => []
  | item :: items => item.literal :: literals items

/-- The literals of members, key and value. -/
def memberLiterals : List (Text × Json) → List Text
  | [] => []
  | (key, value) :: rest => (Text.quoted key ++ ": " ++ value.literal) :: memberLiterals rest

end

/-- A value on its own. -/
def shown : Json → Text
  | .str text => text
  | value => value.literal

end Json

end FluidScss
