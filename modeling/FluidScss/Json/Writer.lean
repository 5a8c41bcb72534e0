/-
FluidScss/Json/Writer.lean

Writing a JSON text, indented by two blanks a level; empty arrays and objects
stay on one line.  Strings are written in ASCII (`Charset.ascii`), other
characters as the escapes of their code units, or as they are
(`Charset.unicode`).
-/
import FluidScss.Decimal.Shortest
import FluidScss.Json
import FluidScss.Text.Quoted

namespace FluidScss

/-- Which characters of a string are written as they are. -/
inductive Charset
  | ascii
  | unicode
deriving DecidableEq

/-- The escape of a code unit. -/
def unitEscape (unit : Nat) : Text := "\\u" ++ hexDigits 4 unit

/-- The escapes of the code units of a character. -/
def charEscape (c : Char) : Text :=
  if c.toNat < 0x10000 then unitEscape c.toNat
  else
    let n := c.toNat - 0x10000
    unitEscape (0xd800 + n / 0x400) ++ unitEscape (0xdc00 + n % 0x400)

/-- Whether a character is written as it is. -/
def Charset.keeps : Charset → Char → Bool
  | .ascii, c => 0x20 ≤ c.toNat && c.toNat < 0x7f
  | .unicode, c => 0x20 ≤ c.toNat

/-- One character of a string. -/
def Charset.writeChar (s : Charset) (c : Char) : Text :=
  match c with
  | '"' => "\\\""
  | '\\' => "\\\\"
  | '\n' => "\\n"
  | '\r' => "\\r"
  | '\t' => "\\t"
  | '\x08' => "\\b"
  | '\x0c' => "\\f"
  | c => if s.keeps c then [c] else charEscape c

/-- A string in double quotes. -/
def Charset.writeText (s : Charset) (text : Text) : Text :=
  "\"" ++ text.flatMap s.writeChar ++ "\""

/-- A line break and the indentation of a level. -/
def lineStart (level : Nat) : Text := '\n' :: List.replicate (2 * level) ' '

/-- Entries between brackets, each on a line of its own. -/
def bracketed (opening closing : Text) (level : Nat) (entries : List Text) : Text :=
  if entries = [] then opening ++ closing
  else opening ++ lineStart (level + 1) ++ Text.join ("," ++ lineStart (level + 1)) entries
    ++ lineStart level ++ closing

namespace Json

mutual

/-- A value at a level of indentation. -/
def writeAt (s : Charset) (level : Nat) : Json → Text
  | .null => "null"
  | .bool b => if b then "true" else "false"
  | .int n => Text.ofInt n
  | .num x => x.shown "Infinity" "NaN"
  | .str text => s.writeText text
  | .arr items => bracketed "[" "]" level (writeItems s (level + 1) items)
  | .obj members => bracketed "\x7b" "\x7d" level (writeMembers s (level + 1) members)

/-- Values at a level of indentation, in order. -/
def writeItems (s : Charset) (level : Nat) : List Json → List Text
  | [] => []
  | item :: items => item.writeAt s level :: writeItems s level items

/-- Members at a level of indentation, key and value. -/
def writeMembers (s : Charset) (level : Nat) : List (Text × Json) → List Text
  | [] => []
  | (key, value) :: rest =>
    (s.writeText key ++ ": " ++ value.writeAt s level) :: writeMembers s level rest

end

/-- The text of a value. -/
def write (s : Charset) (value : Json) : Text := value.writeAt s 0

end Json

end FluidScss
