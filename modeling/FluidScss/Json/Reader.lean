/-
FluidScss/Json/Reader.lean

Reading a JSON text.  The lexemes are taken from left to right with the open
arrays and objects on a stack and, on top, what may come next.  The first
lexeme that may not come is the fault, and what was expected there says
which; behind a complete value any lexeme is extra data.

A repeated key keeps its first place and its last value.
-/
import FluidScss.Json.Lexeme
import FluidScss.Sheet.Outline

namespace FluidScss

/-- Why a JSON text has no value: a fault at a distance from its end, or a
whole number of too many digits. -/
inductive JsonFailure
  | fault (fault : JsonFault) (distance : Nat)
  | oversize
deriving DecidableEq

namespace JsonReader

/-- An array or object whose end is still to come: its items, the latest
first, or its members and the key whose value is being read. -/
inductive Frame
  | array (items : List Json)
  | object (members : List (Text × Json)) (key : Text)

/-- What may come next. -/
inductive Expected
  | value
  | firstItem
  | firstName
  | name (members : List (Text × Json))
  | colon
  | more
  | nothing (value : Json)

/-- A text read in part. -/
structure Progress where
  frames : List Frame := []
  expected : Expected := .value

/-- The progress when a value is complete. -/
def complete (frames : List Frame) (value : Json) : Progress :=
  match frames with
  | [] => ⟨[], .nothing value⟩
  | .array items :: outer => ⟨.array (value :: items) :: outer, .more⟩
  | .object members key :: outer => ⟨.object (Json.setMember members key value) key :: outer, .more⟩

/-- The fault of a lexeme that may not come. -/
def Expected.fault : Expected → JsonFault
  | .value => .value
  | .firstItem => .value
  | .firstName => .propertyName
  | .name _ => .propertyName
  | .colon => .colon
  | .more => .comma
  | .nothing _ => .extraData

/-- Reads the beginning of a value. -/
def beginValue (frames : List Frame) (here : Text) :
    JsonLexeme → Except JsonFailure Progress
  | .scalar value => .ok (complete frames value)
  | .string text => .ok (complete frames (.str text))
  | .openArray => .ok ⟨.array [] :: frames, .firstItem⟩
  | .openObject => .ok ⟨frames, .firstName⟩
  | .broken fault at_ => .error (.fault fault at_)
  | .oversize => .error .oversize
  | _ => .error (.fault .value here.length)

/-- Reads the name of a member. -/
def beginMember (frames : List Frame) (members : List (Text × Json)) (here : Text) :
    JsonLexeme → Except JsonFailure Progress
  | .string key => .ok ⟨.object members key :: frames, .colon⟩
  | .broken fault at_ => .error (.fault fault at_)
  | _ => .error (.fault .propertyName here.length)

/-- Reads what follows a value inside an array or object. -/
def afterValue (frames : List Frame) (here : Text) :
    JsonLexeme → Except JsonFailure Progress
  | .comma =>
    match frames with
    | .array items :: outer => .ok ⟨.array items :: outer, .value⟩
    | .object members _ :: outer => .ok ⟨outer, .name members⟩
    | [] => .error (.fault .comma here.length)
  | .closeArray =>
    match frames with
    | .array items :: outer => .ok (complete outer (.arr items.reverse))
    | _ => .error (.fault .comma here.length)
  | .closeObject =>
    match frames with
    | .object members _ :: outer => .ok (complete outer (.obj members))
    | _ => .error (.fault .comma here.length)
  | _ => .error (.fault .comma here.length)

/-- Reads one lexeme, which begins the text `here`. -/
def step (p : Progress) (here : Text) (l : JsonLexeme) : Except JsonFailure Progress :=
  match p.expected with
  | .value => beginValue p.frames here l
  | .firstItem =>
    match l, p.frames with
    | .closeArray, .array _ :: outer => .ok (complete outer (.arr []))
    | l, frames => beginValue frames here l
  | .firstName =>
    match l with
    | .closeObject => .ok (complete p.frames (.obj []))
    | l => beginMember p.frames [] here l
  | .name members => beginMember p.frames members here l
  | .colon =>
    match l with
    | .colon => .ok ⟨p.frames, .value⟩
    | _ => .error (.fault .colon here.length)
  | .more => afterValue p.frames here l
  | .nothing _ => .error (.fault .extraData here.length)

/-- Reads lexemes to the end of the text. -/
def steps (p : Progress) : List (Text × JsonLexeme) → Except JsonFailure Json
  | [] =>
    match p.expected with
    | .nothing value => .ok value
    | expected => .error (.fault expected.fault 0)
  | (here, l) :: ls =>
    match step p here l with
    | .ok p => steps p ls
    | .error e => .error e

end JsonReader

/-- The value of a JSON text. -/
def Json.read? (text : Text) : Except JsonFailure Json :=
  match text with
  | '\uFEFF' :: _ => .error (.fault .byteOrderMark text.length)
  | _ => JsonReader.steps {} (JsonLexeme.all text)

/-! ### Messages -/

/-- What a fault is called. -/
def JsonFault.description : JsonFault → Text
  | .value => "Expecting value"
  | .propertyName => "Expecting property name enclosed in double quotes"
  | .colon => "Expecting ':' delimiter"
  | .comma => "Expecting ',' delimiter"
  | .extraData => "Extra data"
  | .unterminatedString => "Unterminated string starting at"
  | .controlCharacter => "Invalid control character at"
  | .escape => "Invalid \\escape"
  | .unicodeEscape => "Invalid \\uXXXX escape"
  | .byteOrderMark => "Unexpected UTF-8 BOM (decode using utf-8-sig)"

/-- The fault with its place in the text. -/
def JsonFault.message (fault : JsonFault) (text : Text) (distance : Nat) : Text :=
  let index := text.length - distance
  let position := Position.after {} (text.take index)
  fault.description ++ ": line " ++ Text.ofNat position.line ++ " column "
    ++ Text.ofNat position.column ++ " (char " ++ Text.ofNat index ++ ")"

end FluidScss
