/-
FluidScss/Candidate.lean

Candidates for responsive sizes: declarations of sizing properties with pixel
sizes written out.  A file is read line by line.  A line that ends with an
opening brace names the selector that the lines below belong to, until a line
that is a closing brace alone; other lines count as declarations of the
selector in force.

A pixel size is a run of digits, with a fraction or without, right before
`px`, with a minus sign if there is one.  Sizes are searched from left to
right, so a size may begin inside a longer number whose beginning does not
fit: `1.2.3px` holds `2.3px`.
-/
import FluidScss.Config
import FluidScss.Scan.Line

namespace FluidScss

/-! ### Properties -/

/-- The properties that hold sizes. -/
def sizingProperties : List Text :=
  ["font-size", "margin", "margin-top", "margin-right", "margin-bottom", "margin-left",
   "padding", "padding-top", "padding-right", "padding-bottom", "padding-left",
   "gap", "row-gap", "column-gap", "width", "height", "top", "right", "bottom", "left",
   "border-radius"]

/-- The sizing type that suits a property. -/
def guessType (property : Text) : Text :=
  if property = ("font-size" : Text) then "body"
  else if Text.contains "gap" property then "card-gap"
  else "element-gap"

/-! ### Pixel sizes -/

/-- The fraction of a number at the front of the text. -/
def pixelFraction (text : Text) : Text :=
  match text with
  | '.' :: rest =>
    let digits := rest.takeWhile isDigit
    if digits = [] then [] else '.' :: digits
  | _ => []

/-- The number in front of the `px` of a size that begins the text. -/
def pixelNumber? (text : Text) : Option Text :=
  let sign : Text := if text.head? = some '-' then ['-'] else []
  let text := text.drop sign.length
  let digits := text.takeWhile isDigit
  let rest := text.drop digits.length
  let fraction := pixelFraction rest
  if digits ≠ [] ∧ ['p', 'x'].isPrefixOf (rest.drop fraction.length) then
    some (sign ++ digits ++ fraction)
  else none

/-- The pixel sizes in a text, from left to right. -/
def pixelSizes (text : Text) : List Text :=
  match text with
  | [] => []
  | c :: rest =>
    match pixelNumber? (c :: rest) with
    | some number => (number ++ ['p', 'x']) :: pixelSizes (rest.drop (number.length + 1))
    | none => pixelSizes rest
termination_by text.length
decreasing_by
  · simp only [List.length_drop, List.length_cons]; omega
  · simp

/-! ### Lines -/

/-- Whether the text in front of a line's last brace can be a selector: from
its first character that is not blank, or a blank before, at least two
characters, the first no `@` and the others no braces. -/
def fitsSelector : Text → Bool
  | [] => false
  | c :: rest =>
    (c ≠ '@' && rest ≠ [] && '\x7b' ∉ rest) || (isBlank c && fitsSelector rest)

/-- The selector of a line that ends with an opening brace. -/
def openedSelector? (line : Text) : Option Text :=
  match (Text.trimRight line).getLast? with
  | some '\x7b' =>
    let body := (Text.trimRight line).dropLast
    if fitsSelector body then some (Text.trim body) else none
  | _ => none

/-- Whether a line is a closing brace alone. -/
def isClosingLine (line : Text) : Bool := Text.trim line = ['\x7d']

/-- Property and value of a line that declares something. -/
def declared? (line : Text) : Option (Text × Text) :=
  match lineProperty? line with
  | none => none
  | some (property, rest) =>
    match Text.cut ';' rest with
    | (value, some _) => some (property, Text.trimLeft value)
    | (_, none) => none

/-- A declaration whose sizes could be responsive. -/
structure Candidate where
  selector : Text
  property : Text
  sizes : List Text
  important : Bool
  line : Nat
deriving DecidableEq

/-- The candidate on a line below a selector. -/
def candidate? (selector line : Text) (lineNumber : Nat) : Option Candidate :=
  match declared? line with
  | none => none
  | some (property, value) =>
    let sizes := pixelSizes value
    if property ∈ sizingProperties ∧ sizes ≠ [] then
      some ⟨selector, property, sizes, Text.contains "!important" value, lineNumber⟩
    else none

/-- The candidates on lines that follow each other, with the selector in
force and the number of the first of them. -/
def lineCandidates (selector : Option Text) (lineNumber : Nat) : List Text → List Candidate
  | [] => []
  | line :: lines =>
    match openedSelector? line with
    | some selector => lineCandidates (some selector) (lineNumber + 1) lines
    | none =>
      if isClosingLine line then lineCandidates none (lineNumber + 1) lines
      else
        match selector with
        | none => lineCandidates none (lineNumber + 1) lines
        | some selector =>
          (candidate? selector line lineNumber).toList
            ++ lineCandidates (some selector) (lineNumber + 1) lines

/-- The candidates in a source. -/
def candidates (source : Text) : List Candidate := lineCandidates none 1 (Text.lines source)

/-! ### Reports -/

/-- The report on one candidate of a file. -/
def Candidate.toJson (k : Candidate) (file : Text) : Json :=
  .obj [("selector", .str k.selector), ("property", .str k.property),
    ("type", .str (guessType k.property)),
    ("desktop", match k.sizes with
      | [size] => .str size
      | sizes => .arr (sizes.map .str)),
    ("mobile", .null), ("important", .bool k.important),
    ("source", .obj [("file", .str file), ("line", .int k.line)])]

/-- The report on the candidates of a file. -/
def candidatesReport (file : Text) (found : List Candidate) : Json :=
  .obj [("file", .str file), ("rules", .arr (found.map (Candidate.toJson · file)))]

/-- The candidates in a file, and the file's name in reports. -/
def extractCandidates (c : Config) (path : Path) : Action (Text × List Candidate) := do
  let path := c.resolve path
  return (c.relative path, candidates (← Action.readSource path))

end FluidScss
