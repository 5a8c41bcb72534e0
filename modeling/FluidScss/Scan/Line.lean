/-
FluidScss/Scan/Line.lean

The overrides of a style sheet, read line by line, for sheets that have no
tree.  The scan is modest: every closing brace on a line closes a block, the
text before the first opening brace opens one unless it is blank, an at-rule
or has a colon, and a line that is a declaration with its semicolon counts
under the open block.  It does not see selectors over several lines or
blocks within one line.

A declaration line is a property in letters and hyphens, a colon, a value
and a semicolon behind which only comments stand.  The value begins at its
first character that is not blank; if no value fits from there, it may begin
at a blank before.  It ends at the first semicolon that fits, and is never
empty.
-/
import FluidScss.Call
import FluidScss.Important
import FluidScss.Override
import FluidScss.Selector
import FluidScss.Text.Lines

namespace FluidScss

/-! ### Declaration lines -/

/-- Whether `c` may stand in a property of a line. -/
def isPropertyChar (c : Char) : Bool := c.isAlpha || c = '-'

/-- The property that begins a line, and the text behind its colon. -/
def lineProperty? (line : Text) : Option (Text × Text) :=
  let line := Text.trimLeft line
  let property := line.takeWhile isPropertyChar
  if property = [] then none
  else
    match Text.trimLeft (line.dropWhile isPropertyChar) with
    | ':' :: rest => some (property, rest)
    | _ => none

/-- Whether the text is blank up to a comment of two slashes, or altogether. -/
def isLineTail (text : Text) : Bool :=
  match Text.trimLeft text with
  | [] => true
  | '/' :: '/' :: _ => true
  | _ => false

/-- Whether a comment end stands in the text with only a line tail behind. -/
def closesComment : Text → Bool
  | [] => false
  | '*' :: '/' :: rest => isLineTail rest || closesComment ('/' :: rest)
  | _ :: rest => closesComment rest

/-- Whether nothing but comments stands in what follows a semicolon. -/
def isCommentTail (text : Text) : Bool :=
  isLineTail text ||
    match Text.trimLeft text with
    | '/' :: '*' :: rest => closesComment rest
    | _ => false

/-- The text up to the first semicolon that only comments follow. -/
def upToSemicolon? : Text → Option Text
  | [] => none
  | c :: rest =>
    if c = ';' ∧ isCommentTail rest then some [] else (upToSemicolon? rest).map (c :: ·)

/-- The value that begins with the first character of the text. -/
def valueHere? : Text → Option Text
  | [] => none
  | c :: rest => (upToSemicolon? rest).map (c :: ·)

/-- The value in the text behind a colon: from the first character that is
not blank or, failing that, from the last blank from which one fits. -/
def lineValue? : Text → Option Text
  | [] => none
  | c :: rest =>
    if isBlank c then
      match lineValue? rest with
      | some value => some value
      | none => valueHere? (c :: rest)
    else valueHere? (c :: rest)

/-! ### Values without comments -/

/-- The value before its first comment opener, if a comment end closes it. -/
def dropBlockComment (value : Text) : Text :=
  match Text.breakOn "/*" value with
  | some (before, after) => if ['*', '/'].isSuffixOf after then Text.trim before else value
  | none => value

/-- The value before its first two slashes. -/
def dropLineComment (value : Text) : Text :=
  match Text.breakOn "//" value with
  | some (before, _) => Text.trim before
  | none => value

/-- Property, value and flag of a declaration line. -/
def lineDeclaration? (line : Text) : Option (Text × Text × Bool) :=
  match lineProperty? line with
  | none => none
  | some (property, rest) =>
    match lineValue? rest with
    | none => none
    | some value =>
      some (property, splitImportant false (dropLineComment (dropBlockComment (Text.trim value))))

/-! ### Lines -/

/-- The selectors that a line opens a block for. -/
def lineSelectors (line : Text) : List Text :=
  match Text.breakOn ['\x7b'] line with
  | none => []
  | some (before, _) =>
    let before := Text.trim before
    if before.head? = some '@' ∨ ':' ∈ before then [] else splitTopLevel "," before

/-- The open blocks behind the braces of a line. -/
def stackAfter (stack : SelectorStack) (line : Text) : SelectorStack :=
  (stack.popMany (line.count '\x7d')).push (lineSelectors line)

/-- The drafts of a line with the open blocks `stack`. -/
def lineDraftsOf (m : Marker) (stack : SelectorStack) (line : Text) : List Draft :=
  if stack.frames = [] then []
  else
    match lineDeclaration? line with
    | none => []
    | some (property, value, important) =>
      let r := clampCalls m value
      if r.changed then
        stack.current.map fun selector => ⟨selector, property, withImportant r.value important⟩
      else []

/-- The drafts of lines that follow each other. -/
def linesDrafts (m : Marker) (stack : SelectorStack) : List Text → List Draft
  | [] => []
  | line :: lines =>
    let stack := stackAfter stack line
    lineDraftsOf m stack line ++ linesDrafts m stack lines

/-- The drafts of a sheet, read by lines. -/
def lineDrafts (m : Marker) (source : Text) : List Draft := linesDrafts m {} (Text.lines source)

end FluidScss
