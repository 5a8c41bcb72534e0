/-
FluidScss/Watch/Entry.lean

Entries: style sheets that are compiled on their own and include the
overrides generated for them.  A file whose name begins with an underscore
is a partial and no entry; an override stylesheet is neither.

A blank entry is given its first lines (`ensureBoilerplate`): the helper
module, the overrides of this entry and the inclusion of their mixin.  An
entry among the project's sources is added to the configured ones
(`registerEntry`), under its path from the root and once only.
-/
import FluidScss.Config
import FluidScss.Json.Writer

namespace FluidScss

/-- Whether a path names an override stylesheet. -/
def isGeneratedPath (p : Path) : Bool :=
  overridesStem.isPrefixOf p.name && overridesEnding.isSuffixOf p.name

/-- Whether a path names a partial. -/
def isPartialPath (p : Path) : Bool := p.name.head? = some '_'

/-! ### First lines -/

/-- The first lines of an entry, each with the line break `eol`. -/
def entryBoilerplate (ns base eol : Text) : Text :=
  let lines : List Text :=
    ["@use \"./responsive\" as " ++ ns ++ ";",
     "@use \"./" ++ overridesStem ++ "." ++ base ++ ".generated\" as auto;",
     "",
     "// Keep this include last so the generated mobile overrides win.",
     "@include auto." ++ overridesMixin ++ "();"]
  Text.join eol lines ++ eol

/-- The line break in use in a text. -/
def lineBreakOf (text : Text) : Text :=
  if Text.contains "\r\n" text then "\r\n" else "\n"

/-- Gives a blank entry its first lines; tells whether it did. -/
def ensureBoilerplate (path : Path) (ns : Text) : Action Bool := do
  if ← Action.isFile path then
    let text ← Action.readRaw path
    if Text.isBlank text then
      Action.writeText path (entryBoilerplate ns path.stem (lineBreakOf text))
      return true
    else return false
  else return false

/-! ### Registering -/

/-- Whether a value is this text. -/
def isText (text : Text) : Json → Bool
  | .str t => t = text
  | _ => false

/-- The configuration's members with one entry more, unless there is no list
of entries or the entry is in it. -/
def addEntry? (data : List (Text × Json)) (entry : Text) :
    Except Fault (Option (List (Text × Json))) :=
  match Json.member? data "autofill" with
  | none => .ok none
  | some (.obj settings) =>
    match Json.member? settings "entries" with
    | some (.arr items) =>
      if items.any (isText entry) then .ok none
      else .ok (some (Json.setMember data "autofill"
        (.obj (Json.setMember settings "entries" (.arr (items ++ [.str entry]))))))
    | _ => .ok none
  | some _ => .error .noMembers

/-- Adds an entry among the sources to the configured ones; tells whether the
configuration was changed. -/
def registerEntry (c : Config) (entry : Path) : Action Bool := do
  let path := c.resolve entry
  let place ← Action.normalize path
  let sources ← Action.normalize (← c.sourceDir)
  if place.isWithin sources then
    let text ← Action.readText (Config.fileIn c.root)
    match Json.read? text with
    | .ok (.obj data) =>
      match ← addEntry? data (c.relative path) with
      | some data =>
        Action.writeText (Config.fileIn c.root) ((Json.obj data).write .ascii ++ "\n")
        return true
      | none => return false
    | .ok _ => throw .noMembers
    | .error .oversize => throw .invalidValue
    | .error (.fault _ _) => throw .malformedJson
  else return false

end FluidScss
