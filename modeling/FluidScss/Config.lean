/-
FluidScss/Config.lean

The configuration of a project: the members of a JSON object and the root
directory they belong to.  Settings are read where they are needed, so that
a fault in one of them shows only to the operations that need it.

A setting that is void (`Json.isVoid`) counts as left out for directories,
outputs and entries.  Directories and outputs are paths from the root; a
value that is no text is no path.  Where a list of directories is expected a
text stands for its characters and an object for its keys.

`Autofill` collects what a generation run needs; its faults come in the order
function, entries, breakpoint, directories, output.
-/
import FluidScss.Call
import FluidScss.Json.Reader
import FluidScss.Text.Number
import FluidScss.Workspace

namespace FluidScss

/-! ### Defaults -/

/-- The marker's name if none is configured. -/
def defaultFunction : Text := "r.resp"

/-- The breakpoint if none is configured. -/
def defaultMobileMax : Int := 850

/-- The directory of style sheet sources if none is configured. -/
def defaultSourceDir : Text := "src/styles"

/-- The directory of stylesheets if none is configured. -/
def defaultAssetsDir : Text := "assets"

/-- The override stylesheet if none is configured. -/
def defaultOutput : Text := "src/styles/_responsive-autofill.generated.scss"

/-! ### Values of settings -/

/-- The marker that a setting names: two parts with a dot between. -/
def parseMarker (value : Json) : Except Fault Marker :=
  let parts := match value with
    | .str text => Text.splitOn '.' text
    | _ => []
  match parts with
  | [ns, fn] =>
    if ns = [] ∨ fn = [] then .error (.configuration (.function value)) else .ok ⟨ns, fn⟩
  | _ => .error (.configuration (.function value))

/-- The breakpoint that a setting names, in pixels: a number, of which the
whole part counts, or a text that spells a whole number. -/
def parseMobileMax (value : Json) : Except Fault Int :=
  let number : Except Fault (Option Int) := match value with
    | .int n => .ok (some n)
    | .num (.infinite _) => .error .overflow
    | .num x => .ok x.truncate?
    | .str text => .ok (Text.readInt? text)
    | _ => .ok none
  match number with
  | .ok (some n) => .ok n
  | .ok none => .error (.configuration (.mobileMax value))
  | .error e => .error e

/-- The path that a value spells. -/
def Path.ofJson : Json → Except Fault Path
  | .str text => .ok (Path.ofText text)
  | _ => .error .wrongType

/-- The values that a value holds, one after the other. -/
def Json.elements : Json → Except Fault (List Json)
  | .str text => .ok (text.map fun c => .str [c])
  | .arr items => .ok items
  | .obj members => .ok (members.map fun m => .str m.1)
  | _ => .error .wrongType

/-! ### The configuration -/

/-- A project's configuration. -/
structure Config where
  root : Path
  data : List (Text × Json)

namespace Config

/-- The file that holds a root's configuration. -/
def fileIn (root : Path) : Path := root.child configName

/-- The configuration that a text spells. -/
def ofText (root : Path) (text : Text) : Except Fault Config :=
  match Json.read? text with
  | .ok (.obj members) => .ok ⟨root, members⟩
  | .ok _ => .error (.configuration .notAnObject)
  | .error (.fault fault distance) => .error (.configuration (.malformed text fault distance))
  | .error .oversize => .error .invalidValue

/-- Reads the configuration of a root. -/
def load (root : Path) : Action Config := do
  unless ← Action.fileExists (fileIn root) do throw (.configuration .missingFile)
  ofText root (← Action.readText (fileIn root))

/-- The members of a section; a section that is no object has none. -/
def sectionOf (c : Config) (name : Text) : List (Text × Json) :=
  match Json.member? c.data name with
  | some (.obj members) => members
  | _ => []

/-! ### Paths -/

/-- A path taken from the root. -/
def resolve (c : Config) (p : Path) : Path := c.root.join p

/-- The path that a value spells, taken from the root. -/
def resolveJson (c : Config) (value : Json) : Except Fault Path :=
  (Path.ofJson value).map c.resolve

/-- A path as reports tell it: its normal form from the root if it lies
there, and as it is elsewhere. -/
def relativeText (root p : Path) : Text :=
  match p.normalize?, root.normalize? with
  | some q, some r =>
    match q.relativeTo? r with
    | some q => Path.posix q.toText
    | none => Path.posix p.toText
  | _, _ => Path.posix p.toText

/-- A path as reports on this project tell it. -/
def relative (c : Config) (p : Path) : Text := relativeText c.root p

/-- A setting among the paths, or its default if it is left out. -/
def pathSetting (c : Config) (name default : Text) : Json :=
  (Json.given? (Json.member? (c.sectionOf "paths") name)).getD (.str default)

/-- The directory of style sheet sources, as it is configured. -/
def sourceSetting (c : Config) : Json := c.pathSetting "scssSrcDir" defaultSourceDir

/-- The directory of style sheet sources. -/
def sourceDir (c : Config) : Except Fault Path := c.resolveJson c.sourceSetting

/-- The directory of stylesheets. -/
def assetsDir (c : Config) : Except Fault Path :=
  c.resolveJson (c.pathSetting "cssOutDir" defaultAssetsDir)

/-- The helper module. -/
def helperPath (c : Config) : Except Fault Path := c.sourceDir.map (·.child "_responsive.scss")

/-- The name of an entry without its ending. -/
def entryBase (entry : Path) : Text :=
  match Text.dropSuffix? sheetEnding entry.name with
  | some base => base
  | none => entry.stem

/-- The override stylesheet of one entry. -/
def entryOutput (c : Config) (entry : Path) : Except Fault Path :=
  c.sourceDir.map (·.child (overridesStem ++ "." ++ entryBase entry ++ overridesEnding))

end Config

/-! ### Generation settings -/

/-- What a generation run needs. -/
structure Autofill where
  marker : Marker
  mobileMax : Int
  scanDirs : List Path
  output : Path
  entries : List Text

/-- The entries that a setting lists; void ones are passed over. -/
def entryTexts (items : List Json) : List Text :=
  (items.filter fun item => !item.isVoid).map Json.shown

/-- The settings of generation runs. -/
def Config.autofill (c : Config) : Except Fault Autofill := do
  let settings := c.sectionOf "autofill"
  let function := match Json.member? settings "function" with
    | none => .str defaultFunction
    | some .null => .str defaultFunction
    | some value => value
  let marker ← parseMarker function
  let scanDirs := (Json.given? (Json.member? settings "scanDirs")).getD (.arr [c.sourceSetting])
  let output := (Json.given? (Json.member? settings "output")).getD (.str defaultOutput)
  let entries ← match Json.given? (Json.member? settings "entries") with
    | none => pure []
    | some (.arr items) => pure items
    | some _ => throw (.configuration .entries)
  let mobileMax ← parseMobileMax
    ((Json.member? settings "mobileMax").getD (.int defaultMobileMax))
  let scanDirs ← (← scanDirs.elements).mapM c.resolveJson
  let output ← c.resolveJson output
  return { marker, mobileMax, scanDirs, output, entries := entryTexts entries }

end FluidScss
