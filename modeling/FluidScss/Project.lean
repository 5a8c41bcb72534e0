/-
FluidScss/Project.lean

Setting a project up and checking it.  `initProject` makes the directory of
sources, writes the helper module and, if the generation settings are in
order, an override stylesheet without overrides; faults of the settings are
reported, other faults end it.  `doctor` lists what is missing or wrong.
`createKit` writes the starter configuration and initialises the project.
-/
import FluidScss.Generate
import FluidScss.Helper
import FluidScss.Json.Writer

namespace FluidScss

/-! ### Starter configuration -/

/-- A decimal below one with its digits behind the point. -/
def coefficient (digits places : Nat) : Json := .num (.ofDecimal false digits (-places))

/-- The starter table of mobile coefficients. -/
def starterMobile : List (Text × Json) :=
  [("h1", coefficient 5 1), ("h2", coefficient 625 3), ("h3", coefficient 75 2),
   ("body", coefficient 857 3), ("small", .int 1), ("section-gap", coefficient 5 1),
   ("card-gap", coefficient 6 1), ("element-gap", coefficient 75 2), ("button-text", .int 1),
   ("icon", coefficient 67 2)]

/-- The starter table of desktop coefficients. -/
def starterDesktop : List (Text × Json) :=
  [("h1", coefficient 625 3), ("h2", coefficient 67 2), ("h3", coefficient 75 2),
   ("body", coefficient 875 3), ("small", .int 1), ("section-gap", coefficient 5 1),
   ("card-gap", coefficient 6 1), ("element-gap", coefficient 67 2), ("button-text", .int 1),
   ("icon", coefficient 625 3)]

/-- The configuration that a new project starts with. -/
def starterConfig : Json :=
  .obj [("design", .obj [("desktopWidth", .int 1920), ("mobileWidth", .int 750)]),
    ("paths", .obj [("scssSrcDir", .str defaultSourceDir), ("cssOutDir", .str defaultAssetsDir)]),
    ("autofill", .obj [("function", .str defaultFunction), ("mobileMax", .int defaultMobileMax),
      ("scanDirs", .arr [.str defaultSourceDir]), ("output", .str defaultOutput),
      ("entries", .arr [])]),
    ("coefficients", .obj [("mobile", .obj starterMobile), ("desktop", .obj starterDesktop)])]

/-- The text of a configuration file. -/
def configText (value : Json) : Text := value.write .ascii ++ "\n"

/-! ### Initialising -/

/-- The report on a file written. -/
def planJson (c : Config) (plan : WritePlan) : Json :=
  .obj [("written", .str (c.relative plan.path)), ("mode", .str plan.mode.name)]

/-- What initialising did: the helper module's plan, and the plan of the
override stylesheet or the fault of the settings. -/
structure InitReport where
  helper : WritePlan
  overrides : Except Fault WritePlan

/-- Makes the directory of sources and the two generated files. -/
def initProject (c : Config) : Action InitReport := do
  Action.makeDirectories (← c.sourceDir)
  let helper ← writeHelper c
  match c.autofill with
  | .error fault =>
    if fault.isKitFault then return ⟨helper, .error fault⟩ else throw fault
  | .ok settings =>
    let content := renderOverrides settings.marker settings.mobileMax []
    let plan ← writeSafely settings.output content generatedStamp
    return ⟨helper, .ok plan⟩

/-- The members of an initialising report. -/
def InitReport.members (r : InitReport) (c : Config) : List (Text × Json) :=
  [("generated", planJson c r.helper),
   ("autofillGenerated", match r.overrides with
    | .ok plan => planJson c plan
    | .error fault => .obj [("ok", .bool false), ("reason", .str fault.message)])]

/-! ### Checking -/

/-- The issue of a file, if it is missing. -/
def missingIssue (c : Config) (path : Path) : Action (List Text) := do
  if ← Action.lookUp path then return [] else return ["missing " ++ c.relative path]

/-- What is missing or wrong in a project. -/
def doctor (c : Config) : Action (List Text) := do
  let helper ← missingIssue c (← c.helperPath)
  match c.autofill with
  | .error fault => if fault.isKitFault then return helper ++ [fault.message] else throw fault
  | .ok settings => return helper ++ (← missingIssue c settings.output)

/-! ### Creating -/

/-- What creating did: whether it wrote the configuration, the configuration
then in force, and what initialising did. -/
structure CreateReport where
  configWritten : Bool
  config : Config
  init : InitReport

/-- Sets a directory up as a project; an existing configuration is kept
unless it may be overwritten. -/
def createKit (dir : Path) (force : Bool) : Action CreateReport := do
  Action.makeDirectories dir
  let file := Config.fileIn dir
  let keep := (← Action.fileExists file) && !force
  if keep then
    Action.log .info (configName ++ " already exists; use --force to overwrite")
  else
    Action.writeText file (configText starterConfig)
    Action.log .info ("wrote " ++ configName)
  let c ← Config.load dir
  return ⟨!keep, c, ← initProject c⟩

/-- The members of a creating report. -/
def CreateReport.members (r : CreateReport) : List (Text × Json) :=
  [("config", .str configName), ("configWritten", .bool r.configWritten),
   ("init", .obj (r.init.members r.config))]

end FluidScss
