/-
FluidScss/Generate.lean

Generating override stylesheets.  A run scans its files in order, the
overrides numbered through all of them, and writes one stylesheet.  Without
targets the files are those of the scan directories; a target is a directory
or a file that must exist.  The output is never found by looking through a
directory.

The files are read (`gather`) before anything is written, so a run that fails
on its sources leaves no trace.
-/
import FluidScss.Config
import FluidScss.Discover
import FluidScss.Override.Sheet
import FluidScss.Scan
import FluidScss.Write

namespace FluidScss

/-- What a run did. -/
structure GenerateReport where
  output : Path
  scannedFiles : Nat
  rules : Nat
  plan : WritePlan
  target : Option Path

/-- What became of one entry: a report, or the reason why there is none. -/
structure EntryResult where
  entry : Text
  outcome : Except Text GenerateReport

/-- Whether an entry has a report. -/
def EntryResult.ok (r : EntryResult) : Bool := r.outcome.toOption.isSome

/-! ### Scanning files -/

/-- The overrides of one file, numbered from `start` on. -/
def scanFile (m : Marker) (path : Path) (start : Int) : Action (List Override) := do
  return scanSheet m (← Action.readSource path) start

/-- The overrides of files, numbered through all of them. -/
def collectOverrides (m : Marker) (start : Int) : List Path → Action (List Override)
  | [] => return []
  | path :: paths => do
    let found ← scanFile m path start
    let rest ← collectOverrides m (start + found.length) paths
    return found ++ rest

/-! ### Runs -/

/-- The files of one target. -/
def targetFiles (c : Config) (output target : Path) : Action (List Path) := do
  let path := c.resolve target
  if ← Action.isDirectory path then discover [path] [output]
  else if ← Action.isFile path then return [path]
  else throw (.sourceNotFound target.toText)

/-- The files of targets, in order. -/
def targetsFiles (c : Config) (output : Path) : List Path → Action (List Path)
  | [] => return []
  | target :: targets => do
    let files ← targetFiles c output target
    let rest ← targetsFiles c output targets
    return files ++ rest

/-- The single file of a run with targets. -/
def singleTarget (targets : Option (List Path)) (files : List Path) : Option Path :=
  match targets, files with
  | some _, [file] => some file
  | _, _ => none

/-- The line of the log for a run. -/
def runLine (c : Config) (plan : WritePlan) (rules : Nat) : Text :=
  plan.mode.name ++ " " ++ c.relative plan.path ++ " (" ++ Text.ofNat rules ++ " rule(s))"

/-- What a run has read before it writes: its settings, where the stylesheet
goes, the files and their overrides. -/
structure GenerateInput where
  settings : Autofill
  output : Path
  files : List Path
  overrides : List Override

/-- The stylesheet of what a run has read. -/
def GenerateInput.content (i : GenerateInput) : Text :=
  renderOverrides i.settings.marker i.settings.mobileMax i.overrides

/-- Reads what a run needs, and writes nothing. -/
def gather (c : Config) (targets : Option (List Path)) (output : Option Path) :
    Action GenerateInput := do
  let settings ← c.autofill
  let output := match output with
    | some output => c.resolve output
    | none => settings.output
  let files ← match targets with
    | none => discover settings.scanDirs [output]
    | some targets => targetsFiles c output targets
  let overrides ← collectOverrides settings.marker 0 files
  return { settings, output, files, overrides }

/-- Generates one override stylesheet. -/
def generate (c : Config) (targets : Option (List Path)) (output : Option Path) :
    Action GenerateReport := do
  let i ← gather c targets output
  let plan ← writeSafely i.output i.content generatedStamp
  Action.log .info (runLine c plan i.overrides.length)
  return ⟨i.output, i.files.length, i.overrides.length, plan, singleTarget targets i.files⟩

/-- Generates the stylesheet of all scan directories. -/
def generateAll (c : Config) : Action GenerateReport := generate c none none

/-- Where the stylesheet of an entry goes, by default next to the sources; the
entry must be a file. -/
def entryTarget (c : Config) (entry : Path) (output : Option Path) : Action Path := do
  unless ← Action.isFile (c.resolve entry) do throw (.sourceNotFound entry.toText)
  match output with
  | some output => return output
  | none => c.entryOutput (c.resolve entry)

/-- Generates the stylesheet of one entry. -/
def generateEntry (c : Config) (entry : Path) (output : Option Path) :
    Action GenerateReport := do
  let output ← entryTarget c entry output
  generate c (some [c.resolve entry]) (some output)

/-- Generates the stylesheet of one configured entry; a file that is missing
is its own failure and not the batch's. -/
def generateConfigured (c : Config) (entry : Text) : Action EntryResult := do
  match ← Action.attempt (generateEntry c (Path.ofText entry) none) with
  | .ok report => return ⟨c.relative (c.resolve (Path.ofText entry)), .ok report⟩
  | .error (.sourceNotFound _) => return ⟨entry, .error "file not found"⟩
  | .error fault => throw fault

/-- Generates the stylesheets of entries, in order. -/
def generateEach (c : Config) : List Text → Action (List EntryResult)
  | [] => return []
  | entry :: entries => do
    let result ← generateConfigured c entry
    let rest ← generateEach c entries
    return result :: rest

/-- Generates the stylesheets of all configured entries. -/
def generateEntries (c : Config) : Action (List EntryResult) := do
  let settings ← c.autofill
  if settings.entries = [] then throw (.configuration .noEntries)
  generateEach c settings.entries

/-! ### Reports -/

/-- The member that names the single file of a run. -/
def GenerateReport.targetMember (r : GenerateReport) (c : Config) : List (Text × Json) :=
  match r.target with
  | some target => [("target", .str (c.relative target))]
  | none => []

/-- The members of a run's report. -/
def GenerateReport.members (r : GenerateReport) (c : Config) : List (Text × Json) :=
  ("output", .str (c.relative r.output)) :: ("scannedFiles", .int r.scannedFiles)
    :: ("rules", .int r.rules) :: ("written", .str (c.relative r.plan.path))
    :: ("mode", .str r.plan.mode.name) :: r.targetMember c

/-- The report on one entry. -/
def EntryResult.toJson (r : EntryResult) (c : Config) : Json :=
  match r.outcome with
  | .ok report =>
    .obj [("entry", .str r.entry), ("ok", .bool true), ("rules", .int report.rules),
      ("output", .str (c.relative report.output)),
      ("written", .str (c.relative report.plan.path)), ("mode", .str report.plan.mode.name)]
  | .error reason =>
    .obj [("entry", .str r.entry), ("ok", .bool false), ("reason", .str reason)]

/-- Whether all entries have a report. -/
def allOk (results : List EntryResult) : Bool := results.all EntryResult.ok

/-- The members of the report on all entries. -/
def entriesMembers (results : List EntryResult) (c : Config) : List (Text × Json) :=
  [("ok", .bool (allOk results)), ("entries", .arr (results.map (EntryResult.toJson · c)))]

end FluidScss
