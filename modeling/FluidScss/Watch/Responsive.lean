/-
FluidScss/Watch/Responsive.lean

What follows the change of one source.  A partial may be part of any entry,
so all of them are generated again; an entry has its own overrides generated,
after it was given its first lines if it is blank.  Override stylesheets and
files that are no sources are ignored.

The loop that watches sources calls `onChange`; a fault of the project or of
the file system is logged there and does not end the loop.
-/
import FluidScss.Generate
import FluidScss.Watch.Entry

namespace FluidScss

/-- What followed a change. -/
inductive ChangeReport
  | ignored
  | entry (report : GenerateReport)
  | entries (results : List EntryResult)

/-- Gives a blank entry its first lines and registers it; the configuration
in force is the result. -/
def bootstrapEntry (c : Config) (path : Path) : Action Config := do
  let settings ← c.autofill
  if ← ensureBoilerplate path settings.marker.ns then
    Action.log .info ("added boilerplate to " ++ c.relative path)
    if ← registerEntry c path then
      Action.log .info ("registered entry " ++ c.relative path)
      Config.load c.root
    else return c
  else return c

/-- Follows the change of one file. -/
def handleChange (c : Config) (changed : Path) : Action ChangeReport := do
  let path := c.resolve changed
  if isGeneratedPath path || !sheetEnding.isSuffixOf path.name then return .ignored
  else if isPartialPath path then return .entries (← generateEntries c)
  else
    let c ← bootstrapEntry c path
    return .entry (← generateEntry c path none)

/-- The members of the report on a change, unless it was ignored. -/
def ChangeReport.members? (r : ChangeReport) (c : Config) : Option (List (Text × Json)) :=
  match r with
  | .ignored => none
  | .entry report => some (report.members c)
  | .entries results => some (entriesMembers results c)

/-- Does work whose faults, of the project or of the file system, are logged
by `line`. -/
def logFaults (line : Text → Text) (work : Action Unit) : Action Unit := do
  match ← Action.attempt work with
  | .ok () => return ()
  | .error fault =>
    if fault.isKitFault || fault.isSystemFault then Action.log .error (line fault.message)
    else throw fault

/-- Follows a change in the project of a root. -/
def onChange (root path : Path) : Action Unit :=
  logFaults (fun reason => "regenerate failed for " ++ path.toText ++ ": " ++ reason) do
    let _ ← handleChange (← Config.load root) path

/-- Begins to watch the sources of a root, which must be there. -/
def beginWatch (root : Path) : Action Unit := do
  let c ← Config.load root
  unless ← Action.isDirectory (← c.sourceDir) do
    throw (.sourceDirectoryNotFound c.sourceSetting.shown)
  Action.log .info ("watching " ++ c.sourceSetting.shown)

end FluidScss
