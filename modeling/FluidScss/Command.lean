/-
FluidScss/Command.lean

The commands of the program.  `Command.read?` reads a command line; one that
cannot be read ends with status 2 and prints nothing.  Every command answers
with one JSON object, whose first member names the action, and with status 0
or 1.  Faults of the project are answers with a reason; other faults are not
answered here.
-/
import FluidScss.Candidate
import FluidScss.Command.Arguments
import FluidScss.Command.Words
import FluidScss.Project
import FluidScss.Text.Number
import FluidScss.Watch.CssSync

namespace FluidScss

/-- What the program prints and the status it ends with. -/
structure Reply where
  status : Int
  output : Text
deriving DecidableEq

/-- The reply to a command line that cannot be read. -/
def usageReply : Reply := ⟨2, []⟩

/-- What the program is asked to do. -/
inductive Command
  | version
  | init
  | generate
  | doctor
  | create (directory : Text) (force : Bool)
  | responsiveGenerate (target output : Option Text)
  | responsiveEntries
  | responsiveExtract (file : Text)
  | watchCss (interval : Binary64) (compiler : Text)
  | watchResponsive (path : Option Text)
deriving DecidableEq

/-- A command line as it was read: the root, and the command if the words
behind the common options are one. -/
structure Invocation where
  root : Text := ['.']
  command : Option Command
deriving DecidableEq

/-! ### Reading a command line -/

/-- The version of the program. -/
def versionText : Text := "scss-kit, version 0.3.0\n"

namespace Command

/-- The options of all commands. -/
def commonOptions : List OptionSpec :=
  [{ name := "version" }, { name := "root", takesValue := true },
   { name := "verbose", letter := some 'v' }]

/-- The option to overwrite. -/
def forceOption : OptionSpec := { name := "force" }

/-- The option of the time between two looks. -/
def intervalOption : OptionSpec := { name := "interval", takesValue := true }

/-- The option of the compiler's command. -/
def sassOption : OptionSpec := { name := "sass", takesValue := true }

/-- A command's arguments; the time between two looks must be a number. -/
def arguments? (specs : List OptionSpec) (line : List Text) : Option Arguments :=
  match Arguments.read? specs true line with
  | none => none
  | some a =>
    match a.value? "interval" with
    | some value => if (Text.readFloat? value).isSome then some a else none
    | none => some a

/-- Reads the commands about overrides. -/
def readResponsive? (line : List Text) : Option Command :=
  match line with
  | [] => none
  | name :: line =>
    match arguments? [] line with
    | none => none
    | some a =>
      if name = ("generate" : Text) then
        match a.words with
        | [] => some (.responsiveGenerate none none)
        | [target] => some (.responsiveGenerate (some target) none)
        | [target, output] => some (.responsiveGenerate (some target) (some output))
        | _ => none
      else if name = ("entries" : Text) ∧ a.words = [] then some .responsiveEntries
      else if name = ("extract" : Text) then
        match a.words with
        | [file] => some (.responsiveExtract file)
        | _ => none
      else none

/-- Reads the commands that watch. -/
def readWatch? (line : List Text) : Option Command :=
  match line with
  | [] => none
  | name :: line =>
    if name = ("css" : Text) then
      match arguments? [intervalOption, sassOption] line with
      | some a =>
        let interval := ((a.value? "interval").bind Text.readFloat?).getD defaultInterval
        if a.words = [] then some (.watchCss interval ((a.value? "sass").getD "sass")) else none
      | none => none
    else if name = ("responsive" : Text) then
      match arguments? [intervalOption] line with
      | some a =>
        match a.words with
        | [] => some (.watchResponsive none)
        | [path] => some (.watchResponsive (some path))
        | _ => none
      | none => none
    else none

/-- Reads a command without arguments. -/
def readPlain? (command : Command) (line : List Text) : Option Command :=
  match arguments? [] line with
  | some a => if a.words = [] then some command else none
  | none => none

/-- Reads the command that creates a project. -/
def readCreate? (line : List Text) : Option Command :=
  match arguments? [forceOption] line with
  | some a =>
    match a.words with
    | [] => some (.create ['.'] (a.has "force"))
    | [directory] => some (.create directory (a.has "force"))
    | _ => none
  | none => none

/-- Reads a command. -/
def read? (line : List Text) : Option Command :=
  match line with
  | [] => none
  | name :: line =>
    if name = ("responsive" : Text) then
      match Arguments.read? [] false line with
      | some a => readResponsive? a.words
      | none => none
    else if name = ("watch" : Text) then
      match Arguments.read? [] false line with
      | some a => readWatch? a.words
      | none => none
    else if name = ("create" : Text) then readCreate? line
    else if name = ("init" : Text) then readPlain? .init line
    else if name = ("generate" : Text) then readPlain? .generate line
    else if name = ("doctor" : Text) then readPlain? .doctor line
    else none

end Command

/-- Whether a command line asks for the version in front of its command. -/
def asksVersion (line : List Text) : Bool :=
  match Arguments.read? Command.commonOptions false line with
  | some a => a.has "version"
  | none => false

/-- Reads a command line.  A question for the version comes before all else.
Words that are no command, because the options were ended before options
came, may still ask for it. -/
def Invocation.read? (line : List Text) : Option Invocation :=
  match Arguments.read? Command.commonOptions false line with
  | none => none
  | some a =>
    if a.has "version" then some { command := some .version }
    else
      let root := (a.value? "root").getD ['.']
      match Command.read? a.words with
      | some found => some { root, command := some found }
      | none => some { root, command := if asksVersion a.words then some .version else none }

/-! ### Replies -/

/-- A reply with one object. -/
def emit (status : Int) (members : List (Text × Json)) : Reply :=
  ⟨status, (Json.obj members).write .unicode ++ "\n"⟩

/-- The member that names the action. -/
def actionMember (action : Text) : Text × Json := ("action", .str action)

/-- The member that says whether all went well. -/
def okMember (ok : Bool) : Text × Json := ("ok", .bool ok)

/-- The reply that tells why an action failed. -/
def failReply (action reason : Text) : Reply :=
  emit 1 [actionMember action, okMember false, ("reason", .str reason)]

/-- Does work; a fault of the project is the reply. -/
def orFail (action : Text) (work : Action Reply) : Action Reply := do
  match ← Action.attempt work with
  | .ok reply => return reply
  | .error fault =>
    if fault.isKitFault then return failReply action fault.message else throw fault

/-- Does work with the configuration of a root; a configuration that cannot
be used is the reply. -/
def withConfig (root : Path) (action : Text) (work : Config → Action Reply) : Action Reply := do
  match ← Action.attempt (Config.load root) with
  | .ok c => work c
  | .error (.configuration fault) => return failReply action fault.message
  | .error fault => throw fault

/-- A setting of the command line that is not empty. -/
def nonempty? (text : Option Text) : Option Text :=
  match text with
  | some (c :: rest) => some (c :: rest)
  | _ => none

/-- Where the report on candidates goes. -/
def candidatesPath : Path := ⟨.relative, ["scss-kit", "responsive-extract.json"]⟩

/-! ### Running commands -/

/-- Generates the stylesheet of one entry, or of all directories. -/
def runResponsiveGenerate (c : Config) (target output : Option Text) : Action Reply := do
  let action : Text := "responsive:generate"
  orFail action do
    let report ← match nonempty? target with
      | some target => generateEntry c (Path.ofText target) ((nonempty? output).map Path.ofText)
      | none => generateAll c
    return emit 0 (actionMember action :: okMember true :: report.members c)

/-- Generates the stylesheets of all entries. -/
def runResponsiveEntries (c : Config) : Action Reply := do
  let action : Text := "responsive:generate:entries"
  orFail action do
    let results ← generateEntries c
    return emit (if allOk results then 0 else 1) (actionMember action :: entriesMembers results c)

/-- Writes the report on the candidates of a file. -/
def runResponsiveExtract (c : Config) (file : Text) : Action Reply := do
  let action : Text := "responsive:extract"
  if ← Action.isFile (c.resolve (Path.ofText file)) then
    let (name, found) ← extractCandidates c (Path.ofText file)
    let out := c.resolve candidatesPath
    Action.makeDirectories out.parent
    Action.writeText out ((candidatesReport name found).write .unicode ++ "\n")
    return emit 0 [actionMember action, okMember true, ("written", .str (c.relative out)),
      ("count", .int found.length)]
  else return failReply action ("file not found: " ++ file)

/-- Follows the change of a file. -/
def runChange (c : Config) (path : Text) : Action Reply := do
  let action : Text := "responsive:watch"
  orFail action do
    match ← handleChange c (Path.ofText path) with
    | .ignored => return emit 0 [actionMember action, okMember true, ("ignored", .str path)]
    | .entry report => return emit 0 (actionMember action :: okMember true :: report.members c)
    | .entries results =>
      return emit (if allOk results then 0 else 1)
        (actionMember action :: entriesMembers results c)

/-- Watches compiled stylesheets beside the compiler that the words call. -/
def runWatchCss (c : Config) (interval : Binary64) (compiler : Text)
    (launch : List Text → CompilerRun) : Action Reply := do
  let layout ← SyncLayout.ofConfig c
  match words? compiler with
  | none => throw .invalidValue
  | some command => return ⟨(← watchCss layout interval command launch).answer, []⟩

/-- Carries out a command for a root, whose path is in normal form. -/
def Command.run (root : Path) (launch : List Text → CompilerRun) : Command → Action Reply
  | .version => return ⟨0, versionText⟩
  | .init => withConfig root "init" fun c => orFail "init" do
      let report ← initProject c
      return emit 0 (actionMember "init" :: report.members c)
  | .generate => withConfig root "generate" fun c => orFail "generate" do
      let plan ← writeHelper c
      return emit 0 [actionMember "generate", ("written", .str (c.relative plan.path)),
        ("mode", .str plan.mode.name)]
  | .doctor => withConfig root "doctor" fun c => do
      let issues ← FluidScss.doctor c
      return emit (if issues.isEmpty then 0 else 1)
        [actionMember "doctor", okMember issues.isEmpty, ("issues", .arr (issues.map .str))]
  | .create directory force => orFail "create" do
      let target := root.join (Path.ofText directory)
      let report ← createKit target force
      return emit 0 (actionMember "create" :: ("directory", .str target.toText) :: report.members)
  | .responsiveGenerate target output =>
    withConfig root "responsive:generate" fun c => runResponsiveGenerate c target output
  | .responsiveEntries => withConfig root "responsive:generate:entries" runResponsiveEntries
  | .responsiveExtract file =>
    withConfig root "responsive:extract" fun c => runResponsiveExtract c file
  | .watchCss interval compiler =>
    withConfig root "css:watch" fun c => runWatchCss c interval compiler launch
  | .watchResponsive none => withConfig root "responsive:watch" fun c =>
      orFail "responsive:watch" do
        beginWatch c.root
        return ⟨0, []⟩
  | .watchResponsive (some path) => withConfig root "responsive:watch" fun c => runChange c path

/-- Answers a command line given in a directory.  A root that cannot be one
is noticed before the words that should be a command. -/
def answer (directory : Path) (launch : List Text → CompilerRun) (line : List Text) :
    Action Reply := do
  match Invocation.read? line with
  | none => return usageReply
  | some invocation =>
    let root := directory.join (Path.ofText invocation.root)
    if ← Action.isFile root then return usageReply
    let root ← Action.normalize root
    match invocation.command with
    | some command => command.run root launch
    | none => return usageReply

end FluidScss
