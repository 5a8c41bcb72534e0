/-
FluidScss/Watch/CssSync.lean

Syncing compiled stylesheets.  A compiler writes into a directory of its own
beside the sources; each stylesheet found there goes to the same place below
the assets, stamped with the name of its source.  A stylesheet without a
source is stale and stays where it is; an asset without the stamp was written
by someone else and is not replaced; nothing is written outside the assets.

The stamp is a comment in the first line, or in the second below a line that
names the character set.
-/
import FluidScss.Config
import FluidScss.Watch.Responsive

namespace FluidScss

/-! ### Layout -/

/-- The directories of a sync. -/
structure SyncLayout where
  root : Path
  styles : Path
  out : Path
  assets : Path

/-- The layout of a project. -/
def SyncLayout.ofConfig (c : Config) : Except Fault SyncLayout := do
  let styles ← c.sourceDir
  let assets ← c.assetsDir
  return ⟨c.root, styles, styles.parent.child ".sass-out", assets⟩

/-- A path as the log tells it. -/
def SyncLayout.relative (l : SyncLayout) (p : Path) : Text := Config.relativeText l.root p

/-! ### The stamp -/

/-- The comment that names a stylesheet's source. -/
def managedComment (source : Text) : Text :=
  "/* " ++ managedStamp ++ " source=" ++ source ++ " */"

/-- The lines of a stylesheet, where CR LF and LF end a line. -/
def cssLines : Text → List Text
  | [] => [[]]
  | '\r' :: '\n' :: rest => [] :: cssLines rest
  | c :: rest => if c = '\n' then [] :: cssLines rest else Text.consHead c (cssLines rest)

/-- Whether a line names the character set: the keyword, blanks, a quote, and
a quote with a semicolon at its end. -/
def isCharsetLine (line : Text) : Bool :=
  let line := Text.trim line
  if ("@charset" : Text).isPrefixOf line then
    let rest := line.drop 8
    let value := Text.trimLeft rest
    value.length < rest.length && value.head? = some '"' && 3 ≤ value.length
      && ['"', ';'].isSuffixOf value
  else false

/-- The stylesheet with the stamp of its source; one that has it is left as
it is. -/
def withMarker (css source : Text) : Text :=
  let comment := managedComment source
  match cssLines css with
  | first :: rest =>
    if isCharsetLine first then
      if rest.head?.any (Text.contains managedStamp) then css
      else Text.join "\n" (first :: comment :: rest)
    else if comment.isPrefixOf css then css
    else comment ++ "\n" ++ css
  | [] => css

/-! ### One stylesheet -/

/-- The outcome for one stylesheet. -/
inductive SyncStatus
  | wrote
  | updated
  | unchanged
  | blocked
  | stale
deriving DecidableEq

/-- The word of an outcome. -/
def SyncStatus.name : SyncStatus → Text
  | .wrote => "wrote"
  | .updated => "updated"
  | .unchanged => "unchanged"
  | .blocked => "blocked"
  | .stale => "stale"

/-- The asset of a compiled stylesheet; it must lie below the assets. -/
def assetTarget (l : SyncLayout) (compiled : Path) : Except Fault Path :=
  match l.assets.normalize? with
  | none => .error .invalidValue
  | some assetsRoot =>
    match compiled.relativeTo? l.out with
    | none => .error (.escapes compiled assetsRoot)
    | some relative =>
      let target := l.assets.join relative
      match target.normalize? with
      | none => .error .invalidValue
      | some resolved =>
        if resolved = assetsRoot ∨ resolved.isWithin assetsRoot = false then
          .error (.escapes resolved assetsRoot)
        else .ok target

/-- The line of the log when an asset is not replaced. -/
def blockedLine (target source : Text) : Text :=
  "BLOCKED overwrite: " ++ target ++ "\n"
    ++ "  Reason: existing CSS has no '" ++ managedStamp ++ "' marker.\n"
    ++ "  Fix: rename/delete the existing file, or add a marker comment to confirm it's managed.\n"
    ++ "  Example (keep @charset first if present): " ++ managedComment source

/-- Writes a stylesheet that came from a source to its asset. -/
def syncTo (l : SyncLayout) (target : Path) (next source : Text) : Action SyncStatus := do
  if ← Action.fileExists target then
    let existing ← Action.readText target
    if !Text.contains managedStamp existing then
      Action.log .error (blockedLine (l.relative target) source)
      return .blocked
    else if existing = next then return .unchanged
    else
      Action.writeText target next
      Action.log .info ("updated " ++ l.relative target)
      return .updated
  else
    Action.makeDirectories target.parent
    Action.writeText target next
    Action.log .info ("wrote " ++ l.relative target)
    return .wrote

/-- The source of a compiled stylesheet. -/
def sourceOf? (l : SyncLayout) (compiled : Path) : Option Path :=
  match compiled.relativeTo? l.out with
  | some relative => (l.styles.join relative).withEnding? sheetEnding
  | none => none

/-- Syncs one compiled stylesheet. -/
def syncOne (l : SyncLayout) (compiled : Path) : Action SyncStatus := do
  match assetTarget l compiled with
  | .error (.escapes path root) =>
    Action.log .error
      ("BLOCKED write outside " ++ l.relative root ++ ": " ++ l.relative path)
    return .blocked
  | .error fault => throw fault
  | .ok target =>
    match sourceOf? l compiled with
    | none => throw .invalidValue
    | some source =>
      if ← Action.fileExists source then
        let css ← Action.readText compiled
        syncTo l target (withMarker css (l.relative source)) (l.relative source)
      else
        Action.log .warning ("skipped stale output: " ++ l.relative compiled ++ " (missing "
          ++ l.relative source ++ ")")
        return .stale

/-- Syncs a stylesheet that changed; faults of the project and of the file
system are logged. -/
def onCssChange (l : SyncLayout) (path : Path) : Action Unit :=
  logFaults ("sync failed: " ++ ·) do
    let _ ← syncOne l path

/-! ### The compiler -/

/-- What the compiler is called with. -/
def compilerArguments (l : SyncLayout) (command : List Text) : List Text :=
  let options : List Text :=
    ["--watch", l.relative l.styles ++ ":" ++ l.relative l.out, "--style=expanded",
      "--no-source-map"]
  command ++ options

/-- How a compiler runs: it ends with a status, cannot be started, or runs on
until it is interrupted. -/
inductive CompilerRun
  | ends (status : Int)
  | missing
  | running
deriving DecidableEq

/-- The answer of a loop beside a compiler, and the status with which the
compiler ended. -/
structure CssWatchReport where
  answer : Int
  compiler : Int
deriving DecidableEq

/-- The status of a process that an interrupt ended. -/
def interruptedStatus : Int := -2

/-- The time between two looks at the compiler, in seconds, if none is given. -/
def defaultInterval : Binary64 := .ofDecimal false 5 (-1)

/-- Why a time cannot be waited for: it is no number, or its nanoseconds do
not fit in 63 bits.  A time below zero is none at all. -/
def waitFault? : Binary64 → Option Fault
  | .nan => some .invalidValue
  | .infinite negative => if negative then none else some .overflow
  | .finite negative m e =>
    let nanoseconds := if e < 0 then m * Nat.pow 10 9 / Nat.pow 2 (-e).toNat
      else m * Nat.pow 10 9 * Nat.pow 2 e.toNat
    if negative || nanoseconds < Nat.pow 2 63 then none else some .overflow

/-- Runs a compiler and the sync of its output until the compiler ends or, if
it runs on, until the loop is stopped and interrupts it.  No program can be
given the NUL character. -/
def watchCss (l : SyncLayout) (interval : Binary64) (command : List Text)
    (launch : List Text → CompilerRun) : Action CssWatchReport := do
  Action.makeDirectories l.out
  Action.log .info "starting sass watch (safe mode)"
  let arguments := compilerArguments l command
  if arguments.any fun argument => '\x00' ∈ argument then throw .invalidValue
  match launch arguments with
  | .ends status =>
    match waitFault? interval with
    | some fault => throw fault
    | none => return ⟨status, status⟩
  | .missing => throw (.system .notFound (Path.ofText (arguments.headD [])))
  | .running => return ⟨0, interruptedStatus⟩

end FluidScss
