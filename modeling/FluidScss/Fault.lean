/-
FluidScss/Fault.lean

What can go wrong, by cause, and how each is told.  Faults of the project
(`isKitFault`) are its configuration, a source that is missing and a path
that leaves its directory; others lie in the file system (`isSystemFault`).
The rest are faults of a value: a path that is no text, a member asked of
something that has none, an infinite number where a whole one is needed, a
text that is no path.
-/
import FluidScss.FileTree
import FluidScss.Json.Reader
import FluidScss.Json.Shown
import FluidScss.Names

namespace FluidScss

/-- What is wrong with a configuration. -/
inductive ConfigurationFault
  | missingFile
  | malformed (text : Text) (fault : JsonFault) (distance : Nat)
  | notAnObject
  | function (value : Json)
  | mobileMax (value : Json)
  | entries
  | noEntries
  | coefficients

/-- Why an operation did not succeed. -/
inductive Fault
  | configuration (fault : ConfigurationFault)
  | sourceNotFound (path : Text)
  | sourceDirectoryNotFound (path : Text)
  | escapes (path root : Path)
  | system (fault : SystemFault) (path : Path)
  | notUtf8
  | wrongType
  | noMembers
  | overflow
  | invalidValue
  | malformedJson

/-! ### Messages -/

/-- What a configuration's fault is called. -/
def ConfigurationFault.message : ConfigurationFault → Text
  | .missingFile => "Missing " ++ configName ++ " in repo root."
  | .malformed text fault distance =>
    "Invalid JSON in " ++ configName ++ ": " ++ fault.message text distance
  | .notAnObject => configName ++ " must contain a JSON object"
  | .function value =>
    "Invalid autofill.function: " ++ value.shown
      ++ ". Expected format: <ns>.<name> (e.g. r.resp)"
  | .mobileMax value =>
    "Invalid autofill.mobileMax: " ++ value.literal ++ ". Expected a number of px"
  | .entries => "autofill.entries must be an array of entry scss paths"
  | .noEntries =>
    "missing autofill.entries in " ++ configName ++ " (expected array of entry scss paths)"
  | .coefficients => "coefficients.mobile and coefficients.desktop must be objects"

/-- The number of a system's fault. -/
def SystemFault.number : SystemFault → Nat
  | .notFound => 2
  | .alreadyExists => 17
  | .notDirectory => 20
  | .isDirectory => 21
  | .nameTooLong => 36

/-- What a system's fault is called. -/
def SystemFault.description : SystemFault → Text
  | .notFound => "No such file or directory"
  | .alreadyExists => "File exists"
  | .notDirectory => "Not a directory"
  | .isDirectory => "Is a directory"
  | .nameTooLong => "File name too long"

namespace Fault

/-- Whether the fault lies in the project. -/
def isKitFault : Fault → Bool
  | configuration _ => true
  | sourceNotFound _ => true
  | sourceDirectoryNotFound _ => true
  | escapes _ _ => true
  | _ => false

/-- Whether the fault lies in the file system. -/
def isSystemFault : Fault → Bool
  | system _ _ => true
  | _ => false

/-- How a fault is told. -/
def message : Fault → Text
  | configuration fault => fault.message
  | sourceNotFound path => "file not found: " ++ path
  | sourceDirectoryNotFound path => "SCSS source dir not found: " ++ path
  | escapes path root => path.toText ++ " is outside " ++ root.toText
  | system fault path =>
    "[Errno " ++ Text.ofNat fault.number ++ "] " ++ fault.description ++ ": "
      ++ Text.quoted path.toText
  | notUtf8 => "a file is not UTF-8"
  | wrongType => "a value has the wrong type"
  | noMembers => "a value has no members"
  | overflow => "a number is infinite"
  | invalidValue => "a value is invalid"
  | malformedJson => "a text is not JSON"

end Fault

end FluidScss
