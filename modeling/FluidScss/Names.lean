/-
FluidScss/Names.lean

The names that the files of a project share: the configuration file, the
stamp of generated files, the mixin of the override stylesheet and the parts
of its file names.
-/
import FluidScss.Text

namespace FluidScss

/-- The configuration file in a project's root. -/
def configName : Text := "scss-kit.config.json"

/-- The text by which a generated file is known. -/
def generatedStamp : Text := "Generated by scss-kit"

/-- The text by which a synced stylesheet is known. -/
def managedStamp : Text := "scss-kit:managed"

/-- The mixin that holds the overrides. -/
def overridesMixin : Text := "responsive_autofill_overrides"

/-- What the file name of an override stylesheet begins with. -/
def overridesStem : Text := "_responsive-autofill"

/-- What the file name of an override stylesheet ends with. -/
def overridesEnding : Text := ".generated.scss"

/-- The ending of style sheet sources. -/
def sheetEnding : Text := ".scss"

end FluidScss
