/-
FluidScss/Scan.lean

Scanning a style sheet for overrides: through its tree, and line by line if
it has none.
-/
import FluidScss.Scan.Line
import FluidScss.Scan.Tree

namespace FluidScss

/-- The drafts of a sheet. -/
def sheetDrafts (m : Marker) (source : Text) : List Draft :=
  match treeDrafts m source with
  | .ok drafts => drafts
  | .error _ => lineDrafts m source

/-- The overrides of a sheet, numbered from `start` on. -/
def scanSheet (m : Marker) (source : Text) (start : Int) : List Override :=
  number start (sheetDrafts m source)

end FluidScss
