/-
FluidScss/Scan/Tree.lean

The overrides of a style sheet, read off its tree.  The walk carries the
resolved selectors of the blocks around a node; at-rules and blocks without
selectors hand them on unchanged.  A declaration counts if it stands inside
a rule block and holds a marker call that is replaced; it gives one draft
for every selector around it.
-/
import FluidScss.Call
import FluidScss.Override
import FluidScss.Selector
import FluidScss.Sheet

namespace FluidScss

/-- The drafts of one declaration under the selectors `parents`. -/
def declarationDrafts (m : Marker) (parents : List Text) (property value : Text)
    (important : Bool) : List Draft :=
  let r := clampCalls m value
  if r.changed then
    parents.map fun selector => ⟨selector, property, withImportant r.value important⟩
  else []

mutual

/-- The drafts of a node under the selectors `parents`. -/
def Node.drafts (m : Marker) (parents : List Text) : Node → List Draft
  | .declaration property value important _ =>
    if parents = rootSelectors then []
    else declarationDrafts m parents property value important
  | .atRule _ _ children _ => Node.draftsOfList m parents children
  | .block _ selectors children _ =>
    if selectors = [] then Node.draftsOfList m parents children
    else Node.draftsOfList m (combineSelectors parents selectors) children

/-- The drafts of nodes side by side. -/
def Node.draftsOfList (m : Marker) (parents : List Text) : List Node → List Draft
  | [] => []
  | node :: nodes => node.drafts m parents ++ Node.draftsOfList m parents nodes

end

/-- The drafts of a sheet, read through its tree. -/
def treeDrafts (m : Marker) (source : Text) : Except SheetDefect (List Draft) :=
  (parseSheet source).map (Node.draftsOfList m rootSelectors)

end FluidScss
