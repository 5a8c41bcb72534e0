/-
FluidScss/Selector.lean

Selectors of nested rule blocks.  A block's selectors are resolved against
those of the block around it, parent by parent (`combineSelectors`): `&`
stands for the parent, a selector without it descends from the parent, and
the empty parent, the one selector of `rootSelectors`, leaves it as it is.

`SelectorStack` keeps the resolved selectors of the open blocks, for a
reader that sees lines and not a tree.  Blocks without a selector are not
opened on it, and closing one too many does nothing.
-/
import FluidScss.Text.Blank

namespace FluidScss

/-- The selectors around the blocks at the top of a sheet. -/
def rootSelectors : List Text := [[]]

/-- One selector inside one parent. -/
def nestSelector (parent child : Text) : Text :=
  if parent = [] then child
  else if '&' ∈ child then Text.replace '&' parent child
  else parent ++ " " ++ child

/-- Every child, trimmed, inside every parent; the children of the first
parent come first. -/
def combineSelectors (parents children : List Text) : List Text :=
  parents.flatMap fun parent => (children.map Text.trim).map (nestSelector parent)

theorem length_combineSelectors (parents children : List Text) :
    (combineSelectors parents children).length = parents.length * children.length := by
  simp [combineSelectors, List.length_flatMap, List.map_const']

theorem combineSelectors_ne_nil {parents children : List Text} (hp : parents ≠ [])
    (hc : children ≠ []) : combineSelectors parents children ≠ [] := by
  rw [← List.length_pos_iff, length_combineSelectors]
  exact Nat.mul_pos (List.length_pos_iff.mpr hp) (List.length_pos_iff.mpr hc)

/-- The resolved selectors of the open blocks, the innermost block first. -/
structure SelectorStack where
  frames : List (List Text) := []
deriving DecidableEq

namespace SelectorStack

/-- The selectors of the innermost open block. -/
def current (s : SelectorStack) : List Text := s.frames.headD rootSelectors

/-- The selectors that `children` resolve to, if one of them is not blank. -/
def resolve? (s : SelectorStack) (children : List Text) : Option (List Text) :=
  let children := (children.map Text.trim).filter (· ≠ [])
  if children = [] then none else some (combineSelectors s.current children)

/-- Opens a block for `children`; one without a selector opens nothing. -/
def push (s : SelectorStack) (children : List Text) : SelectorStack :=
  match s.resolve? children with
  | some frame => ⟨frame :: s.frames⟩
  | none => s

/-- Closes the innermost block, if one is open. -/
def pop (s : SelectorStack) : SelectorStack := ⟨s.frames.tail⟩

/-- Closes `n` blocks, or as many as are open. -/
def popMany (s : SelectorStack) (n : Nat) : SelectorStack := ⟨s.frames.drop n⟩

theorem push_eq_self {children : List Text} (h : (children.map Text.trim).filter (· ≠ []) = [])
    (s : SelectorStack) : s.push children = s := by
  simp only [push, resolve?, h, if_pos]

theorem push_eq_cons {children selectors : List Text}
    (h : (children.map Text.trim).filter (· ≠ []) = selectors) (hne : selectors ≠ [])
    (s : SelectorStack) :
    s.push children = ⟨combineSelectors s.current selectors :: s.frames⟩ := by
  simp only [push, resolve?, h, if_neg hne]

/-- Closing one block and then `n` others is closing one more. -/
theorem popMany_pop (s : SelectorStack) (n : Nat) : s.pop.popMany n = s.popMany (n + 1) := by
  rw [pop, popMany, popMany, List.drop_tail]

theorem pop_push {s : SelectorStack} {children : List Text} {frame : List Text}
    (h : s.resolve? children = some frame) : (s.push children).pop = s := by
  simp [push, h, pop]

end SelectorStack

end FluidScss
