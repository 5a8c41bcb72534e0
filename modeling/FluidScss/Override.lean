/-
FluidScss/Override.lean

Overrides: declarations bound for the generated stylesheet.  A scan finds
*drafts*, selector, property and value; the place of a draft in the order of
discovery makes it an `Override` (`number`).  The order decides which of two
overrides of one property of one selector wins: `mergeRules` sorts by it,
equals in the order given, and lets the last value win, while selectors and
properties keep the place of their first occurrence.
-/
import FluidScss.Text

namespace FluidScss

/-- A declaration found by a scan, with the selector it applies to. -/
structure Draft where
  selector : Text
  property : Text
  value : Text
deriving DecidableEq

/-- A draft and its place in the order of discovery. -/
structure Override extends Draft where
  order : Int
deriving DecidableEq

/-- The drafts numbered from `start` on. -/
def number (start : Int) : List Draft → List Override
  | [] => []
  | d :: ds => ⟨d, start⟩ :: number (start + 1) ds

theorem number_append (start : Int) (ds es : List Draft) :
    number start (ds ++ es) = number start ds ++ number (start + ds.length) es := by
  induction ds generalizing start with
  | nil => simp [number]
  | cons d ds ih => simp [number, ih, Int.add_comm 1, Int.add_assoc]

@[simp] theorem length_number (start : Int) (ds : List Draft) :
    (number start ds).length = ds.length := by
  induction ds generalizing start with
  | nil => rfl
  | cons d ds ih => simp [number, ih]

/-! ### Merging -/

/-- The entry of `key` changed by `f`; without one, a new entry at the end
made from `new`. -/
def upsert {κ α : Type} [DecidableEq κ] (key : κ) (new : α) (f : α → α) :
    List (κ × α) → List (κ × α)
  | [] => [(key, f new)]
  | (k, a) :: rest => if k = key then (k, f a) :: rest else (k, a) :: upsert key new f rest

theorem map_fst_upsert {κ α : Type} [DecidableEq κ] (key : κ) (new : α) (f : α → α)
    (entries : List (κ × α)) :
    (upsert key new f entries).map Prod.fst =
      if key ∈ entries.map Prod.fst then entries.map Prod.fst
      else entries.map Prod.fst ++ [key] := by
  induction entries with
  | nil => simp [upsert]
  | cons e rest ih =>
    obtain ⟨k, a⟩ := e
    by_cases h : k = key
    · simp [upsert, h]
    · have h' : ¬ key = k := fun e => h e.symm
      simp only [upsert, h, if_false, List.map_cons, ih, List.mem_cons, h', false_or]
      split <;> simp

/-- The properties of one selector with their values. -/
abbrev Properties := List (Text × Text)

/-- Rules by selector, as they are written. -/
abbrev Rules := List (Text × Properties)

/-- The rules with one more override, which wins over those before it. -/
def addOverride (rules : Rules) (o : Override) : Rules :=
  upsert o.selector [] (upsert o.property o.value fun _ => o.value) rules

/-- The overrides grouped by selector; of several values of one property the
last in order stays. -/
def mergeRules (overrides : List Override) : Rules :=
  (overrides.mergeSort fun a b => a.order ≤ b.order).foldl addOverride []

end FluidScss
