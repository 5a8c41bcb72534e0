/-
FluidScss/Json.lean

JSON values.  Whole numbers are kept apart from those of double precision,
and an object keeps its members in order, each key once.

A configuration may leave a setting out, or give it as null, false, zero or
something empty; `isVoid` says which values count as left out.
-/
import FluidScss.Decimal.Binary64
import FluidScss.Text

namespace FluidScss

/-- A JSON value. -/
inductive Json
  | null
  | bool (b : Bool)
  | int (n : Int)
  | num (x : Binary64)
  | str (text : Text)
  | arr (items : List Json)
  | obj (members : List (Text × Json))

namespace Json

/-- The member of that name. -/
def member? (members : List (Text × Json)) (key : Text) : Option Json := members.lookup key

/-- The members with the value of one key set; a new key comes last. -/
def setMember (members : List (Text × Json)) (key : Text) (value : Json) : List (Text × Json) :=
  match members with
  | [] => [(key, value)]
  | (k, v) :: rest => if k = key then (k, value) :: rest else (k, v) :: setMember rest key value

/-- Whether a value counts as left out. -/
def isVoid : Json → Bool
  | null => true
  | bool b => !b
  | int n => n = 0
  | num x => x.isZero
  | str text => text.isEmpty
  | arr items => items.isEmpty
  | obj members => members.isEmpty

/-- The value of an optional setting that is not left out. -/
def given? : Option Json → Option Json
  | some v => if v.isVoid then none else some v
  | none => none

theorem member?_setMember (members : List (Text × Json)) (key : Text) (value : Json)
    (k : Text) :
    member? (setMember members key value) k = if k = key then some value else member? members k := by
  induction members with
  | nil =>
    by_cases h : k = key
    · simp [setMember, member?, h]
    · simp [setMember, member?, h]
  | cons m rest ih =>
    obtain ⟨k', v⟩ := m
    by_cases h : k' = key
    · subst h
      by_cases hk : k = k'
      · simp [setMember, member?, hk]
      · have hb : (k == k') = false := by simpa using hk
        simp [setMember, member?, hk, List.lookup_cons, hb]
    · simp only [setMember, h, if_false, member?, List.lookup_cons] at ih ⊢
      by_cases hk : k = k'
      · have hb : (k == k') = true := by simpa using hk
        have hne : k ≠ key := fun e => h (hk ▸ e)
        simp [hb, hne]
      · have hb : (k == k') = false := by simpa using hk
        simp only [hb, ih]

end Json

end FluidScss
