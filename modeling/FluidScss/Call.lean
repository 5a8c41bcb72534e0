/-
FluidScss/Call.lean

Marker calls in values.  A marker such as `r.resp(32px, 24px, h1)` carries a
desktop size, a mobile size and a sizing type; in the override stylesheet it
becomes the clamp expression of its mobile size,

    r.clamp_mb(24px, r.min_px(24px, h1, mobile))

A value is cut into *segments*, calls and the text around them (`segments`),
and a clamped value is its segments with the calls of at least three
arguments replaced.  Calls with fewer arguments stay as they are; a call
that is never closed is no call, and with everything behind it plain text.

Main fact: the segments written one after the other are the value
(`source_segments`), so text around the calls is kept to the character.
-/
import FluidScss.Delimiter

namespace FluidScss

/-- The name that marks a responsive value: a module's namespace and a
function in it. -/
structure Marker where
  ns : Text
  fn : Text
deriving DecidableEq

namespace Marker

/-- The name in full, `ns.fn`. -/
def qualified (m : Marker) : Text := m.ns ++ "." ++ m.fn

/-- What a call begins with. -/
def opener (m : Marker) : Text := m.qualified ++ "("

theorem opener_ne_nil (m : Marker) : m.opener ≠ [] := by
  simp [opener, qualified]

/-- The mobile size clamped below by the least size of its sizing type. -/
def mobileClamp (m : Marker) (mobile sizing : Text) : Text :=
  m.ns ++ ".clamp_mb(" ++ mobile ++ ", " ++ m.ns ++ ".min_px(" ++ mobile ++ ", " ++ sizing
    ++ ", mobile))"

end Marker

/-! ### Segments -/

/-- A part of a value: text without a complete call, or the arguments of a
call. -/
inductive Segment
  | plain (text : Text)
  | call (arguments : Text)
deriving DecidableEq

/-- The calls in a value and the text around them, in order. -/
def segments (m : Marker) (value : Text) : List Segment :=
  match _h : Text.breakOn m.opener value with
  | none => [.plain value]
  | some (before, after) =>
    match _h' : breakAtClose after with
    | none => [.plain value]
    | some (arguments, rest) => .plain before :: .call arguments :: segments m rest
termination_by value.length
decreasing_by
  have := Text.length_of_breakOn m.opener_ne_nil _h
  have := length_of_breakAtClose _h'
  omega

namespace Segment

/-- The segment as it stands in the value. -/
def source (m : Marker) : Segment → Text
  | plain text => text
  | call arguments => m.opener ++ arguments ++ ")"

/-- The clamp expression of a call that has at least three arguments. -/
def clamp? (m : Marker) : Segment → Option Text
  | plain _ => none
  | call arguments =>
    match splitTopLevel "," arguments with
    | _ :: mobile :: sizing :: _ => some (m.mobileClamp mobile sizing)
    | _ => none

/-- The segment in the clamped value. -/
def clamped (m : Marker) (s : Segment) : Text := (s.clamp? m).getD (s.source m)

end Segment

/-- The segments are the value, cut. -/
theorem source_segments (m : Marker) (value : Text) :
    (segments m value).flatMap (Segment.source m) = value := by
  fun_induction segments m value with
  | case1 => simp [Segment.source]
  | case2 => simp [Segment.source]
  | case3 value before after h arguments rest h' ih =>
    have h1 := Text.eq_of_breakOn h
    have h2 := eq_of_breakAtClose h'
    simp [Segment.source, ih, h1, h2]

/-! ### Clamped values -/

/-- A value after its calls were replaced, and whether any was. -/
structure Clamped where
  value : Text
  changed : Bool
deriving DecidableEq

/-- Replaces the marker calls of a value by their clamp expressions. -/
def clampCalls (m : Marker) (value : Text) : Clamped where
  value := (segments m value).flatMap (Segment.clamped m)
  changed := (segments m value).any fun s => (s.clamp? m).isSome

/-- A value in which no call was replaced is returned as it was. -/
theorem value_of_not_changed {m : Marker} {value : Text}
    (h : (clampCalls m value).changed = false) : (clampCalls m value).value = value := by
  have hs : ∀ s ∈ segments m value, s.clamped m = s.source m := by
    intro s hs
    have := List.any_eq_false.1 h s hs
    simp only [Bool.not_eq_true, Option.isSome_eq_false_iff, Option.isNone_iff_eq_none] at this
    simp [Segment.clamped, this]
  calc (clampCalls m value).value
      = (segments m value).flatMap (Segment.source m) := by
        simp only [clampCalls, List.flatMap_def]
        rw [List.map_congr_left hs]
    _ = value := source_segments m value

end FluidScss
