/-
FluidScss/Proofs/MarkerCall.lean

What becomes of the marker calls of a value.  Two readings are given, one of
any value and one of values that hold a call written in order.

Any value is cut by its calls (`Cut`): from left to right, text in which the
marker begins nowhere and the call behind it, closed by the parenthesis that
balances the marker's; at the end text without a marker, or with one that is
never closed and all that follows it.  Only calls are replaced, those with
three arguments or more (`exists_cut`).

A call whose arguments are self-contained is closed by the parenthesis behind
them and cut into just these arguments, so its replacement names its second
and third, and what follows is clamped as a value of its own
(`clampCalls_call`).
-/
import FluidScss.Call
import FluidScss.Proofs.SelfContained

namespace FluidScss

variable {m : Marker} {value text before after arguments rest : Text}

/-! ### Calls -/

namespace Marker

/-- A call with these arguments, as it is written. -/
def callText (m : Marker) (arguments : Text) : Text := m.opener ++ arguments ++ ")"

/-- The clamp expression of a call, if it has at least three arguments. -/
def clampOf? (m : Marker) (arguments : Text) : Option Text :=
  match splitTopLevel "," arguments with
  | _ :: mobile :: sizing :: _ =>
    some (m.ns ++ ".clamp_mb(" ++ mobile ++ ", " ++ m.ns ++ ".min_px(" ++ mobile ++ ", "
      ++ sizing ++ ", mobile))")
  | _ => none

/-- What a call becomes: its clamp expression, or itself. -/
def replacement (m : Marker) (arguments : Text) : Text :=
  (m.clampOf? arguments).getD (m.callText arguments)

end Marker

theorem Segment.clamp?_plain (m : Marker) (text : Text) : (Segment.plain text).clamp? m = none :=
  rfl

theorem Segment.clamp?_call (m : Marker) (arguments : Text) :
    (Segment.call arguments).clamp? m = m.clampOf? arguments := rfl

theorem Segment.clamped_call (m : Marker) (arguments : Text) :
    (Segment.call arguments).clamped m = m.replacement arguments := rfl

/-- A value without the marker stays as it is. -/
theorem clampCalls_of_unmarked (h : Text.breakOn m.opener value = none) :
    clampCalls m value = ⟨value, false⟩ := by
  have hsegments : segments m value = [.plain value] := by
    rw [segments]
    split
    · rfl
    · rename_i h'
      rw [h] at h'
      cases h'
  rw [clampCalls, hsegments, List.flatMap_singleton]
  rfl

/-- A value whose first marker is never closed stays as it is. -/
theorem clampCalls_of_unclosed (h : Text.breakOn m.opener value = some (before, after))
    (hc : breakAtClose after = none) : clampCalls m value = ⟨value, false⟩ := by
  have hsegments : segments m value = [.plain value] := by
    rw [segments]
    split
    · rfl
    · rename_i h'
      rw [h] at h'
      cases h'
      split
      · rfl
      · rename_i hc'
        rw [hc] at hc'
        cases hc'
  rw [clampCalls, hsegments, List.flatMap_singleton]
  rfl

/-- Behind a call a value is cut as if it began there. -/
theorem segments_of_closed (h : Text.breakOn m.opener value = some (before, after))
    (hc : breakAtClose after = some (arguments, rest)) :
    segments m value = .plain before :: .call arguments :: segments m rest := by
  rw [segments]
  split
  · rename_i h'
    rw [h] at h'
    cases h'
  · rename_i h'
    rw [h] at h'
    cases h'
    split
    · rename_i hc'
      rw [hc] at hc'
      cases hc'
    · rename_i hc'
      rw [hc] at hc'
      cases hc'
      rfl

/-! ### Values cut by their calls -/

/-- The marker begins nowhere in a stretch of a value. -/
def Unmarked (m : Marker) (value : Text) (start stop : Nat) : Prop :=
  ∀ n, start ≤ n → n < stop → ¬ m.opener <+: value.drop n

/-- A value, from `start` on, is cut into calls, each with the text before it,
and the text behind the last of them. -/
inductive Cut (m : Marker) (value : Text) : Nat → List (Text × Text) → Text → Prop
  | plain {start : Nat} {tail : Text} (rest : value.drop start = tail)
      (unmarked : Unmarked m value start (value.length + 1)) : Cut m value start [] tail
  | unclosed {start : Nat} {before after : Text}
      (rest : value.drop start = before ++ m.opener ++ after)
      (unmarked : Unmarked m value start (start + before.length))
      (never : closingParen value (start + before.length + m.opener.length) = none) :
      Cut m value start [] (before ++ m.opener ++ after)
  | call {start : Nat} {before arguments tail : Text} {calls : List (Text × Text)}
      (text : before ++ m.callText arguments <+: value.drop start)
      (unmarked : Unmarked m value start (start + before.length))
      (closed : closingParen value (start + before.length + m.opener.length)
        = some (start + before.length + m.opener.length + arguments.length))
      (later : Cut m value (start + (before ++ m.callText arguments).length) calls tail) :
      Cut m value start ((before, arguments) :: calls) tail

/-- Up to where it is found the marker begins nowhere. -/
theorem unmarked_of_breakOn {start : Nat} (hdrop : value.drop start = text)
    (h : Text.breakOn m.opener text = some (before, after)) :
    Unmarked m value start (start + before.length) := by
  intro n hstart hstop
  have hfirst := Text.not_isPrefix_of_breakOn h (n - start) (by omega)
  rwa [← hdrop, List.drop_drop, Nat.add_sub_cancel' hstart] at hfirst

/-- What is behind the marker's parenthesis is found there in the value. -/
theorem drop_of_breakOn {start : Nat} (hdrop : value.drop start = text)
    (h : Text.breakOn m.opener text = some (before, after)) :
    value.drop (start + before.length + m.opener.length) = after := by
  rw [Text.eq_of_breakOn h] at hdrop
  rw [Nat.add_assoc, ← List.drop_drop, hdrop, ← List.length_append, List.drop_left]

/-- The segments of a value cut so. -/
def cutSegments (calls : List (Text × Text)) (tail : Text) : List Segment :=
  calls.flatMap (fun c => [.plain c.1, .call c.2]) ++ [.plain tail]

theorem flatMap_cutSegments (f : Segment → Text) (calls : List (Text × Text)) (tail : Text) :
    (cutSegments calls tail).flatMap f
      = calls.flatMap (fun c => f (.plain c.1) ++ f (.call c.2)) ++ f (.plain tail) := by
  simp [cutSegments, List.flatMap_assoc]

/-- A value is cut where its segments are. -/
theorem exists_cut_of_segments (m : Marker) {start : Nat} (hdrop : value.drop start = text) :
    ∃ calls tail, Cut m value start calls tail ∧ segments m text = cutSegments calls tail := by
  fun_induction segments m text generalizing start with
  | case1 text hopen =>
    refine ⟨[], text, .plain hdrop fun n hstart _ => ?_, rfl⟩
    have hnone := Text.not_isPrefix_of_breakOn_eq_none hopen (n - start)
    rwa [← hdrop, List.drop_drop, Nat.add_sub_cancel' hstart] at hnone
  | case2 text before after hopen hclose =>
    -- a marker that is never closed takes all that follows with it
    have htext := Text.eq_of_breakOn hopen
    refine ⟨[], before ++ m.opener ++ after,
      .unclosed (hdrop.trans htext) (unmarked_of_breakOn hdrop hopen) ?_, ?_⟩
    · rw [closingParen, drop_of_breakOn hdrop hopen, hclose]
      rfl
    · rw [← htext]
      rfl
  | case3 text before after hopen arguments rest hclose ih =>
    -- the call and the text before it stand in front of what is left
    have htext : text = before ++ m.callText arguments ++ rest := by
      rw [Text.eq_of_breakOn hopen, eq_of_breakAtClose hclose, Marker.callText]
      simp
    have hrest : value.drop (start + (before ++ m.callText arguments).length) = rest := by
      rw [← List.drop_drop, hdrop, htext, List.drop_left]
    obtain ⟨calls, tail, hcut, hsegments⟩ := ih hrest
    refine ⟨(before, arguments) :: calls, tail,
      .call ?_ (unmarked_of_breakOn hdrop hopen) ?_ hcut, ?_⟩
    · rw [hdrop, htext]
      exact List.prefix_append _ _
    · rw [closingParen, drop_of_breakOn hdrop hopen, hclose]
      rfl
    · rw [hsegments]
      rfl

/-- **Only complete calls are touched**: any value is cut by its calls, and what
becomes of it is the same text with the calls of three arguments or more
replaced by their clamp expressions; it has changed if there are such calls,
and else is returned as it was. -/
theorem exists_cut (m : Marker) (value : Text) :
    ∃ calls tail, Cut m value 0 calls tail ∧
      value = calls.flatMap (fun c => c.1 ++ m.callText c.2) ++ tail ∧
      (clampCalls m value).value = calls.flatMap (fun c => c.1 ++ m.replacement c.2) ++ tail ∧
      ((clampCalls m value).changed = true ↔ ∃ c ∈ calls, ∃ clamp, m.clampOf? c.2 = some clamp) ∧
      ((clampCalls m value).changed = false → (clampCalls m value).value = value) := by
  obtain ⟨calls, tail, hcut, hsegments⟩ := exists_cut_of_segments m (value.drop_zero)
  refine ⟨calls, tail, hcut, ?_, ?_, ?_, value_of_not_changed⟩
  · have hsource := source_segments m value
    rw [hsegments, flatMap_cutSegments] at hsource
    exact hsource.symm
  · rw [clampCalls, hsegments, flatMap_cutSegments]
    rfl
  · rw [clampCalls, hsegments, cutSegments]
    simp [Segment.clamp?_plain, Segment.clamp?_call, Option.isSome_iff_exists]

/-! ### Calls in order -/

/-- **Calls are replaced by the clamp of their second and third arguments.**
Where the marker first begins with a call of self-contained arguments, the last
of them not blank, the call is replaced if there are three of them or more and
stays as it is otherwise; what stands before it stays, and what follows is
clamped as a value of its own. -/
theorem clampCalls_call (m : Marker) (before after : Text) (arguments : List Text)
    (hself : ∀ a ∈ arguments, SelfContained ',' a)
    (hlast : ∀ a, arguments.getLast? = some a → Text.isBlank a = false)
    (hfirst : ∀ n < before.length,
      ¬ m.opener <+: (before ++ m.callText (Text.join "," arguments) ++ after).drop n) :
    clampCalls m (before ++ m.callText (Text.join "," arguments) ++ after) =
      match arguments with
      | _ :: mobile :: sizing :: _ =>
        ⟨before ++ (m.ns ++ ".clamp_mb(" ++ Text.trim mobile ++ ", " ++ m.ns ++ ".min_px("
          ++ Text.trim mobile ++ ", " ++ Text.trim sizing ++ ", mobile))")
          ++ (clampCalls m after).value, true⟩
      | _ =>
        ⟨before ++ m.callText (Text.join "," arguments) ++ (clampCalls m after).value,
          (clampCalls m after).changed⟩ := by
  have hvalue : before ++ m.callText (Text.join "," arguments) ++ after
      = before ++ m.opener ++ (Text.join "," arguments ++ ')' :: after) := by
    rw [Marker.callText]
    simp
  have hopen : Text.breakOn m.opener (before ++ m.callText (Text.join "," arguments) ++ after)
      = some (before, Text.join "," arguments ++ ')' :: after) := by
    rw [hvalue] at hfirst ⊢
    exact Text.breakOn_of_first hfirst
  have hclose : breakAtClose (Text.join "," arguments ++ ')' :: after)
      = some (Text.join "," arguments, after) := breakAtClose_join isSeparator_comma hself after
  have hsplit : splitTopLevel "," (Text.join "," arguments) = arguments.map Text.trim :=
    splitTopLevel_join_of_selfContained isSeparator_comma hself hlast
  have hclamp : clampCalls m (before ++ m.callText (Text.join "," arguments) ++ after)
      = ⟨before ++ m.replacement (Text.join "," arguments) ++ (clampCalls m after).value,
        (m.clampOf? (Text.join "," arguments)).isSome || (clampCalls m after).changed⟩ := by
    rw [clampCalls, segments_of_closed hopen hclose, clampCalls]
    simp only [List.flatMap_cons, List.any_cons, Segment.clamped_call, Segment.clamp?_call,
      List.append_assoc]
    rfl
  rw [hclamp, Marker.replacement, Marker.clampOf?, hsplit]
  -- whether there are three arguments decides, and nothing else about them
  rcases arguments with - | ⟨a, - | ⟨b, - | ⟨c, more⟩⟩⟩ <;> rfl

/-- Commas and parentheses in strings and in parentheses belong to the
argument they stand in, and a call with one argument behind stays. -/
theorem clampCalls_call_nested :
    (∀ a ∈ (["1px", " \"a, )\"", " f(2, (3)) "] : List Text), SelfContained ',' a) ∧
      clampCalls ⟨"r", "resp"⟩ "calc(r.resp(1px, \"a, )\", f(2, (3)) ) + r.resp(4))"
        = ⟨"calc(r.clamp_mb(\"a, )\", r.min_px(\"a, )\", f(2, (3)), mobile)) + r.resp(4))", true⟩ := by
  have hself : ∀ a ∈ (["1px", " \"a, )\"", " f(2, (3)) "] : List Text), SelfContained ',' a := by
    decide
  have hbehind : clampCalls ⟨"r", "resp"⟩ " + r.resp(4))" = ⟨" + r.resp(4))", false⟩ := by
    refine (clampCalls_call ⟨"r", "resp"⟩ " + " ")" ["4"] (by decide) ?_ (by decide)).trans ?_
    · rintro a ⟨⟩
      decide
    · rw [clampCalls_of_unmarked (by decide)]
      rfl
  refine ⟨hself, (clampCalls_call ⟨"r", "resp"⟩ "calc(" " + r.resp(4))" _ hself ?_ ?_).trans ?_⟩
  · rintro a ⟨⟩
    decide
  · decide
  · rw [hbehind]
    rfl

end FluidScss
