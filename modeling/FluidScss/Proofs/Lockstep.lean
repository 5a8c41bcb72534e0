/-
FluidScss/Proofs/Lockstep.lean

The closing scan and the splitting scan next to each other.  The closing scan
reads a text from behind an opening parenthesis, counts from one, and ends where
it counts none; the splitting scan reads what stands between, counts from zero,
and never counts below.  Written with these counts, character by character
(`closingAt`, `splittingAt`), the first ends at the position `closingParen` gives
(`closingParen_eq_some_iff`), and the second cuts where it stands outside of
strings and counts none (`isCut_pieces_iff`).

What one character does to both keeps them in the same string and one
parenthesis apart, as long as the closing scan does not end
(`InStep.step`).  So they are on the whole slice (`inStep`), and the closing
parentheses in it find one open in the splitting scan too.  The commas at which
the arguments of a call are cut are therefore those that the closing scan reads
outside of strings with no parenthesis open but the one of the call
(`scans_in_lockstep`).
-/
import FluidScss.Proofs.SelfContained

namespace FluidScss

variable {text : Text} {sep c : Char} {start stop depth k : Nat}

/-! ### Scans with their counts -/

/-- Where a scan stands: its string, and its count of open parentheses. -/
structure Standing where
  quoting : Quoting
  depth : Int
deriving DecidableEq

/-- The scan after a character.  A bare closing parenthesis makes `closed` of the
count. -/
def Standing.step (closed : Int → Int) (s : Standing) (c : Char) : Standing where
  quoting := s.quoting.step c
  depth :=
    if s.quoting.bare c then
      if c = '(' then s.depth + 1 else if c = ')' then closed s.depth else s.depth
    else s.depth

/-- The closing scan counts down. -/
def countDown (depth : Int) : Int := depth - 1

/-- The splitting scan does too, but never below zero. -/
def countDownToZero (depth : Int) : Int := max 0 (depth - 1)

/-- The closing scan from behind an opening parenthesis at `start`, before the
`k`-th character it reads.  It could look back at the character before `start`. -/
def closingAt (text : Text) (start k : Nat) : Standing :=
  ((text.drop start).take k).foldl (Standing.step countDown) ⟨⟨(text.take start).getLast?, none⟩, 1⟩

/-- The splitting scan before the `k`-th character of the text.  It has nothing to
look back at. -/
def splittingAt (text : Text) (k : Nat) : Standing :=
  (text.take k).foldl (Standing.step countDownToZero) ⟨{}, 0⟩

/-- The slice of the text from `start` to before `stop`. -/
def between (text : Text) (start stop : Nat) : Text := (text.drop start).take (stop - start)

/-- The parts are cut at position `k` of the text they are the parts of. -/
def IsCut (sep : Char) (parts : List Text) (k : Nat) : Prop :=
  ∃ front back, front ≠ [] ∧ back ≠ [] ∧ parts = front ++ back ∧
    (Text.join [sep] front).length = k

theorem closingAt_succ (h : text[start + k]? = some c) :
    closingAt text start (k + 1) = (closingAt text start k).step countDown c := by
  rw [closingAt, closingAt, List.take_add_one, List.getElem?_drop, h, List.foldl_append]
  rfl

theorem splittingAt_succ (h : text[k]? = some c) :
    splittingAt text (k + 1) = (splittingAt text k).step countDownToZero c := by
  rw [splittingAt, splittingAt, List.take_add_one, h, List.foldl_append]
  rfl

theorem getElem?_between (h : k < stop - start) :
    (between text start stop)[k]? = text[start + k]? := by
  rw [between, List.getElem?_take_of_lt h, List.getElem?_drop]

/-! ### Where the closing scan ends -/

/-- While it does not end, the closing scan counts one more than the parentheses
opened behind its own. -/
theorem step_countDown {s : Quoting} (h : ¬ (s.bare c = true ∧ c = ')' ∧ depth = 0)) :
    Standing.step countDown ⟨s, depth + 1⟩ c = ⟨s.step c, s.depthAfter depth c + 1⟩ := by
  rw [Standing.step, Quoting.depthAfter]
  congr 1
  split
  · rename_i hbare
    split
    · push_cast
      rfl
    · split
      · rename_i hclose
        have hpos : depth ≠ 0 := fun h0 => h ⟨hbare, hclose, h0⟩
        show (depth : Int) + 1 - 1 = (depth - 1 : Nat) + 1
        omega
      · rfl
  · rfl

theorem step_countDown_close {s : Quoting} (h : s.bare ')' = true) (depth : Int) :
    (Standing.step countDown ⟨s, depth⟩ ')').depth = depth - 1 := by
  rw [Standing.step, if_pos h]
  rfl

/-- The closing scan from some standing ends at the `k`-th character of a text: it
counts a parenthesis up to that one, and none behind it. -/
def EndsAt (s : Standing) (text : Text) (k : Nat) : Prop :=
  k < text.length ∧ (∀ j ≤ k, 0 < ((text.take j).foldl (Standing.step countDown) s).depth) ∧
    ((text.take (k + 1)).foldl (Standing.step countDown) s).depth = 0

theorem EndsAt.pos {s : Standing} (h : EndsAt s text k) : 0 < s.depth := h.2.1 0 (Nat.zero_le k)

theorem not_endsAt_nil (s : Standing) : ¬ EndsAt s [] k := fun h => Nat.not_lt_zero k h.1

theorem endsAt_cons_zero {s : Standing} :
    EndsAt s (c :: text) 0 ↔ 0 < s.depth ∧ (s.step countDown c).depth = 0 := by
  constructor
  · intro h
    exact ⟨h.pos, h.2.2⟩
  · rintro ⟨hpos, hzero⟩
    refine ⟨Nat.succ_pos _, fun j hj => ?_, hzero⟩
    obtain rfl := Nat.le_zero.mp hj
    exact hpos

theorem endsAt_cons_succ {s : Standing} :
    EndsAt s (c :: text) (k + 1) ↔ 0 < s.depth ∧ EndsAt (s.step countDown c) text k := by
  constructor
  · intro h
    exact ⟨h.pos, Nat.lt_of_succ_lt_succ h.1,
      fun j hj => h.2.1 (j + 1) (Nat.succ_le_succ hj), h.2.2⟩
  · rintro ⟨hfirst, hlt, hpos, hzero⟩
    refine ⟨Nat.succ_lt_succ hlt, fun j hj => ?_, hzero⟩
    cases j with
    | zero => exact hfirst
    | succ j => exact hpos j (Nat.le_of_succ_le_succ hj)

/-- What stands in front of the closing parenthesis is as long as the scan goes on. -/
theorem length_breakAtCloseFrom_iff {s : Quoting} :
    (breakAtCloseFrom s depth text).map (·.1.length) = some k ↔
      EndsAt ⟨s, depth + 1⟩ text k := by
  induction text generalizing s depth k with
  | nil =>
    refine iff_of_false (fun h => ?_) (not_endsAt_nil _)
    cases h
  | cons c text ih =>
    have hcounts : (0 : Int) < depth + 1 := by omega
    rw [breakAtCloseFrom]
    by_cases hc : s.bare c = true ∧ c = ')' ∧ depth = 0
    · -- the scan ends here, for it counts none behind this character
      rw [if_pos hc]
      obtain ⟨hbare, rfl, rfl⟩ := hc
      have hnone := step_countDown_close hbare ((0 : Nat) + 1)
      cases k with
      | zero => exact iff_of_true rfl (endsAt_cons_zero.mpr ⟨hcounts, hnone⟩)
      | succ k =>
        refine iff_of_false (fun h => ?_) fun h => ?_
        · cases h
        · have hpos := (endsAt_cons_succ.mp h).2.pos
          rw [hnone] at hpos
          exact absurd hpos (by decide)
    · rw [if_neg hc, Option.map_map]
      have hstep := step_countDown hc
      cases k with
      | zero =>
        refine iff_of_false (fun h => ?_) fun h => ?_
        · obtain ⟨_, _, h⟩ := Option.map_eq_some_iff.mp h
          cases h
        · have hnone := (endsAt_cons_zero.mp h).2
          rw [hstep] at hnone
          change (s.depthAfter depth c : Int) + 1 = 0 at hnone
          omega
      | succ k =>
        have hshift (found : Option (Text × Text)) :
            found.map (fun found => (c :: found.1).length) = some (k + 1)
              ↔ found.map (·.1.length) = some k := by
          cases found <;> simp
        rw [endsAt_cons_succ, hstep, and_iff_right hcounts]
        exact (hshift _).trans ih

/-- **The closing scan ends where it counts no parenthesis**, for the first time. -/
theorem closingParen_eq_some_iff :
    closingParen text start = some stop ↔ ∃ k, stop = start + k ∧ stop < text.length ∧
      (∀ j ≤ k, 0 < (closingAt text start j).depth) ∧ (closingAt text start (k + 1)).depth = 0 := by
  have hdrop (k : Nat) : (breakAtClose (text.drop start)).map (·.1.length) = some k ↔
      k < text.length - start ∧ (∀ j ≤ k, 0 < (closingAt text start j).depth) ∧
        (closingAt text start (k + 1)).depth = 0 := by
    -- nothing is looked back for at the beginning
    rw [breakAtClose, ← breakAtCloseFrom_of_unquoted (s := ⟨(text.take start).getLast?, none⟩) rfl,
      length_breakAtCloseFrom_iff, ← List.length_drop]
    rfl
  constructor
  · intro h
    obtain ⟨⟨inside, rest⟩, hinside, rfl⟩ := Option.map_eq_some_iff.mp h
    obtain ⟨hlt, hcounts⟩ := (hdrop inside.length).mp (by rw [hinside]; rfl)
    exact ⟨inside.length, rfl, by show start + inside.length < _; omega, hcounts⟩
  · rintro ⟨k, rfl, hlt, hcounts⟩
    obtain ⟨⟨inside, rest⟩, hinside, rfl⟩ :=
      Option.map_eq_some_iff.mp ((hdrop k).mpr ⟨by omega, hcounts⟩)
    rw [closingParen, hinside]
    rfl

/-! ### Where the splitting scan cuts -/

theorem step_countDownToZero (s : Quoting) (depth : Nat) (c : Char) :
    Standing.step countDownToZero ⟨s, depth⟩ c = ⟨s.step c, s.depthAfter depth c⟩ := by
  rw [Standing.step, Quoting.depthAfter]
  congr 1
  split
  · split
    · push_cast
      rfl
    · split
      · show max 0 ((depth : Int) - 1) = (depth - 1 : Nat)
        omega
      · rfl
  · rfl

theorem not_isCut_singleton (part : Text) : ¬ IsCut sep [part] k := by
  rintro ⟨front, back, hfront, hback, hparts, -⟩
  have := congrArg List.length hparts
  rw [List.length_append, List.length_singleton] at this
  have := List.length_pos_iff.mpr hfront
  have := List.length_pos_iff.mpr hback
  omega

/-- Behind an empty part the separator stands at the beginning. -/
theorem isCut_nil_cons {parts : List Text} (hparts : parts ≠ []) :
    IsCut sep ([] :: parts) k ↔ k = 0 ∨ ∃ j, k = j + 1 ∧ IsCut sep parts j := by
  constructor
  · rintro ⟨front, back, hfront, hback, hcut, rfl⟩
    obtain ⟨part, front, rfl⟩ := List.exists_cons_of_ne_nil hfront
    obtain ⟨rfl, rfl⟩ := List.cons.inj hcut
    by_cases hone : front = []
    · left
      rw [hone]
      rfl
    · right
      exact ⟨_, by rw [Text.join_nil_cons _ hone]; rfl, front, back, hone, hback, rfl, rfl⟩
  · rintro (rfl | ⟨j, rfl, front, back, hfront, hback, rfl, rfl⟩)
    · exact ⟨[[]], parts, List.cons_ne_nil _ _, hparts, rfl, rfl⟩
    · exact ⟨[] :: front, back, List.cons_ne_nil _ _, hback, rfl,
        by rw [Text.join_nil_cons _ hfront]; rfl⟩

/-- A character in front of the first part puts all cuts one further. -/
theorem isCut_consHead {parts : List Text} (hparts : parts ≠ []) :
    IsCut sep (Text.consHead c parts) k ↔ ∃ j, k = j + 1 ∧ IsCut sep parts j := by
  obtain ⟨part, parts, rfl⟩ := List.exists_cons_of_ne_nil hparts
  have hjoin (front : List Text) : (Text.join [sep] ((c :: part) :: front)).length
      = (Text.join [sep] (part :: front)).length + 1 := by
    rw [← List.length_cons (a := c), ← Text.join_consHead _ c (List.cons_ne_nil part front)]
    rfl
  constructor
  · rintro ⟨front, back, hfront, hback, hcut, rfl⟩
    obtain ⟨part, front, rfl⟩ := List.exists_cons_of_ne_nil hfront
    obtain ⟨rfl, rfl⟩ := List.cons.inj hcut
    exact ⟨_, hjoin front, _ :: front, back, List.cons_ne_nil _ _, hback, rfl, rfl⟩
  · rintro ⟨j, rfl, front, back, hfront, hback, hcut, rfl⟩
    obtain ⟨part, front, rfl⟩ := List.exists_cons_of_ne_nil hfront
    obtain ⟨rfl, rfl⟩ := List.cons.inj hcut
    exact ⟨(c :: _) :: front, back, List.cons_ne_nil _ _, hback, rfl, hjoin front⟩

theorem isCut_piecesFrom_iff (hsep : IsSeparator sep) {s : Quoting} :
    IsCut sep (piecesFrom [sep] s depth text) k ↔ text[k]? = some sep ∧
      ((text.take k).foldl (Standing.step countDownToZero) ⟨s, depth⟩).quoting.quote = none ∧
      ((text.take k).foldl (Standing.step countDownToZero) ⟨s, depth⟩).depth = 0 := by
  induction text generalizing s depth k with
  | nil =>
    refine iff_of_false (not_isCut_singleton []) fun h => ?_
    cases h.1
  | cons c text ih =>
    cases k with
    | zero =>
      have hfirst : IsCut sep (piecesFrom [sep] s depth (c :: text)) 0 ↔
          s.bare c = true ∧ c ≠ '(' ∧ c ≠ ')' ∧ [c] = [sep] ∧ depth = 0 := by
        rw [piecesFrom]
        split
        · rename_i hcut
          rw [isCut_nil_cons (piecesFrom_ne_nil _ _ _ _)]
          exact iff_of_true (.inl rfl) hcut
        · rename_i hcut
          rw [isCut_consHead (piecesFrom_ne_nil _ _ _ _)]
          refine iff_of_false (fun h => ?_) hcut
          obtain ⟨j, hj, -⟩ := h
          cases hj
      rw [hfirst]
      show _ ↔ some c = some sep ∧ s.quote = none ∧ (depth : Int) = 0
      constructor
      · rintro ⟨hbare, -, -, hc, rfl⟩
        exact ⟨congrArg some (List.cons.inj hc).1, Quoting.quote_of_bare hbare, rfl⟩
      · rintro ⟨hc, hquote, hdepth⟩
        cases hc
        rw [s.bare_of_unquoted hquote]
        exact ⟨hsep.bare, hsep.not_open, hsep.not_close, rfl, Int.natCast_eq_zero.mp hdepth⟩
    | succ k =>
      have hrest : IsCut sep (piecesFrom [sep] s depth (c :: text)) (k + 1) ↔
          IsCut sep (piecesFrom [sep] (s.step c) (s.depthAfter depth c) text) k := by
        rw [piecesFrom]
        split
        · rename_i hcut
          obtain rfl : c = sep := (List.cons.inj hcut.2.2.2.1).1
          rw [isCut_nil_cons (piecesFrom_ne_nil _ _ _ _), hsep.depthAfter]
          simp
        · rw [isCut_consHead (piecesFrom_ne_nil _ _ _ _)]
          simp
      rw [hrest, ih, List.getElem?_cons_succ, List.take_succ_cons, List.foldl_cons,
        step_countDownToZero]

/-- **The splitting scan cuts where it counts no parenthesis**, outside of
strings. -/
theorem isCut_pieces_iff (hsep : IsSeparator sep) :
    IsCut sep (pieces [sep] text) k ↔ text[k]? = some sep ∧
      (splittingAt text k).quoting.quote = none ∧ (splittingAt text k).depth = 0 :=
  isCut_piecesFrom_iff hsep

/-! ### One step of both -/

/-- The closing scan and the splitting scan stand in the same string, and the
closing scan counts one parenthesis more, its own.  The characters they look back
at may differ as long as no string is open. -/
structure InStep (closing splitting : Standing) : Prop where
  quote : splitting.quoting.quote = closing.quoting.quote
  last : closing.quoting.quote ≠ none → splitting.quoting.last = closing.quoting.last
  depth : splitting.depth = closing.depth - 1

namespace InStep

variable {closing splitting : Standing}

theorem bare (h : InStep closing splitting) (c : Char) :
    splitting.quoting.bare c = closing.quoting.bare c := by
  rw [Quoting.bare, Quoting.bare, h.quote]

/-- What a character does to the strings does not tell the two apart. -/
theorem quote_step (h : InStep closing splitting) (c : Char) :
    (splitting.quoting.step c).quote = (closing.quoting.step c).quote := by
  by_cases hquote : closing.quoting.quote = none
  · rw [Quoting.step_of_unquoted hquote, Quoting.step_of_unquoted (h.quote.trans hquote)]
  · simp only [Quoting.step, h.quote, h.last hquote]

/-- A closing parenthesis that does not end the closing scan closes one that the
splitting scan has open. -/
theorem depth_pos (h : InStep closing splitting) (hbare : splitting.quoting.bare ')' = true)
    (hpos : 0 < (closing.step countDown ')').depth) : 0 < splitting.depth := by
  rw [Standing.step, ← h.bare, if_pos hbare] at hpos
  have := h.depth
  change 0 < closing.depth - 1 at hpos
  omega

/-- A character that does not end the closing scan leaves the two in step. -/
theorem step (h : InStep closing splitting) (hpos : 0 < (closing.step countDown c).depth) :
    InStep (closing.step countDown c) (splitting.step countDownToZero c) where
  quote := h.quote_step c
  last _ := rfl
  depth := by
    have hdepth := h.depth
    simp only [Standing.step, h.bare]
    split
    · rename_i hbare
      split
      · omega
      · split
        · rename_i hclose
          subst hclose
          have := h.depth_pos ((h.bare _).trans hbare) hpos
          show max 0 (splitting.depth - 1) = closing.depth - 1 - 1
          omega
        · exact hdepth
    · exact hdepth

end InStep

/-- The two are in step as long as the closing scan goes on. -/
theorem inStep (hstop : stop < text.length)
    (hpos : ∀ j ≤ stop - start, 0 < (closingAt text start j).depth) (hk : k ≤ stop - start) :
    InStep (closingAt text start k) (splittingAt (between text start stop) k) := by
  induction k with
  | zero => exact ⟨rfl, fun h => absurd rfl h, rfl⟩
  | succ k ih =>
    have hlt : start + k < text.length := by omega
    have hc : text[start + k]? = some text[start + k] := List.getElem?_eq_getElem hlt
    have hnext := hpos (k + 1) hk
    rw [closingAt_succ hc] at hnext ⊢
    rw [splittingAt_succ ((getElem?_between hk).trans hc)]
    exact (ih (by omega)).step hnext

/-! ### The arguments of a call -/

/-- What stands in the text from `start` to before `stop` is read alike by the
closing scan from `start` and by the splitting scan of the slice, one parenthesis
apart. -/
structure InLockstep (text : Text) (start stop : Nat) : Prop where
  /-- The slice ends before a closing parenthesis. -/
  slice : start ≤ stop ∧ text[stop]? = some ')' ∧
    (between text start stop).length = stop - start
  /-- At each position the same string is open. -/
  quote : ∀ k ≤ stop - start, (splittingAt (between text start stop) k).quoting.quote
    = (closingAt text start k).quoting.quote
  /-- At each position the splitting scan counts one parenthesis less. -/
  depth : ∀ k ≤ stop - start, (splittingAt (between text start stop) k).depth
    = (closingAt text start k).depth - 1
  /-- A closing parenthesis outside of strings never finds the splitting scan at
  zero. -/
  unclamped : ∀ k, (between text start stop)[k]? = some ')' →
    (splittingAt (between text start stop) k).quoting.quote = none →
    0 < (splittingAt (between text start stop) k).depth
  /-- The splitting scan ends outside of strings and parentheses. -/
  ends : (splittingAt (between text start stop) (stop - start)).quoting.quote = none ∧
    (splittingAt (between text start stop) (stop - start)).depth = 0
  /-- The arguments are cut at the commas that the closing scan reads outside of
  strings, in no parenthesis but its own. -/
  cuts : ∀ k, IsCut ',' (pieces "," (between text start stop)) k ↔
    (between text start stop)[k]? = some ',' ∧ (closingAt text start k).quoting.quote = none ∧
      (closingAt text start k).depth = 1

theorem length_between (h : stop ≤ text.length) :
    (between text start stop).length = stop - start := by
  rw [between, List.length_take, List.length_drop]
  omega

/-- The closing scan comes to zero at a closing parenthesis outside of strings only. -/
theorem eq_close_of_depth_step_eq_zero {s : Standing} (hpos : 0 < s.depth)
    (hzero : (s.step countDown c).depth = 0) :
    c = ')' ∧ s.quoting.quote = none ∧ s.depth = 1 := by
  simp only [Standing.step] at hzero
  split at hzero
  · rename_i hbare
    split at hzero
    · omega
    · split at hzero
      · rename_i hclose
        change s.depth - 1 = 0 at hzero
        exact ⟨hclose, Quoting.quote_of_bare hbare, by omega⟩
      · omega
  · omega

/-- **The two scans run in lockstep** on what stands between an opening
parenthesis and the one that closes it. -/
theorem scans_in_lockstep (h : closingParen text start = some stop) :
    InLockstep text start stop := by
  obtain ⟨n, rfl, hstop, hpos, hzero⟩ := closingParen_eq_some_iff.mp h
  have hn : start + n - start = n := Nat.add_sub_cancel_left ..
  have hlength : (between text start (start + n)).length = n := by
    rw [length_between (Nat.le_of_lt hstop), hn]
  have hinStep (k : Nat) (hk : k ≤ n) :
      InStep (closingAt text start k) (splittingAt (between text start (start + n)) k) :=
    inStep hstop (by rwa [hn]) (by rwa [hn])
  have hread {k : Nat} {c : Char} (hc : (between text start (start + n))[k]? = some c) :
      k < n ∧ text[start + k]? = some c := by
    have hk : k < n := hlength ▸ (List.getElem?_eq_some_iff.mp hc).1
    exact ⟨hk, by rwa [getElem?_between (by rwa [hn])] at hc⟩
  have hlast : text[start + n]? = some text[start + n] := List.getElem?_eq_getElem hstop
  obtain ⟨hclose, hunquoted, hone⟩ := eq_close_of_depth_step_eq_zero (hpos n (Nat.le_refl n))
    (closingAt_succ hlast ▸ hzero)
  exact {
    slice := ⟨Nat.le_add_right .., hclose ▸ hlast, by rw [hn, hlength]⟩
    quote := fun k hk => (hinStep k (hn ▸ hk)).quote
    depth := fun k hk => (hinStep k (hn ▸ hk)).depth
    unclamped := fun k hk hquote => by
      obtain ⟨hkn, hk⟩ := hread hk
      have hnext := hpos (k + 1) hkn
      rw [closingAt_succ hk] at hnext
      exact (hinStep k (Nat.le_of_lt hkn)).depth_pos (Quoting.bare_of_unquoted hquote _) hnext
    ends := by
      have hend := hinStep n (Nat.le_refl n)
      have hdepth := hend.depth
      rw [hn]
      exact ⟨hend.quote.trans hunquoted, by omega⟩
    cuts := fun k => by
      refine (isCut_pieces_iff isSeparator_comma).trans (and_congr_right fun hk => ?_)
      have hk := hinStep k (Nat.le_of_lt (hread hk).1)
      have hdepth := hk.depth
      rw [hk.quote]
      exact and_congr_right fun _ => by omega }

/-- The arguments of a call in a call, with an escaped quote, a comma and a
parenthesis in strings. -/
theorem scans_in_lockstep_call : closingParen "f('a,\\')', g(1, 2), \")\") + (b, c)" 2 = some 23 ∧
    InLockstep "f('a,\\')', g(1, 2), \")\") + (b, c)" 2 23 :=
  ⟨by decide, scans_in_lockstep (by decide)⟩

end FluidScss
