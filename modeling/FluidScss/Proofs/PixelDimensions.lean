/-
FluidScss/Proofs/PixelDimensions.lean

The px dimensions of a value, as a style sheet has them.  A value is read number by
number, each as long as possible: a minus sign or none, then digits, digits with a
fraction, or a fraction with no digits in front.  The numbers right before `px` are
kept, with the unit (`pixelDimensions`).

What a number is, is said by its parts (`isNumber_iff`), for digits of any kind
(`NumberParts`).  A number right before the unit is as long as possible
(`longestPrefix?_isNumber_unit`), and what holds of a value is shown number by number
(`numberwise_induction`).
-/
import FluidScss.Text.Digit
import FluidScss.Proofs.Text
import Mathlib.Tactic.ByContra

namespace FluidScss

variable {text number rest sign whole fraction : Text} {digit : Char → Bool} {c : Char}

/-! ### Numbers -/

/-- The parts of a number in digits of some kind: a minus sign or none, digits, and
a point with digits behind it or nothing. -/
structure NumberParts (digit : Char → Bool) (sign whole fraction : Text) : Prop where
  signs : sign = [] ∨ sign = ['-']
  front : ∀ c ∈ whole, digit c = true
  back : fraction = [] ∨
    ∃ digits, digits ≠ [] ∧ fraction = '.' :: digits ∧ ∀ c ∈ digits, digit c = true
  ne_nil : whole ≠ [] ∨ fraction ≠ []

/-- A number without a sign: digits, digits with a fraction, or a fraction with no
digits in front. -/
def isUnsigned (number : Text) : Bool :=
  match Text.splitOn '.' number with
  | [whole] => whole ≠ [] && whole.all Char.isDigit
  | [whole, digits] => whole.all Char.isDigit && digits ≠ [] && digits.all Char.isDigit
  | _ => false

/-- A number as a style sheet has it, with a minus sign or without. -/
def isNumber : Text → Bool
  | '-' :: number => isUnsigned number
  | number => isUnsigned number

/-- Signs and points are no digits, nor are the letters of the unit. -/
structure ProperDigits (digit : Char → Bool) : Prop where
  minus : digit '-' = false
  point : digit '.' = false
  unit : digit 'p' = false

theorem properDigits_ascii : ProperDigits Char.isDigit := ⟨rfl, rfl, rfl⟩

theorem properDigits_unicode : ProperDigits isDigit := ⟨by decide, by decide, by decide⟩

theorem isDigit_of_ascii (h : c.isDigit = true) : isDigit c = true := by
  rw [Char.isDigit, Bool.and_eq_true, decide_eq_true_eq, decide_eq_true_eq] at h
  have hrange : 48 ≤ c.toNat ∧ c.toNat < 48 + 10 := by
    have h1 : (48 : UInt32).toNat ≤ c.val.toNat := h.1
    have h2 : c.val.toNat ≤ (57 : UInt32).toNat := h.2
    have hc : c.toNat = c.val.toNat := rfl
    have h48 : (48 : UInt32).toNat = 48 := rfl
    have h57 : (57 : UInt32).toNat = 57 := rfl
    omega
  rw [isDigit, digitValue?, digitZeros, List.find?_cons_of_pos]
  · rfl
  · simpa using hrange

namespace NumberParts

theorem mono {wider : Char → Bool} (h : NumberParts digit sign whole fraction)
    (hw : ∀ c ∈ whole ++ fraction, digit c = true → wider c = true) :
    NumberParts wider sign whole fraction where
  signs := h.signs
  front c hc := hw c (List.mem_append_left _ hc) (h.front c hc)
  back := h.back.imp_right fun ⟨digits, hne, hf, hd⟩ => ⟨digits, hne, hf, fun c hc =>
    hw c (List.mem_append_right _ (hf ▸ List.mem_cons_of_mem _ hc)) (hd c hc)⟩
  ne_nil := h.ne_nil

theorem mem_unsigned (h : NumberParts digit sign whole fraction) (hc : c ∈ whole ++ fraction) :
    digit c = true ∨ c = '.' := by
  rcases List.mem_append.mp hc with hc | hc
  · exact .inl (h.front c hc)
  · rcases h.back with rfl | ⟨digits, -, rfl, hd⟩
    · cases hc
    · exact (List.mem_cons.mp hc).elim .inr fun hc => .inl (hd c hc)

theorem not_mem_whole (h : NumberParts digit sign whole fraction) (hc : digit c = false) :
    c ∉ whole := by
  intro hm
  rw [h.front c hm] at hc
  cases hc

/-- Behind the point of a number stand digits. -/
theorem fraction_of_point {front tail : Text} (h : NumberParts digit sign whole fraction)
    (hd : digit '.' = false) (hfront : whole ++ fraction = front ++ '.' :: tail) :
    tail ≠ [] ∧ ∀ c ∈ tail, digit c = true := by
  have hwhole := h.not_mem_whole hd
  rcases h.back with rfl | ⟨digits, hne, rfl, hdigits⟩
  · rw [List.append_nil] at hfront
    exact absurd (hfront ▸ by simp) hwhole
  · suffices tail = digits by rw [this]; exact ⟨hne, hdigits⟩
    rcases List.append_eq_append_iff.mp hfront with ⟨more, -, hmore⟩ | ⟨more, rfl, hmore⟩
    · rcases more with - | ⟨d, more⟩
      · exact (List.cons.inj hmore).2.symm
      · have := hdigits '.' ((List.cons.inj hmore).2 ▸ by simp)
        rw [hd] at this
        cases this
    · rcases more with - | ⟨d, more⟩
      · exact (List.cons.inj hmore).2
      · obtain ⟨rfl, -⟩ := List.cons.inj hmore
        exact absurd (by simp) hwhole

/-- The unit of a size is no part of its number. -/
theorem unit_not_mem (h : NumberParts digit sign whole fraction) (hd : ProperDigits digit) :
    'p' ∉ sign ++ whole ++ fraction := by
  rw [List.append_assoc, List.mem_append, not_or]
  constructor
  · rcases h.signs with rfl | rfl <;> decide
  · intro hm
    rcases h.mem_unsigned hm with hdigit | hpoint
    · rw [hd.unit] at hdigit
      cases hdigit
    · cases hpoint

/-- One more digit makes a number again. -/
theorem concat (h : NumberParts digit sign whole fraction) (hc : digit c = true) :
    ∃ whole' fraction', NumberParts digit sign whole' fraction' ∧
      sign ++ whole ++ fraction ++ [c] = sign ++ whole' ++ fraction' := by
  rcases h.back with rfl | ⟨digits, hne, rfl, hd⟩
  · refine ⟨whole ++ [c], [], ⟨h.signs, ?_, .inl rfl, .inl (by simp)⟩, by simp⟩
    exact List.forall_mem_append.mpr ⟨h.front, by simpa using hc⟩
  · refine ⟨whole, '.' :: (digits ++ [c]), ⟨h.signs, h.front, .inr ⟨_, by simp, rfl, ?_⟩,
      .inr (by simp)⟩, by simp⟩
    exact List.forall_mem_append.mpr ⟨hd, by simpa using hc⟩

end NumberParts

theorem isUnsigned_iff : isUnsigned number = true ↔
    ∃ whole fraction, NumberParts Char.isDigit [] whole fraction ∧ number = whole ++ fraction := by
  constructor
  · intro h
    have hjoin := Text.join_splitOn '.' number
    rw [isUnsigned] at h
    split at h
    · rename_i whole hsplit
      rw [hsplit, Text.join_singleton] at hjoin
      rw [Bool.and_eq_true, decide_eq_true_eq, List.all_eq_true] at h
      exact ⟨whole, [], ⟨.inl rfl, h.2, .inl rfl, .inl h.1⟩, by simp [hjoin]⟩
    · rename_i whole digits hsplit
      rw [hsplit, Text.join_cons_cons, Text.join_singleton] at hjoin
      simp only [Bool.and_eq_true, decide_eq_true_eq, List.all_eq_true] at h
      obtain ⟨⟨hwhole, hne⟩, hdigits⟩ := h
      exact ⟨whole, '.' :: digits, ⟨.inl rfl, hwhole, .inr ⟨digits, hne, rfl, hdigits⟩,
        .inr (List.cons_ne_nil _ _)⟩, by simp [← hjoin]⟩
    · cases h
  · rintro ⟨whole, fraction, h, rfl⟩
    have hpoint : '.' ∉ whole := h.not_mem_whole rfl
    have hall := List.all_eq_true.mpr h.front
    rcases h.back with rfl | ⟨digits, hne, rfl, hd⟩
    · have hwhole := h.ne_nil.resolve_right (· rfl)
      rw [List.append_nil, isUnsigned, Text.splitOn_eq_singleton hpoint]
      simp [hwhole, hall]
    · have hdigits : '.' ∉ digits := fun hm => by cases hd _ hm
      rw [isUnsigned, Text.splitOn_append_cons hpoint, Text.splitOn_eq_singleton hdigits]
      simp [hne, hall, List.all_eq_true.mpr hd]

/-- Numbers are what has the parts of a number. -/
theorem isNumber_iff : isNumber number = true ↔
    ∃ sign whole fraction, NumberParts Char.isDigit sign whole fraction ∧
      number = sign ++ whole ++ fraction := by
  constructor
  · intro h
    rw [isNumber.eq_def] at h
    split at h
    · obtain ⟨whole, fraction, hparts, rfl⟩ := isUnsigned_iff.mp h
      exact ⟨['-'], whole, fraction, ⟨.inr rfl, hparts.front, hparts.back, hparts.ne_nil⟩, rfl⟩
    · obtain ⟨whole, fraction, hparts, rfl⟩ := isUnsigned_iff.mp h
      exact ⟨[], whole, fraction, hparts, rfl⟩
  · rintro ⟨sign, whole, fraction, h, rfl⟩
    have hunsigned : isUnsigned (whole ++ fraction) = true :=
      isUnsigned_iff.mpr ⟨whole, fraction, ⟨.inl rfl, h.front, h.back, h.ne_nil⟩, rfl⟩
    rw [List.append_assoc]
    rcases h.signs with rfl | rfl
    · rw [List.nil_append, isNumber.eq_def]
      split
      · -- a minus sign is neither digit nor point
        rename_i heq
        rcases h.mem_unsigned (heq ▸ List.mem_cons_self ..) with hd | hd <;> cases hd
      · exact hunsigned
    · exact hunsigned

/-! ### As long as possible -/

/-- The longest of the texts that begin a text and have a property. -/
def longestPrefix? (p : Text → Bool) : Text → Option Text
  | [] => if p [] then some [] else none
  | c :: rest =>
    match longestPrefix? (fun front => p (c :: front)) rest with
    | some front => some (c :: front)
    | none => if p [] then some [] else none

theorem longestPrefix?_eq_none {p : Text → Bool} (h : longestPrefix? p text = none)
    {front : Text} (hfront : front <+: text) : p front = false := by
  induction text generalizing p front with
  | nil =>
    rw [List.prefix_nil.mp hfront]
    simpa [longestPrefix?] using h
  | cons c text ih =>
    rw [longestPrefix?] at h
    split at h
    · cases h
    · rename_i hnone
      rcases front with - | ⟨d, front⟩
      · simpa using h
      · obtain ⟨rfl, hrest⟩ := List.cons_prefix_cons.mp hfront
        exact ih hnone hrest

theorem longestPrefix?_eq_some_iff {p : Text → Bool} {front : Text} :
    longestPrefix? p text = some front ↔
      p front = true ∧ front <+: text ∧ ∀ f, p f = true → f <+: text → f.length ≤ front.length := by
  induction text generalizing p front with
  | nil =>
    simp only [longestPrefix?, Option.ite_none_right_eq_some, Option.some.injEq, List.prefix_nil]
    constructor
    · rintro ⟨hp, rfl⟩
      exact ⟨hp, rfl, fun f _ hf => hf ▸ Nat.le_refl _⟩
    · rintro ⟨hp, rfl, -⟩
      exact ⟨hp, rfl⟩
  | cons c text ih =>
    rw [longestPrefix?]
    split
    · rename_i longer hlonger
      obtain ⟨hp, hprefix, hmax⟩ := ih.mp hlonger
      constructor
      · rintro ⟨⟩
        refine ⟨hp, List.cons_prefix_cons.mpr ⟨rfl, hprefix⟩, fun f hpf hf => ?_⟩
        rcases f with - | ⟨d, f⟩
        · exact Nat.zero_le _
        · obtain ⟨rfl, hrest⟩ := List.cons_prefix_cons.mp hf
          exact Nat.succ_le_succ (hmax f hpf hrest)
      · rintro ⟨hpf, hf, hmaxf⟩
        -- two beginnings of one text with the same length are the same
        have hle := hmaxf _ hp (List.cons_prefix_cons.mpr ⟨rfl, hprefix⟩)
        rcases front with - | ⟨d, front⟩
        · cases hle
        · obtain ⟨rfl, hrest⟩ := List.cons_prefix_cons.mp hf
          have hlen : longer.length = front.length :=
            Nat.le_antisymm (Nat.le_of_succ_le_succ hle) (hmax front hpf hrest)
          have hsame := List.prefix_of_prefix_length_le hprefix hrest (Nat.le_of_eq hlen)
          rw [hsame.eq_of_length hlen]
    · rename_i hnone
      simp only [Option.ite_none_right_eq_some, Option.some.injEq]
      constructor
      · rintro ⟨hp, rfl⟩
        refine ⟨hp, List.nil_prefix, fun f hpf hf => ?_⟩
        rcases f with - | ⟨d, f⟩
        · exact Nat.le_refl _
        · obtain ⟨rfl, hrest⟩ := List.cons_prefix_cons.mp hf
          rw [longestPrefix?_eq_none hnone hrest] at hpf
          cases hpf
      · rintro ⟨hp, hf, -⟩
        rcases front with - | ⟨d, front⟩
        · exact ⟨hp, rfl⟩
        · obtain ⟨rfl, hrest⟩ := List.cons_prefix_cons.mp hf
          rw [longestPrefix?_eq_none hnone hrest] at hp
          cases hp

/-! ### Dimensions -/

theorem ne_nil_of_isNumber (h : isNumber number = true) : number ≠ [] := by
  rintro rfl
  cases h

/-- The px dimensions of a value: the text is read number by number, each as long as
possible, and the numbers right before `px` are kept, with the unit. -/
def pixelDimensions (text : Text) : List Text :=
  match text with
  | [] => []
  | c :: rest =>
    match _h : longestPrefix? isNumber (c :: rest) with
    | some number =>
      let behind := (c :: rest).drop number.length
      if ['p', 'x'].isPrefixOf behind then
        (number ++ ['p', 'x']) :: pixelDimensions (behind.drop 2)
      else pixelDimensions behind
    | none => pixelDimensions rest
termination_by text.length
decreasing_by
  · have := List.length_pos_iff.mpr (ne_nil_of_isNumber (longestPrefix?_eq_some_iff.mp _h).1)
    simp only [List.length_drop, List.length_cons]
    omega
  · have := List.length_pos_iff.mpr (ne_nil_of_isNumber (longestPrefix?_eq_some_iff.mp _h).1)
    simp only [List.length_drop, List.length_cons]
    omega
  · simp

theorem pixelDimensions_of_none (h : longestPrefix? isNumber (c :: rest) = none) :
    pixelDimensions (c :: rest) = pixelDimensions rest := by
  rw [pixelDimensions]
  split
  · rename_i hsome
    rw [h] at hsome
    cases hsome
  · rfl

/-- A number with the unit behind it is kept. -/
theorem pixelDimensions_of_unit
    (h : longestPrefix? isNumber (number ++ 'p' :: 'x' :: rest) = some number) :
    pixelDimensions (number ++ 'p' :: 'x' :: rest)
      = (number ++ ['p', 'x']) :: pixelDimensions rest := by
  obtain ⟨c, more, htext⟩ : ∃ c more, number ++ 'p' :: 'x' :: rest = c :: more :=
    List.exists_cons_of_ne_nil (by simp)
  rw [htext] at h ⊢
  rw [pixelDimensions]
  split
  · rename_i n hsome
    obtain rfl := Option.some.inj (h.symm.trans hsome)
    rw [← htext, List.drop_left]
    simp
  · rename_i hnone
    rw [h] at hnone
    cases hnone

/-- Any other number is passed over. -/
theorem pixelDimensions_of_no_unit (h : longestPrefix? isNumber (number ++ rest) = some number)
    (hunit : ¬ ['p', 'x'] <+: rest) :
    pixelDimensions (number ++ rest) = pixelDimensions rest := by
  have hne := ne_nil_of_isNumber (longestPrefix?_eq_some_iff.mp h).1
  obtain ⟨c, more, htext⟩ : ∃ c more, number ++ rest = c :: more :=
    List.exists_cons_of_ne_nil (by simp [hne])
  rw [htext] at h ⊢
  rw [pixelDimensions]
  split
  · rename_i n hsome
    obtain rfl := Option.some.inj (h.symm.trans hsome)
    rw [← htext, List.drop_left]
    exact if_neg fun hp => hunit (List.isPrefixOf_iff_prefix.mp hp)
  · rename_i hnone
    rw [h] at hnone
    cases hnone

/-- A value is read to its end: numbers before the unit, other numbers, and characters
at which no number begins. -/
@[elab_as_elim]
theorem numberwise_induction {motive : Text → Prop} (nil : motive [])
    (unit : ∀ number rest, longestPrefix? isNumber (number ++ 'p' :: 'x' :: rest) = some number →
      motive rest → motive (number ++ 'p' :: 'x' :: rest))
    (no_unit : ∀ number rest, longestPrefix? isNumber (number ++ rest) = some number →
      ¬ ['p', 'x'] <+: rest → motive rest → motive (number ++ rest))
    (other : ∀ c rest, longestPrefix? isNumber (c :: rest) = none → motive rest →
      motive (c :: rest))
    (text : Text) : motive text := by
  induction text using pixelDimensions.induct with
  | case1 => exact nil
  | case2 c rest number hlongest behind hunit ih =>
    have htext : number ++ behind = c :: rest :=
      List.prefix_iff_eq_append.mp (longestPrefix?_eq_some_iff.mp hlongest).2.1
    obtain ⟨more, hmore⟩ := List.isPrefixOf_iff_prefix.mp hunit
    have hbehind : behind = 'p' :: 'x' :: more := hmore.symm
    have hdrop : behind.drop 2 = more := by rw [hbehind]; rfl
    rw [hdrop] at ih
    rw [← htext, hbehind] at hlongest ⊢
    exact unit number more hlongest ih
  | case3 c rest number hlongest behind hunit ih =>
    have htext : number ++ behind = c :: rest :=
      List.prefix_iff_eq_append.mp (longestPrefix?_eq_some_iff.mp hlongest).2.1
    rw [← htext] at hlongest ⊢
    exact no_unit number behind hlongest (fun hp => hunit (List.isPrefixOf_iff_prefix.mpr hp)) ih
  | case4 c rest hnone ih => exact other c rest hnone ih

/-- A number right before the unit is as long as possible. -/
theorem longestPrefix?_isNumber_unit (h : NumberParts Char.isDigit sign whole fraction)
    (rest : Text) :
    longestPrefix? isNumber (sign ++ whole ++ fraction ++ 'p' :: rest)
      = some (sign ++ whole ++ fraction) := by
  refine longestPrefix?_eq_some_iff.mpr ⟨isNumber_iff.mpr ⟨_, _, _, h, rfl⟩,
    List.prefix_append _ _, fun f hf hprefix => ?_⟩
  obtain ⟨sign', whole', fraction', h', rfl⟩ := isNumber_iff.mp hf
  by_contra hlong
  obtain ⟨t, ht⟩ := List.prefix_of_prefix_length_le (List.prefix_append _ _) hprefix
    (Nat.le_of_lt (Nat.lt_of_not_le hlong))
  -- what is longer holds the unit
  rw [← ht, List.prefix_append_right_inj] at hprefix
  rcases t with - | ⟨d, t⟩
  · rw [List.append_nil] at ht
    exact hlong (ht ▸ Nat.le_refl _)
  · obtain ⟨rfl, -⟩ := List.cons_prefix_cons.mp hprefix
    exact h'.unit_not_mem properDigits_ascii (ht ▸ by simp)

theorem exists_number_of_mem_pixelDimensions {size : Text} (h : size ∈ pixelDimensions text) :
    ∃ number, isNumber number = true ∧ size = number ++ ['p', 'x'] := by
  induction text using numberwise_induction with
  | nil => rw [pixelDimensions] at h; cases h
  | unit number rest hlongest ih =>
    rw [pixelDimensions_of_unit hlongest] at h
    rcases List.mem_cons.mp h with rfl | h
    · exact ⟨number, (longestPrefix?_eq_some_iff.mp hlongest).1, rfl⟩
    · exact ih h
  | no_unit number rest hlongest hunit ih =>
    rw [pixelDimensions_of_no_unit hlongest hunit] at h
    exact ih h
  | other c rest hnone ih =>
    rw [pixelDimensions_of_none hnone] at h
    exact ih h

/-! ### Points in front -/

/-- A dimension that begins, behind its sign, with the point. -/
def Pointed (size : Text) : Prop := ['.'] <+: size ∨ ['-', '.'] <+: size

instance (size : Text) : Decidable (Pointed size) := inferInstanceAs (Decidable (_ ∨ _))

theorem pointed_iff (h : NumberParts digit sign whole fraction) (hd : ProperDigits digit)
    (rest : Text) : Pointed (sign ++ whole ++ fraction ++ rest) ↔ whole = [] := by
  rcases whole with - | ⟨d, whole⟩
  · obtain ⟨digits, -, rfl, -⟩ := h.back.resolve_left (h.ne_nil.resolve_left (· rfl))
    refine iff_of_true ?_ rfl
    rcases h.signs with rfl | rfl
    · exact .inl ⟨_, rfl⟩
    · exact .inr ⟨_, rfl⟩
  · have hdigit := h.front d (List.mem_cons_self ..)
    have hpoint : '.' ≠ d := fun he => by rw [← he, hd.point] at hdigit; cases hdigit
    have hminus : '-' ≠ d := fun he => by rw [← he, hd.minus] at hdigit; cases hdigit
    refine iff_of_false ?_ (List.cons_ne_nil _ _)
    -- the first digit would be the point, or the minus sign
    rcases h.signs with rfl | rfl
    · rintro (hp | hp)
      · exact hpoint (List.cons_prefix_cons.mp hp).1
      · exact hminus (List.cons_prefix_cons.mp hp).1
    · rintro (hp | hp)
      · exact absurd (List.cons_prefix_cons.mp hp).1 (by decide)
      · exact hpoint (List.cons_prefix_cons.mp (List.cons_prefix_cons.mp hp).2).1

end FluidScss
