/-
FluidScss/Proofs/ShortestDecimal.lean

The digits of numbers of double precision.  Rounding a quotient gives a
mantissa for which there is room (`Binary64.fits_ofDecimal`), and to such a
number there is always a decimal of seventeen digits that rounds to it
(`RoundingInterval.isSome_neighbour?`): the grid of those decimals is so fine
that the nearest one to the number lies in its interval.  Half a unit of the
grid is one part in 2 * 10 ^ 16 of the number, and the interval reaches as far
as one part in 2 ^ 54, which is more.

So the search for the shortest decimal finds one, and it has a first digit
which is not zero (`shortestDecimal_proper`).
-/
import FluidScss.Decimal.Shortest
import FluidScss.Proofs.JsonText
import Mathlib.Data.List.TakeWhile

namespace FluidScss

/-! ### Room for the mantissa -/

namespace Binary64

variable {num den k : Nat} {e : Int}

/-- A number whose mantissa, if it has one, has no more bits than there is room
for. -/
def Fits : Binary64 → Prop
  | .finite _ m _ => m < 2 ^ precision
  | _ => True

theorem scaled_pos (hn : 0 < num) (hd : 0 < den) (e : Int) :
    0 < (scaled num den e).1 ∧ 0 < (scaled num den e).2 := by
  have hpow : ∀ j, 0 < Nat.pow 2 j := fun j => Nat.pow_pos (by decide)
  rw [scaled]
  split
  · exact ⟨Nat.mul_pos hn (hpow _), hd⟩
  · exact ⟨hn, Nat.mul_pos hd (hpow _)⟩

/-- A quotient of two numbers is less than the power of two that their lengths
tell. -/
theorem scaled_lt (hd : 0 < den) (h : (Nat.log2 num : Int) + 1 ≤ Nat.log2 den + k + e) :
    (scaled num den e).1 < 2 ^ k * (scaled num den e).2 := by
  have hnum : num < 2 ^ (Nat.log2 num + 1) := Nat.lt_log2_self
  have hden : 2 ^ Nat.log2 den ≤ den := Nat.log2_self_le hd.ne'
  rw [scaled]
  split
  · generalize hj : (-e).toNat = j
    calc num * 2 ^ j < 2 ^ (Nat.log2 num + 1) * 2 ^ j :=
          Nat.mul_lt_mul_of_pos_right hnum (Nat.pow_pos (by decide))
      _ = 2 ^ (Nat.log2 num + 1 + j) := (Nat.pow_add ..).symm
      _ ≤ 2 ^ (k + Nat.log2 den) := Nat.pow_le_pow_right (by decide) (by omega)
      _ = 2 ^ k * 2 ^ Nat.log2 den := Nat.pow_add ..
      _ ≤ 2 ^ k * den := Nat.mul_le_mul_left _ hden
  · generalize hj : e.toNat = j
    calc num < 2 ^ (Nat.log2 num + 1) := hnum
      _ ≤ 2 ^ (k + (Nat.log2 den + j)) := Nat.pow_le_pow_right (by decide) (by omega)
      _ = 2 ^ k * (2 ^ Nat.log2 den * 2 ^ j) := by rw [Nat.pow_add, Nat.pow_add]
      _ ≤ 2 ^ k * (den * 2 ^ j) := Nat.mul_le_mul_left _ (Nat.mul_le_mul_right _ hden)

/-- The exponent leaves room for the mantissa. -/
theorem scaled_exponentOf_lt (num : Nat) (hd : 0 < den) : (scaled num den (exponentOf num den)).1
    < 2 ^ precision * (scaled num den (exponentOf num den)).2 := by
  rw [exponentOf]
  generalize he : max minExponent _ = e
  have hle : (Nat.log2 num : Int) - Nat.log2 den - precision ≤ e := he ▸ le_max_right _ _
  dsimp only
  split
  · exact scaled_lt hd (by omega)
  · rename_i hroom
    rw [Nat.not_le] at hroom
    rcases Nat.eq_zero_or_pos (scaled num den e).2 with hzero | hpos
    · rw [scaled] at hzero
      split at hzero
      · exact absurd hzero hd.ne'
      · exact absurd hzero (Nat.mul_pos hd (Nat.pow_pos (by decide))).ne'
    · exact (Nat.div_lt_iff_lt_mul hpos).mp hroom

theorem roundQuotient_le (h : num < k * den) : roundQuotient num den ≤ k := by
  have hlt : num / den < k := Nat.div_lt_of_lt_mul (by rwa [Nat.mul_comm] at h)
  unfold roundQuotient
  dsimp only
  split
  · omega
  · split
    · omega
    · split <;> omega

theorem fits_ofQuotient (negative : Bool) (hd : 0 < den) : (ofQuotient negative num den).Fits := by
  have hle := roundQuotient_le (scaled_exponentOf_lt num hd)
  rw [ofQuotient]
  dsimp only
  generalize roundQuotient _ _ = m at hle ⊢
  by_cases hm : m = Nat.pow 2 precision
  · rw [if_pos hm]
    dsimp only
    split
    · trivial
    · show Nat.pow 2 (precision - 1) < 2 ^ precision
      decide
  · rw [if_neg hm]
    dsimp only
    split
    · trivial
    · exact lt_of_le_of_ne hle hm

/-- Rounding leaves room for the mantissa. -/
theorem fits_ofDecimal (negative : Bool) (digits : Nat) (exponent : Int) :
    (ofDecimal negative digits exponent).Fits := by
  have hzero : (zero negative).Fits := Nat.pow_pos (by decide)
  rw [ofDecimal]
  split
  · exact hzero
  · dsimp only
    split
    · trivial
    · split
      · exact hzero
      · split
        · exact fits_ofQuotient negative (Nat.pow_pos (by decide))
        · exact fits_ofQuotient negative Nat.one_pos

end Binary64

/-! ### The interval of a number -/

namespace RoundingInterval

variable {i : RoundingInterval} {count m n : Nat} {e : Int}

/-- An interval that reaches at least one part in 2 ^ 54 of its number to each
side. -/
structure Wide (i : RoundingInterval) : Prop where
  den : 0 < i.den
  low : 0 < i.low
  below : i.low < i.value
  above : i.value < i.high
  wide_below : i.value ≤ 2 ^ 54 * (i.value - i.low)
  wide_above : i.value ≤ 2 ^ 54 * (i.high - i.value)

/-- The interval of a number for whose mantissa there is room. -/
theorem wide_ofBinary (hm : 0 < m) (hroom : m < 2 ^ Binary64.precision) (e : Int) :
    (ofBinary m e).Wide := by
  obtain ⟨hf, hd⟩ := Binary64.scaled_pos Nat.one_pos Nat.one_pos (2 - e)
  rw [ofBinary]
  generalize Binary64.scaled 1 1 (2 - e) = scale at hf hd
  obtain ⟨f, d⟩ := scale
  dsimp only at hf hd ⊢
  rw [Binary64.precision] at hroom ⊢
  -- the lower end is near only below a power of two
  generalize hbelow : (if m = Nat.pow 2 (53 - 1) ∧ Binary64.minExponent < e then 1 else 2) = below
  have hcases : below = 1 ∧ m = 2 ^ 52 ∨ below = 2 := by
    split at hbelow
    · rename_i h
      exact .inl ⟨hbelow.symm, h.1⟩
    · exact .inr hbelow.symm
  have hlow : 4 * m * f - (4 * m - below) * f = below * f := by
    rw [← Nat.sub_mul]
    congr 1
    omega
  have hhigh : (4 * m + 2) * f - 4 * m * f = 2 * f := by
    rw [← Nat.sub_mul, Nat.add_sub_cancel_left]
  refine ⟨hd, Nat.mul_pos (by omega) hf, Nat.mul_lt_mul_of_pos_right (by omega) hf,
    Nat.mul_lt_mul_of_pos_right (by omega) hf, ?_, ?_⟩
  · rw [hlow, ← Nat.mul_assoc]
    exact Nat.mul_le_mul_right f (by omega)
  · rw [hhigh, ← Nat.mul_assoc]
    exact Nat.mul_le_mul_right f (by omega)

/-! ### Seventeen digits -/

/-- A decimal of the grid that is strictly between the ends lies in the
interval. -/
theorem holds_of_lt {num den : Nat} (hl : i.low * den < num * i.den)
    (hh : num * i.den < i.high * den) : i.holds num den = true := by
  rw [holds]
  split
  · rw [Bool.and_eq_true, decide_eq_true_eq, decide_eq_true_eq]
    exact ⟨hl.le, hh.le⟩
  · rw [Bool.and_eq_true, decide_eq_true_eq, decide_eq_true_eq]
    exact ⟨hl, hh⟩

/-- The number is at least the power of ten that its magnitude tells. -/
theorem pow_magnitude_le (hi : i.Wide) {j k : Nat} (h : i.magnitude - 1 = (j : Int) - k) :
    10 ^ j * i.den ≤ i.value * 10 ^ k := by
  have hvalue : 0 < i.value := hi.low.trans hi.below
  rw [magnitude] at h
  split at h
  · -- from one on it is the whole part that has the digits
    rename_i hle
    have hq : 0 < i.value / i.den := Nat.div_pos hle hi.den
    generalize hL : (Nat.toDigits 10 (i.value / i.den)).length = L at h
    have hpow : 10 ^ (L - 1) * i.den ≤ i.value := by
      refine (Nat.le_div_iff_mul_le hi.den).mp (Nat.not_lt.mp fun hlt => ?_)
      rcases Nat.eq_zero_or_pos (L - 1) with hzero | hpos
      · rw [hzero] at hlt
        omega
      · have hshort := (Nat.length_toDigits_le_iff (by decide) hpos).mpr hlt
        omega
    have hLpos : 0 < L := hL ▸ List.length_pos_iff.mpr Nat.toDigits_ne_nil
    obtain rfl : j = L - 1 + k := by omega
    calc 10 ^ (L - 1 + k) * i.den = 10 ^ (L - 1) * i.den * 10 ^ k := by
          rw [Nat.pow_add, Nat.mul_right_comm]
      _ ≤ i.value * 10 ^ k := Nat.mul_le_mul_right _ hpow
  · -- below one it is the inverse
    generalize hL : (Nat.toDigits 10 (i.den / i.value)).length = L at h
    have hLpos : 0 < L := hL ▸ List.length_pos_iff.mpr Nat.toDigits_ne_nil
    have hpow : i.den < 10 ^ L * i.value :=
      (Nat.div_lt_iff_lt_mul hvalue).mp
        ((Nat.length_toDigits_le_iff (by decide) hLpos).mp hL.le)
    obtain rfl : k = L + j := by omega
    calc 10 ^ j * i.den ≤ 10 ^ j * (10 ^ L * i.value) := Nat.mul_le_mul_left _ hpow.le
      _ = i.value * 10 ^ (L + j) := by rw [Nat.pow_add]; ring

/-- The number has as many units of the grid as its digits tell. -/
theorem pow_le_units (hi : i.Wide) (count : Nat) (hc : 0 < count) :
    10 ^ (count - 1) * (i.den * (i.unit count).1) ≤ i.value * (i.unit count).2 := by
  rw [unit]
  split
  · rename_i he
    dsimp only at he ⊢
    rw [Nat.mul_one]
    exact pow_magnitude_le hi (by omega)
  · rename_i he
    dsimp only at he ⊢
    have hle := pow_magnitude_le (j := count - 1 + (i.magnitude - count).toNat) (k := 0) hi (by omega)
    rw [Nat.pow_zero] at hle
    calc 10 ^ (count - 1) * (i.den * Nat.pow 10 (i.magnitude - count).toNat)
        = 10 ^ (count - 1 + (i.magnitude - count).toNat) * i.den := by
          rw [Nat.pow_add, Nat.mul_assoc, Nat.mul_comm i.den]
          rfl
      _ ≤ i.value * 1 := hle

theorem unit_pos (i : RoundingInterval) (count : Nat) :
    0 < (i.unit count).1 ∧ 0 < (i.unit count).2 := by
  rw [unit]
  split
  · exact ⟨Nat.one_pos, Nat.pow_pos (by decide)⟩
  · exact ⟨Nat.pow_pos (by decide), Nat.one_pos⟩

/-- What is at most half a unit of the grid of seventeen digits is less than
what the interval reaches. -/
theorem lt_of_half_unit {unit value gap rest den : Nat} (hunits : 10 ^ 16 * unit ≤ value * den)
    (hwide : value ≤ 2 ^ 54 * gap) (hgap : 0 < gap) (hden : 0 < den) (hrest : 2 * rest ≤ unit) :
    rest < gap * den := by
  have hpos : 0 < gap * den := Nat.mul_pos hgap hden
  have hvalue : value * den ≤ 2 ^ 54 * (gap * den) := by
    rw [← Nat.mul_assoc]
    exact Nat.mul_le_mul_right den hwide
  omega

/-- **Seventeen digits suffice**: one of the two decimals next to the number
lies in its interval. -/
theorem isSome_neighbour? (hi : i.Wide) : (i.neighbour? 17).isSome = true := by
  have hunits := pow_le_units hi 17 (by decide)
  obtain ⟨hnum, hden⟩ := i.unit_pos 17
  rw [neighbour?]
  generalize i.unit 17 = grid at hunits hnum hden
  obtain ⟨num, den⟩ := grid
  dsimp only at hunits hnum hden ⊢
  have hdiv := Nat.div_add_mod (i.value * den) (i.den * num)
  have hrest := Nat.mod_lt (i.value * den) (Nat.mul_pos hi.den hnum)
  generalize i.value * den / (i.den * num) = n at hdiv ⊢
  generalize i.value * den % (i.den * num) = rest at hdiv hrest ⊢
  have hnear : n * num * i.den = i.den * num * n := by ring
  have hnext : (n + 1) * num * i.den = i.den * num * n + i.den * num := by ring
  have hlow : i.low * den < i.value * den := Nat.mul_lt_mul_of_pos_right hi.below hden
  have hhigh : i.value * den < i.high * den := Nat.mul_lt_mul_of_pos_right hi.above hden
  have hgaps : (i.value - i.low) * den = i.value * den - i.low * den ∧
      (i.high - i.value) * den = i.high * den - i.value * den :=
    ⟨Nat.sub_mul .., Nat.sub_mul ..⟩
  -- the nearer of the two is at most half a unit away
  have hbelow : 2 * rest ≤ i.den * num → i.holds (n * num) den = true := by
    intro hle
    have hlt := lt_of_half_unit hunits hi.wide_below (Nat.sub_pos_of_lt hi.below) hden hle
    refine holds_of_lt ?_ ?_ <;> omega
  have habove : i.den * num ≤ 2 * rest → i.holds ((n + 1) * num) den = true := by
    intro hle
    have hlt : i.den * num - rest < (i.high - i.value) * den :=
      lt_of_half_unit hunits hi.wide_above (Nat.sub_pos_of_lt hi.above) hden (by omega)
    refine holds_of_lt ?_ ?_ <;> omega
  rcases Nat.lt_or_ge (2 * rest) (i.den * num) with hlt | hge
  · rw [hbelow hlt.le, decide_eq_true hlt, Bool.true_or, Bool.or_true, Bool.true_and, if_pos rfl]
    rfl
  · rw [habove hge]
    split <;> rfl

/-- A decimal in the interval is not zero. -/
theorem pos_of_neighbour? (hi : i.Wide) (h : i.neighbour? count = some n) : 0 < n := by
  have hpos : ∀ num den, 0 < den → i.holds num den = true → 0 < num := by
    intro num den hden hholds
    have hlow : 0 < i.low * den := Nat.mul_pos hi.low hden
    refine Nat.pos_of_ne_zero ?_
    rintro rfl
    rw [holds] at hholds
    split at hholds <;> rw [Bool.and_eq_true, decide_eq_true_eq, decide_eq_true_eq] at hholds <;>
      omega
  obtain ⟨-, hden⟩ := i.unit_pos count
  rw [neighbour?] at h
  dsimp only at h
  split at h
  · rename_i hin
    cases h
    rw [Bool.and_eq_true] at hin
    exact Nat.pos_of_mul_pos_right (hpos _ _ hden hin.1)
  · split at h
    · cases h
      exact Nat.succ_pos _
    · cases h

end RoundingInterval

/-! ### The digits found -/

/-- Digits, of which the first is not zero. -/
structure Decimal.Proper (d : Decimal) : Prop where
  ne : d.digits ≠ []
  digits : ∀ c ∈ d.digits, c.isDigit = true
  first : d.digits.head? ≠ some '0'

theorem dropZeros_isPrefix (digits : Text) : dropZeros digits <+: digits := by
  have hsuffix := List.dropWhile_suffix (· = '0') (l := digits.reverse)
  rw [← List.reverse_prefix, List.reverse_reverse] at hsuffix
  exact hsuffix

/-- The decimals of a natural number above zero. -/
theorem proper_dropZeros {n : Nat} (hn : 0 < n) (point : Int) :
    Decimal.Proper ⟨dropZeros (Text.ofNat n), point⟩ := by
  obtain ⟨c, digits, hdigits⟩ := List.exists_cons_of_ne_nil (Nat.toDigits_ne_nil (n := n) (b := 10))
  have hc : c ≠ '0' := fun hc => JsonLexeme.head?_toDigits hn (by rw [hdigits, hc]; rfl)
  have hfront := dropZeros_isPrefix (Text.ofNat n)
  have hne : dropZeros (Text.ofNat n) ≠ [] := by
    rw [dropZeros, Ne, List.reverse_eq_nil_iff, List.dropWhile_eq_nil_iff, Text.ofNat, hdigits]
    exact fun hall => hc (of_decide_eq_true (hall c (by simp)))
  refine ⟨hne, fun d hd => ?_, fun hfirst => ?_⟩
  · exact Nat.isDigit_of_mem_toDigits (by decide) (by decide) (hfront.subset hd)
  · obtain ⟨d, more, hmore⟩ := List.exists_cons_of_ne_nil hne
    dsimp only at hfirst
    rw [hmore] at hfirst hfront
    cases hfirst
    rw [Text.ofNat, hdigits, List.cons_prefix_cons] at hfront
    exact hc hfront.1.symm

/-- **A number has a shortest decimal**, and its first digit is not zero. -/
theorem shortestDecimal_proper {m : Nat} (hm : 0 < m) (hroom : m < 2 ^ Binary64.precision)
    (e : Int) : (shortestDecimal m e).Proper := by
  have hi := RoundingInterval.wide_ofBinary hm hroom e
  rw [shortestDecimal]
  dsimp only
  split
  · rename_i count n hfound
    obtain ⟨count', -, hcount⟩ := List.exists_of_findSome?_eq_some hfound
    obtain ⟨n', hn', heq⟩ := Option.map_eq_some_iff.mp hcount
    cases heq
    exact proper_dropZeros (RoundingInterval.pos_of_neighbour? hi hn') _
  · rename_i hnone
    rw [List.findSome?_eq_none_iff] at hnone
    have h17 := hnone 17 (by decide)
    rw [Option.map_eq_none_iff] at h17
    have hsome := RoundingInterval.isSome_neighbour? hi
    rw [h17] at hsome
    cases hsome

end FluidScss
