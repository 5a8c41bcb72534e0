/-
FluidScss/Decimal/Binary64.lean

Numbers of double precision, as exact values.  A finite one is a mantissa
times a power of two with a sign; zero has a sign too.  Nothing here touches
the machine's floating point: a decimal is rounded in integer arithmetic
(`ofDecimal`), to the nearest number of at most 53 bits and exponent at
least -1074, and to the even mantissa from halfway.

Main fact: rounding a quotient is within half a unit (`roundQuotient_near`).
-/
namespace FluidScss

/-- A number of double precision. -/
inductive Binary64
  | finite (negative : Bool) (mantissa : Nat) (exponent : Int)
  | infinite (negative : Bool)
  | nan
deriving DecidableEq

/-- The natural number nearest to a quotient, the even one from halfway. -/
def roundQuotient (num den : Nat) : Nat :=
  let q := num / den
  let r := num % den
  if 2 * r < den then q
  else if den < 2 * r then q + 1
  else if q % 2 = 0 then q else q + 1

theorem roundQuotient_near {num den : Nat} (h : 0 < den) :
    2 * num ≤ 2 * (roundQuotient num den) * den + den ∧
      2 * (roundQuotient num den) * den ≤ 2 * num + den := by
  have hd := Nat.div_add_mod num den
  have hr := Nat.mod_lt num h
  have e : ∀ q, 2 * q * den = 2 * (den * q) := fun q => by
    rw [Nat.mul_assoc, Nat.mul_comm q den]
  unfold roundQuotient
  simp only
  split
  · rw [e]; omega
  · split
    · rw [e, Nat.mul_add]; omega
    · split
      · rw [e]; omega
      · rw [e, Nat.mul_add]; omega

namespace Binary64

/-- The least exponent of a mantissa. -/
def minExponent : Int := -1074

/-- The greatest exponent of a mantissa. -/
def maxExponent : Int := 971

/-- The number of bits of a mantissa. -/
def precision : Nat := 53

/-- Zero with a sign. -/
def zero (negative : Bool) : Binary64 := .finite negative 0 minExponent

/-- A quotient divided by a power of two. -/
def scaled (num den : Nat) (exponent : Int) : Nat × Nat :=
  if exponent < 0 then (num * Nat.pow 2 (-exponent).toNat, den)
  else (num, den * Nat.pow 2 exponent.toNat)

/-- The exponent with which the mantissa of a quotient has the full number of
bits, or the least one. -/
def exponentOf (num den : Nat) : Int :=
  let e := max minExponent ((Nat.log2 num : Int) - Nat.log2 den - precision)
  let (n, d) := scaled num den e
  if Nat.pow 2 precision ≤ n / d then e + 1 else e

/-- The number of double precision nearest to the quotient of two numbers
above zero. -/
def ofQuotient (negative : Bool) (num den : Nat) : Binary64 :=
  let e := exponentOf num den
  let (n, d) := scaled num den e
  let m := roundQuotient n d
  let (m, e) := if m = Nat.pow 2 precision then (Nat.pow 2 (precision - 1), e + 1) else (m, e)
  if maxExponent < e then .infinite negative else .finite negative m e

/-- The number of double precision nearest to `digits` times a power of ten.
Decimals of more than 400 places before or behind the point are beyond the
range and are not computed. -/
def ofDecimal (negative : Bool) (digits : Nat) (exponent : Int) : Binary64 :=
  if digits = 0 then zero negative
  else
    let magnitude : Int := (Nat.toDigits 10 digits).length + exponent
    if 400 < magnitude then .infinite negative
    else if magnitude < -400 then zero negative
    else if exponent < 0 then ofQuotient negative digits (Nat.pow 10 (-exponent).toNat)
    else ofQuotient negative (digits * Nat.pow 10 exponent.toNat) 1

/-- Whether the number is one of the two zeros. -/
def isZero : Binary64 → Bool
  | finite _ m _ => m = 0
  | _ => false

/-- The integer part of a finite number. -/
def truncate? : Binary64 → Option Int
  | finite negative m e =>
    let n : Nat := if e < 0 then m / Nat.pow 2 (-e).toNat else m * Nat.pow 2 e.toNat
    some (if negative then -n else n)
  | _ => none

end Binary64

end FluidScss
