/-
FluidScss/Decimal/Shortest.lean

The shortest decimal that reads back.  Every number of double precision is
the nearest one to all reals of an interval around it, with the ends if its
mantissa is even.  On the grid of decimals with 1, 2, … 17 digits the two
neighbours of the number are tried; the first grid with one in the interval
gives the digits, of two the nearer one.  Seventeen digits always suffice.

`shown` writes them: with a point where the exponent allows it, else with
one digit before the point and an exponent of at least two digits.
-/
import FluidScss.Decimal.Binary64
import FluidScss.Text

namespace FluidScss

/-- A number above zero, with the ends of the interval of the reals that
round to it, over one denominator. -/
structure RoundingInterval where
  low : Nat
  value : Nat
  high : Nat
  den : Nat
  closed : Bool

namespace RoundingInterval

/-- The interval of `mantissa` times a power of two; below a power of two
the numbers are twice as dense. -/
def ofBinary (mantissa : Nat) (exponent : Int) : RoundingInterval :=
  let below := if mantissa = Nat.pow 2 (Binary64.precision - 1) ∧ Binary64.minExponent < exponent
    then 1 else 2
  let (factor, den) := Binary64.scaled 1 1 (2 - exponent)
  { low := (4 * mantissa - below) * factor
    value := 4 * mantissa * factor
    high := (4 * mantissa + 2) * factor
    den
    closed := mantissa % 2 = 0 }

/-- Whether the quotient of two numbers lies in the interval. -/
def holds (i : RoundingInterval) (num den : Nat) : Bool :=
  if i.closed then i.low * den ≤ num * i.den && num * i.den ≤ i.high * den
  else i.low * den < num * i.den && num * i.den < i.high * den

/-- The number of digits before the point; below one, less the zeros that
follow it. -/
def magnitude (i : RoundingInterval) : Int :=
  if i.den ≤ i.value then (Nat.toDigits 10 (i.value / i.den)).length
  else 1 - ((Nat.toDigits 10 (i.den / i.value)).length : Int)

/-- The unit of the grid of numbers with `count` digits, as a quotient. -/
def unit (i : RoundingInterval) (count : Nat) : Nat × Nat :=
  let e := i.magnitude - count
  if e < 0 then (1, Nat.pow 10 (-e).toNat) else (Nat.pow 10 e.toNat, 1)

/-- The multiple of the unit, of the two next to the value, that lies in the
interval; of two the nearer, and the even one from halfway. -/
def neighbour? (i : RoundingInterval) (count : Nat) : Option Nat :=
  let (num, den) := i.unit count
  let below := i.value * den / (i.den * num)
  let rest := i.value * den % (i.den * num)
  let inBelow := i.holds (below * num) den
  let inAbove := i.holds ((below + 1) * num) den
  let nearer := 2 * rest < i.den * num || (2 * rest = i.den * num && below % 2 = 0)
  if inBelow && (!inAbove || nearer) then some below
  else if inAbove then some (below + 1)
  else none

end RoundingInterval

/-- A number as digits and the place of the point: `0.digits` times that
power of ten. -/
structure Decimal where
  digits : Text
  point : Int

/-- The digits without the zeros at their end. -/
def dropZeros (digits : Text) : Text := (digits.reverse.dropWhile (· = '0')).reverse

/-- The shortest decimal that rounds to the number, of those the nearest. -/
def shortestDecimal (mantissa : Nat) (exponent : Int) : Decimal :=
  let i := RoundingInterval.ofBinary mantissa exponent
  let counts := (List.range 17).map (· + 1)
  match counts.findSome? fun count => (i.neighbour? count).map (count, ·) with
  | some (count, n) =>
    let digits := Text.ofNat n
    ⟨dropZeros digits, i.magnitude - count + digits.length⟩
  | none => ⟨[], 0⟩

/-- The limits of the exponents that are written with a point alone. -/
def positionalExponents : Int × Int := (-4, 16)

namespace Decimal

/-- Digits with a point, at least one of them on each side. -/
def positional (d : Decimal) : Text :=
  if d.point ≤ 0 then "0." ++ List.replicate (-d.point).toNat '0' ++ d.digits
  else
    let whole := d.point.toNat
    if d.digits.length ≤ whole then
      d.digits ++ List.replicate (whole - d.digits.length) '0' ++ ".0"
    else d.digits.take whole ++ "." ++ d.digits.drop whole

/-- One digit, the others behind a point, and the exponent. -/
def exponential (d : Decimal) : Text :=
  let exponent := d.point - 1
  let sign : Text := if exponent < 0 then "e-" else "e+"
  let size := Text.ofNat exponent.natAbs
  let size := if size.length < 2 then '0' :: size else size
  let fraction := d.digits.drop 1
  d.digits.take 1 ++ (if fraction = [] then [] else '.' :: fraction) ++ sign ++ size

/-- The number in the notation that its exponent calls for. -/
def shown (d : Decimal) : Text :=
  let exponent := d.point - 1
  if positionalExponents.1 ≤ exponent ∧ exponent < positionalExponents.2 then d.positional
  else d.exponential

end Decimal

namespace Binary64

/-- The sign in front of a number. -/
def signText (negative : Bool) : Text := if negative then ['-'] else []

/-- A number in its shortest notation, where `infinity` and `nan` spell those
that have no digits. -/
def shown (infinity nan : Text) : Binary64 → Text
  | .finite negative 0 _ => signText negative ++ "0.0"
  | .finite negative m e => signText negative ++ (shortestDecimal m e).shown
  | .infinite negative => signText negative ++ infinity
  | .nan => nan

end Binary64

end FluidScss
