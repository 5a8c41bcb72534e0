/-
FluidScss/Proofs/JsonNumber.lean

Numbers of double precision in a JSON text.  A `Numeral` is what the grammar of
numbers allows where there is a fraction or an exponent: digits without a zero
in front, digits behind a point, and a signed exponent.  Its text is one lexeme
(`Numeral.lexes`), the number that it spells.

The shortest decimal of a number is written as a numeral, be it with a point
alone or with an exponent (`exists_numeral`), so a number that is written is
read as a number (`lexes_shown`); which one, is `Binary64.reread`.
-/
import FluidScss.Proofs.ShortestDecimal
import FluidScss.Proofs.Text

namespace FluidScss

open JsonLexeme

/-- A number with a fraction or an exponent, as it may be written: the digits in
front of the point and behind it, and those of the exponent with its sign,
`true` below zero. -/
structure Numeral where
  negative : Bool
  whole : Text
  point : Option Text
  power : Option (Bool × Text)
  digits : ∀ c ∈ whole, c.isDigit = true
  ne : whole ≠ []
  first : whole.head? = some '0' → whole = ['0']
  decimals : ∀ frac ∈ point, frac ≠ [] ∧ ∀ c ∈ frac, c.isDigit = true
  sized : ∀ size ∈ power, size.2 ≠ [] ∧ ∀ c ∈ size.2, c.isDigit = true
  broken : point.isSome = true ∨ power.isSome = true

namespace Numeral

/-- The point with the digits behind it. -/
def pointText : Option Text → Text
  | none => []
  | some frac => '.' :: frac

/-- The exponent with its sign. -/
def powerText : Option (Bool × Text) → Text
  | none => []
  | some (below, size) => 'e' :: (if below then '-' else '+') :: size

/-- The text behind the whole part. -/
def tail (n : Numeral) : Text := pointText n.point ++ powerText n.power

/-- The text of a numeral. -/
def text (n : Numeral) : Text := Binary64.signText n.negative ++ (n.whole ++ n.tail)

/-- The exponent of a numeral, if it has one. -/
def powerOf (power : Option (Bool × Text)) : Option Int :=
  power.map fun size => if size.1 then -(decimal size.2 : Int) else decimal size.2

/-- The number that a numeral spells. -/
def value (n : Numeral) : Binary64 :=
  .ofDecimal n.negative (decimal (n.whole ++ n.point.getD []))
    ((powerOf n.power).getD 0 - (n.point.getD []).length)

variable {n : Numeral} {rest digits : Text} {c : Char} {point : Option Text}
variable {power : Option (Bool × Text)}

/-! ### Reading -/

theorem head?_isDigit {digits : Text} (hne : digits ≠ []) (hd : ∀ c ∈ digits, c.isDigit = true)
    (rest : Text) : (digits ++ rest).head?.any Char.isDigit = true := by
  obtain ⟨c, digits, rfl⟩ := List.exists_cons_of_ne_nil hne
  exact hd c (List.mem_cons_self ..)

/-- Neither the exponent nor what ends a number is a digit or a point. -/
theorem head?_powerText (hr : Ends rest) :
    ∀ c ∈ (powerText power ++ rest).head?, c.isDigit = false ∧ c ≠ '.' := by
  rcases power with - | ⟨below, size⟩
  · exact fun c hc => ⟨(hr c hc).1, (hr c hc).2.1⟩
  · rintro c ⟨⟩
    decide

theorem fraction_pointText (hp : ∀ frac ∈ point, frac ≠ [] ∧ ∀ c ∈ frac, c.isDigit = true)
    (hr : ∀ c ∈ rest.head?, c.isDigit = false ∧ c ≠ '.') :
    fraction (pointText point ++ rest) = (point, rest) := by
  rcases point with - | frac
  · show fraction rest = _
    unfold fraction
    split
    · exact absurd rfl (hr '.' rfl).2
    · rfl
  · obtain ⟨hne, hd⟩ := hp frac rfl
    obtain ⟨htake, hdrop⟩ := takeWhile_isDigit_of hd fun c hc => (hr c hc).1
    show fraction ('.' :: (frac ++ rest)) = _
    rw [fraction, if_pos (head?_isDigit hne hd rest), htake, hdrop]

theorem exponent_powerText (hp : ∀ size ∈ power, size.2 ≠ [] ∧ ∀ c ∈ size.2, c.isDigit = true)
    (hr : Ends rest) : exponent (powerText power ++ rest) = (powerOf power, rest) := by
  rcases power with - | ⟨below, size⟩
  · exact exponent_of_ends hr
  · obtain ⟨hne, hd⟩ := hp _ rfl
    obtain ⟨htake, hdrop⟩ := takeWhile_isDigit hd hr
    have hsign : exponentSign ((if below then '-' else '+') :: (size ++ rest))
        = (below, size ++ rest) := by
      cases below <;> rfl
    show exponent ('e' :: (if below then '-' else '+') :: (size ++ rest)) = _
    unfold exponent
    dsimp only
    rw [if_pos (.inl rfl), hsign]
    dsimp only
    rw [if_pos (head?_isDigit hne hd rest), htake, hdrop]
    rfl

/-- Digits with the rest of the numeral are its number. -/
theorem numberWith_tail (n : Numeral) (hr : Ends rest) :
    numberWith n.negative n.whole (n.tail ++ rest) = (.scalar (.num n.value), rest) := by
  rw [tail, List.append_assoc, numberWith, fraction_pointText n.decimals (head?_powerText hr)]
  dsimp only
  rw [exponent_powerText n.sized hr]
  dsimp only
  have hbroken : (n.point.isNone && (powerOf n.power).isNone) = false := by
    rw [powerOf, Option.isNone_map, Bool.and_eq_false_iff, Option.isNone_eq_false_iff,
      Option.isNone_eq_false_iff]
    exact n.broken
  rw [if_neg (by rw [hbroken]; decide)]
  rfl

/-- The text behind the whole part begins with a point or an exponent. -/
theorem head?_tail (n : Numeral) (rest : Text) :
    ∀ c ∈ (n.tail ++ rest).head?, c.isDigit = false := by
  obtain ⟨-, -, point, power, -, -, -, -, -, hbroken⟩ := n
  show ∀ c ∈ ((pointText point ++ powerText power) ++ rest).head?, _
  rcases point with - | frac
  · rcases power with - | ⟨below, size⟩
    · rcases hbroken with h | h <;> cases h
    · rintro c ⟨⟩
      rfl
  · rintro c ⟨⟩
    rfl

/-- **A numeral is one lexeme**, the number that it spells. -/
theorem lexes (n : Numeral) : Lexes n.text (.scalar (.num n.value)) := by
  obtain ⟨c, digits, hwhole⟩ := List.exists_cons_of_ne_nil n.ne
  have hall := n.digits
  rw [hwhole] at hall
  have hc : c.isDigit = true := hall c (List.mem_cons_self ..)
  have hnumber : ∀ rest, Ends rest →
      JsonLexeme.number n.negative c (digits ++ n.tail ++ rest)
        = (.scalar (.num n.value), rest) := by
    intro rest hr
    rw [JsonLexeme.number, List.append_assoc]
    split
    · -- zero has no further digits
      rename_i hzero
      have hone := n.first (by rw [hwhole, hzero]; rfl)
      have hdigits : digits = [] := by
        rw [hwhole] at hone
        exact (List.cons.inj hone).2
      have hnum := n.numberWith_tail hr
      rw [hone] at hnum
      rw [hdigits]
      exact hnum
    · obtain ⟨htake, hdrop⟩ := takeWhile_isDigit_of
        (fun d hd => hall d (List.mem_cons_of_mem _ hd)) (n.head?_tail rest)
      rw [htake, hdrop, ← hwhole]
      exact n.numberWith_tail hr
  rw [text, hwhole]
  cases hneg : n.negative <;> rw [hneg] at hnumber
  · refine lexes_of_front (isJsonBlank_of_isDigit hc) fun rest hr => ?_
    rw [front_of_isDigit hc]
    exact hnumber rest hr
  · refine lexes_of_front rfl fun rest hr => ?_
    show JsonLexeme.negative (c :: (digits ++ n.tail ++ rest)) = _
    rw [JsonLexeme.negative, if_pos hc]
    exact hnumber rest hr

/-- A numeral holds no carriage return. -/
theorem unified (n : Numeral) : Text.Unified n.text := by
  have hdigits : ∀ {digits : Text}, (∀ c ∈ digits, c.isDigit = true) → Text.Unified digits :=
    fun hd hm => absurd (hd _ hm) (by decide)
  have hpoint : Text.Unified (pointText n.point) := by
    rcases hp : n.point with - | frac
    · exact Text.unified_nil
    · exact Text.unified_cons.mpr ⟨by decide, hdigits (n.decimals frac hp).2⟩
  have hpower : Text.Unified (powerText n.power) := by
    rcases hp : n.power with - | ⟨below, size⟩
    · exact Text.unified_nil
    · refine Text.unified_cons.mpr ⟨by decide,
        Text.unified_cons.mpr ⟨?_, hdigits (n.sized (below, size) hp).2⟩⟩
      cases below <;> decide
  have hsign : Text.Unified (Binary64.signText n.negative) := by
    cases n.negative <;> decide
  exact Text.unified_append.mpr ⟨hsign,
    Text.unified_append.mpr ⟨hdigits n.digits, Text.unified_append.mpr ⟨hpoint, hpower⟩⟩⟩

end Numeral

/-! ### The numerals of numbers -/

namespace Decimal

variable {d : Decimal}

theorem isDigit_zeros (k : Nat) : ∀ c ∈ List.replicate k '0', c.isDigit = true := by
  intro c hm
  rw [List.eq_of_mem_replicate hm]
  rfl

/-- With a point alone it is a numeral. -/
theorem exists_positional (hd : d.Proper) (negative : Bool) :
    ∃ n : Numeral, n.text = Binary64.signText negative ++ d.positional := by
  obtain ⟨hne, hdigits, hfirst⟩ := hd
  have hzero : ∀ c ∈ ("0" : Text), c.isDigit = true := by decide
  rw [positional]
  split
  · -- all digits are behind the point
    have hfrac : ∀ c ∈ List.replicate (-d.point).toNat '0' ++ d.digits, c.isDigit = true :=
      List.forall_mem_append.mpr ⟨isDigit_zeros _, hdigits⟩
    refine ⟨⟨negative, "0", some (List.replicate (-d.point).toNat '0' ++ d.digits), none, hzero,
      by decide, fun _ => rfl, ?_, nofun, .inl rfl⟩, ?_⟩
    · rintro frac ⟨⟩
      exact ⟨List.append_ne_nil_of_right_ne_nil _ hne, hfrac⟩
    · simp [Numeral.text, Numeral.tail, Numeral.pointText, Numeral.powerText]
  · rename_i hpoint
    dsimp only
    split
    · -- all digits are in front of the point
      have hhead : (d.digits ++ List.replicate (d.point.toNat - d.digits.length) '0').head?
          = d.digits.head? := by
        rw [List.head?_append, List.head?_eq_some_head hne, Option.some_or]
      refine ⟨⟨negative, d.digits ++ List.replicate (d.point.toNat - d.digits.length) '0',
        some "0", none, List.forall_mem_append.mpr ⟨hdigits, isDigit_zeros _⟩,
        List.append_ne_nil_of_left_ne_nil hne _, fun h => absurd (hhead ▸ h) hfirst, ?_, nofun,
        .inl rfl⟩, ?_⟩
      · rintro frac ⟨⟩
        exact ⟨by decide, hzero⟩
      · simp [Numeral.text, Numeral.tail, Numeral.pointText, Numeral.powerText]
    · rename_i hlen
      have hhead : (d.digits.take d.point.toNat).head? = d.digits.head? := by
        rw [List.head?_take, if_neg (by omega)]
      have hsplit : d.digits.take d.point.toNat ≠ [] ∧ d.digits.drop d.point.toNat ≠ [] := by
        rw [Ne, List.take_eq_nil_iff, Ne, List.drop_eq_nil_iff, not_or]
        exact ⟨⟨by omega, hne⟩, hlen⟩
      refine ⟨⟨negative, d.digits.take d.point.toNat, some (d.digits.drop d.point.toNat), none,
        fun c hc => hdigits c (List.mem_of_mem_take hc), hsplit.1,
        fun h => absurd (hhead ▸ h) hfirst, ?_, nofun, .inl rfl⟩, ?_⟩
      · rintro frac ⟨⟩
        exact ⟨hsplit.2, fun c hc => hdigits c (List.mem_of_mem_drop hc)⟩
      · simp [Numeral.text, Numeral.tail, Numeral.pointText, Numeral.powerText]

/-- With an exponent it is a numeral. -/
theorem exists_exponential (hd : d.Proper) (negative : Bool) :
    ∃ n : Numeral, n.text = Binary64.signText negative ++ d.exponential := by
  obtain ⟨hne, hdigits, hfirst⟩ := hd
  obtain ⟨c, digits, hcons⟩ := List.exists_cons_of_ne_nil hne
  rw [hcons] at hdigits hfirst
  rw [exponential, hcons]
  generalize hsize : (if (Text.ofNat (d.point - 1).natAbs).length < 2
    then '0' :: Text.ofNat (d.point - 1).natAbs else Text.ofNat (d.point - 1).natAbs) = size
  have hpower : size ≠ [] ∧ ∀ c ∈ size, c.isDigit = true := by
    have hall : ∀ c ∈ Text.ofNat (d.point - 1).natAbs, c.isDigit = true := fun c hc =>
      Nat.isDigit_of_mem_toDigits (by decide) (by decide) hc
    rw [← hsize]
    split
    · exact ⟨List.cons_ne_nil _ _, List.forall_mem_cons.mpr ⟨rfl, hall⟩⟩
    · exact ⟨Nat.toDigits_ne_nil, hall⟩
  obtain ⟨hc, hrest⟩ := List.forall_mem_cons.mp hdigits
  refine ⟨⟨negative, [c], if digits = [] then none else some digits,
    some (decide (d.point - 1 < 0), size), List.forall_mem_singleton.mpr hc, List.cons_ne_nil _ _,
    fun h => absurd h hfirst, ?_, ?_, .inr rfl⟩, ?_⟩
  · intro frac hfrac
    split at hfrac
    · cases hfrac
    · cases hfrac
      exact ⟨by assumption, hrest⟩
  · rintro size ⟨⟩
    exact hpower
  · by_cases hnil : digits = [] <;> by_cases hbelow : d.point - 1 < 0 <;>
      simp [Numeral.text, Numeral.tail, Numeral.pointText, Numeral.powerText, hnil, hbelow]

end Decimal

namespace Binary64

variable {x : Binary64} {infinity nan : Text} {negative : Bool} {m : Nat} {e : Int}

/-- **A number is written as a numeral**, if it is a number. -/
theorem exists_numeral (hroom : m < 2 ^ precision) (negative : Bool) (e : Int)
    (infinity nan : Text) : ∃ n : Numeral, n.text = (finite negative m e).shown infinity nan := by
  rcases Nat.eq_zero_or_pos m with rfl | hpos
  · refine ⟨⟨negative, "0", some "0", none, by decide, by decide, fun _ => rfl, ?_, nofun,
      .inl rfl⟩, ?_⟩
    · rintro frac ⟨⟩
      decide
    · cases negative <;> rfl
  · obtain ⟨m, rfl⟩ := Nat.exists_eq_succ_of_ne_zero hpos.ne'
    have hproper := shortestDecimal_proper hpos hroom e
    rw [shown, Decimal.shown]
    · split
      · exact Decimal.exists_positional hproper negative
      · exact Decimal.exists_exponential hproper negative
    · exact nofun

theorem exists_lexes_shown (hx : x.Fits) :
    ∃ y, Lexes (x.shown "Infinity" "NaN") (.scalar (.num y)) := by
  cases x with
  | finite negative m e =>
    obtain ⟨n, hn⟩ := exists_numeral hx negative e "Infinity" "NaN"
    exact ⟨n.value, hn ▸ n.lexes⟩
  | infinite negative =>
    refine ⟨infinite negative, ?_⟩
    cases negative
    · exact lexes_of_front rfl fun _ _ => rfl
    · exact lexes_of_front rfl fun _ _ => rfl
  | nan => exact ⟨.nan, lexes_of_front rfl fun _ _ => rfl⟩

/-- The number that a number reads as where it is written. -/
def reread (x : Binary64) : Binary64 :=
  match JsonLexeme.all (x.shown "Infinity" "NaN") with
  | (_, .scalar (.num y)) :: _ => y
  | _ => x

/-- **A number that is written** is read as a number. -/
theorem lexes_shown (hx : x.Fits) :
    Lexes (x.shown "Infinity" "NaN") (.scalar (.num x.reread)) := by
  obtain ⟨y, hy⟩ := exists_lexes_shown hx
  have hall := hy [] nofun
  rw [List.append_nil] at hall
  have hreread : x.reread = y := by rw [reread, hall]
  rwa [hreread]

/-- What is written for a number holds no carriage return. -/
theorem unified_shown (hx : x.Fits) : Text.Unified (x.shown "Infinity" "NaN") := by
  cases x with
  | finite negative m e =>
    obtain ⟨n, hn⟩ := exists_numeral hx negative e "Infinity" "NaN"
    exact hn ▸ n.unified
  | infinite negative => cases negative <;> decide
  | nan => decide

end Binary64

end FluidScss
