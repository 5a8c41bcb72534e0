/-
FluidScss/Proofs/JsonText.lean

The lexemes of a JSON text that was written.  `Lexes text l` says that a text
is read as the lexeme `l`, whatever follows, unless that could go on with a
number (`Ends`); the breaks between lexemes are passed over
(`all_lineStart`).

A string is read unit by unit, and the units that the writer spells for a
character are that character again (`stringUnits_writeChar`,
`unitsText_units`), be it written as it is, behind a backslash or as the two
halves of a pair.  A whole number is read with the digits it was written with
(`lexes_ofInt`), if there are not too many of them.
-/
import FluidScss.Json.Reader
import FluidScss.Json.Writer
import Mathlib.Data.Nat.Digits.Defs

namespace FluidScss

/-! ### Hexadecimal digits -/

theorem hexDigits_succ {k : Nat} (hk : 0 < k) (n : Nat) :
    hexDigits (k + 1) n = hexDigits k (n / 16) ++ [Nat.digitChar (n % 16)] := by
  rw [hexDigits, hexDigits]
  rcases Nat.lt_or_ge n 16 with hn | hn
  · -- one digit, and all the others are zeros
    obtain ⟨k, rfl⟩ := Nat.exists_eq_succ_of_ne_zero hk.ne'
    rw [Nat.toDigits_of_lt_base hn, Nat.div_eq_of_lt hn, Nat.mod_eq_of_lt hn, Nat.toDigits_zero]
    simp [List.replicate_succ']
  · rw [Nat.toDigits_of_base_le (by decide) hn, List.length_append, List.length_singleton,
      Nat.add_sub_add_right, List.append_assoc]

theorem hexDigits_one {n : Nat} (hn : n < 16) : hexDigits 1 n = [Nat.digitChar n] := by
  rw [hexDigits, Nat.toDigits_of_lt_base hn]
  rfl

namespace JsonLexeme

theorem hexValue?_digitChar {d : Nat} (hd : d < 16) : hexValue? (Nat.digitChar d) = some d := by
  have : ∀ d < 16, hexValue? (Nat.digitChar d) = some d := by decide
  exact this d hd

/-- Four hexadecimal digits spell their number. -/
theorem exists_hexDigits {n : Nat} (hn : n < 0x10000) :
    ∃ a b c d, hexDigits 4 n = [a, b, c, d] ∧ hexQuad? a b c d = some n := by
  refine ⟨Nat.digitChar (n / 16 / 16 / 16), Nat.digitChar (n / 16 / 16 % 16),
    Nat.digitChar (n / 16 % 16), Nat.digitChar (n % 16), ?_, ?_⟩
  · rw [hexDigits_succ (by decide), hexDigits_succ (by decide), hexDigits_succ (by decide),
      hexDigits_one (by omega)]
    rfl
  · rw [hexQuad?, hexValue?_digitChar (by omega), hexValue?_digitChar (by omega),
      hexValue?_digitChar (by omega), hexValue?_digitChar (by omega)]
    show some _ = some n
    congr 1
    omega

/-! ### Strings -/

/-- The escape of a code unit is read as the unit. -/
theorem stringUnits_unitEscape {unit : Nat} (hu : unit < 0x10000) {rest : Text} (hr : rest ≠ []) :
    stringUnits (unitEscape unit ++ rest)
      = (stringUnits rest).map fun (units, after) => (unit :: units, after) := by
  obtain ⟨a, b, c, d, hdigits, hquad⟩ := exists_hexDigits hu
  obtain ⟨e, rest, rfl⟩ := List.exists_cons_of_ne_nil hr
  have hsplit : unitEscape unit ++ e :: rest = '\\' :: 'u' :: a :: b :: c :: d :: e :: rest := by
    rw [unitEscape, hdigits]
    rfl
  rw [hsplit, stringUnits, hquad]

end JsonLexeme

/-- The code units that a character of a string is read as. -/
def Charset.units (s : Charset) (c : Char) : List Nat :=
  if s.keeps c ∨ c.toNat < 0x10000 then [c.toNat]
  else [0xd800 + (c.toNat - 0x10000) / 0x400, 0xdc00 + (c.toNat - 0x10000) % 0x400]

theorem Charset.le_of_keeps {s : Charset} {c : Char} (h : s.keeps c = true) : 0x20 ≤ c.toNat := by
  cases s with
  | ascii =>
    rw [keeps, Bool.and_eq_true, decide_eq_true_eq] at h
    exact h.1
  | unicode => exact of_decide_eq_true h

namespace JsonLexeme

theorem stringUnits_kept {c : Char} (hq : c ≠ '"') (hb : c ≠ '\\') (hc : 0x20 ≤ c.toNat)
    (rest : Text) :
    stringUnits (c :: rest) = (stringUnits rest).map fun (units, after) =>
      (c.toNat :: units, after) := by
  rw [stringUnits, if_neg (Nat.not_lt.mpr hc)]
  · exact fun h => hq h
  · intro h _; exact hb h
  · intro _ _ _ _ _ _ h; exact absurd h hb
  · intro _ _ h; exact absurd h hb

/-- A character is no half of a pair. -/
theorem toNat_scalar (c : Char) : c.toNat < 0xd800 ∨ 0xdfff < c.toNat ∧ c.toNat < 0x110000 :=
  c.valid

theorem stringUnits_writeChar (s : Charset) (c : Char) {rest : Text} (hr : rest ≠ []) :
    stringUnits (s.writeChar c ++ rest)
      = (stringUnits rest).map fun (units, after) => (s.units c ++ units, after) := by
  unfold Charset.writeChar
  split
  -- the short escapes
  iterate 7
    · simp [stringUnits, escaped?, Charset.units]
  · rename_i hq hb _ _ _ _ _
    split
    · rename_i hk
      have hunits : s.units c = [c.toNat] := if_pos (.inl hk)
      rw [hunits, List.singleton_append, stringUnits_kept hq hb (Charset.le_of_keeps hk)]
      rfl
    · rename_i hk
      rw [charEscape]
      split
      · rename_i hc
        have hunits : s.units c = [c.toNat] := if_pos (.inr hc)
        rw [hunits, stringUnits_unitEscape hc hr]
        rfl
      · -- a pair of halves, one escape behind the other
        rename_i hc
        have hlt := toNat_scalar c
        have hunits : s.units c
            = [0xd800 + (c.toNat - 0x10000) / 0x400, 0xdc00 + (c.toNat - 0x10000) % 0x400] :=
          if_neg (not_or.mpr ⟨hk, hc⟩)
        have hne : unitEscape (0xdc00 + (c.toNat - 0x10000) % 0x400) ++ rest ≠ [] :=
          List.append_ne_nil_of_right_ne_nil _ hr
        dsimp only
        rw [hunits, List.append_assoc, stringUnits_unitEscape (by omega) hne,
          stringUnits_unitEscape (by omega) hr]
        rcases stringUnits rest with e | ⟨units, after⟩ <;> rfl

/-- A written string is read to its closing quote, unit by unit. -/
theorem stringUnits_written (s : Charset) (text rest : Text) :
    stringUnits (text.flatMap s.writeChar ++ '"' :: rest)
      = .ok (text.flatMap s.units, rest) := by
  induction text with
  | nil => simp [stringUnits]
  | cons c text ih =>
    have hne : text.flatMap s.writeChar ++ '"' :: rest ≠ [] :=
      List.append_ne_nil_of_right_ne_nil _ (List.cons_ne_nil _ _)
    rw [List.flatMap_cons, List.append_assoc, stringUnits_writeChar s c hne, ih]
    rfl

/-! ### Units and characters -/

theorem unitChar_toNat (c : Char) : unitChar c.toNat = c := by
  have hc := toNat_scalar c
  have hhigh : isHighHalf c.toNat = false := by simp [isHighHalf]; omega
  have hlow : isLowHalf c.toNat = false := by simp [isLowHalf]; omega
  rw [unitChar, hhigh, hlow, if_neg (by decide), Char.ofNat_toNat]

/-- The units of a character are that character, whatever follows. -/
theorem unitsText_units (s : Charset) (c : Char) (units : List Nat) :
    unitsText (s.units c ++ units) = c :: unitsText units := by
  have hc := toNat_scalar c
  rw [Charset.units]
  split
  · rcases units with - | ⟨unit, units⟩
    · show [unitChar c.toNat] = [c]
      rw [unitChar_toNat]
    · have hhigh : isHighHalf c.toNat = false := by simp [isHighHalf]; omega
      show unitsText (c.toNat :: unit :: units) = _
      rw [unitsText, hhigh, Bool.false_and, if_neg Bool.false_ne_true, unitChar_toNat]
  · rename_i h
    have hhigh : isHighHalf (0xd800 + (c.toNat - 0x10000) / 0x400) = true := by
      simp [isHighHalf]; omega
    have hlow : isLowHalf (0xdc00 + (c.toNat - 0x10000) % 0x400) = true := by
      simp [isLowHalf]; omega
    have hpair : 0x10000 + (0xd800 + (c.toNat - 0x10000) / 0x400 - 0xd800) * 0x400
        + (0xdc00 + (c.toNat - 0x10000) % 0x400 - 0xdc00) = c.toNat := by omega
    show unitsText (_ :: _ :: units) = _
    rw [unitsText, hhigh, hlow, Bool.true_and, if_pos rfl, hpair, Char.ofNat_toNat]

theorem unitsText_flatMap_units (s : Charset) (text : Text) :
    unitsText (text.flatMap s.units) = text := by
  induction text with
  | nil => rfl
  | cons c text ih => rw [List.flatMap_cons, unitsText_units, ih]

/-! ### Whole numbers -/

/-- What may stand behind a number: anything that does not go on with it. -/
def Ends (text : Text) : Prop :=
  ∀ c ∈ text.head?, c.isDigit = false ∧ c ≠ '.' ∧ c ≠ 'e' ∧ c ≠ 'E'

theorem fraction_of_ends {rest : Text} (hr : Ends rest) : fraction rest = (none, rest) := by
  unfold fraction
  split
  · exact absurd rfl (hr '.' rfl).2.1
  · rfl

theorem exponent_of_ends {rest : Text} (hr : Ends rest) : exponent rest = (none, rest) := by
  unfold exponent
  split
  · rfl
  · rename_i c rest
    obtain ⟨-, -, he, hE⟩ := hr c rfl
    rw [if_neg (not_or.mpr ⟨he, hE⟩)]

/-- Digits end in front of what is none. -/
theorem takeWhile_isDigit_of {digits rest : Text} (hd : ∀ c ∈ digits, c.isDigit = true)
    (hr : ∀ c ∈ rest.head?, c.isDigit = false) :
    (digits ++ rest).takeWhile Char.isDigit = digits ∧
      (digits ++ rest).dropWhile Char.isDigit = rest := by
  have hstop : rest.takeWhile Char.isDigit = [] ∧ rest.dropWhile Char.isDigit = rest := by
    rcases rest with - | ⟨c, rest⟩
    · exact ⟨rfl, rfl⟩
    · have hc := hr c rfl
      exact ⟨List.takeWhile_cons_of_neg (by rw [hc]; decide),
        List.dropWhile_cons_of_neg (by rw [hc]; decide)⟩
  exact ⟨by rw [List.takeWhile_append_of_pos hd, hstop.1, List.append_nil],
    by rw [List.dropWhile_append_of_pos hd, hstop.2]⟩

theorem takeWhile_isDigit {digits rest : Text} (hd : ∀ c ∈ digits, c.isDigit = true)
    (hr : Ends rest) :
    (digits ++ rest).takeWhile Char.isDigit = digits ∧
      (digits ++ rest).dropWhile Char.isDigit = rest :=
  takeWhile_isDigit_of hd fun c hc => (hr c hc).1

theorem numberWith_of_ends (negative : Bool) {digits rest : Text}
    (hlen : digits.length ≤ Text.maxDigits) (hr : Ends rest) :
    numberWith negative digits rest
      = (.scalar (.int (if negative then -(decimal digits : Int) else decimal digits)), rest) := by
  rw [numberWith, fraction_of_ends hr]
  dsimp only
  rw [exponent_of_ends hr]
  dsimp only
  simp only [Option.isNone_none, Bool.and_self, if_true, if_neg (Nat.not_lt.mpr hlen)]

theorem head?_toDigits {n : Nat} (hn : 0 < n) : (Nat.toDigits 10 n).head? ≠ some '0' := by
  induction n using Nat.strongRecOn with
  | ind n ih =>
    rcases Nat.lt_or_ge n 10 with hlt | hge
    · rw [Nat.toDigits_of_lt_base hlt]
      have : ∀ d < 10, 0 < d → [Nat.digitChar d].head? ≠ some '0' := by decide
      exact this n hlt hn
    · -- the first digit is that of the number without its last one
      have hfirst := ih (n / 10) (by omega) (by omega)
      obtain ⟨d, digits, hd⟩ :=
        List.exists_cons_of_ne_nil (Nat.toDigits_ne_nil (n := n / 10) (b := 10))
      rw [Nat.toDigits_of_base_le (by decide) hge, hd]
      rw [hd] at hfirst
      exact hfirst

/-- The digits of a number are read as that number. -/
theorem number_toDigits (negative : Bool) {n : Nat} (hlen : (Text.ofNat n).length ≤ Text.maxDigits)
    {c : Char} {digits rest : Text} (hn : Text.ofNat n = c :: digits) (hr : Ends rest) :
    number negative c (digits ++ rest)
      = (.scalar (.int (if negative then -(n : Int) else n)), rest) := by
  have hall : ∀ d ∈ c :: digits, d.isDigit = true := by
    rw [← hn]
    exact fun d hd => Nat.isDigit_of_mem_toDigits (by decide) (by decide) hd
  have hvalue : decimal (c :: digits) = n := by
    rw [← hn]
    exact Nat.ofDigitChars_toDigits (by decide) (by decide)
  unfold number
  split
  · -- zero has no further digits
    rename_i hc
    have hzero : n = 0 := by
      by_contra hne
      exact head?_toDigits (Nat.pos_of_ne_zero hne)
        (by rw [← Text.ofNat, hn, hc]; rfl)
    have hdigits : digits = [] := by
      rw [hzero] at hn
      exact (List.cons.inj hn).2.symm
    rw [hdigits, hc] at hvalue
    rw [hdigits, List.nil_append, numberWith_of_ends _ (by decide) hr, hvalue]
  · obtain ⟨htake, hdrop⟩ :=
      takeWhile_isDigit (fun d hd => hall d (List.mem_cons_of_mem _ hd)) hr
    rw [htake, hdrop, numberWith_of_ends _ (hn ▸ hlen) hr, hvalue]

/-! ### The lexemes of what was written -/

theorem all_blank {c : Char} (hc : isJsonBlank c = true) (rest : Text) :
    all (c :: rest) = all rest := by
  rw [all, if_pos hc]

theorem all_cons {c : Char} (hc : isJsonBlank c = false) (rest : Text) :
    all (c :: rest) = (c :: rest, (front c rest).1) :: all (front c rest).2 := by
  rw [all, if_neg (by rw [hc]; exact Bool.false_ne_true)]

/-- The break in front of a line is passed over. -/
theorem all_lineStart (level : Nat) (rest : Text) : all (lineStart level ++ rest) = all rest := by
  have hblanks : ∀ n, all (List.replicate n ' ' ++ rest) = all rest := by
    intro n
    induction n with
    | zero => rfl
    | succ n ih => rw [List.replicate_succ, List.cons_append, all_blank rfl, ih]
  rw [lineStart, List.cons_append, all_blank rfl, hblanks]

/-- A text is read as one lexeme, unless what follows goes on with it. -/
def Lexes (text : Text) (l : JsonLexeme) : Prop :=
  ∀ rest, Ends rest → all (text ++ rest) = (text ++ rest, l) :: all rest

/-- One lexeme is read where its first character is none of a blank. -/
theorem lexes_of_front {c : Char} {text : Text} {l : JsonLexeme} (hc : isJsonBlank c = false)
    (h : ∀ rest, Ends rest → front c (text ++ rest) = (l, rest)) : Lexes (c :: text) l := by
  intro rest hr
  rw [List.cons_append, all_cons hc, h rest hr]

theorem lexes_null : Lexes "null" (.scalar .null) :=
  lexes_of_front rfl fun _ _ => rfl

theorem lexes_bool (b : Bool) : Lexes (if b then "true" else "false") (.scalar (.bool b)) := by
  cases b
  · exact lexes_of_front rfl fun _ _ => rfl
  · exact lexes_of_front rfl fun _ _ => rfl

theorem lexes_writeText (s : Charset) (text : Text) : Lexes (s.writeText text) (.string text) := by
  have hquote : s.writeText text = '"' :: (text.flatMap s.writeChar ++ ("\"" : Text)) := rfl
  rw [hquote]
  refine lexes_of_front rfl fun rest _ => ?_
  have hunits : stringUnits (text.flatMap s.writeChar ++ (("\"" : Text) ++ rest))
      = .ok (text.flatMap s.units, rest) := stringUnits_written s text rest
  show readString _ = _
  rw [readString, List.append_assoc, hunits]
  dsimp only
  rw [unitsText_flatMap_units]

theorem isJsonBlank_of_isDigit {c : Char} (hc : c.isDigit = true) : isJsonBlank c = false := by
  by_contra hb
  rw [Bool.not_eq_false, isJsonBlank] at hb
  simp only [Bool.or_eq_true, decide_eq_true_eq] at hb
  rcases hb with ((rfl | rfl) | rfl) | rfl <;> exact absurd hc (by decide)

theorem front_of_isDigit {c : Char} (hc : c.isDigit = true) (rest : Text) :
    front c rest = number false c rest := by
  unfold front
  split
  all_goals first
    | (exact absurd hc (by decide))
    | skip
  rw [if_pos hc]

theorem lexes_ofInt {n : Int} (hn : (Text.ofNat n.natAbs).length ≤ Text.maxDigits) :
    Lexes (Text.ofInt n) (.scalar (.int n)) := by
  obtain ⟨c, digits, hdigits⟩ :=
    List.exists_cons_of_ne_nil (Nat.toDigits_ne_nil (n := n.natAbs) (b := 10))
  have hc : c.isDigit = true :=
    Nat.isDigit_of_mem_toDigits (b := 10) (n := n.natAbs) (by decide) (by decide)
      (by rw [hdigits]; exact List.mem_cons_self ..)
  have hblank : isJsonBlank c = false := isJsonBlank_of_isDigit hc
  -- a sign or a digit in front, by which the number is told
  rw [Text.ofInt]
  split
  · rename_i hneg
    have hvalue : (-(n.natAbs : Int)) = n := by omega
    refine lexes_of_front rfl fun rest hr => ?_
    show negative (Text.ofNat n.natAbs ++ rest) = _
    rw [Text.ofNat, hdigits, List.cons_append, negative, if_pos hc,
      number_toDigits true hn hdigits hr, if_pos rfl, hvalue]
  · rename_i hpos
    have hvalue : (n.natAbs : Int) = n := by omega
    rw [Text.ofNat, hdigits]
    refine lexes_of_front hblank fun rest hr => ?_
    rw [front_of_isDigit hc, number_toDigits false hn hdigits hr, if_neg Bool.false_ne_true, hvalue]

end JsonLexeme
end FluidScss
