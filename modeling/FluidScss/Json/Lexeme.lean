/-
FluidScss/Json/Lexeme.lean

The lexemes of a JSON text.  Blanks are the four that JSON knows.  Numbers
are as long as the grammar allows and no longer, so that `01` is two of
them; a whole number of more than `Text.maxDigits` digits is `oversize`.
Besides numbers and the three words, `NaN`, `Infinity` and `-Infinity` are
values.

A string is told by code units, and a unit may be half of a pair whose other
half is missing.  That is no character, so a `Text` cannot hold it; the NUL
character is read in its place, since neither can be in a path whose names are
texts.  (Some halves can be in other names, where they stand for bytes that are
no text.)

A place is told by its distance from the end of the text.  A string that is
not well formed is a lexeme of its own, `broken`, with the place of its
fault; where no lexeme begins stands `other`.  Nothing is read behind these.
-/
import FluidScss.Json
import FluidScss.Text.Blank
import FluidScss.Text.Number

namespace FluidScss

/-- What is wrong with a JSON text. -/
inductive JsonFault
  | value
  | propertyName
  | colon
  | comma
  | extraData
  | unterminatedString
  | controlCharacter
  | escape
  | unicodeEscape
  | byteOrderMark
deriving DecidableEq

/-- A lexeme of a JSON text. -/
inductive JsonLexeme
  | openObject
  | closeObject
  | openArray
  | closeArray
  | colon
  | comma
  | scalar (value : Json)
  | string (text : Text)
  | broken (fault : JsonFault) (distance : Nat)
  | oversize
  | other

namespace JsonLexeme

/-! ### Strings -/

/-- The value of a hexadecimal digit. -/
def hexValue? (c : Char) : Option Nat :=
  if '0' ≤ c ∧ c ≤ '9' then some (c.toNat - 48)
  else if 'a' ≤ c ∧ c ≤ 'f' then some (c.toNat - 87)
  else if 'A' ≤ c ∧ c ≤ 'F' then some (c.toNat - 55)
  else none

/-- The number that four hexadecimal digits spell. -/
def hexQuad? (a b c d : Char) : Option Nat := do
  return (((← hexValue? a) * 16 + (← hexValue? b)) * 16 + (← hexValue? c)) * 16 + (← hexValue? d)

/-- The character that a letter behind a backslash stands for. -/
def escaped? : Char → Option Char
  | '"' => some '"'
  | '\\' => some '\\'
  | '/' => some '/'
  | 'b' => some '\x08'
  | 'f' => some '\x0c'
  | 'n' => some '\n'
  | 'r' => some '\r'
  | 't' => some '\t'
  | _ => none

/-- The code units of a string behind its opening quote, and the text behind
the closing one.  A fault comes with its distance from the end, except that
of a string without end, which is told at its opening quote. -/
def stringUnits : Text → Except (JsonFault × Option Nat) (List Nat × Text)
  | [] => .error (.unterminatedString, none)
  | '"' :: rest => .ok ([], rest)
  | ['\\'] => .error (.unterminatedString, none)
  | '\\' :: 'u' :: a :: b :: c :: d :: e :: rest =>
    match hexQuad? a b c d with
    | some unit => (stringUnits (e :: rest)).map fun (units, after) => (unit :: units, after)
    | none => .error (.unicodeEscape, some (rest.length + 6))
  | '\\' :: c :: rest =>
    if c = 'u' then .error (.unicodeEscape, some (rest.length + 1))
    else
      match escaped? c with
      | some e => (stringUnits rest).map fun (units, after) => (e.toNat :: units, after)
      | none => .error (.escape, some (rest.length + 2))
  | c :: rest =>
    if c.toNat < 0x20 then .error (.controlCharacter, some (rest.length + 1))
    else (stringUnits rest).map fun (units, after) => (c.toNat :: units, after)

/-- Whether a unit is the first half of a pair. -/
def isHighHalf (unit : Nat) : Bool := 0xd800 ≤ unit && unit < 0xdc00

/-- Whether a unit is the second half of a pair. -/
def isLowHalf (unit : Nat) : Bool := 0xdc00 ≤ unit && unit < 0xe000

/-- The character of a code unit; for a half that stands alone, which is none,
the NUL character. -/
def unitChar (unit : Nat) : Char :=
  if isHighHalf unit || isLowHalf unit then '\x00' else Char.ofNat unit

/-- The characters of code units, where two halves make one character. -/
def unitsText : List Nat → Text
  | [] => []
  | [unit] => [unitChar unit]
  | high :: low :: rest =>
    if isHighHalf high && isLowHalf low then
      Char.ofNat (0x10000 + (high - 0xd800) * 0x400 + (low - 0xdc00)) :: unitsText rest
    else unitChar high :: unitsText (low :: rest)

/-- The string behind an opening quote, and the text behind the string. -/
def readString (rest : Text) : JsonLexeme × Text :=
  match stringUnits rest with
  | .ok (units, after) => (.string (unitsText units), after)
  | .error (fault, distance) => (.broken fault (distance.getD (rest.length + 1)), [])

/-! ### Numbers -/

/-- The number that ASCII digits spell. -/
def decimal (digits : Text) : Nat := Nat.ofDigitChars 10 digits 0

/-- The digits of a fraction at the front of the text, if there is one. -/
def fraction (text : Text) : Option Text × Text :=
  match text with
  | '.' :: rest =>
    if rest.head?.any Char.isDigit then
      (some (rest.takeWhile Char.isDigit), rest.dropWhile Char.isDigit)
    else (none, text)
  | _ => (none, text)

/-- The sign at the front of an exponent. -/
def exponentSign : Text → Bool × Text
  | '-' :: rest => (true, rest)
  | '+' :: rest => (false, rest)
  | text => (false, text)

/-- The exponent at the front of the text, if there is one. -/
def exponent (text : Text) : Option Int × Text :=
  match text with
  | [] => (none, text)
  | c :: rest =>
    if c = 'e' ∨ c = 'E' then
      let (negative, rest) := exponentSign rest
      if rest.head?.any Char.isDigit then
        let size : Int := decimal (rest.takeWhile Char.isDigit)
        (some (if negative then -size else size), rest.dropWhile Char.isDigit)
      else (none, text)
    else (none, text)

/-- The number with these digits in front of its fraction and exponent. -/
def numberWith (negative : Bool) (digits rest : Text) : JsonLexeme × Text :=
  match fraction rest with
  | (decimals, rest) =>
    match exponent rest with
    | (power, rest) =>
      if decimals.isNone && power.isNone then
        if Text.maxDigits < digits.length then (.oversize, [])
        else
          let n : Int := decimal digits
          (.scalar (.int (if negative then -n else n)), rest)
      else
        let decimals := decimals.getD []
        let x := Binary64.ofDecimal negative (decimal (digits ++ decimals))
          (power.getD 0 - decimals.length)
        (.scalar (.num x), rest)

/-- The number that begins with `c`, a digit. -/
def number (negative : Bool) (c : Char) (rest : Text) : JsonLexeme × Text :=
  if c = '0' then numberWith negative ['0'] rest
  else numberWith negative (c :: rest.takeWhile Char.isDigit) (rest.dropWhile Char.isDigit)

/-! ### The lexeme at the front of a text -/

/-- The word that the text begins with, as a value. -/
def word (name : Text) (value : Json) (text : Text) : JsonLexeme × Text :=
  if name.isPrefixOf text then (.scalar value, text.drop name.length) else (.other, [])

/-- What a minus sign begins. -/
def negative (rest : Text) : JsonLexeme × Text :=
  match rest with
  | [] => (.other, [])
  | c :: after =>
    if Char.isDigit c then number true c after
    else word "Infinity" (.num (.infinite true)) rest

/-- The lexeme that begins with `c`, which is no blank, and the text behind
it. -/
def front (c : Char) (rest : Text) : JsonLexeme × Text :=
  match c with
  | '\x7b' => (.openObject, rest)
  | '\x7d' => (.closeObject, rest)
  | '[' => (.openArray, rest)
  | ']' => (.closeArray, rest)
  | ':' => (.colon, rest)
  | ',' => (.comma, rest)
  | '"' => readString rest
  | 'n' => word "ull" .null rest
  | 't' => word "rue" (.bool true) rest
  | 'f' => word "alse" (.bool false) rest
  | 'N' => word "aN" (.num .nan) rest
  | 'I' => word "nfinity" (.num (.infinite false)) rest
  | '-' => negative rest
  | c => if Char.isDigit c then number false c rest else (.other, [])

/-! ### A lexeme is never empty -/

theorem length_stringUnits {text after : Text} {units : List Nat}
    (h : stringUnits text = .ok (units, after)) : after.length ≤ text.length := by
  fun_induction stringUnits text generalizing units with
  | case1 => simp at h
  | case2 rest => simp only [Except.ok.injEq, Prod.mk.injEq] at h; simp [h.2]
  | case3 => simp at h
  | case4 a b c d e rest unit _ ih =>
    cases hs : stringUnits (e :: rest) with
    | error => simp [hs, Except.map] at h
    | ok r =>
      obtain ⟨us, af⟩ := r
      simp only [hs, Except.map, Except.ok.injEq, Prod.mk.injEq] at h
      obtain ⟨_, rfl⟩ := h
      have := ih hs
      simp only [List.length_cons] at this ⊢
      omega
  | case5 => simp at h
  | case6 => simp at h
  | case7 c rest _ _ e _ ih =>
    cases hs : stringUnits rest with
    | error => simp [hs, Except.map] at h
    | ok r =>
      obtain ⟨us, af⟩ := r
      simp only [hs, Except.map, Except.ok.injEq, Prod.mk.injEq] at h
      obtain ⟨_, rfl⟩ := h
      have := ih hs
      simp only [List.length_cons]
      omega
  | case8 => simp at h
  | case9 => simp at h
  | case10 c rest _ _ _ _ _ ih =>
    cases hs : stringUnits rest with
    | error => simp [hs, Except.map] at h
    | ok r =>
      obtain ⟨us, af⟩ := r
      simp only [hs, Except.map, Except.ok.injEq, Prod.mk.injEq] at h
      obtain ⟨_, rfl⟩ := h
      have := ih hs
      simp only [List.length_cons]
      omega

theorem length_readString (rest : Text) : (readString rest).2.length ≤ rest.length := by
  unfold readString
  split
  · rename_i h; exact length_stringUnits h
  · simp

theorem length_dropWhile (p : Char → Bool) (text : Text) :
    (text.dropWhile p).length ≤ text.length :=
  (List.dropWhile_sublist p).length_le

theorem length_fraction (text : Text) : (fraction text).2.length ≤ text.length := by
  unfold fraction
  split
  · rename_i rest
    split
    · have := length_dropWhile Char.isDigit rest
      simp only [List.length_cons]
      omega
    · simp
  · simp

theorem length_exponentSign (text : Text) : (exponentSign text).2.length ≤ text.length := by
  unfold exponentSign
  split <;> simp

theorem length_exponent (text : Text) : (exponent text).2.length ≤ text.length := by
  unfold exponent
  split
  · simp
  · rename_i c rest
    split
    · simp only
      split
      · have h1 := length_exponentSign rest
        have h2 := length_dropWhile Char.isDigit (exponentSign rest).2
        simp only [List.length_cons]
        omega
      · simp
    · simp

theorem length_numberWith (negative : Bool) (digits rest : Text) :
    (numberWith negative digits rest).2.length ≤ rest.length := by
  unfold numberWith
  have h1 := length_fraction rest
  have h2 := length_exponent (fraction rest).2
  simp only
  split
  · split
    · simp
    · simp only; omega
  · simp only; omega

theorem length_number (negative : Bool) (c : Char) (rest : Text) :
    (number negative c rest).2.length ≤ rest.length := by
  unfold number
  split
  · exact length_numberWith ..
  · exact Nat.le_trans (length_numberWith ..) (length_dropWhile ..)

theorem length_word (name : Text) (value : Json) (text : Text) :
    (word name value text).2.length ≤ text.length := by
  unfold word
  split <;> simp

theorem length_negative (rest : Text) : (negative rest).2.length ≤ rest.length := by
  unfold negative
  split
  · simp
  · split
    · exact Nat.le_trans (length_number ..) (by simp)
    · exact length_word ..

theorem length_front (c : Char) (rest : Text) : (front c rest).2.length ≤ rest.length := by
  unfold front
  split
  all_goals first
    | exact Nat.le_refl _
    | exact length_readString _
    | exact length_word ..
    | exact length_negative _
    | skip
  split
  · exact length_number ..
  · simp

/-! ### All lexemes -/

/-- The blanks of JSON. -/
def isJsonBlank (c : Char) : Bool := c = ' ' || c = '\t' || c = '\n' || c = '\r'

/-- The lexemes of a text, each with the text from where it begins. -/
def all (text : Text) : List (Text × JsonLexeme) :=
  match text with
  | [] => []
  | c :: rest =>
    if isJsonBlank c then all rest
    else
      let found := front c rest
      (c :: rest, found.1) :: all found.2
termination_by text.length
decreasing_by
  · simp
  · have := length_front c rest
    simp only [List.length_cons]
    omega

end JsonLexeme

end FluidScss
