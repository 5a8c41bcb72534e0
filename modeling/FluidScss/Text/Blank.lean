/-
FluidScss/Text/Blank.lean

Blanks and trimming.  A blank is a character of the Unicode whitespace
property or one of the four information separators U+001C to U+001F; the
zero-width space U+200B and the byte order mark U+FEFF are none.

Main facts: a text trims to nothing exactly when it is all blanks
(`trim_eq_nil_iff`), a trimmed text neither begins nor ends with a blank, and
trimming it again changes nothing (`trim_trim`).

Style sheets are tokenised with a smaller set, the five ASCII characters of
`isSheetBlank`; every one of them is a blank (`isBlank_of_isSheetBlank`).
-/
import FluidScss.Text

namespace FluidScss

/-- The ranges of blank characters, by code point, both ends included. -/
def blankRanges : List (Nat × Nat) :=
  [(0x9, 0xd), (0x1c, 0x20), (0x85, 0x85), (0xa0, 0xa0), (0x1680, 0x1680),
   (0x2000, 0x200a), (0x2028, 0x2029), (0x202f, 0x202f), (0x205f, 0x205f),
   (0x3000, 0x3000)]

/-- Whether one of the ranges holds the code point of `c`. -/
def inRanges (ranges : List (Nat × Nat)) (c : Char) : Bool :=
  ranges.any fun (low, high) => low ≤ c.toNat && c.toNat ≤ high

/-- Whether `c` is a blank. -/
def isBlank (c : Char) : Bool := inRanges blankRanges c

/-- The blanks that a style sheet may have between its tokens. -/
def isSheetBlank (c : Char) : Bool :=
  c = ' ' || c = '\t' || c = '\x0c' || c = '\r' || c = '\n'

theorem isBlank_of_isSheetBlank {c : Char} (h : isSheetBlank c = true) : isBlank c = true := by
  simp only [isSheetBlank, Bool.or_eq_true, decide_eq_true_eq] at h
  rcases h with (((rfl | rfl) | rfl) | rfl) | rfl <;> decide

namespace Text

/-! ### Trimming -/

/-- The text from its first character that is not blank. -/
def trimLeft (text : Text) : Text := text.dropWhile isBlank

/-- The text up to its last character that is not blank. -/
def trimRight (text : Text) : Text := (text.reverse.dropWhile isBlank).reverse

/-- The text without the blanks at its two ends. -/
def trim (text : Text) : Text := trimRight (trimLeft text)

/-- Whether all characters are blank. -/
def isBlank (text : Text) : Bool := text.all FluidScss.isBlank

@[simp] theorem trim_nil : trim [] = [] := rfl

theorem dropWhile_isBlank_eq_nil_iff {text : Text} :
    text.dropWhile FluidScss.isBlank = [] ↔ isBlank text = true := by
  induction text with
  | nil => simp [isBlank]
  | cons c rest ih =>
    by_cases h : FluidScss.isBlank c = true
    · rw [List.dropWhile_cons_of_pos h, ih]
      simp [h, isBlank]
    · simp [h, isBlank]

/-- A text trims to nothing when, and only when, it is all blanks. -/
theorem trim_eq_nil_iff {text : Text} : trim text = [] ↔ isBlank text = true := by
  have hd : ∀ t : Text, isBlank (t.dropWhile FluidScss.isBlank) = true → isBlank t = true := by
    intro t
    induction t with
    | nil => simp
    | cons c rest ih =>
      by_cases h : FluidScss.isBlank c = true
      · simpa [List.dropWhile_cons, h, isBlank] using ih
      · simp [h, isBlank]
  have hr : trim text = [] ↔ isBlank (trimLeft text) = true := by
    rw [trim, trimRight, List.reverse_eq_nil_iff, dropWhile_isBlank_eq_nil_iff, isBlank, isBlank,
      List.all_reverse]
  rw [hr]
  refine ⟨hd text, fun h => ?_⟩
  rw [trimLeft, dropWhile_isBlank_eq_nil_iff.2 h]
  rfl

/-! ### Trimmed texts -/

/-- What is left of dropping blanks does not begin with one. -/
theorem head?_dropWhile_isBlank (text : Text) (c : Char)
    (h : (text.dropWhile FluidScss.isBlank).head? = some c) : FluidScss.isBlank c = false := by
  have := List.head?_dropWhile_not FluidScss.isBlank text
  rw [h] at this
  exact this

theorem trimLeft_eq_self {text : Text}
    (h : ∀ c, text.head? = some c → FluidScss.isBlank c = false) : trimLeft text = text := by
  cases text with
  | nil => rfl
  | cons c rest => simp [trimLeft, h c rfl]

theorem trimRight_eq_self {text : Text}
    (h : ∀ c, text.getLast? = some c → FluidScss.isBlank c = false) : trimRight text = text := by
  have := @trimLeft_eq_self text.reverse fun c hc => h c (by simpa using hc)
  rw [trimLeft] at this
  rw [trimRight, this, List.reverse_reverse]

/-- A text that neither begins nor ends with a blank is trimmed. -/
theorem trim_eq_self {text : Text}
    (hhead : ∀ c, text.head? = some c → FluidScss.isBlank c = false)
    (hlast : ∀ c, text.getLast? = some c → FluidScss.isBlank c = false) : trim text = text := by
  rw [trim, trimLeft_eq_self hhead, trimRight_eq_self hlast]

/-- A trimmed text does not end with a blank. -/
theorem isBlank_getLast?_trim {text : Text} {c : Char} (h : (trim text).getLast? = some c) :
    FluidScss.isBlank c = false := by
  rw [trim, trimRight, List.getLast?_reverse] at h
  exact head?_dropWhile_isBlank _ _ h

/-- Trimming at the right takes nothing from the front of what it leaves. -/
theorem trimRight_isPrefix (text : Text) : trimRight text <+: text := by
  have h := List.dropWhile_suffix FluidScss.isBlank (l := text.reverse)
  have := List.reverse_prefix.2 h
  rwa [List.reverse_reverse] at this

/-- A trimmed text does not begin with a blank. -/
theorem isBlank_head?_trim {text : Text} {c : Char} (h : (trim text).head? = some c) :
    FluidScss.isBlank c = false := by
  obtain ⟨rest, hrest⟩ := trimRight_isPrefix (trimLeft text)
  refine head?_dropWhile_isBlank text c ?_
  rw [trim] at h
  rw [← trimLeft, ← hrest, List.head?_append, h]
  rfl

@[simp] theorem trim_trim (text : Text) : trim (trim text) = trim text :=
  trim_eq_self (fun _ => isBlank_head?_trim) (fun _ => isBlank_getLast?_trim)

end Text

end FluidScss
