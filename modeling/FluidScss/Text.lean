/-
FluidScss/Text.lean

Text is a list of characters.  Everything this library reads, cuts, joins
and writes is a `Text`; `String` is left to literals and to the outside.

The operations here are the ones that look at characters only through
equality: finding a word (`breakOn`), replacing a character (`replace`),
cutting at a character (`splitOn`) and joining (`List.intercalate`).  What a
blank, a digit or a line is stands in the modules under `Text/`.

Main facts: `breakOn` finds the first occurrence and loses nothing
(`eq_of_breakOn`), and what is left after an occurrence is shorter
(`length_of_breakOn`), which is what ends every loop that searches on.
Cutting loses nothing either (`join_splitOn`), and no part holds the
character that was cut at (`not_mem_of_mem_splitOn`).
-/
namespace FluidScss

/-- A text: its characters in order. -/
abbrev Text := List Char

instance : Coe String Text := ⟨String.toList⟩

instance (priority := high) lawfulBEqText : LawfulBEq Text := inferInstance

namespace Text

/-! ### Searching -/

/-- The text before and after the first occurrence of `needle`. -/
def breakOn (needle : Text) : Text → Option (Text × Text)
  | [] => if needle = [] then some ([], []) else none
  | c :: rest =>
    if needle.isPrefixOf (c :: rest) then some ([], (c :: rest).drop needle.length)
    else (breakOn needle rest).map fun (before, after) => (c :: before, after)

/-- Whether `needle` occurs in the text. -/
def contains (needle text : Text) : Bool := (breakOn needle text).isSome

/-- An occurrence splits the text into what precedes it, the word and what
follows it. -/
theorem eq_of_breakOn {needle text before after : Text}
    (h : breakOn needle text = some (before, after)) :
    text = before ++ needle ++ after := by
  induction text generalizing before with
  | nil =>
    by_cases hn : needle = []
    · simp [breakOn, hn] at h; simp [h, hn]
    · simp [breakOn, hn] at h
  | cons c rest ih =>
    by_cases hp : needle.isPrefixOf (c :: rest) = true
    · simp only [breakOn, hp, if_true, Option.some.injEq, Prod.mk.injEq] at h
      obtain ⟨rfl, rfl⟩ := h
      have hpre : needle <+: c :: rest := by simpa using hp
      obtain ⟨t, ht⟩ := hpre
      rw [← ht]; simp
    · simp only [breakOn, hp] at h
      obtain ⟨⟨b, a⟩, hb, he⟩ := Option.map_eq_some_iff.1 h
      simp only [Prod.mk.injEq] at he
      obtain ⟨rfl, rfl⟩ := he
      simp [ih hb]

/-- Behind a word that is not empty there is less text than before. -/
theorem length_of_breakOn {needle text before after : Text} (hn : needle ≠ [])
    (h : breakOn needle text = some (before, after)) :
    after.length < text.length := by
  have hpos : 0 < needle.length := List.length_pos_iff.2 hn
  have := congrArg List.length (eq_of_breakOn h)
  simp only [List.length_append] at this
  omega

/-- Every `c` replaced by the text `new`. -/
def replace (c : Char) (new text : Text) : Text :=
  text.flatMap fun d => if d = c then new else [d]

/-! ### Cutting and joining -/

/-- Puts `c` in front of the first part. -/
def consHead (c : Char) : List Text → List Text
  | [] => [[c]]
  | part :: parts => (c :: part) :: parts

/-- The parts between the occurrences of `c`; there is always at least one. -/
def splitOn (c : Char) : Text → List Text
  | [] => [[]]
  | d :: rest => if d = c then [] :: splitOn c rest else consHead d (splitOn c rest)

/-- The parts with `sep` between each two of them. -/
def join (sep : Text) (parts : List Text) : Text := sep.intercalate parts

theorem splitOn_ne_nil (c : Char) (text : Text) : splitOn c text ≠ [] := by
  cases text with
  | nil => simp [splitOn]
  | cons d rest =>
    rw [splitOn]
    split
    · simp
    · cases splitOn c rest <;> simp [consHead]

theorem join_consHead (sep : Text) (c : Char) {parts : List Text} (h : parts ≠ []) :
    join sep (consHead c parts) = c :: join sep parts := by
  cases parts with
  | nil => exact absurd rfl h
  | cons p ps => cases ps <;> simp [consHead, join, List.intercalate]

theorem join_nil_cons (sep : Text) {parts : List Text} (h : parts ≠ []) :
    join sep ([] :: parts) = sep ++ join sep parts := by
  cases parts with
  | nil => exact absurd rfl h
  | cons p ps => simp [join, List.intercalate, List.intersperse_cons_cons]

/-- The parts with the character between them are the text. -/
theorem join_splitOn (c : Char) (text : Text) : join [c] (splitOn c text) = text := by
  induction text with
  | nil => rfl
  | cons d rest ih =>
    rw [splitOn]
    split
    · rename_i h
      rw [join_nil_cons _ (splitOn_ne_nil c rest), ih, h]
      rfl
    · rw [join_consHead _ _ (splitOn_ne_nil c rest), ih]

/-- Replacing a character puts the new text between the parts around it. -/
theorem replace_eq_join_splitOn (c : Char) (new text : Text) :
    replace c new text = join new (splitOn c text) := by
  induction text with
  | nil => rfl
  | cons d rest ih =>
    rw [replace, List.flatMap_cons, splitOn, ← replace, ih]
    split
    · rw [join_nil_cons _ (splitOn_ne_nil c rest)]
    · rw [join_consHead _ _ (splitOn_ne_nil c rest), List.singleton_append]

/-- No part holds the character at which the text was cut. -/
theorem not_mem_of_mem_splitOn {c : Char} {text part : Text} (h : part ∈ splitOn c text) :
    c ∉ part := by
  induction text generalizing part with
  | nil => simp [splitOn] at h; simp [h]
  | cons d rest ih =>
    rw [splitOn] at h
    split at h
    · rcases List.mem_cons.1 h with rfl | h
      · simp
      · exact ih h
    · rename_i hd
      obtain ⟨p, ps, hp⟩ := List.exists_cons_of_ne_nil (splitOn_ne_nil c rest)
      rw [hp, consHead] at h
      rcases List.mem_cons.1 h with rfl | h
      · simp only [List.mem_cons, not_or]
        exact ⟨fun e => hd e.symm, ih (by simp [hp])⟩
      · exact ih (by simp [hp, h])

/-- The text before the first `c` and, if there is one, the text behind it. -/
def cut (c : Char) (text : Text) : Text × Option Text :=
  match breakOn [c] text with
  | some (before, after) => (before, some after)
  | none => (text, none)

/-- The text without `suffix` at its end. -/
def dropSuffix? (ending text : Text) : Option Text :=
  if ending.isSuffixOf text then some (text.take (text.length - ending.length)) else none

/-- A natural number in decimal digits. -/
def ofNat (n : Nat) : Text := Nat.toDigits 10 n

/-- An integer in decimal digits, with a minus sign below zero. -/
def ofInt (n : Int) : Text := if n < 0 then '-' :: ofNat n.natAbs else ofNat n.natAbs

/-- The order of texts by the code points of their characters. -/
def le : Text → Text → Bool
  | [], _ => true
  | _ :: _, [] => false
  | c :: s, d :: t => c.val < d.val || (c = d && le s t)

end Text

end FluidScss
