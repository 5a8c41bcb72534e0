/-
FluidScss/Proofs/QuotedValue.lean

Values with strings in them.  A `QuotedValue` is put together from characters
of sizes and calls and from strings in double quotes, whose bodies may hold
anything but a quote, a backslash and a line break; braces, semicolons and
comment openers in them are text like any other.

Such a value is trimmed, has no flag of its own (`QuotedValue.unflagged`), and
in a declaration it is part of one chunk (`QuotedValue.chunkText`), so that
nothing in its strings ends it.  Outside of the strings the word `url(` must
not occur; that is asked of the value with each string masked by a quote.
-/
import FluidScss.Proofs.Construct
import Mathlib.Data.List.Basic

namespace FluidScss

/-! ### Parts -/

/-- A part of a value: a character or the body of a string. -/
inductive ValuePart
  | char (c : Char)
  | string (body : Text)

namespace ValuePart

/-- The part as it is written. -/
def source : ValuePart → Text
  | char c => [c]
  | string body => '"' :: (body ++ ['"'])

/-- The part as one character; a string is a quote. -/
def mask : ValuePart → Char
  | char c => c
  | string _ => '"'

/-- Whether the part may stand in a value. -/
def Plain : ValuePart → Prop
  | char c => c.isAlphanum = true ∨ c ∈ (" .,()%+-*_" : Text)
  | string body => '"' ∉ body ∧ '\\' ∉ body ∧ '\n' ∉ body

instance : (p : ValuePart) → Decidable p.Plain
  | char c => inferInstanceAs (Decidable (c.isAlphanum = true ∨ c ∈ (" .,()%+-*_" : Text)))
  | string body => inferInstanceAs (Decidable ('"' ∉ body ∧ '\\' ∉ body ∧ '\n' ∉ body))

variable {p : ValuePart}

/-- A plain part lacks what is no letter, digit or sign of values, unless it
is a string. -/
theorem Plain.ne_of_char {c x : Char} (h : (char c).Plain) (ha : x.isAlphanum = false)
    (hx : x ∉ (" .,()%+-*_" : Text)) : c ≠ x := by
  rintro rfl
  rcases h with hc | hc
  · rw [ha] at hc
    cases hc
  · exact hx hc

theorem Plain.isPlain {c : Char} (h : (char c).Plain) : FluidScss.isPlain c = true := by
  have hextra : ∀ d ∈ (" .,()%+-*_" : Text), FluidScss.isPlain d = true := by decide
  rcases h with hc | hc
  · exact isPlain_of_isAlphanum hc
  · exact hextra c hc

theorem Plain.isBlank_head (h : p.Plain) (c : Char) (hc : p.source.head? = some c)
    (hne : c ≠ ' ') : isBlank c = false := by
  have hextra : SpaceOnly " .,()%+-*_" := by decide
  cases p with
  | char d =>
    cases hc
    rcases h with ha | hm
    · exact isBlank_of_isAlphanum ha
    · rw [← Bool.not_eq_true]
      exact fun hb => hne (hextra c hm hb)
  | string body =>
    cases hc
    rfl

theorem getLast?_string (body : Text) : (string body).source.getLast? = some '"' := by
  rw [source, ← List.cons_append, List.getLast?_concat]

theorem Plain.isBlank_last (h : p.Plain) (c : Char) (hc : p.source.getLast? = some c)
    (hne : c ≠ ' ') : isBlank c = false := by
  cases p with
  | char d => exact h.isBlank_head c hc hne
  | string body =>
    rw [getLast?_string] at hc
    cases hc
    rfl

theorem source_ne_nil (p : ValuePart) : p.source ≠ [] := by
  cases p <;> exact List.cons_ne_nil _ _

/-- Behind an exclamation mark in a part there is its closing quote. -/
theorem Plain.mem_of_source_eq {front back : Text} (h : p.Plain)
    (he : p.source = front ++ '!' :: back) : '"' ∈ back := by
  cases p with
  | char c =>
    have hc : '!' ∈ (char c).source := by simp [he]
    exact absurd (List.mem_singleton.mp hc).symm (h.ne_of_char rfl (by decide))
  | string body =>
    have hlast := getLast?_string body
    rw [he, List.getLast?_append, List.getLast?_cons] at hlast
    rcases hb : back.getLast? with - | c <;> rw [hb] at hlast
    · cases hlast
    · cases hlast
      exact List.mem_of_mem_getLast? hb

end ValuePart

open ValuePart in
/-- A word without quotes that begins the parts begins them masked, too. -/
theorem isPrefix_mask {word : Text} {parts : List ValuePart} (hw : '"' ∉ word)
    (h : word <+: parts.flatMap source) : word <+: parts.map mask := by
  induction parts generalizing word with
  | nil => exact h
  | cons p parts ih =>
    rcases word with - | ⟨c, word⟩
    · exact List.nil_prefix
    · rw [List.mem_cons, not_or] at hw
      cases p with
      | char d =>
        rw [List.flatMap_cons, source, List.singleton_append, List.cons_prefix_cons] at h
        rw [List.map_cons, List.cons_prefix_cons]
        exact ⟨h.1, ih hw.2 h.2⟩
      | string body =>
        -- the word would have to begin with the quote
        rw [List.flatMap_cons, source, List.cons_append, List.cons_prefix_cons] at h
        exact absurd h.1.symm hw.1

open ValuePart in
/-- Behind an exclamation mark in parts there is a quote. -/
theorem mem_of_flatMap_source_eq {parts : List ValuePart} (hp : ∀ p ∈ parts, p.Plain)
    {front back : Text} (he : parts.flatMap source = front ++ '!' :: back) : '"' ∈ back := by
  induction parts generalizing front with
  | nil => simp at he
  | cons p parts ih =>
    have hrest := fun q hq => hp q (List.mem_cons_of_mem _ hq)
    rw [List.flatMap_cons] at he
    rcases List.append_eq_append_iff.mp he with ⟨inner, -, hi⟩ | ⟨inner, hs, hi⟩
    · exact ih hrest hi
    · -- the mark stands in the part or begins what follows it
      rcases inner with - | ⟨c, inner⟩
      · exact ih hrest (show parts.flatMap source = [] ++ '!' :: back from hi.symm)
      · rw [List.cons_append, List.cons.injEq] at hi
        rw [← hi.1] at hs
        rw [hi.2]
        exact List.mem_append_left _ ((hp p (List.mem_cons_self ..)).mem_of_source_eq hs)

open ValuePart in
/-- Parts in front of a chunk text are a chunk text. -/
theorem chunkText_parts {parts : List ValuePart} (hp : ∀ p ∈ parts, p.Plain)
    (hu : ¬ ("url(" : Text) <:+: parts.map mask) {tail : Text} (ht : ChunkText tail)
    (hh : ∀ c ∈ tail.head?, c ∉ ("url(" : Text)) : ChunkText (parts.flatMap source ++ tail) := by
  induction parts with
  | nil => exact ht
  | cons p parts ih =>
    have hrest := ih (fun q hq => hp q (List.mem_cons_of_mem _ hq)) fun hi =>
      hu (List.infix_cons hi)
    have hpart := hp p (List.mem_cons_self ..)
    cases p with
    | char c =>
      -- an address here would begin outside of the strings
      refine .char hpart.isPlain (fun hash => ?_) (fun hurl => hu ?_) hrest
      · exact absurd hash (hpart.ne_of_char rfl (by decide))
      · have hwhole : ("url(" : Text) <+: (char c :: parts).flatMap source ++ tail := hurl
        have hfront := Text.isPrefix_of_isPrefix_append hh hwhole
        exact (isPrefix_mask (by decide) hfront).isInfix
    | string body =>
      have hsplit : (string body :: parts).flatMap source ++ tail
          = '"' :: (body ++ '"' :: (parts.flatMap source ++ tail)) := by
        simp [source]
      rw [hsplit]
      exact .string hpart.1 hpart.2.1 hpart.2.2 hrest

/-! ### Values -/

/-- A value in characters of sizes and calls and in strings, with no space at
its ends and no `url(` outside of the strings. -/
structure QuotedValue (value : Text) : Prop where
  ne_nil : value ≠ []
  head : value.head? ≠ some ' '
  last : value.getLast? ≠ some ' '
  parts : ∃ parts : List ValuePart, value = parts.flatMap ValuePart.source ∧
    (∀ p ∈ parts, p.Plain) ∧ ¬ ("url(" : Text) <:+: parts.map ValuePart.mask

namespace QuotedValue

variable {value : Text}

theorem trim_eq (h : QuotedValue value) : Text.trim value = value := by
  obtain ⟨parts, he, hp, -⟩ := h.parts
  refine Text.trim_eq_self (fun c hc => ?_) fun c hc => ?_
  · have hne : c ≠ ' ' := fun hs => h.head (hs ▸ hc)
    rcases parts with - | ⟨p, parts⟩
    · exact absurd he h.ne_nil
    · rw [he, List.flatMap_cons, List.head?_append, List.head?_eq_some_head p.source_ne_nil,
        Option.some_or, ← List.head?_eq_some_head] at hc
      exact (hp p (List.mem_cons_self ..)).isBlank_head c hc hne
  · have hne : c ≠ ' ' := fun hs => h.last (hs ▸ hc)
    rcases List.eq_nil_or_concat' parts with rfl | ⟨init, p, rfl⟩
    · exact absurd he h.ne_nil
    · rw [he, List.flatMap_append, List.flatMap_singleton, List.getLast?_append,
        List.getLast?_eq_some_getLast p.source_ne_nil, Option.some_or,
        ← List.getLast?_eq_some_getLast] at hc
      exact (hp p (by simp)).isBlank_last c hc hne

/-- Exclamation marks stand in strings, so each has a quote behind it. -/
theorem mem_of_eq (h : QuotedValue value) {front back : Text} (hv : value = front ++ '!' :: back) :
    '"' ∈ back := by
  obtain ⟨parts, he, hp, -⟩ := h.parts
  exact mem_of_flatMap_source_eq hp (he.symm.trans hv)

theorem unflagged (h : QuotedValue value) : Unflagged value :=
  unflagged_of_quoted fun _ _ hv => h.mem_of_eq hv

theorem newline_not_mem (h : QuotedValue value) : '\n' ∉ value := by
  obtain ⟨parts, he, hp, -⟩ := h.parts
  rw [he, List.mem_flatMap]
  rintro ⟨p, hm, hc⟩
  have hpart := hp p hm
  cases p with
  | char c => exact hpart.ne_of_char rfl (by decide) (List.mem_singleton.mp hc).symm
  | string body =>
    rcases List.mem_cons.mp hc with hc | hc
    · cases hc
    · rcases List.mem_append.mp hc with hc | hc
      · exact hpart.2.2 hc
      · cases List.mem_singleton.mp hc

/-- A declaration with such a value is one chunk. -/
theorem chunkText (h : QuotedValue value) {property : Text} (hp : PlainProperty property)
    (important : Bool) : ChunkText (declarationText property value important) := by
  obtain ⟨parts, he, hplain, hu⟩ := h.parts
  have hvalue : ChunkText (withImportant value important) := by
    rw [he]
    cases important
    · have hbare := chunkText_parts hplain hu .nil fun c hc => absurd hc (by simp)
      rwa [List.append_nil] at hbare
    · refine chunkText_parts hplain hu (chunkText_of_plain (by decide) (by decide)
        (closing_of_not_mem (by decide))) fun c hc => ?_
      cases hc
      decide
  have hsplit : declarationText property value important
      = (property ++ [':']) ++ ' ' :: withImportant value important := by
    simp [declarationText]
  rw [hsplit]
  refine ChunkText.prepend ?_ ?_ (.char rfl (fun hash => ?_) (fun hu => ?_) hvalue)
  · intro c hc
    rcases List.mem_append.mp hc with hc | hc
    · exact hp.phrase.plain (by decide) c hc
    · rw [List.mem_singleton.mp hc]
      rfl
  · rw [List.mem_append, not_or]
    exact ⟨hp.phrase.not_mem rfl (by decide), by decide⟩
  · cases hash
  · cases (List.cons_prefix_cons.mp hu).1

end QuotedValue

end FluidScss
