/-
FluidScss/Proofs/Statement.lean

What single statements and blocks mean when they are written plainly.

A `Phrase extra t` is a text of ASCII letters and digits and of the characters
in `extra` that neither begins nor ends with a space.  What matters of a
phrase is settled by its alphabet: which characters it lacks
(`Phrase.not_mem`), that it is trimmed (`Phrase.trim_eq`) and plain
(`Phrase.plain`).

A property, a colon, a value and perhaps the flag are read as the declaration
they spell (`statementNode?_declaration`), provided that the value has no flag
of its own (`Unflagged`).  Selectors with commas between them are cut into the
same selectors (`splitTopLevel_join`), so a block begun with them has them
(`blockNode?_phrase`).  An at-rule is its name and, behind a blank, its
parameters (`statementNode?_atRule`, `blockNode?_atRule`).
-/
import FluidScss.Proofs.Chunk
import FluidScss.Proofs.SelfContained
import FluidScss.Sheet
import Mathlib.Data.List.TakeWhile

namespace FluidScss

/-! ### Letters and digits -/

theorem toNat_of_isAlphanum {c : Char} (h : c.isAlphanum = true) :
    (65 ≤ c.toNat ∧ c.toNat ≤ 90) ∨ (97 ≤ c.toNat ∧ c.toNat ≤ 122) ∨
      (48 ≤ c.toNat ∧ c.toNat ≤ 57) := by
  unfold Char.isAlphanum Char.isAlpha Char.isUpper Char.isLower Char.isDigit at h
  simp only [Bool.or_eq_true, Bool.and_eq_true, decide_eq_true_eq, ge_iff_le,
    UInt32.le_iff_toNat_le] at h
  change ((65 ≤ c.toNat ∧ c.toNat ≤ 90) ∨ (97 ≤ c.toNat ∧ c.toNat ≤ 122)) ∨
    (48 ≤ c.toNat ∧ c.toNat ≤ 57) at h
  exact or_assoc.mp h

theorem isBlank_of_isAlphanum {c : Char} (h : c.isAlphanum = true) : isBlank c = false := by
  rw [← Bool.not_eq_true]
  intro hb
  simp only [isBlank, inRanges, blankRanges, List.any_cons, List.any_nil, Bool.or_false,
    Bool.or_eq_true, Bool.and_eq_true, decide_eq_true_eq] at hb
  have := toNat_of_isAlphanum h
  omega

theorem isPlain_of_isAlphanum {c : Char} (h : c.isAlphanum = true) : isPlain c = true := by
  have hne : ∀ d : Char, d.isAlphanum = false → c ≠ d := by
    rintro d hd rfl
    rw [hd] at h
    cases h
  simp [isPlain, endsChunk, hne '"' rfl, hne '\'' rfl, hne '/' rfl, hne '\x7b' rfl,
    hne '\x7d' rfl, hne ';' rfl]

/-! ### Phrases -/

/-- A text of letters, digits and the characters of `extra`. -/
def InAlphabet (extra t : Text) : Prop := ∀ c ∈ t, c.isAlphanum = true ∨ c ∈ extra

instance (extra t : Text) : Decidable (InAlphabet extra t) :=
  inferInstanceAs (Decidable (∀ c ∈ t, c.isAlphanum = true ∨ c ∈ extra))

theorem InAlphabet.mono {extra extra' t : Text} (h : InAlphabet extra t) (he : extra ⊆ extra') :
    InAlphabet extra' t :=
  fun c hc => (h c hc).imp_right fun hm => he hm

theorem InAlphabet.append {extra s t : Text} (hs : InAlphabet extra s) (ht : InAlphabet extra t) :
    InAlphabet extra (s ++ t) := by
  intro c hc
  rcases List.mem_append.mp hc with hc | hc
  · exact hs c hc
  · exact ht c hc

theorem InAlphabet.not_mem {extra t : Text} {x : Char} (h : InAlphabet extra t)
    (ha : x.isAlphanum = false) (hx : x ∉ extra) : x ∉ t := by
  intro hm
  rcases h x hm with hc | hc
  · rw [ha] at hc
    cases hc
  · exact hx hc

/-- A text of letters, digits and the characters of `extra`, with no space at
its ends. -/
structure Phrase (extra t : Text) : Prop where
  ne_nil : t ≠ []
  chars : InAlphabet extra t
  head : t.head? ≠ some ' '
  last : t.getLast? ≠ some ' '

instance (extra t : Text) : Decidable (Phrase extra t) :=
  decidable_of_iff (t ≠ [] ∧ InAlphabet extra t ∧ t.head? ≠ some ' ' ∧ t.getLast? ≠ some ' ')
    ⟨fun h => ⟨h.1, h.2.1, h.2.2.1, h.2.2.2⟩, fun h => ⟨h.ne_nil, h.chars, h.head, h.last⟩⟩

/-- The only blank that the alphabet may have is the space. -/
def SpaceOnly (extra : Text) : Prop := ∀ c ∈ extra, isBlank c = true → c = ' '

instance (extra : Text) : Decidable (SpaceOnly extra) :=
  inferInstanceAs (Decidable (∀ c ∈ extra, isBlank c = true → c = ' '))

namespace Phrase

variable {extra t : Text}

theorem not_mem {x : Char} (h : Phrase extra t) (ha : x.isAlphanum = false) (hx : x ∉ extra) :
    x ∉ t :=
  h.chars.not_mem ha hx

theorem isBlank_head (h : Phrase extra t) (he : SpaceOnly extra) (c : Char)
    (hc : t.head? = some c) : isBlank c = false := by
  rcases h.chars c (List.mem_of_mem_head? hc) with ha | hm
  · exact isBlank_of_isAlphanum ha
  · rw [← Bool.not_eq_true]
    intro hb
    rw [he c hm hb] at hc
    exact h.head hc

theorem isBlank_last (h : Phrase extra t) (he : SpaceOnly extra) (c : Char)
    (hc : t.getLast? = some c) : isBlank c = false := by
  rcases h.chars c (List.mem_of_mem_getLast? hc) with ha | hm
  · exact isBlank_of_isAlphanum ha
  · rw [← Bool.not_eq_true]
    intro hb
    rw [he c hm hb] at hc
    exact h.last hc

theorem trim_eq (h : Phrase extra t) (he : SpaceOnly extra) : Text.trim t = t :=
  Text.trim_eq_self (h.isBlank_head he) (h.isBlank_last he)

theorem plain (h : Phrase extra t) (he : ∀ c ∈ extra, isPlain c = true) :
    ∀ c ∈ t, isPlain c = true := by
  intro c hc
  rcases h.chars c hc with ha | hm
  · exact isPlain_of_isAlphanum ha
  · exact he c hm

/-- Phrases with a comma and a space between them are a phrase. -/
theorem join {parts : List Text} (hne : parts ≠ []) (h : ∀ part ∈ parts, Phrase extra part) :
    Phrase (',' :: ' ' :: extra) (Text.join ", " parts) := by
  induction parts with
  | nil => exact absurd rfl hne
  | cons part parts ih =>
    have hpart := h part (List.mem_cons_self ..)
    have hchars : InAlphabet (',' :: ' ' :: extra) part :=
      hpart.chars.mono fun c hc => by simp [hc]
    rcases parts with - | ⟨next, parts⟩
    · rw [Text.join_singleton]
      exact ⟨hpart.ne_nil, hchars, hpart.head, hpart.last⟩
    · have hrest := ih (List.cons_ne_nil _ _) fun p hp => h p (List.mem_cons_of_mem _ hp)
      rw [Text.join_cons_cons]
      refine ⟨?_, ?_, ?_, ?_⟩
      · exact List.append_ne_nil_of_left_ne_nil hpart.ne_nil _
      · refine hchars.append (InAlphabet.append (fun c hc => .inr ?_) hrest.chars)
        exact List.mem_append_left extra (show c ∈ [',', ' '] from hc)
      · rw [List.head?_append, List.head?_eq_some_head hpart.ne_nil, Option.some_or,
          ← List.head?_eq_some_head hpart.ne_nil]
        exact hpart.head
      · rw [List.getLast?_append, List.getLast?_append,
          List.getLast?_eq_some_getLast hrest.ne_nil, Option.some_or, Option.some_or,
          ← List.getLast?_eq_some_getLast hrest.ne_nil]
        exact hrest.last

/-- What is in no part, and no comma or space, is not in the parts joined. -/
theorem not_mem_join {parts : List Text} {x : Char} (hne : parts ≠ [])
    (h : ∀ part ∈ parts, Phrase extra part) (ha : x.isAlphanum = false) (hs : x ∉ [',', ' '])
    (hx : x ∉ extra) : x ∉ Text.join ", " parts := by
  refine (join hne h).not_mem ha fun hm => ?_
  rcases List.mem_append.mp (show x ∈ [',', ' '] ++ extra from hm) with hm | hm
  · exact hs hm
  · exact hx hm

end Phrase

/-! ### The flag of a value -/

/-- Whether the end of the value is read as the flag. -/
def Unflagged (value : Text) : Prop := ∀ gap, beforeImportant? gap value = none

theorem trim_concat_space {t : Text} (ht : Text.trim t = t) : Text.trim (t ++ [' ']) = t :=
  (Text.trim_concat_of_isBlank rfl t).trans ht

/-- The flag that was set is taken off again, and none besides. -/
theorem splitImportant_withImportant {value : Text} (ht : Text.trim value = value)
    (hu : Unflagged value) (gap important : Bool) :
    splitImportant gap (withImportant value important) = (value, important) := by
  cases important
  · rw [withImportant, if_neg Bool.false_ne_true, splitImportant, hu gap]
  · -- the flag is read from the end: the word, the mark and a space
    have hreverse : (value ++ (" !important" : Text)).reverse
        = ("tnatropmi! " : Text) ++ value.reverse := by
      rw [List.reverse_append]
      rfl
    have hword : dropWord? "tnatropmi" (((value ++ (" !important" : Text)).reverse).dropWhile isBlank)
        = some ('!' :: ' ' :: value.reverse) := by
      rw [hreverse]
      rfl
    have hgap : (if gap then ('!' :: ' ' :: value.reverse).dropWhile isBlank
        else '!' :: ' ' :: value.reverse) = '!' :: ' ' :: value.reverse := by
      cases gap <;> rfl
    rw [withImportant, if_pos rfl, splitImportant, beforeImportant?, hword]
    dsimp only
    rw [hgap]
    show (Text.trim (' ' :: value.reverse).reverse, true) = _
    rw [List.reverse_cons, List.reverse_reverse, trim_concat_space ht]

theorem eq_of_dropWord? {word text rest : Text} (h : dropWord? word text = some rest) :
    ∃ front, text = front ++ rest ∧ ∀ c ∈ front, ∃ letter ∈ word, matchesLetter c letter = true := by
  induction word generalizing text with
  | nil =>
    cases h
    exact ⟨[], rfl, fun c hc => absurd hc List.not_mem_nil⟩
  | cons letter word ih =>
    rcases text with - | ⟨c, text⟩
    · cases h
    · rw [dropWord?] at h
      split at h
      · rename_i hc
        obtain ⟨front, rfl, hf⟩ := ih h
        refine ⟨c :: front, rfl, fun d hd => ?_⟩
        rcases List.mem_cons.mp hd with rfl | hd
        · exact ⟨letter, List.mem_cons_self .., hc⟩
        · obtain ⟨l, hl, hm⟩ := hf d hd
          exact ⟨l, List.mem_cons_of_mem _ hl, hm⟩
      · cases h

/-- What is left of a value stands before the exclamation mark of the flag, and
behind that no double quote does. -/
theorem eq_of_beforeImportant? {gap : Bool} {value before : Text}
    (h : beforeImportant? gap value = some before) :
    ∃ front back, value = front ++ '!' :: back ∧ '"' ∉ back ∧ before = Text.trim front := by
  have hsplit : ∀ text : Text, ∃ blanks, '"' ∉ blanks ∧
      text = blanks ++ text.dropWhile isBlank := by
    intro text
    refine ⟨text.takeWhile isBlank, fun hm => ?_, List.takeWhile_append_dropWhile.symm⟩
    have := List.mem_takeWhile_imp hm
    cases this
  -- from the end there are blanks, the word, blanks if they may be, the mark
  rw [beforeImportant?] at h
  split at h
  · rename_i rest hw
    obtain ⟨word, hword, hletters⟩ := eq_of_dropWord? hw
    have hq : '"' ∉ word := by
      intro hm
      obtain ⟨letter, hl, hc⟩ := hletters _ hm
      revert hc
      revert letter
      decide
    obtain ⟨outer, ho, hvalue⟩ := hsplit value.reverse
    obtain ⟨inner, hi, hrest⟩ : ∃ inner, '"' ∉ inner ∧
        rest = inner ++ if gap then rest.dropWhile isBlank else rest := by
      cases gap
      · exact ⟨[], List.not_mem_nil, rfl⟩
      · exact hsplit rest
    split at h
    · rename_i behind hmark
      rw [hmark] at hrest
      rw [hword, hrest] at hvalue
      cases h
      refine ⟨behind.reverse, (outer ++ word ++ inner).reverse, ?_, ?_, rfl⟩
      · calc value = value.reverse.reverse := by rw [List.reverse_reverse]
          _ = (outer ++ (word ++ (inner ++ '!' :: behind))).reverse := by rw [hvalue]
          _ = behind.reverse ++ '!' :: (outer ++ word ++ inner).reverse := by simp
      · rw [List.mem_reverse, List.mem_append, List.mem_append, not_or, not_or]
        exact ⟨⟨ho, hq⟩, hi⟩
    · cases h
  · cases h

theorem splitImportant_isInfix (gap : Bool) (value : Text) :
    (splitImportant gap value).1 <:+: value := by
  rw [splitImportant]
  split
  · rename_i before hb
    obtain ⟨front, back, rfl, -, rfl⟩ := eq_of_beforeImportant? hb
    exact (Text.trim_isInfix front).trans (List.prefix_append _ _).isInfix
  · exact List.infix_refl value

/-- Where each exclamation mark has a double quote behind it there is no flag. -/
theorem unflagged_of_quoted {value : Text}
    (h : ∀ front back, value = front ++ '!' :: back → '"' ∈ back) : Unflagged value := by
  intro gap
  rcases hb : beforeImportant? gap value with - | before
  · rfl
  · obtain ⟨front, back, he, hq, -⟩ := eq_of_beforeImportant? hb
    exact absurd (h front back he) hq

theorem unflagged_of_not_mem {value : Text} (h : '!' ∉ value) : Unflagged value := by
  refine unflagged_of_quoted fun front back he => ?_
  rw [he] at h
  simp at h

/-! ### Statements -/

theorem chunksText_singleton (t : Text) (k : Nat) : chunksText [⟨t, k⟩] = Text.trim t := by
  rw [chunksText, List.foldl_cons, List.foldl_nil, addChunk, if_pos (.inl rfl), List.nil_append]

theorem head?_withImportant {value : Text} (hne : value ≠ []) (important : Bool) :
    (withImportant value important).head? = value.head? := by
  obtain ⟨c, value, rfl⟩ := List.exists_cons_of_ne_nil hne
  cases important <;> rfl

theorem trim_withImportant {value : Text} (hne : value ≠ []) (ht : Text.trim value = value)
    (important : Bool) : Text.trim (withImportant value important) = withImportant value important := by
  refine Text.trim_eq_self (fun c hc => ?_) fun c hc => ?_
  · rw [head?_withImportant hne, ← ht] at hc
    exact Text.isBlank_head?_trim hc
  · cases important
    · rw [withImportant, if_neg Bool.false_ne_true, ← ht] at hc
      exact Text.isBlank_getLast?_trim hc
    · rw [withImportant, if_pos rfl, List.getLast?_append] at hc
      cases hc
      rfl

/-- The text of a declaration, without its semicolon. -/
def declarationText (property value : Text) (important : Bool) : Text :=
  property ++ ':' :: ' ' :: withImportant value important

theorem declarationText_ne_nil {property value : Text} (hp : property ≠ []) {important : Bool} :
    declarationText property value important ≠ [] :=
  List.append_ne_nil_of_left_ne_nil hp _

theorem head?_declarationText {property value : Text} (hp : property ≠ []) {important : Bool} :
    (declarationText property value important).head? = property.head? := by
  obtain ⟨c, property, rfl⟩ := List.exists_cons_of_ne_nil hp
  rfl

theorem isBlank_head_declarationText {extra property value : Text} (hp : Phrase extra property)
    (hs : SpaceOnly extra) {important : Bool} (c : Char)
    (hc : (declarationText property value important).head? = some c) : isBlank c = false := by
  rw [head?_declarationText hp.ne_nil] at hc
  exact hp.isBlank_head hs c hc

theorem getLast?_declarationText {property value : Text} (hv : value ≠ []) (important : Bool) :
    (declarationText property value important).getLast?
      = (withImportant value important).getLast? := by
  have hw : withImportant value important ≠ [] := by
    cases important
    · exact hv
    · exact List.append_ne_nil_of_left_ne_nil hv _
  rw [declarationText, List.getLast?_append, List.getLast?_cons_cons,
    List.getLast?_cons_of_ne_nil hw, List.getLast?_eq_some_getLast hw, Option.some_or]

/-- A declaration that is written plainly is read as it is. -/
theorem statementNode?_declaration {extra property value : Text} (hp : Phrase extra property)
    (hs : SpaceOnly extra) (hcolon : ':' ∉ extra) (hat : '@' ∉ extra) (hne : value ≠ [])
    (ht : Text.trim value = value) (hu : Unflagged value) (important : Bool) (k : Nat) :
    statementNode? [⟨declarationText property value important, k⟩]
      = some (.declaration property value important k) := by
  have htrim : Text.trim (declarationText property value important)
      = declarationText property value important := by
    refine Text.trim_eq_self (isBlank_head_declarationText hp hs) fun c hc => ?_
    rw [getLast?_declarationText hne, ← trim_withImportant hne ht] at hc
    exact Text.isBlank_getLast?_trim hc
  have hcut : Text.cut ':' (declarationText property value important)
      = (property, some (' ' :: withImportant value important)) := by
    rw [Text.cut, declarationText, Text.breakOn_append_cons (hp.not_mem rfl hcolon)]
  have hnode : declarationNode? (declarationText property value important) k
      = some (.declaration property value important k) := by
    rw [declarationNode?, hcut]
    dsimp only
    rw [hp.trim_eq hs, if_neg hp.ne_nil, Text.trim_cons_of_isBlank rfl,
      trim_withImportant hne ht, splitImportant_withImportant ht hu]
  rw [statementNode?, chunksText_singleton, htrim]
  split
  · rename_i text he
    -- the text begins with the property, so with no at sign
    have hm : '@' ∈ property := by
      obtain ⟨c, rest, rfl⟩ := List.exists_cons_of_ne_nil hp.ne_nil
      rw [declarationText, List.cons_append, List.cons.injEq] at he
      rw [he.1]
      exact List.mem_cons_self ..
    exact absurd hm (hp.not_mem rfl hat)
  · exact hnode

/-! ### Selectors and blocks -/

/-- Selectors with a comma and a space between them are cut into the same
selectors. -/
theorem splitTopLevel_join {extra : Text} {selectors : List Text} (hne : selectors ≠ [])
    (h : ∀ s ∈ selectors, Phrase extra s) (hs : SpaceOnly extra)
    (hx : ∀ c ∈ (",()\"'" : Text), c ∉ extra) :
    splitTopLevel "," (Text.join ", " selectors) = selectors := by
  have hlacks : ∀ c ∈ ("()\"'" : Text), c ∉ Text.join ", " selectors := by
    intro c hc
    have hsign : ∀ d ∈ ("()\"'" : Text), d.isAlphanum = false ∧ d ∉ [',', ' '] := by decide
    obtain ⟨ha, hfirst⟩ := hsign c hc
    exact Phrase.not_mem_join hne h ha hfirst (hx c (List.mem_cons_of_mem _ hc))
  have hquote : ∀ d ∈ Text.join ", " selectors, isQuote d = false := by
    intro d hd
    rw [← Bool.not_eq_true]
    intro hq
    simp only [isQuote, Bool.or_eq_true, decide_eq_true_eq] at hq
    rcases hq with rfl | rfl
    · exact hlacks _ (by decide) hd
    · exact hlacks _ (by decide) hd
  have hseparator : ∀ d ∈ Text.join ", " selectors, IsSeparator d := by
    refine fun d hd => ⟨hquote d hd, ?_, ?_⟩ <;>
    · rintro rfl
      exact hlacks _ (by decide) hd
  obtain ⟨first, others, rfl⟩ := List.exists_cons_of_ne_nil hne
  have htrim : ∀ s ∈ first :: others, Text.trim s = s := fun s hm => (h s hm).trim_eq hs
  have hparts : (pieces "," (Text.join ", " (first :: others))).map Text.trim = first :: others := by
    have hcut : pieces "," (Text.join ", " (first :: others)) = first :: others.map (' ' :: ·) := by
      show pieces [','] _ = _
      rw [pieces_eq_splitOn hseparator]
      show Text.splitOn ',' (Text.join [',', ' '] (first :: others)) = _
      rw [Text.join_pair]
      refine Text.splitOn_join (List.cons_ne_nil _ _) fun part hp => ?_
      have hcomma : ∀ s ∈ first :: others, ',' ∉ s := fun s hm =>
        (h s hm).not_mem rfl (hx _ (by decide))
      rcases List.mem_cons.mp hp with rfl | hp
      · exact hcomma _ (List.mem_cons_self ..)
      · obtain ⟨other, ho, rfl⟩ := List.mem_map.mp hp
        rw [List.mem_cons, not_or]
        exact ⟨by decide, hcomma other (List.mem_cons_of_mem _ ho)⟩
    -- the space behind a comma is left to the selector behind it, and trimmed
    rw [hcut, List.map_cons, List.map_map, htrim first (List.mem_cons_self ..)]
    congr 1
    refine (List.map_congr_left fun s hm => ?_).trans (List.map_id others)
    rw [Function.comp_apply, Text.trim_cons_of_isBlank rfl, htrim s (List.mem_cons_of_mem _ hm)]
    rfl
  have hlast : (first :: others).getLast? ≠ some [] := by
    intro hl
    exact (h [] (List.mem_of_mem_getLast? hl)).ne_nil rfl
  rw [splitTopLevel, hparts]
  exact if_neg hlast

/-- A block that a phrase begins has the selectors of the phrase. -/
theorem blockNode?_phrase {extra t : Text} (h : Phrase extra t) (hs : SpaceOnly extra)
    (hat : '@' ∉ extra) (hlast : t.getLast? ≠ some ':') (children : List Node) (k : Nat) :
    blockNode? [⟨t ++ [' '], k⟩] children
      = some (.block t (selectorList t) children (some k)) := by
  rw [blockNode?, chunksText_singleton, trim_concat_space (h.trim_eq hs)]
  split
  · exact absurd rfl h.ne_nil
  · exact absurd (List.mem_cons_self ..) (h.not_mem (x := '@') rfl hat)
  · exact if_neg hlast

/-- The text in front of the brace of a block is one chunk. -/
theorem chunkText_selectors {extra t : Text} (h : Phrase extra t)
    (hp : ∀ c ∈ extra, isPlain c = true) (ho : '(' ∉ extra) : ChunkText (t ++ [' ']) :=
  ChunkText.prepend (h.plain hp) (h.not_mem rfl ho) (.char rfl nofun (by decide) .nil)

theorem isBlank_head_concat {extra t : Text} (h : Phrase extra t) (hs : SpaceOnly extra) {d : Char}
    (c : Char) (hc : (t ++ [d]).head? = some c) : isBlank c = false := by
  obtain ⟨e, t, rfl⟩ := List.exists_cons_of_ne_nil h.ne_nil
  exact h.isBlank_head hs c hc

/-- The selectors of a joined list. -/
theorem selectorList_join {extra : Text} {selectors : List Text} (hne : selectors ≠ [])
    (h : ∀ s ∈ selectors, Phrase extra s) (hs : SpaceOnly extra)
    (hx : ∀ c ∈ (",()\"'" : Text), c ∉ extra) :
    selectorList (Text.join ", " selectors) = selectors := by
  rw [selectorList, splitTopLevel_join hne h hs hx, List.filter_eq_self]
  intro s hm
  rw [decide_eq_true_iff]
  exact (h s hm).ne_nil

/-! ### At-rules -/

/-- An at-rule without its semicolon or block. -/
def atRuleText (name params : Text) : Text := '@' :: (name ++ ' ' :: params)

theorem trim_atRuleText (name : Text) {params : Text} (hne : params ≠ [])
    (ht : Text.trim params = params) :
    Text.trim (atRuleText name params) = atRuleText name params := by
  refine Text.trim_eq_self (fun c hc => ?_) fun c hc => ?_
  · cases hc
    rfl
  · have hlast : (atRuleText name params).getLast? = params.getLast? := by
      rw [atRuleText, ← List.cons_append, List.getLast?_append, List.getLast?_cons_of_ne_nil hne,
        List.getLast?_eq_some_getLast hne, Option.some_or]
    rw [hlast, ← ht] at hc
    exact Text.isBlank_getLast?_trim hc

/-- The name of an at-rule ends at the blank. -/
theorem atRuleNode_append {name params : Text} (hn : ∀ c ∈ name, isNameChar c = true)
    (ht : Text.trim params = params) (children : List Node) (k : Nat) :
    atRuleNode (name ++ ' ' :: params) children k = .atRule name params children k := by
  have hspace : ¬ isNameChar ' ' = true := by decide
  rw [atRuleNode, List.takeWhile_append_of_pos hn, List.dropWhile_append_of_pos hn,
    List.takeWhile_cons_of_neg hspace, List.dropWhile_cons_of_neg hspace, List.append_nil,
    Text.trim_cons_of_isBlank rfl, ht]

theorem statementNode?_atRule {name params : Text} (hn : ∀ c ∈ name, isNameChar c = true)
    (hne : params ≠ []) (ht : Text.trim params = params) (k : Nat) :
    statementNode? [⟨atRuleText name params, k⟩] = some (.atRule name params [] k) := by
  rw [statementNode?, chunksText_singleton, trim_atRuleText name hne ht]
  exact congrArg some (atRuleNode_append hn ht [] k)

theorem blockNode?_atRule {name params : Text} (hn : ∀ c ∈ name, isNameChar c = true)
    (hne : params ≠ []) (ht : Text.trim params = params) (k : Nat) (children : List Node) :
    blockNode? [⟨atRuleText name params ++ [' '], k⟩] children
      = some (.atRule name params children k) := by
  rw [blockNode?, chunksText_singleton, trim_concat_space (trim_atRuleText name hne ht)]
  exact congrArg some (atRuleNode_append hn ht children k)

end FluidScss
