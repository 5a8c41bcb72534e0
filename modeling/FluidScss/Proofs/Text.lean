/-
FluidScss/Proofs/Text.lean

Laws of texts: finding, and cutting what was joined.

`contains` is the infix relation of lists (`contains_iff_isInfix`), so what
is known of infixes is known of it.  Unifying newlines makes no word appear
that has no newline in it (`contains_of_contains_unifyNewlines`), which is why
a stamp may be looked for in what a text file reads as.  A text put together
from parts with a character between them is cut at that character into the
same parts (`splitOn_join`).
-/
import FluidScss.Text.Blank
import FluidScss.Text.Lines

namespace FluidScss

/-- What holds of all characters of a text is decided one by one; there are too
many characters to try them all. -/
instance (priority := high) decidableForallMem (p : Char → Prop) [DecidablePred p] (t : Text) :
    Decidable (∀ c, c ∈ t → p c) :=
  List.decidableBAll p t

namespace Text

/-! ### Joining -/

theorem join_cons_cons (sep part next : Text) (parts : List Text) :
    join sep (part :: next :: parts) = part ++ (sep ++ join sep (next :: parts)) := by
  simp [join, List.intercalate]

@[simp] theorem join_singleton (sep part : Text) : join sep [part] = part := by
  simp [join, List.intercalate]

/-- Behind the first part each part has the separator in front of it. -/
theorem join_cons (sep part : Text) (parts : List Text) :
    join sep (part :: parts) = part ++ parts.flatMap (sep ++ ·) := by
  induction parts generalizing part with
  | nil => simp
  | cons next parts ih => rw [join_cons_cons, ih, List.flatMap_cons, List.append_assoc]

/-! ### Finding -/

theorem contains_iff_isInfix {needle text : Text} :
    contains needle text = true ↔ needle <:+: text := by
  induction text with
  | nil =>
    rw [contains, breakOn, List.infix_nil]
    by_cases h : needle = [] <;> simp [h]
  | cons c rest ih =>
    rw [contains, breakOn, List.infix_cons_iff, ← ih, contains]
    by_cases h : needle.isPrefixOf (c :: rest) = true
    · simp [h, List.isPrefixOf_iff_prefix.mp h]
    · have h' : ¬ needle <+: c :: rest := fun hp => h (List.isPrefixOf_iff_prefix.mpr hp)
      simp [h, h']

/-- A word does not reach into a text whose first character it lacks. -/
theorem isPrefix_of_isPrefix_append {word text rest : Text} (hr : ∀ c ∈ rest.head?, c ∉ word)
    (h : word <+: text ++ rest) : word <+: text := by
  induction word generalizing text with
  | nil => exact List.nil_prefix
  | cons c word ih =>
    rcases text with - | ⟨d, text⟩
    · rcases rest with - | ⟨e, rest⟩
      · exact h
      · obtain ⟨rfl, -⟩ := List.cons_prefix_cons.mp h
        exact absurd (List.mem_cons_self ..) (hr c rfl)
    · rw [List.cons_append, List.cons_prefix_cons] at h
      rw [List.cons_prefix_cons]
      exact ⟨h.1, ih (fun e he hm => hr e he (List.mem_cons_of_mem _ hm)) h.2⟩

/-- A word that ends with a character ends no later than the last of them. -/
theorem isPrefix_of_isPrefix_append_of_notMem {c : Char} {word text rest : Text} (hr : c ∉ rest)
    (h : word ++ [c] <+: text ++ rest) : word ++ [c] <+: text := by
  rcases List.prefix_or_prefix_of_prefix h (List.prefix_append text rest) with hword | ⟨more, hmore⟩
  · exact hword
  · -- the word goes on behind the text, but its last character does not stand there
    rcases List.eq_nil_or_concat more with rfl | ⟨front, d, rfl⟩
    · rw [List.append_nil] at hmore
      exact hmore ▸ List.prefix_refl _
    · rw [← hmore, List.prefix_append_right_inj] at h
      rw [List.concat_eq_append, ← List.append_assoc] at hmore
      obtain ⟨-, hd⟩ := List.append_inj' hmore rfl
      cases hd
      exact absurd (h.subset (by simp)) hr

theorem isInfix_append_right {needle text : Text} (before : Text) (h : needle <:+: text) :
    needle <:+: before ++ text :=
  h.trans (List.suffix_append before text).isInfix

/-- A part stands in the whole. -/
theorem isInfix_join_of_mem {sep part : Text} {parts : List Text} (h : part ∈ parts) :
    part <:+: join sep parts := by
  induction parts with
  | nil => cases h
  | cons p ps ih =>
    rcases ps with - | ⟨q, qs⟩
    · rw [List.mem_singleton] at h
      subst h
      exact (List.infix_refl part).trans (by simp [join])
    · rw [join_cons_cons]
      rcases List.mem_cons.mp h with rfl | hm
      · exact (List.prefix_append _ _).isInfix
      · exact isInfix_append_right _ (isInfix_append_right _ (ih hm))

/-- A character is found where it first stands. -/
theorem breakOn_append_cons {c : Char} {before : Text} (h : c ∉ before) (after : Text) :
    breakOn [c] (before ++ c :: after) = some (before, after) := by
  induction before with
  | nil => simp [breakOn]
  | cons d before ih =>
    rw [List.mem_cons, not_or] at h
    have hp : [c].isPrefixOf (d :: (before ++ c :: after)) = false := by
      rw [List.isPrefixOf_cons_cons, beq_eq_false_iff_ne.mpr h.1, Bool.false_and]
    rw [List.cons_append, breakOn, hp, if_neg Bool.false_ne_true, ih h.2]
    rfl

/-- A character splits a text at its first place in one way only. -/
theorem eq_of_append_cons_eq {c : Char} {text text' rest rest' : Text} (h : c ∉ text)
    (h' : c ∉ text') (heq : text ++ c :: rest = text' ++ c :: rest') :
    text = text' ∧ rest = rest' := by
  have hbreak := breakOn_append_cons h rest
  rw [heq, breakOn_append_cons h'] at hbreak
  cases hbreak
  exact ⟨rfl, rfl⟩

/-- A character does not stand before its first occurrence. -/
theorem not_mem_of_breakOn {c : Char} {text before after : Text}
    (h : breakOn [c] text = some (before, after)) : c ∉ before := by
  induction text generalizing before with
  | nil => cases h
  | cons d text ih =>
    rw [breakOn] at h
    split at h
    · cases h
      exact List.not_mem_nil
    · rename_i hp
      obtain ⟨⟨b, a⟩, hb, he⟩ := Option.map_eq_some_iff.mp h
      cases he
      rw [List.mem_cons, not_or]
      refine ⟨fun hcd => hp ?_, ih hb⟩
      rw [hcd, List.isPrefixOf_cons_cons, beq_self_eq_true]
      rfl

/-- A word is not found in a text that lacks one of its characters. -/
theorem breakOn_eq_none {c : Char} {needle text : Text} (hn : c ∈ needle) (h : c ∉ text) :
    breakOn needle text = none := by
  rw [← Option.not_isSome_iff_eq_none]
  intro hs
  exact h ((contains_iff_isInfix.mp hs).subset hn)

/-- A word begins nowhere before the place where it is found. -/
theorem not_isPrefix_of_breakOn {needle text before after : Text}
    (h : breakOn needle text = some (before, after)) :
    ∀ n < before.length, ¬ needle <+: text.drop n := by
  induction text generalizing before with
  | nil =>
    have hbefore : before = [] := by
      rw [breakOn] at h
      split at h <;> cases h
      rfl
    rw [hbefore]
    exact fun n hn => absurd hn (Nat.not_lt_zero n)
  | cons c rest ih =>
    rw [breakOn] at h
    split at h
    · cases h
      exact fun n hn => absurd hn (Nat.not_lt_zero n)
    · rename_i hp
      obtain ⟨⟨b, a⟩, hb, he⟩ := Option.map_eq_some_iff.mp h
      cases he
      intro n hn
      cases n with
      | zero => exact fun hprefix => hp (List.isPrefixOf_iff_prefix.mpr hprefix)
      | succ n => exact ih hb n (Nat.lt_of_succ_lt_succ hn)

/-- A word is found at the first place where it begins. -/
theorem breakOn_of_first {needle before after : Text}
    (h : ∀ n < before.length, ¬ needle <+: (before ++ needle ++ after).drop n) :
    breakOn needle (before ++ needle ++ after) = some (before, after) := by
  induction before with
  | nil =>
    rw [List.nil_append]
    rcases needle with - | ⟨c, needle⟩
    · cases after <;> simp [breakOn]
    · have hp : (c :: needle).isPrefixOf (c :: (needle ++ after)) = true :=
        List.isPrefixOf_iff_prefix.mpr (List.prefix_append (c :: needle) after)
      rw [List.cons_append, breakOn, if_pos hp, ← List.cons_append, List.drop_left]
  | cons d before ih =>
    have hp : ¬ needle.isPrefixOf (d :: (before ++ needle ++ after)) = true :=
      fun hp => h 0 (Nat.zero_lt_succ _) (List.isPrefixOf_iff_prefix.mp hp)
    rw [List.cons_append, List.cons_append, breakOn, if_neg hp,
      ih fun n hn => h (n + 1) (Nat.succ_lt_succ hn)]
    rfl

/-- A word that is not found begins nowhere. -/
theorem not_isPrefix_of_breakOn_eq_none {needle text : Text} (h : breakOn needle text = none)
    (n : Nat) : ¬ needle <+: text.drop n := by
  intro hprefix
  have hinfix : needle <:+: text := hprefix.isInfix.trans (List.drop_suffix n text).isInfix
  rw [← contains_iff_isInfix, contains, h] at hinfix
  cases hinfix

/-- A text in which the word begins nowhere, whatever follows, stays in front. -/
theorem breakOn_append {needle text : Text} (rest : Text)
    (h : ∀ n < text.length, ¬ needle <+: (text ++ rest).drop n) :
    breakOn needle (text ++ rest)
      = (breakOn needle rest).map fun (before, after) => (text ++ before, after) := by
  induction text with
  | nil => exact Option.map_id'.symm
  | cons c text ih =>
    have hp : ¬ needle.isPrefixOf (c :: (text ++ rest)) = true :=
      fun hp => h 0 (Nat.zero_lt_succ _) (List.isPrefixOf_iff_prefix.mp hp)
    rw [List.cons_append, breakOn, if_neg hp,
      ih fun n hn => h (n + 1) (Nat.succ_lt_succ hn), Option.map_map]
    rfl

/-- Where a word is found does not depend on what follows it. -/
theorem breakOn_exchange {needle text before after : Text}
    (h : breakOn needle text = some (before, after)) (rest : Text) :
    breakOn needle (before ++ needle ++ rest) = some (before, rest) := by
  refine breakOn_of_first fun n hn hprefix => not_isPrefix_of_breakOn h n hn ?_
  rw [List.drop_append_of_le_length (by simp; omega)] at hprefix
  have hword : needle <+: (before ++ needle).drop n :=
    List.prefix_of_prefix_length_le hprefix (List.prefix_append _ _) (by simp; omega)
  rw [eq_of_breakOn h, List.drop_append_of_le_length (by simp; omega)]
  exact hword.trans (List.prefix_append _ _)

/-- Before the place where a word is found it does not stand. -/
theorem not_isInfix_of_breakOn {needle text before after : Text} (hn : needle ≠ [])
    (h : breakOn needle text = some (before, after)) : ¬ needle <:+: before := by
  rintro ⟨front, back, hbefore⟩
  have hlength : front.length < before.length := by
    have hpos := List.length_pos_iff.mpr hn
    rw [← hbefore]
    simp only [List.length_append]
    omega
  refine not_isPrefix_of_breakOn h front.length hlength ?_
  rw [eq_of_breakOn h, ← hbefore]
  simp only [List.append_assoc, List.drop_left]
  exact List.prefix_append _ _

/-- A word with no newline that begins the unified text begins the text. -/
theorem isPrefix_of_isPrefix_unifyNewlines {needle text : Text} (hn : '\n' ∉ needle)
    (h : needle <+: unifyNewlines text) : needle <+: text := by
  induction needle generalizing text with
  | nil => exact List.nil_prefix
  | cons n needle ih =>
    rw [List.mem_cons, not_or] at hn
    fun_cases unifyNewlines text with
    | case1 => exact h
    | case2 rest =>
      rw [unifyNewlines, List.cons_prefix_cons] at h
      exact absurd h.1.symm hn.1
    | case3 c rest hne =>
      rw [unifyNewlines.eq_3 _ _ hne, List.cons_prefix_cons] at h
      have hc : n = c := by
        by_cases hr : c = '\r'
        · rw [if_pos hr] at h
          exact absurd h.1.symm hn.1
        · rw [if_neg hr] at h
          exact h.1
      rw [List.cons_prefix_cons]
      exact ⟨hc, ih hn.2 h.2⟩

/-- Unifying newlines makes no word appear that has no newline in it. -/
theorem contains_of_contains_unifyNewlines {needle text : Text} (hn : '\n' ∉ needle)
    (h : contains needle (unifyNewlines text) = true) : contains needle text = true := by
  rw [contains_iff_isInfix] at h ⊢
  fun_induction unifyNewlines text with
  | case1 => exact h
  | case2 rest ih =>
    rcases List.infix_cons_iff.mp h with hp | hi
    · have hp' : needle <+: unifyNewlines ('\r' :: '\n' :: rest) := hp
      exact (isPrefix_of_isPrefix_unifyNewlines hn hp').isInfix
    · exact List.infix_cons (List.infix_cons (ih hi))
  | case3 c rest hne ih =>
    rcases List.infix_cons_iff.mp h with hp | hi
    · have hp' : needle <+: unifyNewlines (c :: rest) := by
        rwa [unifyNewlines.eq_3 _ _ hne]
      exact (isPrefix_of_isPrefix_unifyNewlines hn hp').isInfix
    · exact List.infix_cons (ih hi)

theorem isPrefix_unifyNewlines {needle text : Text} (hn : '\n' ∉ needle) (hr : '\r' ∉ needle)
    (h : needle <+: text) : needle <+: unifyNewlines text := by
  induction needle generalizing text with
  | nil => exact List.nil_prefix
  | cons n needle ih =>
    rw [List.mem_cons, not_or] at hn hr
    obtain ⟨rest, rfl⟩ := h
    rw [List.cons_append, unifyNewlines.eq_3 _ _ fun _ he => absurd he.symm hr.1,
      if_neg (Ne.symm hr.1), List.cons_prefix_cons]
    exact ⟨rfl, ih hn.2 hr.2 (List.prefix_append _ _)⟩

/-- Unifying newlines makes no word disappear that has no newline in it. -/
theorem contains_unifyNewlines {needle text : Text} (hn : '\n' ∉ needle) (hr : '\r' ∉ needle)
    (h : contains needle text = true) : contains needle (unifyNewlines text) = true := by
  rw [contains_iff_isInfix] at h ⊢
  fun_induction unifyNewlines text with
  | case1 => exact h
  | case2 rest ih =>
    -- a word that begins with one of the two is none of these words
    have hfirst : ∀ {c : Char} {t : Text}, c ∉ needle → needle <:+: c :: t → needle <:+: t := by
      intro c t hc hi
      rcases List.infix_cons_iff.mp hi with ⟨after, ha⟩ | hi
      · rcases needle with - | ⟨n, needle⟩
        · exact List.nil_infix
        · rw [List.cons_append] at ha
          exact absurd (List.mem_cons_self ..) ((List.cons.inj ha).1 ▸ hc)
      · exact hi
    exact List.infix_cons (ih (hfirst hn (hfirst hr h)))
  | case3 c rest hne ih =>
    rcases List.infix_cons_iff.mp h with hp | hi
    · have hp' := isPrefix_unifyNewlines hn hr hp
      rw [unifyNewlines.eq_3 _ _ hne] at hp'
      exact hp'.isInfix
    · exact List.infix_cons (ih hi)

/-- What holds a word with a character that is no blank is not blank. -/
theorem not_isBlank_of_contains {needle text : Text} {c : Char} (hc : c ∈ needle)
    (hb : FluidScss.isBlank c = false) (h : contains needle text = true) :
    isBlank text = false := by
  have hm : c ∈ text := (contains_iff_isInfix.mp h).subset hc
  exact List.all_eq_false.mpr ⟨c, hm, by rw [hb]; exact Bool.false_ne_true⟩

/-! ### Trimming -/

theorem exists_trimLeft (text : Text) :
    ∃ left, text = left ++ trimLeft text ∧ isBlank left = true :=
  ⟨text.takeWhile FluidScss.isBlank, List.takeWhile_append_dropWhile.symm, List.all_takeWhile⟩

theorem exists_trimRight (text : Text) :
    ∃ right, text = trimRight text ++ right ∧ isBlank right = true := by
  refine ⟨(text.reverse.takeWhile FluidScss.isBlank).reverse, ?_, ?_⟩
  · rw [trimRight, ← List.reverse_append, List.takeWhile_append_dropWhile, List.reverse_reverse]
  · rw [isBlank, List.all_reverse]
    exact List.all_takeWhile

/-- Trimming takes blanks at the two ends. -/
theorem exists_trim (text : Text) : ∃ left right, text = left ++ (trim text ++ right) ∧
    isBlank left = true ∧ isBlank right = true := by
  obtain ⟨left, htext, hleft⟩ := exists_trimLeft text
  obtain ⟨right, hfront, hright⟩ := exists_trimRight (trimLeft text)
  exact ⟨left, right, by rw [trim, ← hfront, ← htext], hleft, hright⟩

theorem trim_isInfix (text : Text) : trim text <:+: text := by
  obtain ⟨left, right, htext, -, -⟩ := exists_trim text
  exact ⟨left, right, by rw [List.append_assoc, ← htext]⟩

theorem trim_cons_of_isBlank {c : Char} (hc : FluidScss.isBlank c = true) (text : Text) :
    trim (c :: text) = trim text := by
  rw [trim, trimLeft, List.dropWhile_cons_of_pos hc, trim, trimLeft]

theorem trim_concat_of_isBlank {c : Char} (hc : FluidScss.isBlank c = true) (text : Text) :
    trim (text ++ [c]) = trim text := by
  rw [trim, trim, trimLeft, trimLeft, List.dropWhile_append]
  rcases text.dropWhile FluidScss.isBlank with - | ⟨d, rest⟩
  · -- only blanks are in front, so nothing is left of either
    rw [List.dropWhile_cons_of_pos hc]
    rfl
  · simp only [List.isEmpty_cons, Bool.false_eq_true, if_false]
    rw [trimRight, trimRight, List.reverse_append, List.reverse_singleton,
      List.singleton_append, List.dropWhile_cons_of_pos hc]

/-- A character that is not blank stays at the front. -/
theorem head?_trim_cons {c : Char} (hc : FluidScss.isBlank c = false) (rest : Text) :
    (trim (c :: rest)).head? = some c := by
  have hself : trimLeft (c :: rest) = c :: rest :=
    trimLeft_eq_self fun d hd => by cases hd; exact hc
  have hprefix : trim (c :: rest) <+: c :: rest := by
    rw [trim, hself]
    exact trimRight_isPrefix _
  rcases ht : trim (c :: rest) with - | ⟨d, rest'⟩
  · -- the first character is not blank
    have := trim_eq_nil_iff.mp ht
    rw [isBlank, List.all_cons, hc] at this
    cases this
  · rw [ht] at hprefix
    rw [(List.cons_prefix_cons.mp hprefix).1]
    rfl

/-- Blanks in front are trimmed off. -/
theorem trimLeft_append_of_isBlank {left : Text} (hleft : isBlank left = true) (text : Text) :
    trimLeft (left ++ text) = trimLeft text := by
  rw [trimLeft, trimLeft, List.dropWhile_append,
    dropWhile_isBlank_eq_nil_iff.mpr hleft]
  rfl

/-- Blanks at the end are trimmed off. -/
theorem trimRight_append_of_isBlank {right : Text} (hright : isBlank right = true) (text : Text) :
    trimRight (text ++ right) = trimRight text := by
  have hblank : isBlank right.reverse = true := by rwa [isBlank, List.all_reverse]
  have := trimLeft_append_of_isBlank hblank text.reverse
  rw [trimRight, trimRight, List.reverse_append]
  rw [trimLeft, trimLeft] at this
  rw [this]

theorem trim_append_of_isBlank {left : Text} (hleft : isBlank left = true) (text : Text) :
    trim (left ++ text) = trim text := by
  rw [trim, trimLeft_append_of_isBlank hleft, ← trim]

/-- Spaces in front are trimmed off. -/
theorem trimLeft_indent (n : Nat) (text : Text) :
    trimLeft (List.replicate n ' ' ++ text) = trimLeft text :=
  trimLeft_append_of_isBlank
    (List.all_eq_true.mpr fun c hc => by rw [List.eq_of_mem_replicate hc]; rfl) text

theorem trim_indent (n : Nat) (text : Text) :
    trim (List.replicate n ' ' ++ text) = trim text := by
  rw [trim, trimLeft_indent, ← trim]

/-! ### Lines -/

/-- A line with its break begins the lines. -/
theorem lines_append_newline {line : Text} (h : ∀ c ∈ line, isLineBreak c = false)
    (rest : Text) : lines (line ++ '\n' :: rest) = line :: lines rest := by
  induction line with
  | nil => rfl
  | cons c line ih =>
    have hc := h c (List.mem_cons_self ..)
    have hcr : ∀ r, c = '\r' → line ++ '\n' :: rest = '\n' :: r → False := by
      rintro r rfl
      cases hc
    rw [List.cons_append, lines.eq_3 _ _ hcr, hc, if_neg Bool.false_ne_true,
      ih fun d hd => h d (List.mem_cons_of_mem _ hd)]
    rfl

/-- A text without breaks is one line. -/
theorem lines_eq_singleton {line : Text} (hne : line ≠ [])
    (h : ∀ c ∈ line, isLineBreak c = false) : lines line = [line] := by
  induction line with
  | nil => exact absurd rfl hne
  | cons c line ih =>
    have hc := h c (List.mem_cons_self ..)
    have hcr : ∀ r, c = '\r' → line = '\n' :: r → False := by
      rintro r rfl
      cases hc
    rw [lines.eq_3 _ _ hcr, hc, if_neg Bool.false_ne_true]
    rcases line with - | ⟨d, line⟩
    · rfl
    · rw [ih (List.cons_ne_nil _ _) fun e he => h e (List.mem_cons_of_mem _ he)]
      rfl

/-- Lines joined, with or without a break at the end, are the same lines. -/
theorem lines_join {ls : List Text} (hne : ls ≠ [])
    (h : ∀ line ∈ ls, line ≠ [] ∧ ∀ c ∈ line, isLineBreak c = false) (final : Bool) :
    lines (join "\n" ls ++ if final then ['\n'] else []) = ls := by
  induction ls with
  | nil => exact absurd rfl hne
  | cons line ls ih =>
    obtain ⟨hline, hbreak⟩ := h line (List.mem_cons_self ..)
    rcases ls with - | ⟨next, ls⟩
    · rw [join_singleton]
      cases final
      · rw [if_neg Bool.false_ne_true, List.append_nil, lines_eq_singleton hline hbreak]
      · rw [if_pos rfl, lines_append_newline hbreak]
        rfl
    · have hrest := ih (List.cons_ne_nil _ _) fun l hl => h l (List.mem_cons_of_mem _ hl)
      rw [join_cons_cons, List.append_assoc]
      show lines (line ++ '\n' :: (join "\n" (next :: ls) ++ _)) = _
      rw [lines_append_newline hbreak, hrest]

/-- Lines with a line break in front of each. -/
def precededLines (ls : List Text) : Text := ls.flatMap ('\n' :: ·)

theorem precededLines_cons (l : Text) (ls : List Text) :
    precededLines (l :: ls) = '\n' :: (l ++ precededLines ls) := rfl

theorem precededLines_append (as bs : List Text) :
    precededLines (as ++ bs) = precededLines as ++ precededLines bs :=
  List.flatMap_append ..

/-- A line break in front of joined lines is one in front of each. -/
theorem newline_join {ls : List Text} (hne : ls ≠ []) :
    '\n' :: join "\n" ls = precededLines ls := by
  obtain ⟨l, ls, rfl⟩ := List.exists_cons_of_ne_nil hne
  show '\n' :: join ['\n'] (l :: ls) = _
  rw [join_cons]
  rfl

theorem count_precededLines {ls : List Text} (h : ∀ l ∈ ls, '\n' ∉ l) :
    (precededLines ls).count '\n' = ls.length := by
  induction ls with
  | nil => rfl
  | cons l ls ih =>
    have hl := List.count_eq_zero_of_not_mem (h l (List.mem_cons_self ..))
    rw [precededLines_cons, List.count_cons_self, List.count_append, hl,
      ih fun r hr => h r (List.mem_cons_of_mem _ hr), List.length_cons, Nat.zero_add]

/-! ### Unifying newlines part by part -/

theorem unifyNewlines_append {part : Text} (h : '\r' ∉ part) (text : Text) :
    unifyNewlines (part ++ text) = part ++ unifyNewlines text := by
  induction part with
  | nil => rfl
  | cons c part ih =>
    rw [List.mem_cons, not_or] at h
    have hne : ∀ rest, c = '\r' → part ++ text = '\n' :: rest → False := fun _ hc _ => h.1 hc.symm
    rw [List.cons_append, unifyNewlines.eq_3 _ _ hne, if_neg (Ne.symm h.1), ih h.2,
      List.cons_append]

/-- In front of any other character a newline ends as it does at the end. -/
theorem unifyNewlines_append_cons {c : Char} (hc : c ≠ '\n') (text rest : Text) :
    unifyNewlines (text ++ c :: rest) = unifyNewlines text ++ unifyNewlines (c :: rest) := by
  fun_induction unifyNewlines text with
  | case1 => rfl
  | case2 text ih => rw [List.cons_append, List.cons_append, unifyNewlines, ih, List.cons_append]
  | case3 d text hne ih =>
    have hne' : ∀ more, d = '\r' → text ++ c :: rest = '\n' :: more → False := by
      intro more hd ht
      rcases text with - | ⟨e, text⟩
      · exact hc (List.cons.inj ht).1
      · exact hne text hd (by rw [(List.cons.inj ht).1])
    rw [List.cons_append, unifyNewlines.eq_3 _ _ hne', ih, List.cons_append]

/-! ### Texts without carriage returns -/

/-- A text without carriage returns. -/
def Unified (text : Text) : Prop := '\r' ∉ text

theorem Unified.of_subset {text part : Text} (h : Unified text) (hs : part ⊆ text) : Unified part :=
  fun hm => h (hs hm)

instance decidableUnified (text : Text) : Decidable (Unified text) :=
  inferInstanceAs (Decidable ('\r' ∉ text))

@[simp] theorem unified_append {text text' : Text} :
    Unified (text ++ text') ↔ Unified text ∧ Unified text' := by
  simp [Unified, not_or]

@[simp] theorem unified_nil : Unified [] := List.not_mem_nil

@[simp] theorem unified_cons {c : Char} {text : Text} :
    Unified (c :: text) ↔ c ≠ '\r' ∧ Unified text := by
  simp [Unified, not_or, eq_comm]

theorem Unified.join {sep : Text} {parts : List Text} (hs : Unified sep) (h : ∀ part ∈ parts, Unified part) :
    Unified (join sep parts) := by
  cases parts with
  | nil => exact unified_nil
  | cons first rest =>
    rw [join_cons, unified_append]
    refine ⟨h first (List.mem_cons_self ..), fun hm => ?_⟩
    obtain ⟨part, hp, hc⟩ := List.mem_flatMap.mp hm
    rcases List.mem_append.mp hc with hc | hc
    · exact hs hc
    · exact h part (List.mem_cons_of_mem _ hp) hc

/-! ### Cutting what was joined -/

theorem splitOn_eq_singleton {c : Char} {text : Text} (h : c ∉ text) :
    splitOn c text = [text] := by
  induction text with
  | nil => rfl
  | cons d text ih =>
    rw [List.mem_cons, not_or] at h
    rw [splitOn, if_neg (Ne.symm h.1), ih h.2, consHead]

theorem splitOn_append_cons {c : Char} {part : Text} (h : c ∉ part) (text : Text) :
    splitOn c (part ++ c :: text) = part :: splitOn c text := by
  induction part with
  | nil => rw [List.nil_append, splitOn, if_pos rfl]
  | cons d part ih =>
    rw [List.mem_cons, not_or] at h
    rw [List.cons_append, splitOn, if_neg (Ne.symm h.1), ih h.2, consHead]

theorem subset_of_mem_splitOn {c : Char} {text part : Text} (h : part ∈ splitOn c text) :
    part ⊆ text := by
  have hp : part <:+: join [c] (splitOn c text) := isInfix_join_of_mem h
  rw [join_splitOn] at hp
  exact hp.subset

/-- A cut cuts what stands before it and what stands behind it. -/
theorem splitOn_append_sep (c : Char) (text rest : Text) :
    splitOn c (text ++ c :: rest) = splitOn c text ++ splitOn c rest := by
  induction text with
  | nil =>
    rw [List.nil_append, splitOn.eq_2, if_pos rfl]
    rfl
  | cons d text ih =>
    rw [List.cons_append, splitOn, splitOn]
    by_cases hd : d = c
    · rw [if_pos hd, if_pos hd, ih, List.cons_append]
    · obtain ⟨first, parts, hs⟩ := List.exists_cons_of_ne_nil (splitOn_ne_nil c text)
      rw [if_neg hd, if_neg hd, ih, hs, List.cons_append, consHead, consHead, List.cons_append]

/-- What holds no cut goes to the first part behind it. -/
theorem splitOn_append {c : Char} {part text first : Text} {parts : List Text} (h : c ∉ part)
    (hs : splitOn c text = first :: parts) : splitOn c (part ++ text) = (part ++ first) :: parts := by
  induction part with
  | nil => exact hs
  | cons d part ih =>
    rw [List.mem_cons, not_or] at h
    rw [List.cons_append, splitOn, if_neg (Ne.symm h.1), ih h.2, consHead, List.cons_append]

/-- What was joined is cut into the same parts. -/
theorem splitOn_join {c : Char} {parts : List Text} (hne : parts ≠ [])
    (h : ∀ part ∈ parts, c ∉ part) : splitOn c (join [c] parts) = parts := by
  induction parts with
  | nil => exact absurd rfl hne
  | cons part parts ih =>
    have hpart := h part (List.mem_cons_self ..)
    rcases parts with - | ⟨next, parts⟩
    · rw [join_singleton, splitOn_eq_singleton hpart]
    · rw [join_cons_cons, List.singleton_append, splitOn_append_cons hpart,
        ih (List.cons_ne_nil _ _) fun p hp => h p (List.mem_cons_of_mem _ hp)]

theorem join_concat_append (sep last text : Text) (parts : List Text) :
    join sep (parts ++ [last]) ++ text = join sep (parts ++ [last ++ text]) := by
  rcases parts with - | ⟨part, parts⟩
  · rw [List.nil_append, List.nil_append, join_singleton, join_singleton]
  · rw [List.cons_append, List.cons_append, join_cons, join_cons, List.append_assoc,
      List.flatMap_append, List.flatMap_append, List.append_assoc, List.flatMap_singleton,
      List.flatMap_singleton, List.append_assoc]

/-- What holds no cut goes to the last part before it. -/
theorem splitOn_append_right {c : Char} {text part last : Text} {parts : List Text} (h : c ∉ part)
    (hs : splitOn c text = parts ++ [last]) : splitOn c (text ++ part) = parts ++ [last ++ part] := by
  have hparts : ∀ p ∈ parts ++ [last], c ∉ p := fun p hp =>
    not_mem_of_mem_splitOn (by rwa [hs])
  rw [← join_splitOn c text, hs, join_concat_append, splitOn_join (by simp)]
  intro p hp
  rcases List.mem_append.mp hp with hp | hp
  · exact hparts p (List.mem_append_left _ hp)
  · rw [List.mem_singleton.mp hp, List.mem_append, not_or]
    exact ⟨hparts last (by simp), h⟩

/-- Joined lines are indented line by line. -/
theorem indentLines_join (indent : Text) {ls : List Text} (hne : ls ≠ [])
    (h : ∀ l ∈ ls, '\n' ∉ l) :
    indentLines indent (join "\n" ls) = join "\n" (ls.map (indent ++ ·)) := by
  show join ['\n'] ((splitOn '\n' (join ['\n'] ls)).map (indent ++ ·)) = _
  rw [splitOn_join hne h]
  rfl

/-- A separator of two characters leaves the second to the parts behind it. -/
theorem join_pair (c d : Char) (part : Text) (parts : List Text) :
    join [c, d] (part :: parts) = join [c] (part :: parts.map (d :: ·)) := by
  induction parts generalizing part with
  | nil => simp
  | cons next parts ih =>
    rw [join_cons_cons, ih, List.map_cons, join_cons_cons]
    rcases parts with - | ⟨third, parts⟩
    · simp
    · rw [List.map_cons, join_cons_cons, join_cons_cons]
      simp

end Text

end FluidScss
