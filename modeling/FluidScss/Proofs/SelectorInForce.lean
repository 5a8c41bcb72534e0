/-
FluidScss/Proofs/SelectorInForce.lean

The selector in force.  Candidates are searched line by line, and from one line
to the next only a selector is kept: `selectorAfter` is the one in force behind
some lines, and a candidate is what its own line declares under the selector in
force in front of it (`mem_candidates_iff`).

The line that opens an at-rule block is not meant to put a selector in force, and
where the at-sign begins the line it does not.  But a selector may begin with a
blank, which is trimmed off only later; so if blanks stand in front of the
at-sign, the last of them is taken for the first character of a selector, and the
at-rule comes in force (`openedSelector?_atRule`).  No at-rule ever does exactly
if each line that opens one begins with the at-sign, or has one more opening
brace in it, which no selector may have (`atRules_not_in_force_iff`).
-/
import FluidScss.Candidate
import FluidScss.Proofs.Text
import Mathlib.Data.List.Induction
import Mathlib.Tactic.ByContra

namespace FluidScss

variable {selector : Option Text} {line indent head body : Text} {lines : List Text} {n : Nat}

/-! ### From line to line -/

/-- The selector in force behind a line. -/
def selectorBehind (selector : Option Text) (line : Text) : Option Text :=
  match openedSelector? line with
  | some opened => some opened
  | none => if isClosingLine line then none else selector

/-- The selector in force behind the first lines of a source. -/
def selectorAfter (lines : List Text) : Option Text := lines.foldl selectorBehind none

@[simp] theorem selectorAfter_concat (lines : List Text) (line : Text) :
    selectorAfter (lines ++ [line]) = selectorBehind (selectorAfter lines) line := by
  rw [selectorAfter, List.foldl_append]
  rfl

/-- The candidates of the lines behind a line. -/
theorem mem_lineCandidates_cons {k : Candidate} :
    k ∈ lineCandidates selector n (line :: lines) ↔
      (∃ s, selector = some s ∧ openedSelector? line = none ∧ isClosingLine line = false ∧
        candidate? s line n = some k) ∨
      k ∈ lineCandidates (selectorBehind selector line) (n + 1) lines := by
  rw [lineCandidates.eq_def, selectorBehind]
  rcases hopen : openedSelector? line with - | opened
  · rcases hclose : isClosingLine line with - | -
    · cases selector <;> simp [hopen, hclose]
    · simp [hopen, hclose]
  · simp [hopen]

theorem mem_lineCandidates_iff {k : Candidate} :
    k ∈ lineCandidates selector n lines ↔
      ∃ before line after, lines = before ++ line :: after ∧
        ∃ s, before.foldl selectorBehind selector = some s ∧ openedSelector? line = none ∧
          isClosingLine line = false ∧ candidate? s line (n + before.length) = some k := by
  induction lines generalizing selector n with
  | nil => simp [lineCandidates]
  | cons first lines ih =>
    rw [mem_lineCandidates_cons, ih]
    constructor
    · rintro (⟨s, hs, hopen, hclose, hk⟩ | ⟨before, line, after, rfl, s, hs, hopen, hclose, hk⟩)
      · exact ⟨[], first, lines, rfl, s, hs, hopen, hclose, hk⟩
      · refine ⟨first :: before, line, after, rfl, s, hs, hopen, hclose, ?_⟩
        rwa [List.length_cons, Nat.add_comm before.length, ← Nat.add_assoc]
    · rintro ⟨before, line, after, hlines, s, hs, hopen, hclose, hk⟩
      rcases before with - | ⟨c, before⟩
      · cases hlines
        exact .inl ⟨s, hs, hopen, hclose, hk⟩
      · cases hlines
        refine .inr ⟨before, line, after, rfl, s, hs, hopen, hclose, ?_⟩
        rwa [List.length_cons, Nat.add_comm before.length, ← Nat.add_assoc] at hk

/-- A candidate is what its line declares under the selector in force there. -/
theorem mem_candidates_iff {source : Text} {k : Candidate} :
    k ∈ candidates source ↔
      ∃ before line after, Text.lines source = before ++ line :: after ∧
        ∃ s, selectorAfter before = some s ∧ openedSelector? line = none ∧
          isClosingLine line = false ∧ candidate? s line (1 + before.length) = some k :=
  mem_lineCandidates_iff

/-- A candidate has the sizes of a declaration, with its property and line. -/
theorem candidate?_eq_some_iff {s : Text} {k : Candidate} :
    candidate? s line n = some k ↔
      ∃ property value, declared? line = some (property, value) ∧
        property ∈ sizingProperties ∧ pixelSizes value ≠ [] ∧
        k = ⟨s, property, pixelSizes value, Text.contains "!important" value, n⟩ := by
  rw [candidate?]
  rcases declared? line with - | ⟨property, value⟩
  · simp
  · simp only [Option.ite_none_right_eq_some, Option.some.injEq, Prod.mk.injEq]
    constructor
    · rintro ⟨⟨hproperty, hsizes⟩, rfl⟩
      exact ⟨property, value, ⟨rfl, rfl⟩, hproperty, hsizes, rfl⟩
    · rintro ⟨_, _, ⟨rfl, rfl⟩, hproperty, hsizes, rfl⟩
      exact ⟨⟨hproperty, hsizes⟩, rfl⟩

/-! ### Lines that open something -/

/-- What can be a selector begins, behind blanks, with a character that is no
at-sign, and has more characters behind it, none of them an opening brace. -/
theorem fitsSelector_iff {body : Text} :
    fitsSelector body = true ↔
      ∃ indent c rest, body = indent ++ c :: rest ∧ Text.isBlank indent = true ∧ c ≠ '@' ∧
        rest ≠ [] ∧ '\x7b' ∉ rest := by
  induction body with
  | nil => simp [fitsSelector]
  | cons d body ih =>
    simp only [fitsSelector, Bool.or_eq_true, Bool.and_eq_true, decide_eq_true_eq, ih]
    constructor
    · rintro (⟨⟨hd, hne⟩, hbrace⟩ | ⟨hd, indent, c, rest, rfl, hindent, hc⟩)
      · exact ⟨[], d, body, rfl, rfl, hd, hne, hbrace⟩
      · refine ⟨d :: indent, c, rest, rfl, ?_, hc⟩
        rw [Text.isBlank, List.all_cons, hd]
        exact hindent
    · rintro ⟨indent, c, rest, hbody, hindent, hc, hne, hbrace⟩
      rcases indent with - | ⟨b, indent⟩
      · cases hbody
        exact .inl ⟨⟨hc, hne⟩, hbrace⟩
      · cases hbody
        rw [Text.isBlank, List.all_cons, Bool.and_eq_true] at hindent
        exact .inr ⟨hindent.1, indent, c, rest, rfl, hindent.2, hc, hne, hbrace⟩

/-- A line whose last character that is not blank is an opening brace. -/
theorem openedSelector?_of_brace {tail : Text} (htail : Text.isBlank tail = true) (body : Text) :
    openedSelector? (body ++ '\x7b' :: tail)
      = if fitsSelector body then some (Text.trim body) else none := by
  have htrim : Text.trimRight (body ++ '\x7b' :: tail) = body ++ ['\x7b'] := by
    rw [← List.singleton_append, ← List.append_assoc, Text.trimRight_append_of_isBlank htail]
    refine Text.trimRight_eq_self fun c hc => ?_
    rw [List.getLast?_concat] at hc
    cases hc
    rfl
  rw [openedSelector?, htrim, List.getLast?_concat, List.dropLast_concat]
  rfl

theorem exists_of_openedSelector? {s : Text} (h : openedSelector? line = some s) :
    ∃ body tail, line = body ++ '\x7b' :: tail ∧ Text.isBlank tail = true ∧ s = Text.trim body := by
  rw [openedSelector?] at h
  split at h
  · rename_i hlast
    obtain ⟨-, hs⟩ := Option.ite_none_right_eq_some.mp h
    cases hs
    obtain ⟨tail, hline, htail⟩ := Text.exists_trimRight line
    obtain ⟨body, hbody⟩ := List.getLast?_eq_some_iff.mp hlast
    refine ⟨body, tail, ?_, htail, by rw [hbody, List.dropLast_concat]⟩
    rw [hline, hbody, List.append_assoc]
    rfl
  · cases h

/-! ### At-rules -/

/-- A line opens an at-rule block, at any indentation: behind blanks comes an
at-sign, and behind that somewhere an opening brace. -/
def OpensAtRule (line : Text) : Prop :=
  ∃ indent rest, line = indent ++ '@' :: rest ∧ Text.isBlank indent = true ∧ '\x7b' ∈ rest

/-- It is all of the line: blanks, an at-sign with the rest of the at-rule's head, an
opening brace, blanks. -/
def AtRuleLine (indent head line : Text) : Prop :=
  ∃ tail, line = indent ++ '@' :: head ++ '\x7b' :: tail ∧
    Text.isBlank indent = true ∧ Text.isBlank tail = true

theorem AtRuleLine.opens (h : AtRuleLine indent head line) : OpensAtRule line := by
  obtain ⟨tail, rfl, hindent, -⟩ := h
  exact ⟨indent, head ++ '\x7b' :: tail, by simp, hindent, by simp⟩

theorem head?_trim_atRule (hindent : Text.isBlank indent = true) (rest : Text) :
    (Text.trim (indent ++ '@' :: rest)).head? = some '@' := by
  rw [Text.trim_append_of_isBlank hindent]
  exact Text.head?_trim_cons rfl rest

/-- What puts a selector with an at-sign in front in force is such a line. -/
theorem exists_atRuleLine_of_selector {s : Text} (h : openedSelector? line = some s)
    (hs : s.head? = some '@') : ∃ indent head, AtRuleLine indent head line := by
  obtain ⟨body, tail, rfl, htail, rfl⟩ := exists_of_openedSelector? h
  obtain ⟨left, right, hbody, hleft, -⟩ := Text.exists_trim body
  obtain ⟨head, hhead⟩ : ∃ head, Text.trim body = '@' :: head := by
    rcases ht : Text.trim body with - | ⟨c, head⟩
    · rw [ht] at hs
      cases hs
    · rw [ht] at hs
      cases hs
      exact ⟨head, rfl⟩
  refine ⟨left, head ++ right, tail, ?_, hleft, htail⟩
  rw [hbody, hhead, List.cons_append]

/-- A line that opens an at-rule block and puts anything in force is such a line. -/
theorem OpensAtRule.exists_atRuleLine {s : Text} (h : OpensAtRule line)
    (hs : openedSelector? line = some s) : ∃ indent head, AtRuleLine indent head line := by
  obtain ⟨indent, rest, rfl, hindent, -⟩ := h
  obtain ⟨body, tail, heq, htail, -⟩ := exists_of_openedSelector? hs
  rcases List.append_eq_append_iff.mp heq with ⟨more, rfl, hmore⟩ | ⟨more, rfl, hmore⟩
  · rcases more with - | ⟨c, head⟩
    · cases hmore
    · obtain ⟨rfl, rfl⟩ := List.cons.inj hmore
      exact ⟨indent, head, tail, by simp, hindent, htail⟩
  · -- the brace at the end would be one of the blanks in front
    rcases more with - | ⟨c, more⟩
    · cases hmore
    · obtain ⟨rfl, -⟩ := List.cons.inj hmore
      rw [Text.isBlank, List.all_append, Bool.and_eq_true] at hindent
      cases hindent.2

/-- An at-rule's head can be a selector if it has a blank in front to begin with. -/
theorem fitsSelector_atRule_iff (hindent : Text.isBlank indent = true) :
    fitsSelector (indent ++ '@' :: head) = true ↔ ¬ (indent = [] ∨ '\x7b' ∈ head) := by
  rw [fitsSelector_iff, not_or]
  constructor
  · rintro ⟨left, c, rest, heq, hleft, hc, -, hbrace⟩
    rcases List.append_eq_append_iff.mp heq with ⟨more, rfl, hmore⟩ | ⟨more, hindent', hrest⟩
    · -- the at-sign would be the first character, or one of the blanks in front
      rcases more with - | ⟨b, more⟩
      · exact absurd (List.cons.inj hmore).1.symm hc
      · obtain rfl := (List.cons.inj hmore).1
        rw [Text.isBlank, List.all_append, Bool.and_eq_true] at hleft
        cases hleft.2
    · rcases more with - | ⟨b, more⟩
      · exact absurd (List.cons.inj hrest).1 hc
      · obtain ⟨rfl, rfl⟩ := List.cons.inj hrest
        refine ⟨by simp [hindent'], fun hm => hbrace ?_⟩
        exact List.mem_append_right _ (List.mem_cons_of_mem _ hm)
  · rintro ⟨hne, hbrace⟩
    obtain ⟨front, b, rfl⟩ := (List.eq_nil_or_concat indent).resolve_left hne
    rw [Text.isBlank, List.concat_eq_append, List.all_append, Bool.and_eq_true] at hindent
    refine ⟨front, b, '@' :: head, by simp, hindent.1, ?_, List.cons_ne_nil _ _, ?_⟩
    · rintro rfl
      cases hindent.2
    · rw [List.mem_cons, not_or]
      exact ⟨by decide, hbrace⟩

/-- Such a line puts its at-rule in force if blanks stand in front of it and the brace
at its end is the only one. -/
theorem openedSelector?_atRule (h : AtRuleLine indent head line) :
    openedSelector? line
      = if indent = [] ∨ '\x7b' ∈ head then none else some (Text.trim (indent ++ '@' :: head)) := by
  obtain ⟨tail, rfl, hindent, htail⟩ := h
  rw [openedSelector?_of_brace htail]
  by_cases hcond : indent = [] ∨ '\x7b' ∈ head
  · rw [if_pos hcond, if_neg fun hfits => (fitsSelector_atRule_iff hindent).mp hfits hcond]
  · rw [if_neg hcond, if_pos ((fitsSelector_atRule_iff hindent).mpr hcond)]

/-- A line that opens an at-rule block is no closing line. -/
theorem OpensAtRule.not_isClosingLine (h : OpensAtRule line) : isClosingLine line = false := by
  obtain ⟨indent, rest, rfl, hindent, -⟩ := h
  refine Bool.eq_false_iff.mpr fun hclose => ?_
  have hhead := head?_trim_atRule hindent rest
  rw [of_decide_eq_true hclose] at hhead
  cases hhead

/-- It leaves the selector in force as it is, unless it is the kind of line that puts
its at-rule in force. -/
theorem OpensAtRule.selectorBehind_eq (h : OpensAtRule line)
    (hcond : ∀ indent head, AtRuleLine indent head line → indent = [] ∨ '\x7b' ∈ head)
    (selector : Option Text) : selectorBehind selector line = selector := by
  have hnone : openedSelector? line = none := by
    rcases hs : openedSelector? line with - | s
    · rfl
    · obtain ⟨indent, head, hline⟩ := h.exists_atRuleLine hs
      rw [openedSelector?_atRule hline, if_pos (hcond indent head hline)] at hs
      cases hs
  rw [selectorBehind, hnone, h.not_isClosingLine]
  rfl

/-- As long as the lines that open at-rule blocks leave the selector in force as it
is, no at-rule is in force. -/
theorem selectorAfter_not_atRule
    (h : ∀ before line after, lines = before ++ line :: after → OpensAtRule line →
      selectorAfter (before ++ [line]) = selectorAfter before)
    (before after : List Text) (hlines : lines = before ++ after) :
    ∀ s, selectorAfter before = some s → s.head? ≠ some '@' := by
  induction before using List.reverseRecOn generalizing after with
  | nil => exact nofun
  | append_singleton before line ih =>
    rw [List.append_assoc, List.singleton_append] at hlines
    intro s hs hat
    by_cases hrule : OpensAtRule line
    · rw [h before line after hlines hrule] at hs
      exact ih _ hlines s hs hat
    · rw [selectorAfter_concat, selectorBehind] at hs
      split at hs
      · rename_i opened hopened
        cases hs
        obtain ⟨indent, head, hline⟩ := exists_atRuleLine_of_selector hopened hat
        exact hrule hline.opens
      · split at hs
        · cases hs
        · exact ih _ hlines s hs hat

/-- **When no at-rule comes in force**: no candidate has a selector that begins with
an at-sign, and no line that opens an at-rule block changes the selector in force,
exactly if each such line that has nothing behind its block's brace begins with the
at-sign, or has one more opening brace. -/
theorem atRules_not_in_force_iff (source : Text) :
    ((∀ k ∈ candidates source, k.selector.head? ≠ some '@') ∧
        ∀ before line after, Text.lines source = before ++ line :: after → OpensAtRule line →
          selectorAfter (before ++ [line]) = selectorAfter before)
      ↔ ∀ line ∈ Text.lines source, ∀ indent head, AtRuleLine indent head line →
          indent = [] ∨ '\x7b' ∈ head := by
  constructor
  · rintro ⟨-, hkept⟩ line hline indent head hrule
    by_contra hcond
    obtain ⟨before, after, hlines⟩ := List.append_of_mem hline
    have hforce : selectorAfter (before ++ [line]) = some (Text.trim (indent ++ '@' :: head)) := by
      rw [selectorAfter_concat, selectorBehind, openedSelector?_atRule hrule, if_neg hcond]
    refine selectorAfter_not_atRule hkept (before ++ [line]) after (by simp [hlines]) _ hforce ?_
    obtain ⟨-, -, hindent, -⟩ := hrule
    exact head?_trim_atRule hindent head
  · intro hcond
    have hkept : ∀ before line after, Text.lines source = before ++ line :: after →
        OpensAtRule line → selectorAfter (before ++ [line]) = selectorAfter before := by
      intro before line after hlines hrule
      rw [selectorAfter_concat, hrule.selectorBehind_eq (hcond line (by simp [hlines]))]
    refine ⟨fun k hk => ?_, hkept⟩
    obtain ⟨before, line, after, hlines, s, hs, -, -, hk⟩ := mem_candidates_iff.mp hk
    obtain ⟨property, value, -, -, -, rfl⟩ := candidate?_eq_some_iff.mp hk
    exact selectorAfter_not_atRule hkept before _ hlines s hs

/-- An at-rule in a rule block, indented as it usually is: what it holds is reported
under it. -/
theorem indented_atRule_in_force :
    candidates ".a \x7b\n  @include mobile \x7b\n    width: 10px;\n  \x7d\n\x7d\n"
        = [⟨"@include mobile", "width", ["10px"], false, 3⟩] ∧
      ¬ ∀ k ∈ candidates ".a \x7b\n  @include mobile \x7b\n    width: 10px;\n  \x7d\n\x7d\n",
          k.selector.head? ≠ some '@' := by
  decide +kernel

end FluidScss
