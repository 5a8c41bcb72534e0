/-
FluidScss/Proofs/ManagedStamp.lean

The stamp of synced stylesheets.  It has two places: below a line that names
the character set, or in front of all else (`HasStamp`).  A stylesheet that
was stamped has its stamp in one of them (`hasStamp_withMarker`), whatever its
source is called, and one that has it is left alone (`withMarker_of_hasStamp`);
so stamping twice is stamping once.

Which of the two places it is must not change when the lines are put together
again.  The line break behind the first line may take a carriage return at its
end with it (`cssLines_append_cons`), but blanks at the ends of a line do not
count when it is asked for the character set.
-/
import FluidScss.Proofs.Text
import FluidScss.Watch.CssSync

namespace FluidScss

variable {css source line first second text : Text} {rest ls : List Text}

/-! ### Lines of a stylesheet -/

theorem cssLines_ne_nil (text : Text) : cssLines text ≠ [] := by
  fun_cases cssLines text with
  | case1 => exact List.cons_ne_nil _ _
  | case2 rest => exact List.cons_ne_nil _ _
  | case3 c rest => exact List.cons_ne_nil _ _
  | case4 c rest => cases cssLines rest <;> exact List.cons_ne_nil _ _

/-- Characters that are no part of a line break stand in front of the first
line. -/
theorem cssLines_append {front : Text} (hn : '\n' ∉ front) (hr : '\r' ∉ front)
    (h : cssLines text = first :: ls) : cssLines (front ++ text) = (front ++ first) :: ls := by
  induction front with
  | nil => exact h
  | cons c front ih =>
    rw [List.mem_cons, not_or] at hn hr
    rw [List.cons_append, cssLines.eq_3 _ _ fun _ he => absurd he.symm hr.1,
      if_neg (Ne.symm hn.1), ih hn.2 hr.2]
    rfl

/-- A line with its break begins the lines; a carriage return at its end goes
with the break. -/
theorem cssLines_append_cons (hn : '\n' ∉ line) (text : Text) :
    ∃ kept, (kept = line ∨ line = kept ++ ['\r']) ∧
      cssLines (line ++ '\n' :: text) = kept :: cssLines text := by
  induction line with
  | nil => exact ⟨[], .inl rfl, rfl⟩
  | cons c line ih =>
    rw [List.mem_cons, not_or] at hn
    by_cases hcr : c = '\r' ∧ line = []
    · obtain ⟨rfl, rfl⟩ := hcr
      exact ⟨[], .inr rfl, rfl⟩
    · obtain ⟨kept, hkept, hlines⟩ := ih hn.2
      have hbreak : ∀ t, c = '\r' → line ++ '\n' :: text = '\n' :: t → False := by
        rintro t rfl ht
        rcases line with - | ⟨d, line⟩
        · exact hcr ⟨rfl, rfl⟩
        · exact hn.2 ((List.cons.inj ht).1 ▸ List.mem_cons_self ..)
      refine ⟨c :: kept, hkept.imp (congrArg _) (congrArg _), ?_⟩
      rw [List.cons_append, cssLines.eq_3 _ _ hbreak, if_neg (Ne.symm hn.1), hlines]
      rfl

/-- The first line begins the text, and each line stands in it. -/
theorem cssLines_isInfix (h : cssLines text = first :: ls) :
    first <+: text ∧ ∀ line ∈ ls, line <:+: text := by
  fun_induction cssLines text generalizing first ls with
  | case1 =>
    cases h
    exact ⟨List.nil_prefix, nofun⟩
  | case2 rest ih =>
    cases h
    refine ⟨List.nil_prefix, fun line hm => ?_⟩
    obtain ⟨next, more, hnext⟩ := List.exists_cons_of_ne_nil (cssLines_ne_nil rest)
    rw [hnext] at hm
    obtain ⟨hp, hi⟩ := ih hnext
    rcases List.mem_cons.mp hm with rfl | hm
    · exact List.infix_cons (List.infix_cons hp.isInfix)
    · exact List.infix_cons (List.infix_cons (hi line hm))
  | case3 rest _ ih =>
    cases h
    refine ⟨List.nil_prefix, fun line hm => ?_⟩
    obtain ⟨next, more, hnext⟩ := List.exists_cons_of_ne_nil (cssLines_ne_nil rest)
    rw [hnext] at hm
    obtain ⟨hp, hi⟩ := ih hnext
    rcases List.mem_cons.mp hm with rfl | hm
    · exact List.infix_cons hp.isInfix
    · exact List.infix_cons (hi line hm)
  | case4 c rest _ hc ih =>
    obtain ⟨next, more, hnext⟩ := List.exists_cons_of_ne_nil (cssLines_ne_nil rest)
    rw [hnext] at h
    cases h
    obtain ⟨hp, hi⟩ := ih hnext
    exact ⟨List.cons_prefix_cons.mpr ⟨rfl, hp⟩, fun line hm => List.infix_cons (hi line hm)⟩

theorem newline_not_mem_cssLines (h : line ∈ cssLines text) : '\n' ∉ line := by
  fun_induction cssLines text generalizing line with
  | case1 =>
    rw [List.mem_singleton] at h
    exact h ▸ List.not_mem_nil
  | case2 rest ih =>
    rcases List.mem_cons.mp h with rfl | h
    · exact List.not_mem_nil
    · exact ih h
  | case3 rest _ ih =>
    rcases List.mem_cons.mp h with rfl | h
    · exact List.not_mem_nil
    · exact ih h
  | case4 c rest _ hc ih =>
    obtain ⟨next, more, hnext⟩ := List.exists_cons_of_ne_nil (cssLines_ne_nil rest)
    rw [hnext, Text.consHead] at h
    rw [hnext] at ih
    rcases List.mem_cons.mp h with rfl | h
    · rw [List.mem_cons, not_or]
      exact ⟨Ne.symm hc, ih (List.mem_cons_self ..)⟩
    · exact ih (List.mem_cons_of_mem _ h)

/-! ### Lines that name the character set -/

/-- Whether a line names the character set does not depend on a carriage
return at its end. -/
theorem isCharsetLine_concat_cr (line : Text) :
    isCharsetLine (line ++ ['\r']) = isCharsetLine line := by
  rw [isCharsetLine, isCharsetLine, Text.trim_concat_of_isBlank rfl]

/-- A line that names the character set does not begin with a comment. -/
theorem isCharsetLine_slash (text : Text) : isCharsetLine ('/' :: text) = false := by
  rw [isCharsetLine]
  have htrim : Text.trimLeft ('/' :: text) = '/' :: text := rfl
  obtain ⟨after, hafter⟩ := Text.trimRight_isPrefix ('/' :: text)
  refine if_neg fun h => ?_
  rw [List.isPrefixOf_iff_prefix, Text.trim, htrim] at h
  obtain ⟨tail, htail⟩ := h.trans ⟨after, hafter⟩
  cases htail

/-! ### The places of the stamp -/

/-- The stamp of a source stands in its place: below a line that names the
character set, where any stamp will do, or in front. -/
inductive HasStamp (source : Text) : Text → Prop
  | below {css first second : Text} {rest : List Text}
      (lines : cssLines css = first :: second :: rest) (charset : isCharsetLine first = true)
      (stamped : Text.contains managedStamp second = true) : HasStamp source css
  | front {css first : Text} {rest : List Text} (lines : cssLines css = first :: rest)
      (plain : isCharsetLine first = false) (stamped : managedComment source <+: css) :
      HasStamp source css

theorem managedComment_eq (source : Text) :
    managedComment source = ("/* " : Text) ++ managedStamp ++ (" source=" ++ source ++ " */") := by
  simp [managedComment]

/-- The comment of a source holds the stamp. -/
theorem contains_managedComment (source : Text) :
    Text.contains managedStamp (managedComment source) = true := by
  rw [Text.contains_iff_isInfix, managedComment_eq]
  exact ⟨_, _, rfl⟩

theorem contains_of_hasStamp (h : HasStamp source css) :
    Text.contains managedStamp css = true := by
  rw [Text.contains_iff_isInfix]
  cases h with
  | below lines _ stamped =>
    exact (Text.contains_iff_isInfix.mp stamped).trans
      ((cssLines_isInfix lines).2 _ (List.mem_cons_self ..))
  | front _ _ stamped =>
    exact (Text.contains_iff_isInfix.mp (contains_managedComment source)).trans stamped.isInfix

/-- A stylesheet that has its stamp is left as it is. -/
theorem withMarker_of_hasStamp (h : HasStamp source css) : withMarker css source = css := by
  rw [withMarker]
  cases h with
  | below lines charset stamped =>
    rw [lines]
    dsimp only
    rw [if_pos charset, List.head?_cons, Option.any_some, if_pos stamped]
  | front lines plain stamped =>
    rw [lines]
    dsimp only
    rw [if_neg (by rw [plain]; exact Bool.false_ne_true),
      if_pos (List.isPrefixOf_iff_prefix.mpr stamped)]

/-- The first line of a comment holds the stamp, whatever follows it. -/
theorem cssLines_managedComment (source after : Text) :
    ∃ first rest, cssLines (managedComment source ++ after) = ('/' :: first) :: rest ∧
      Text.contains managedStamp ('/' :: first) = true := by
  obtain ⟨line, rest, hlines⟩ := List.exists_cons_of_ne_nil
    (cssLines_ne_nil (" source=" ++ source ++ " */" ++ after))
  have hcut : managedComment source ++ after
      = ("/* " ++ managedStamp : Text) ++ (" source=" ++ source ++ " */" ++ after) := by
    rw [managedComment_eq, List.append_assoc]
  refine ⟨"* " ++ managedStamp ++ line, rest, ?_, ?_⟩
  · rw [hcut]
    exact cssLines_append (by decide) (by decide) hlines
  · rw [Text.contains_iff_isInfix]
    exact ⟨"/* ", line, rfl⟩

/-- A stylesheet that was stamped has its stamp. -/
theorem hasStamp_withMarker (css source : Text) : HasStamp source (withMarker css source) := by
  obtain ⟨first, rest, hlines⟩ := List.exists_cons_of_ne_nil (cssLines_ne_nil css)
  rw [withMarker, hlines]
  dsimp only
  by_cases hcharset : isCharsetLine first = true
  · rw [if_pos hcharset]
    by_cases hsecond : (rest.head?.any (Text.contains managedStamp)) = true
    · -- some stamp is there already
      rw [if_pos hsecond]
      rcases rest with - | ⟨second, rest⟩
      · cases hsecond
      · exact .below hlines hcharset hsecond
    · rw [if_neg hsecond]
      have hn : '\n' ∉ first := newline_not_mem_cssLines (hlines ▸ List.mem_cons_self ..)
      obtain ⟨kept, hkept, hcut⟩ :=
        cssLines_append_cons hn (Text.join "\n" (managedComment source :: rest))
      obtain ⟨second, more, hcomment, hstamped⟩ :=
        cssLines_managedComment source (rest.flatMap (("\n" : Text) ++ ·))
      rw [← Text.join_cons] at hcomment
      rw [hcomment] at hcut
      refine .below (by rw [Text.join_cons_cons]; exact hcut) ?_ hstamped
      rcases hkept with rfl | rfl
      · exact hcharset
      · rwa [isCharsetLine_concat_cr] at hcharset
  · rw [if_neg hcharset]
    rw [Bool.not_eq_true] at hcharset
    by_cases hfront : (managedComment source).isPrefixOf css = true
    · rw [if_pos hfront]
      exact .front hlines hcharset (List.isPrefixOf_iff_prefix.mp hfront)
    · rw [if_neg hfront]
      obtain ⟨line, more, hcomment, -⟩ := cssLines_managedComment source ("\n" ++ css)
      have hassoc : managedComment source ++ "\n" ++ css
          = managedComment source ++ ("\n" ++ css) := List.append_assoc ..
      rw [hassoc]
      exact .front hcomment (isCharsetLine_slash line) (List.prefix_append _ _)

/-- Stamping twice is stamping once. -/
theorem withMarker_withMarker (css source : Text) :
    withMarker (withMarker css source) source = withMarker css source :=
  withMarker_of_hasStamp (hasStamp_withMarker css source)

/-- The stamp brings in no carriage return but those of its source's name. -/
theorem unified_withMarker (hc : Text.Unified css) (hs : Text.Unified source) :
    Text.Unified (withMarker css source) := by
  have hcomment : Text.Unified (managedComment source) := by
    simp only [managedComment_eq, Text.unified_append]
    exact ⟨by decide, ⟨by decide, hs⟩, by decide⟩
  obtain ⟨first, rest, hlines⟩ := List.exists_cons_of_ne_nil (cssLines_ne_nil css)
  obtain ⟨hfirst, hrest⟩ := cssLines_isInfix hlines
  rw [withMarker, hlines]
  dsimp only
  split
  · split
    · exact hc
    · refine .join (by decide) fun line hm => ?_
      rcases List.mem_cons.mp hm with rfl | hm
      · exact hc.of_subset hfirst.subset
      rcases List.mem_cons.mp hm with rfl | hm
      · exact hcomment
      · exact hc.of_subset (hrest line hm).subset
  · split
    · exact hc
    · rw [Text.unified_append, Text.unified_append]
      exact ⟨⟨hcomment, by decide⟩, hc⟩

end FluidScss
