/-
FluidScss/Proofs/SourceComment.lean

Whether a stylesheet that was stamped names its source.  The comment with the
source's name has a line of its own, the first one, or the second one below a
line that names the character set (`stampLine`); taken out again it leaves the
stylesheet that was stamped (`dropLine`), but for the carriage returns of its
line breaks, which are lost where the lines are put together anew.

Stamping takes a stylesheet for stamped on less than that.  Below the character
set any comment with the stamp will do, another source's too, and in front a
line will do that goes on behind the comment.  `TakenForStamped` are the
stylesheets that pass for stamped and do not name the source, and
`withMarker_names_source_iff` says that they are all that fails.
-/
import FluidScss.Proofs.ManagedStamp

namespace FluidScss

variable {css source line first text : Text} {rest : List Text}

/-! ### The line of the stamp -/

/-- The line, counted from 0, in which a stylesheet is to name its source. -/
def stampLine (css : Text) : Nat := if (cssLines css).head?.any isCharsetLine then 1 else 0

/-- A text without one of its lines. -/
def dropLine (n : Nat) (text : Text) : Text :=
  Text.join "\n" ((Text.splitOn '\n' text).eraseIdx n)

/-- The text with LF for every CR LF. -/
def lineFeeds : Text → Text
  | [] => []
  | '\r' :: '\n' :: rest => '\n' :: lineFeeds rest
  | c :: rest => c :: lineFeeds rest

/-- The lines of a stylesheet, put together with LF. -/
theorem join_cssLines (text : Text) : Text.join "\n" (cssLines text) = lineFeeds text := by
  fun_induction cssLines text with
  | case1 => rfl
  | case2 rest ih =>
    rw [Text.join_nil_cons _ (cssLines_ne_nil rest), ih, lineFeeds]
    rfl
  | case3 rest hr ih =>
    rw [Text.join_nil_cons _ (cssLines_ne_nil rest), ih, lineFeeds.eq_3 _ _ hr]
    rfl
  | case4 c rest hr hc ih =>
    rw [Text.join_consHead _ _ (cssLines_ne_nil rest), ih, lineFeeds.eq_3 _ _ hr]

theorem dropLine_zero (hn : '\n' ∉ line) (text : Text) :
    dropLine 0 (line ++ '\n' :: text) = text := by
  rw [dropLine, Text.splitOn_append_cons hn, List.eraseIdx_cons_zero]
  exact Text.join_splitOn '\n' text

theorem dropLine_join {n : Nat} {ls : List Text} (hne : ls ≠ []) (h : ∀ line ∈ ls, '\n' ∉ line) :
    dropLine n (Text.join "\n" ls) = Text.join "\n" (ls.eraseIdx n) := by
  rw [dropLine]
  exact congrArg (fun parts => Text.join "\n" (parts.eraseIdx n)) (Text.splitOn_join hne h)

/-! ### The comment -/

theorem newline_not_mem_managedComment (hs : '\n' ∉ source) : '\n' ∉ managedComment source := by
  simp only [managedComment_eq, List.mem_append, not_or]
  exact ⟨by decide, ⟨by decide, hs⟩, by decide⟩

/-- The comment has a line of its own where a line break is behind it. -/
theorem cssLines_comment_cons (hs : '\n' ∉ source) (text : Text) :
    cssLines (managedComment source ++ '\n' :: text) = managedComment source :: cssLines text := by
  obtain ⟨kept, rfl | hcr, hlines⟩ :=
    cssLines_append_cons (newline_not_mem_managedComment hs) text
  · exact hlines
  · -- the comment does not end in a carriage return
    have hlast := congrArg List.getLast? hcr
    rw [managedComment_eq, ← List.append_assoc, List.getLast?_append, List.getLast?_concat] at hlast
    cases hlast

theorem cssLines_eq_singleton (hn : '\n' ∉ text) : cssLines text = [text] := by
  induction text with
  | nil => rfl
  | cons c text ih =>
    rw [List.mem_cons, not_or] at hn
    have hbreak : ∀ rest, c = '\r' → text = '\n' :: rest → False := by
      rintro rest - rfl
      exact hn.2 (List.mem_cons_self ..)
    rw [cssLines.eq_3 _ _ hbreak, if_neg (Ne.symm hn.1), ih hn.2]
    rfl

/-- The comment has a line of its own where lines stand below it, and where it
is the last line. -/
theorem cssLines_join_comment (hs : '\n' ∉ source) (ls : List Text) :
    ∃ more, cssLines (Text.join "\n" (managedComment source :: ls)) = managedComment source :: more := by
  rcases ls with - | ⟨line, ls⟩
  · rw [Text.join_singleton, cssLines_eq_singleton (newline_not_mem_managedComment hs)]
    exact ⟨[], rfl⟩
  · rw [Text.join_cons_cons]
    exact ⟨_, cssLines_comment_cons hs _⟩

/-! ### Stamping -/

/-- A stylesheet that passes for stamped and has no line with the comment of
the source: below the character set stands some other comment with the stamp,
or the line in front goes on behind the comment. -/
inductive TakenForStamped (source : Text) : Text → Prop
  | below {css first second : Text} {rest : List Text}
      (lines : cssLines css = first :: second :: rest) (charset : isCharsetLine first = true)
      (stamped : Text.contains managedStamp second = true)
      (other : second ≠ managedComment source) : TakenForStamped source css
  | front {css first : Text} {rest : List Text} (lines : cssLines css = first :: rest)
      (plain : isCharsetLine first = false) (stamped : managedComment source <+: css)
      (longer : first ≠ managedComment source) : TakenForStamped source css

/-- They are those that have the stamp but not the comment's line. -/
theorem takenForStamped_iff : TakenForStamped source css ↔
    HasStamp source css ∧ (cssLines css)[stampLine css]? ≠ some (managedComment source) := by
  constructor
  · rintro (⟨lines, charset, stamped, other⟩ | ⟨lines, plain, stamped, longer⟩)
    · refine ⟨.below lines charset stamped, ?_⟩
      rw [stampLine, lines]
      simpa [charset] using other
    · refine ⟨.front lines plain stamped, ?_⟩
      rw [stampLine, lines]
      simpa [plain] using longer
  · rintro ⟨⟨lines, charset, stamped⟩ | ⟨lines, plain, stamped⟩, hline⟩ <;>
      rw [stampLine, lines] at hline
    · exact .below lines charset stamped (by simpa [charset] using hline)
    · exact .front lines plain stamped (by simpa [plain] using hline)

/-- A stylesheet that has the comment in its place has the stamp. -/
theorem hasStamp_of_line (h : (cssLines css)[stampLine css]? = some (managedComment source)) :
    HasStamp source css := by
  obtain ⟨first, rest, hlines⟩ := List.exists_cons_of_ne_nil (cssLines_ne_nil css)
  rw [stampLine, hlines] at h
  rcases hc : isCharsetLine first with - | -
  · simp only [hc, List.head?_cons, Option.any_some, Bool.false_eq_true, if_false,
      List.getElem?_cons_zero, Option.some.injEq] at h
    exact .front hlines hc (h ▸ (cssLines_isInfix hlines).1)
  · rcases rest with - | ⟨second, rest⟩ <;>
      simp only [hc, List.head?_cons, Option.any_some, if_true, List.getElem?_cons_succ,
        List.getElem?_cons_zero, List.getElem?_nil, reduceCtorEq, Option.some.injEq] at h
    exact .below hlines hc (h ▸ contains_managedComment source)

/-- A stylesheet without the stamp has it put in: a line of its own below the
character set, or in front. -/
theorem withMarker_of_not_hasStamp (h : ¬ HasStamp source css)
    (hlines : cssLines css = first :: rest) :
    withMarker css source = if isCharsetLine first then
      Text.join "\n" (first :: managedComment source :: rest)
    else managedComment source ++ '\n' :: css := by
  rw [withMarker, hlines]
  dsimp only
  rcases hc : isCharsetLine first with - | -
  · have hfront : (managedComment source).isPrefixOf css ≠ true := fun hp =>
      h (.front hlines hc (List.isPrefixOf_iff_prefix.mp hp))
    rw [if_neg Bool.false_ne_true, if_neg Bool.false_ne_true, if_neg hfront]
    exact List.append_assoc ..
  · have hsecond : rest.head?.any (Text.contains managedStamp) ≠ true := by
      intro hs
      rcases rest with - | ⟨second, rest⟩
      · cases hs
      · exact h (.below hlines hc hs)
    rw [if_pos rfl, if_pos rfl, if_neg hsecond]

/-- What stamping is to do: the comment has its line, and a stylesheet that had
it is left alone, while another one gets it and nothing else. -/
structure NamesSource (css source stamped : Text) : Prop where
  named : (cssLines stamped)[stampLine css]? = some (managedComment source)
  kept : (cssLines css)[stampLine css]? = some (managedComment source) → stamped = css
  added : (cssLines css)[stampLine css]? ≠ some (managedComment source) →
    dropLine (stampLine css) stamped = if stampLine css = 0 then css else lineFeeds css

/-- What has no stamp is stamped as it should be. -/
theorem namesSource_of_not_hasStamp (hs : '\n' ∉ source) (h : ¬ HasStamp source css) :
    NamesSource css source (withMarker css source) := by
  obtain ⟨first, rest, hlines⟩ := List.exists_cons_of_ne_nil (cssLines_ne_nil css)
  have hn : ∀ line ∈ first :: rest, '\n' ∉ line := fun line hm =>
    newline_not_mem_cssLines (hlines ▸ hm)
  have hstamped := withMarker_of_not_hasStamp h hlines
  rcases hc : isCharsetLine first with - | - <;> rw [hc] at hstamped
  · have hzero : stampLine css = 0 := by simp [stampLine, hlines, hc]
    rw [if_neg Bool.false_ne_true] at hstamped
    refine ⟨?_, fun hline => absurd (hasStamp_of_line hline) h, fun _ => ?_⟩
    · rw [hstamped, hzero, cssLines_comment_cons hs]
      rfl
    · rw [hstamped, hzero, if_pos rfl, dropLine_zero (newline_not_mem_managedComment hs)]
  · have hone : stampLine css = 1 := by simp [stampLine, hlines, hc]
    rw [if_pos rfl] at hstamped
    refine ⟨?_, fun hline => absurd (hasStamp_of_line hline) h, fun _ => ?_⟩
    · obtain ⟨more, hmore⟩ := cssLines_join_comment hs rest
      obtain ⟨kept, -, hcut⟩ := cssLines_append_cons (hn first (List.mem_cons_self ..))
        (Text.join "\n" (managedComment source :: rest))
      rw [hstamped, hone, Text.join_cons_cons]
      have hcut' := hcut.trans (congrArg _ hmore)
      exact congrArg (fun ls : List Text => ls[1]?) hcut'
    · rw [hstamped, hone, if_neg Nat.one_ne_zero, dropLine_join (List.cons_ne_nil _ _),
        ← join_cssLines, hlines]
      · rfl
      · intro line hm
        rcases List.mem_cons.mp hm with rfl | hm
        · exact hn _ (List.mem_cons_self ..)
        rcases List.mem_cons.mp hm with rfl | hm
        · exact newline_not_mem_managedComment hs
        · exact hn _ (List.mem_cons_of_mem _ hm)

/-- **The stylesheet names its source** if it does not pass for stamped: for
every source whose name holds no line break, the comment has its line in the
stamped stylesheet, and without that line it is the stylesheet that was
stamped, unless that had the line already.  A stylesheet that passes for
stamped is left without the line, as it is. -/
theorem withMarker_names_source_iff (css source : Text) (hs : '\n' ∉ source) :
    (NamesSource css source (withMarker css source) ↔ ¬ TakenForStamped source css) ∧
      (TakenForStamped source css → withMarker css source = css) := by
  refine ⟨⟨fun h ht => ?_, fun ht => ?_⟩, fun ht => ?_⟩
  · obtain ⟨hstamp, hline⟩ := takenForStamped_iff.mp ht
    have hnamed := h.named
    rw [withMarker_of_hasStamp hstamp] at hnamed
    exact hline hnamed
  · by_cases hstamp : HasStamp source css
    · have hline : (cssLines css)[stampLine css]? = some (managedComment source) :=
        Decidable.not_not.mp fun hline => ht (takenForStamped_iff.mpr ⟨hstamp, hline⟩)
      rw [withMarker_of_hasStamp hstamp]
      exact ⟨hline, fun _ => rfl, fun hne => absurd hline hne⟩
    · exact namesSource_of_not_hasStamp hs hstamp
  · exact withMarker_of_hasStamp (takenForStamped_iff.mp ht).1

/-- Below a line that names the character set, and with CR LF. -/
theorem withMarker_names_source_below :
    '\n' ∉ ("s.scss" : Text) ∧ NamesSource "@charset \"UTF-8\";\r\n.a \x7b\x7d\r\n" "s.scss"
      (withMarker "@charset \"UTF-8\";\r\n.a \x7b\x7d\r\n" "s.scss") := by
  obtain ⟨hnames, hleft⟩ := withMarker_names_source_iff
    "@charset \"UTF-8\";\r\n.a \x7b\x7d\r\n" "s.scss" (by decide)
  exact ⟨by decide, hnames.mpr fun ht => absurd (hleft ht) (by decide +kernel)⟩

/-- The comment of another source passes for the stamp. -/
theorem comment_of_other_source_stays :
    ∃ css source, '\n' ∉ source ∧ (cssLines css)[stampLine css]? = some (managedComment "a.scss") ∧
      withMarker css source = css ∧ ¬ NamesSource css source (withMarker css source) :=
  ⟨"@charset \"UTF-8\";\n/* scss-kit:managed source=a.scss */\n", "b.scss",
    by decide, by decide +kernel, by decide +kernel, fun h => absurd h.named (by decide +kernel)⟩

end FluidScss
