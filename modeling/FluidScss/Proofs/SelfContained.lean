/-
FluidScss/Proofs/SelfContained.lean

Texts that keep their quotes and parentheses to themselves.  A text is
self-contained if the scan of quotes and parentheses comes from outside of all
of them to outside of all of them again, closes no parenthesis that it has not
opened, and meets the separator only inside of them.

Outside of strings the character read last does not count
(`Quoting.step_of_unquoted`), so behind such a text both scans go on as if they
began there (`breakAtCloseFrom_append`, `piecesFrom_append`).  From this
follows what a list of such texts with the separator between is to them: the
closing scan passes over it (`breakAtClose_join`), and the splitting scan cuts
it into the list (`splitTopLevel_join_of_selfContained`).

The other way round, what the scans find is self-contained: the text between a
parenthesis and the one that closes it
(`selfContainedFrom_of_breakAtCloseFrom`), the parts it is cut into
(`selfContained_piecesFrom`), also when they are trimmed (`SelfContained.trim`).
And in a self-contained text each open parenthesis is closed
(`exists_breakAtCloseFrom`).
-/
import FluidScss.Delimiter
import FluidScss.Proofs.Text

namespace FluidScss

variable {s : Quoting} {sep c : Char} {depth : Nat} {text rest : Text} {parts : List Text}

/-! ### Scans outside of strings -/

namespace Quoting

/-- Outside of strings a scan has nothing to look back for. -/
theorem step_of_unquoted (h : s.quote = none) (c : Char) : s.step c = ({} : Quoting).step c := by
  simp only [step, h]

theorem bare_of_unquoted (h : s.quote = none) (c : Char) : s.bare c = ({} : Quoting).bare c := by
  rw [bare, h]
  rfl

theorem depthAfter_of_unquoted (h : s.quote = none) (depth : Nat) (c : Char) :
    s.depthAfter depth c = ({} : Quoting).depthAfter depth c := by
  rw [depthAfter, bare_of_unquoted h]
  rfl

theorem quote_of_bare (h : s.bare c = true) : s.quote = none := by
  rw [bare, Bool.and_eq_true, Option.isNone_iff_eq_none] at h
  exact h.1

/-- In a string another character is read on. -/
theorem quote_step_of_ne {quote : Char} (hs : s.quote = some quote) (hc : c ≠ quote) :
    (s.step c).quote = some quote := by
  simp only [step, hs]
  exact if_neg fun h => hc h.1

/-- The scan after a text. -/
def after (s : Quoting) (text : Text) : Quoting := text.foldl step s

theorem after_append (s : Quoting) (text rest : Text) :
    s.after (text ++ rest) = (s.after text).after rest := List.foldl_append

end Quoting

theorem breakAtCloseFrom_of_unquoted (h : s.quote = none) (depth : Nat) (text : Text) :
    breakAtCloseFrom s depth text = breakAtCloseFrom {} depth text := by
  cases text with
  | nil => rfl
  | cons c rest =>
    rw [breakAtCloseFrom, breakAtCloseFrom, s.bare_of_unquoted h, s.step_of_unquoted h,
      s.depthAfter_of_unquoted h]

theorem piecesFrom_of_unquoted (h : s.quote = none) (sep : Text) (depth : Nat) (text : Text) :
    piecesFrom sep s depth text = piecesFrom sep {} depth text := by
  cases text with
  | nil => rfl
  | cons c rest =>
    rw [piecesFrom, piecesFrom, s.bare_of_unquoted h, s.step_of_unquoted h,
      s.depthAfter_of_unquoted h]

/-! ### Self-contained texts -/

/-- The scan, with `depth` parentheses open, reads the text to its end outside
of strings and parentheses; on the way it closes none that is not open, and
meets `sep` only inside of them. -/
def SelfContainedFrom (sep : Char) (s : Quoting) (depth : Nat) : Text → Prop
  | [] => s.quote = none ∧ depth = 0
  | c :: rest =>
    (s.bare c = true → depth = 0 → c ≠ ')' ∧ c ≠ sep) ∧
      SelfContainedFrom sep (s.step c) (s.depthAfter depth c) rest

instance decidableSelfContainedFrom (sep : Char) :
    ∀ s depth text, Decidable (SelfContainedFrom sep s depth text)
  | s, depth, [] => inferInstanceAs (Decidable (s.quote = none ∧ depth = 0))
  | s, depth, c :: rest =>
    have := decidableSelfContainedFrom sep (s.step c) (s.depthAfter depth c) rest
    inferInstanceAs (Decidable ((s.bare c = true → depth = 0 → c ≠ ')' ∧ c ≠ sep) ∧
      SelfContainedFrom sep (s.step c) (s.depthAfter depth c) rest))

/-- A text whose quotes and parentheses are its own and which has no separator
outside of them. -/
def SelfContained (sep : Char) (text : Text) : Prop := SelfContainedFrom sep {} 0 text

instance (sep : Char) (text : Text) : Decidable (SelfContained sep text) :=
  inferInstanceAs (Decidable (SelfContainedFrom sep {} 0 text))

/-- The closing scan reads over the text and goes on as if it began there. -/
theorem breakAtCloseFrom_append (h : SelfContainedFrom sep s depth text) (rest : Text) :
    breakAtCloseFrom s depth (text ++ rest)
      = (breakAtClose rest).map fun (inside, after) => (text ++ inside, after) := by
  induction text generalizing s depth with
  | nil =>
    -- outside of strings again, the scan has forgotten the text
    obtain ⟨hquote, rfl⟩ := h
    rw [List.nil_append, breakAtCloseFrom_of_unquoted hquote, breakAtClose]
    simp
  | cons c text ih =>
    obtain ⟨hc, htext⟩ := h
    have hopen : ¬ (s.bare c = true ∧ c = ')' ∧ depth = 0) :=
      fun ⟨hbare, hclose, hdepth⟩ => (hc hbare hdepth).1 hclose
    rw [List.cons_append, breakAtCloseFrom, if_neg hopen, ih htext, Option.map_map]
    rfl

/-- The splitting scan puts the text in front of the first part behind it. -/
theorem piecesFrom_append (h : SelfContainedFrom sep s depth text) (rest : Text) :
    piecesFrom [sep] s depth (text ++ rest) = text.foldr Text.consHead (pieces [sep] rest) := by
  induction text generalizing s depth with
  | nil =>
    obtain ⟨hquote, rfl⟩ := h
    rw [List.nil_append, piecesFrom_of_unquoted hquote]
    rfl
  | cons c text ih =>
    obtain ⟨hc, htext⟩ := h
    have hkeep : ¬ (s.bare c = true ∧ c ≠ '(' ∧ c ≠ ')' ∧ [c] = [sep] ∧ depth = 0) :=
      fun ⟨hbare, _, _, hsep, hdepth⟩ => (hc hbare hdepth).2 (List.cons.inj hsep).1
    rw [List.cons_append, piecesFrom, if_neg hkeep, ih htext, List.foldr_cons]

/-! ### Separators between them -/

/-- A character that both scans read over outside of strings and parentheses:
no quote and no parenthesis. -/
structure IsSeparator (sep : Char) : Prop where
  not_quote : isQuote sep = false
  not_open : sep ≠ '('
  not_close : sep ≠ ')'

theorem isSeparator_comma : IsSeparator ',' := ⟨rfl, by decide, by decide⟩

namespace IsSeparator

theorem bare (h : IsSeparator sep) : ({} : Quoting).bare sep = true := by
  rw [Quoting.bare, h.not_quote]
  rfl

theorem quote_step (h : IsSeparator sep) (hs : s.quote = none) : (s.step sep).quote = none := by
  simp only [Quoting.step, hs, h.not_quote]
  rfl

theorem depthAfter (h : IsSeparator sep) (s : Quoting) (depth : Nat) :
    s.depthAfter depth sep = depth := by
  rw [Quoting.depthAfter, if_neg h.not_open, if_neg h.not_close, ite_self]

theorem breakAtClose_cons (h : IsSeparator sep) (rest : Text) :
    breakAtClose (sep :: rest)
      = (breakAtClose rest).map fun (inside, after) => (sep :: inside, after) := by
  rw [breakAtClose, breakAtCloseFrom, if_neg fun hclose => h.not_close hclose.2.1, h.depthAfter,
    breakAtCloseFrom_of_unquoted (h.quote_step rfl)]
  rfl

theorem pieces_cons (h : IsSeparator sep) (rest : Text) :
    pieces [sep] (sep :: rest) = [] :: pieces [sep] rest := by
  rw [pieces, piecesFrom, if_pos ⟨h.bare, h.not_open, h.not_close, rfl, rfl⟩,
    piecesFrom_of_unquoted (h.quote_step rfl)]
  rfl

end IsSeparator

/-- Without quotes and parentheses every separator is at the top level. -/
theorem pieces_eq_splitOn (h : ∀ c ∈ text, IsSeparator c) (sep : Char) :
    pieces [sep] text = Text.splitOn sep text := by
  have hscan : ∀ s : Quoting, s.quote = none →
      piecesFrom [sep] s 0 text = Text.splitOn sep text := by
    -- no string is ever open and the depth stays zero
    induction text with
    | nil =>
      intro s _
      rfl
    | cons d text ih =>
      intro s hs
      obtain ⟨hd, htext⟩ := List.forall_mem_cons.mp h
      have hbare : s.bare d = true := by
        rw [s.bare_of_unquoted hs]
        exact hd.bare
      rw [piecesFrom, Text.splitOn, hd.depthAfter, ih htext _ (hd.quote_step hs)]
      by_cases hc : d = sep
      · rw [if_pos ⟨hbare, hd.not_open, hd.not_close, by rw [hc], rfl⟩, if_pos hc]
      · rw [if_neg fun h => hc (List.cons.inj h.2.2.2.1).1, if_neg hc]
  exact hscan {} rfl

theorem foldr_consHead (text part : Text) (parts : List Text) :
    text.foldr Text.consHead (part :: parts) = (text ++ part) :: parts := by
  induction text with
  | nil => rfl
  | cons c text ih => rw [List.foldr_cons, ih, Text.consHead, List.cons_append]

/-- The parenthesis behind self-contained texts closes the one before them. -/
theorem breakAtClose_join (hsep : IsSeparator sep) (h : ∀ part ∈ parts, SelfContained sep part)
    (rest : Text) :
    breakAtClose (Text.join [sep] parts ++ ')' :: rest) = some (Text.join [sep] parts, rest) := by
  induction parts with
  | nil => rfl
  | cons part parts ih =>
    obtain ⟨hpart, hparts⟩ := List.forall_mem_cons.mp h
    cases parts with
    | nil =>
      rw [Text.join_singleton, breakAtClose, breakAtCloseFrom_append hpart]
      show some (part ++ [], rest) = some (part, rest)
      rw [List.append_nil]
    | cons next parts =>
      rw [Text.join_cons_cons, List.append_assoc, breakAtClose, breakAtCloseFrom_append hpart,
        List.singleton_append, List.cons_append, hsep.breakAtClose_cons, ih hparts]
      rfl

/-- The raw parts of self-contained texts with the separator between them are
the texts. -/
theorem pieces_join_of_selfContained (hsep : IsSeparator sep) (hne : parts ≠ [])
    (h : ∀ part ∈ parts, SelfContained sep part) :
    pieces [sep] (Text.join [sep] parts) = parts := by
  induction parts with
  | nil => exact absurd rfl hne
  | cons part parts ih =>
    obtain ⟨hpart, hparts⟩ := List.forall_mem_cons.mp h
    cases parts with
    | nil =>
      have hpieces := piecesFrom_append hpart []
      rw [List.append_nil] at hpieces
      rw [Text.join_singleton, pieces, hpieces]
      show part.foldr Text.consHead [[]] = [part]
      rw [foldr_consHead, List.append_nil]
    | cons next parts =>
      rw [Text.join_cons_cons, pieces, piecesFrom_append hpart, List.singleton_append,
        hsep.pieces_cons, ih (List.cons_ne_nil _ _) hparts, foldr_consHead, List.append_nil]

/-- If the last part is not blank, all are kept. -/
theorem splitTopLevel_of_pieces {sep : Text} (hpieces : pieces sep text = parts)
    (hlast : ∀ part, parts.getLast? = some part → Text.isBlank part = false) :
    splitTopLevel sep text = parts.map Text.trim := by
  have hkept : (parts.map Text.trim).getLast? ≠ some [] := by
    intro hl
    rw [List.getLast?_map, Option.map_eq_some_iff] at hl
    obtain ⟨part, hpart, htrim⟩ := hl
    have hblank := Text.trim_eq_nil_iff.mp htrim
    rw [hlast part hpart] at hblank
    cases hblank
  rw [splitTopLevel, hpieces]
  exact if_neg hkept

/-- **Joining is undone by splitting**: self-contained texts with the separator
between them, the last not blank, are cut into these texts, trimmed. -/
theorem splitTopLevel_join_of_selfContained (hsep : IsSeparator sep)
    (h : ∀ part ∈ parts, SelfContained sep part)
    (hlast : ∀ part, parts.getLast? = some part → Text.isBlank part = false) :
    splitTopLevel [sep] (Text.join [sep] parts) = parts.map Text.trim := by
  by_cases hne : parts = []
  · -- an empty text has one empty part, which is dropped as blank
    rw [hne]
    rfl
  · exact splitTopLevel_of_pieces (pieces_join_of_selfContained hsep hne h) hlast

/-! ### Parts of self-contained texts -/

instance (c : Char) : Decidable (IsSeparator c) :=
  decidable_of_iff (isQuote c = false ∧ c ≠ '(' ∧ c ≠ ')')
    ⟨fun ⟨hquote, hopen, hclose⟩ => ⟨hquote, hopen, hclose⟩, fun ⟨hquote, hopen, hclose⟩ =>
      ⟨hquote, hopen, hclose⟩⟩

theorem selfContainedFrom_of_unquoted (h : s.quote = none) :
    SelfContainedFrom sep s depth text ↔ SelfContainedFrom sep {} depth text := by
  cases text with
  | nil => rw [SelfContainedFrom, SelfContainedFrom, h]
  | cons c rest =>
    rw [SelfContainedFrom, SelfContainedFrom, s.bare_of_unquoted h, s.step_of_unquoted h,
      s.depthAfter_of_unquoted h]

/-- What is left of a text that is read to its end is read to its end too. -/
theorem exists_selfContainedFrom_after (h : SelfContainedFrom sep s depth (text ++ rest)) :
    ∃ depth, SelfContainedFrom sep (s.after text) depth rest := by
  induction text generalizing s depth with
  | nil => exact ⟨depth, h⟩
  | cons c text ih => exact ih h.2

/-- Outside of strings characters that are no quotes and no parentheses change
nothing. -/
theorem selfContainedFrom_after (hs : s.quote = none) (htext : ∀ c ∈ text, IsSeparator c)
    (h : SelfContainedFrom sep s depth (text ++ rest)) :
    (s.after text).quote = none ∧ SelfContainedFrom sep (s.after text) depth rest := by
  induction text generalizing s with
  | nil => exact ⟨hs, h⟩
  | cons c text ih =>
    obtain ⟨hc, htext⟩ := List.forall_mem_cons.mp htext
    have hrest := h.2
    rw [hc.depthAfter] at hrest
    exact ih (hc.quote_step hs) htext hrest

/-- One parenthesis more is open from the beginning, and stays open as long as
the scan that does not count it has not found its end. -/
theorem depthAfter_add (s : Quoting) (depth more : Nat) (c : Char)
    (h : ¬ (s.bare c = true ∧ c = ')' ∧ depth = 0)) :
    s.depthAfter (depth + 1 + more) c = s.depthAfter depth c + 1 + more := by
  simp only [Quoting.depthAfter]
  split
  · rename_i hbare
    split
    · omega
    · split
      · rename_i hclose
        have hpos : depth ≠ 0 := fun h0 => h ⟨hbare, hclose, h0⟩
        omega
      · rfl
  · rfl

/-- In a self-contained text each open parenthesis is closed, and what is behind
it is read with one less. -/
theorem exists_breakAtCloseFrom {more : Nat}
    (h : SelfContainedFrom sep s (depth + 1 + more) text) :
    ∃ inside after, breakAtCloseFrom s depth text = some (inside, after) ∧
      (s.after (inside ++ ")")).quote = none ∧
      SelfContainedFrom sep (s.after (inside ++ ")")) more after := by
  induction text generalizing s depth with
  | nil => exact absurd h.2 (by omega)
  | cons c text ih =>
    obtain ⟨-, hrest⟩ := h
    rw [breakAtCloseFrom]
    by_cases hc : s.bare c = true ∧ c = ')' ∧ depth = 0
    · rw [if_pos hc]
      obtain ⟨hbare, rfl, rfl⟩ := hc
      have hdepth : s.depthAfter (0 + 1 + more) ')' = more := by
        rw [Quoting.depthAfter, if_pos hbare, if_neg (by decide), if_pos rfl]
        omega
      rw [hdepth] at hrest
      refine ⟨[], text, rfl, ?_, hrest⟩
      show (s.step ')').quote = none
      rw [s.step_of_unquoted (Quoting.quote_of_bare hbare)]
      rfl
    · rw [if_neg hc]
      rw [depthAfter_add s depth more c hc] at hrest
      obtain ⟨inside, after, hbreak, hquote, hafter⟩ := ih hrest
      refine ⟨c :: inside, after, ?_, hquote, hafter⟩
      rw [hbreak]
      rfl

/-- Between a parenthesis and the one that closes it a text is self-contained. -/
theorem selfContainedFrom_of_breakAtCloseFrom {inside after : Text}
    (h : breakAtCloseFrom s depth text = some (inside, after)) :
    SelfContainedFrom ')' s depth inside := by
  induction text generalizing s depth inside with
  | nil => cases h
  | cons c text ih =>
    rw [breakAtCloseFrom] at h
    split at h
    · rename_i hc
      cases h
      exact ⟨Quoting.quote_of_bare hc.1, hc.2.2⟩
    · rename_i hc
      obtain ⟨⟨inside, after⟩, hbreak, he⟩ := Option.map_eq_some_iff.mp h
      cases he
      have hclose : s.bare c = true → depth = 0 → c ≠ ')' :=
        fun hbare hdepth hc' => hc ⟨hbare, hc', hdepth⟩
      exact ⟨fun hbare hdepth => ⟨hclose hbare hdepth, hclose hbare hdepth⟩, ih hbreak⟩

/-- The parenthesis behind a self-contained text closes the one before it. -/
theorem breakAtClose_append_close (h : SelfContained sep text) (rest : Text) :
    breakAtClose (text ++ ')' :: rest) = some (text, rest) := by
  rw [breakAtClose, breakAtCloseFrom_append h]
  show some (text ++ [], rest) = some (text, rest)
  rw [List.append_nil]

/-- A text is cut into self-contained parts; the first goes on where the scan
stands. -/
theorem selfContained_piecesFrom (hsep : IsSeparator sep) (h : SelfContainedFrom ')' s depth text) :
    ∃ part parts, piecesFrom [sep] s depth text = part :: parts ∧
      SelfContainedFrom sep s depth part ∧ ∀ p ∈ parts, SelfContained sep p := by
  induction text generalizing s depth with
  | nil => exact ⟨[], [], rfl, h, nofun⟩
  | cons c text ih =>
    obtain ⟨hc, htext⟩ := h
    rw [piecesFrom]
    split
    · rename_i hcut
      obtain ⟨hbare, -, -, hsepc, rfl⟩ := hcut
      obtain rfl : c = sep := (List.cons.inj hsepc).1
      have hs := Quoting.quote_of_bare hbare
      rw [hsep.depthAfter] at htext
      obtain ⟨part, parts, hpieces, hpart, hparts⟩ := ih htext
      rw [selfContainedFrom_of_unquoted (hsep.quote_step hs)] at hpart
      refine ⟨[], part :: parts, ?_, ⟨hs, rfl⟩, List.forall_mem_cons.mpr ⟨hpart, hparts⟩⟩
      rw [hpieces]
    · rename_i hcut
      obtain ⟨part, parts, hpieces, hpart, hparts⟩ := ih htext
      refine ⟨c :: part, parts, ?_, ⟨fun hbare hdepth => ⟨(hc hbare hdepth).1, ?_⟩, hpart⟩, hparts⟩
      · rw [hpieces]
        rfl
      · rintro rfl
        exact hcut ⟨hbare, hsep.not_open, hsep.not_close, rfl, hdepth⟩

theorem isBlank_of_isQuote (h : isQuote c = true) : isBlank c = false := by
  simp only [isQuote, Bool.or_eq_true, decide_eq_true_eq] at h
  rcases h with rfl | rfl <;> rfl

theorem isSeparator_of_isBlank (h : isBlank c = true) : IsSeparator c := by
  refine ⟨Bool.eq_false_iff.mpr fun hquote => ?_, ?_, ?_⟩
  · rw [isBlank_of_isQuote hquote] at h
    cases h
  · rintro rfl
    cases h
  · rintro rfl
    cases h

/-- A string that is open stays open over characters that are no quotes. -/
theorem quote_after_of_separators {q : Char} (hs : s.quote = some q) (hq : isQuote q = true)
    (htext : ∀ c ∈ text, IsSeparator c) : (s.after text).quote = some q := by
  induction text generalizing s with
  | nil => exact hs
  | cons c text ih =>
    obtain ⟨hc, htext⟩ := List.forall_mem_cons.mp htext
    have hne : c ≠ q := by
      rintro rfl
      rw [hc.not_quote] at hq
      cases hq
    exact ih (Quoting.quote_step_of_ne hs hne) htext

/-- Quotes and parentheses are even before the blanks at the end of a text. -/
theorem selfContainedFrom_of_append (hs : ∀ q, s.quote = some q → isQuote q = true)
    (hrest : ∀ c ∈ rest, IsSeparator c) (h : SelfContainedFrom sep s depth (text ++ rest)) :
    SelfContainedFrom sep s depth text := by
  induction text generalizing s depth with
  | nil =>
    -- the end is outside of strings, so the blanks are
    have hend : SelfContainedFrom sep s depth (rest ++ []) := by rwa [List.append_nil]
    obtain ⟨-, hquote, -⟩ := exists_selfContainedFrom_after hend
    rcases hopen : s.quote with - | q
    · exact ⟨hopen, (selfContainedFrom_after hopen hrest hend).2.2⟩
    · rw [quote_after_of_separators hopen (hs q hopen) hrest] at hquote
      cases hquote
  | cons c text ih =>
    refine ⟨h.1, ih (fun q hq => ?_) h.2⟩
    simp only [Quoting.step] at hq
    split at hq
    · rename_i hopen
      split at hq
      · cases hq
      · cases hq
        exact hs q hopen
    · split at hq
      · rename_i hquote
        cases hq
        exact hquote
      · cases hq

/-- Trimming takes no quote and no parenthesis. -/
theorem SelfContained.trim (h : SelfContained sep text) : SelfContained sep (Text.trim text) := by
  obtain ⟨left, right, htext, hleft, hright⟩ := Text.exists_trim text
  have hseparators : ∀ blanks : Text, Text.isBlank blanks = true → ∀ c ∈ blanks, IsSeparator c :=
    fun blanks hblank c hc => isSeparator_of_isBlank (List.all_eq_true.mp hblank c hc)
  rw [SelfContained, htext] at h
  obtain ⟨hquote, hrest⟩ := selfContainedFrom_after rfl (hseparators left hleft) h
  rw [selfContainedFrom_of_unquoted hquote] at hrest
  exact selfContainedFrom_of_append nofun (hseparators right hright) hrest

end FluidScss
