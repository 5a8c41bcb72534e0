/-
FluidScss/Proofs/Splitting.lean

Splitting a text at the top level loses nothing, does all there is to do, and
undoes joining (`splitTopLevel_lossless`).

The raw parts joined give the text back (`join_pieces`), for any text: with
parentheses and strings that are never closed, and with closing parentheses too
many.  Each raw part is read by itself as it was read in the text, so splitting it
finds nothing to cut (`pieces_of_mem_pieces`); neither does it without the blanks at
its ends (`pieces_trim`).  And well-nested texts without a comma of their own are
what their list is cut into, for the blank behind a comma is trimmed off with the
others (`splitTopLevel_join_comma_blank`).
-/
import FluidScss.Proofs.WellNested

namespace FluidScss

variable {s : Quoting} {sep c : Char} {depth : Nat} {text part rest : Text} {parts : List Text}

/-! ### Parts -/

/-- The parts without the last one, if that is blank. -/
def withoutBlankEnd (parts : List Text) : List Text :=
  if parts.getLast?.any Text.isBlank then parts.dropLast else parts

theorem splitTopLevel_eq_map_trim (sep text : Text) :
    splitTopLevel sep text = (withoutBlankEnd (pieces sep text)).map Text.trim := by
  have hblank : ((pieces sep text).map Text.trim).getLast? = some [] ↔
      (pieces sep text).getLast?.any Text.isBlank = true := by
    rw [List.getLast?_map]
    cases (pieces sep text).getLast? with
    | none => simp
    | some part => simp [Text.trim_eq_nil_iff]
  rw [splitTopLevel, withoutBlankEnd]
  simp only [hblank]
  split
  · exact (List.map_dropLast ..).symm
  · rfl

theorem exists_mem_pieces_of_mem_splitTopLevel {sep : Text} (h : part ∈ splitTopLevel sep text) :
    ∃ piece ∈ pieces sep text, Text.trim piece = part := by
  rw [splitTopLevel_eq_map_trim, List.mem_map] at h
  obtain ⟨piece, hpiece, htrim⟩ := h
  refine ⟨piece, ?_, htrim⟩
  rw [withoutBlankEnd] at hpiece
  split at hpiece
  · exact List.dropLast_subset _ hpiece
  · exact hpiece

/-! ### Splitting a part again -/

/-- A part with a character in front is one part only if it was one, and the
character is not cut off. -/
theorem eq_of_piecesFrom_cons (h : piecesFrom [sep] s depth (c :: text) = [c :: text]) :
    piecesFrom [sep] (s.step c) (s.depthAfter depth c) text = [text] := by
  rw [piecesFrom] at h
  split at h
  · cases h
  · obtain ⟨first, more, hpieces⟩ := List.exists_cons_of_ne_nil
      (piecesFrom_ne_nil [sep] (s.step c) (s.depthAfter depth c) text)
    rw [hpieces, Text.consHead] at h
    cases h
    exact hpieces

/-- Each raw part is one by itself; the first goes on where the scan stands. -/
theorem piecesFrom_of_piecesFrom (hsep : IsSeparator sep) (s : Quoting) (depth : Nat)
    (text : Text) :
    ∃ part parts, piecesFrom [sep] s depth text = part :: parts ∧
      piecesFrom [sep] s depth part = [part] ∧ ∀ p ∈ parts, pieces [sep] p = [p] := by
  induction text generalizing s depth with
  | nil => exact ⟨[], [], rfl, rfl, nofun⟩
  | cons c text ih =>
    obtain ⟨part, parts, hpieces, hpart, hparts⟩ :=
      ih (s.step c) (s.depthAfter depth c)
    rw [piecesFrom]
    split
    · rename_i hcut
      obtain ⟨hbare, -, -, hc, rfl⟩ := hcut
      obtain rfl : c = sep := (List.cons.inj hc).1
      rw [hsep.depthAfter] at hpieces hpart
      rw [piecesFrom_of_unquoted (hsep.quote_step (Quoting.quote_of_bare hbare))] at hpart
      exact ⟨[], part :: parts, by rw [hpieces], rfl, List.forall_mem_cons.mpr ⟨hpart, hparts⟩⟩
    · rename_i hcut
      refine ⟨c :: part, parts, by rw [hpieces]; rfl, ?_, hparts⟩
      rw [piecesFrom, if_neg hcut, hpart]
      rfl

theorem pieces_of_mem_pieces (hsep : IsSeparator sep) (h : part ∈ pieces [sep] text) :
    pieces [sep] part = [part] := by
  obtain ⟨first, parts, hpieces, hfirst, hparts⟩ := piecesFrom_of_piecesFrom hsep {} 0 text
  rw [pieces, hpieces, List.mem_cons] at h
  rcases h with rfl | h
  · exact hfirst
  · exact hparts part h

/-- The beginning of one part is one part. -/
theorem piecesFrom_of_append (h : piecesFrom [sep] s depth (text ++ rest) = [text ++ rest]) :
    piecesFrom [sep] s depth text = [text] := by
  induction text generalizing s depth with
  | nil => rfl
  | cons c text ih =>
    have htext := ih (eq_of_piecesFrom_cons h)
    rw [List.cons_append, piecesFrom] at h
    split at h
    · cases h
    · rename_i hcut
      rw [piecesFrom, if_neg hcut, htext]
      rfl

/-- So is what is behind the blanks at its beginning. -/
theorem pieces_of_blank_append (hblank : Text.isBlank text = true)
    (h : pieces [sep] (text ++ rest) = [text ++ rest]) : pieces [sep] rest = [rest] := by
  induction text with
  | nil => exact h
  | cons c text ih =>
    rw [Text.isBlank, List.all_cons, Bool.and_eq_true] at hblank
    have hc := isSeparator_of_isBlank hblank.1
    have hrest := eq_of_piecesFrom_cons h
    rw [hc.depthAfter, piecesFrom_of_unquoted (hc.quote_step rfl)] at hrest
    exact ih hblank.2 hrest

theorem pieces_trim (h : pieces [sep] part = [part]) :
    pieces [sep] (Text.trim part) = [Text.trim part] := by
  obtain ⟨left, right, hpart, hleft, -⟩ := Text.exists_trim part
  rw [hpart] at h
  exact piecesFrom_of_append (pieces_of_blank_append hleft h)

/-- **Splitting has nothing left to do** on the parts it found. -/
theorem splitTopLevel_of_mem_splitTopLevel (hsep : IsSeparator sep)
    (h : part ∈ splitTopLevel [sep] text) (hne : part ≠ []) :
    splitTopLevel [sep] part = [part] := by
  obtain ⟨piece, hpiece, rfl⟩ := exists_mem_pieces_of_mem_splitTopLevel h
  have hone := pieces_trim (pieces_of_mem_pieces hsep hpiece)
  rw [splitTopLevel_of_pieces hone]
  · rw [List.map_singleton, Text.trim_trim]
  · intro p hp
    cases hp
    exact isBlank_of_trim_eq hne (Text.trim_trim piece)

/-! ### Splitting a list -/

/-- The blank behind each comma belongs to the part behind it, and is trimmed. -/
theorem splitTopLevel_join_comma_blank
    (h : ∀ part ∈ parts, Text.trim part = part ∧ WellNested (some ',') part)
    (hlast : parts.getLast? ≠ some []) : splitTopLevel "," (Text.join ", " parts) = parts := by
  cases parts with
  | nil => rfl
  | cons first parts =>
    -- the separator is a comma alone if the parts have their blank in front
    have hjoin : Text.join ", " (first :: parts)
        = Text.join [','] (first :: parts.map (' ' :: ·)) := Text.join_pair ',' ' ' first parts
    have hself {part : Text} (hpart : WellNested (some ',') part) : SelfContained ',' part :=
      hpart.selfContained fun _ hc => Option.some.inj hc ▸ isSeparator_comma
    obtain ⟨hfirst, hparts⟩ := List.forall_mem_cons.mp h
    have hspaced : ∀ part ∈ first :: parts.map (' ' :: ·), SelfContained ',' part := by
      refine List.forall_mem_cons.mpr ⟨hself hfirst.2, List.forall_mem_map.mpr fun part hpart => ?_⟩
      exact hself (.plain (by decide) (by decide) (hparts part hpart).2)
    have htrim : (first :: parts.map (' ' :: ·)).map Text.trim = first :: parts := by
      rw [List.map_cons, List.map_map, hfirst.1]
      exact congrArg (first :: ·) ((List.map_congr_left fun part hpart =>
        (Text.trim_cons_of_isBlank rfl part).trans (hparts part hpart).1).trans (List.map_id _))
    have hend : ∀ part, (first :: parts.map (' ' :: ·)).getLast? = some part →
        Text.isBlank part = false := by
      intro part hpart
      refine Bool.eq_false_iff.mpr fun hblank => hlast ?_
      rw [← htrim, List.getLast?_map, hpart]
      exact congrArg some (Text.trim_eq_nil_iff.mpr hblank)
    rw [hjoin]
    exact (splitTopLevel_join_of_selfContained isSeparator_comma hspaced hend).trans htrim

/-- **Splitting is lossless and undoes joining.**  The text is its raw parts with
the separator between them, and what is returned are these, trimmed, without a last
one that is blank; each that is not empty is returned alone if it is split again;
and well-nested texts, trimmed and without a comma outside of their strings and
parentheses, are returned for their list. -/
theorem splitTopLevel_lossless (hsep : IsSeparator sep) :
    (∀ text, ∃ raw, raw ≠ [] ∧ Text.join [sep] raw = text ∧
      splitTopLevel [sep] text = (withoutBlankEnd raw).map Text.trim) ∧
    (∀ text, ∀ part ∈ splitTopLevel [sep] text, part ≠ [] → splitTopLevel [sep] part = [part]) ∧
    ∀ parts : List Text, (∀ part ∈ parts, Text.trim part = part ∧ WellNested (some ',') part) →
      parts.getLast? ≠ some [] → splitTopLevel "," (Text.join ", " parts) = parts :=
  ⟨fun text => ⟨pieces [sep] text, piecesFrom_ne_nil _ _ _ _, join_pieces sep text,
      splitTopLevel_eq_map_trim [sep] text⟩,
    fun _ _ hpart hne => splitTopLevel_of_mem_splitTopLevel hsep hpart hne,
    fun _ hparts hlast => splitTopLevel_join_comma_blank hparts hlast⟩

/-- With the semicolon: a part with one in parentheses, and an empty part; with the
comma: parts with commas in parentheses and in a string, and an empty part. -/
theorem splitTopLevel_lossless_semicolon : IsSeparator ';' ∧
    (∃ raw, raw ≠ [] ∧ Text.join [';'] raw = "f(a; b) ; ; c;" ∧
      splitTopLevel [';'] "f(a; b) ; ; c;" = (withoutBlankEnd raw).map Text.trim) ∧
    splitTopLevel [';'] "f(a; b)" = (["f(a; b)"] : List Text) ∧
    splitTopLevel "," (Text.join ", " ["f(a, b)", "", "'c, \\' d)'"])
      = (["f(a, b)", "", "'c, \\' d)'"] : List Text) := by
  obtain ⟨hraw, hagain, hjoin⟩ := splitTopLevel_lossless (show IsSeparator ';' by decide)
  refine ⟨by decide, hraw _, hagain "f(a; b) ; ; c;" "f(a; b)" ?_ ?_, hjoin _ ?_ ?_⟩
  all_goals decide

end FluidScss
