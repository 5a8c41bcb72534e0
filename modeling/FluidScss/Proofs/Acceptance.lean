/-
FluidScss/Proofs/Acceptance.lean

Which texts are style sheets.  A text is one, if its blocks do not nest too
deep, exactly when some lexing goes through all of it and the braces among its
tokens match; its tree is then that of the one derivation of the tokens, and
otherwise the text is malformed (`parseSheet_accepts_grammar`).

`Outline.read?` keeps less than a derivation does, namely no places but the
lines of chunks.  What it keeps while it reads is what is left of the growth of
a derivation (`Growth.erase`), step by step (`steps_erase`).
-/
import FluidScss.Proofs.Derivation
import Mathlib

namespace FluidScss

open Outline Branch Prelude

/-! ### Outlines of derivations -/

/-- What is kept of an open block. -/
def OpenBranch.erase (b : OpenBranch) : OpenBlock :=
  ⟨chunkLines (spelled b.head?), (itemAll b.before).reverse⟩

namespace Growth

/-- What is kept of a growth. -/
def erase (g : Growth) : Progress :=
  ⟨g.outer.map OpenBranch.erase, (itemAll g.items).reverse, (chunkLines g.chunks).reverse⟩

theorem item_closed (cs : List (Position × Text)) (here : Position) :
    (closed cs here).item
      = if (chunkLines cs).reverse.isEmpty then .empty else .statement (chunkLines cs) := by
  rcases cs with - | ⟨c, cs⟩
  · rfl
  · simp [closed, ofSpelled?, item, spelled, chunkLines]

/-- **One token** changes what is kept as it changes the growth. -/
theorem step_erase (g : Growth) (t : Position × Lexeme) :
    g.erase.step t
      = match g.step t with
        | some g' => .ok g'.erase
        | none => .error (.malformed t.1) := by
  rcases t with ⟨here, b | text | - | - | -⟩
  · rfl
  · simp [Progress.step, step, erase, chunkLines]
  · simp [Progress.step, step, erase, OpenBranch.erase, itemAll, chunkLines]
  · rcases ho : g.outer with - | ⟨b, outer⟩
    · simp [Progress.step, step, erase, ho]
    · simp [Progress.step, step, erase, ho, OpenBranch.erase, itemAll_append, itemAll, item]
  · simp [Progress.step, step, erase, itemAll_append, itemAll, item_closed, chunkLines]

theorem steps_erase (g : Growth) (ts : List (Position × Lexeme)) :
    (∃ g', g.run ts = some g' ∧ g.erase.steps ts = .ok g'.erase)
      ∨ g.run ts = none ∧ ∃ here, g.erase.steps ts = .error (.malformed here) := by
  induction ts generalizing g with
  | nil => exact .inl ⟨g, rfl, rfl⟩
  | cons t ts ih =>
    have hstep := step_erase g t
    rw [run_cons, Progress.steps, hstep]
    rcases g.step t with - | g'
    · exact .inr ⟨rfl, t.1, rfl⟩
    · exact ih g'

end Growth

/-! ### Sheets -/

theorem NestsWithin.mono {limit limit' : Nat} {source : Text} (h : NestsWithin limit source)
    (hle : limit ≤ limit') : NestsWithin limit' source := by
  intro tokens left hl
  have := h tokens left hl
  omega

variable {source : Text}

/-- What is kept at the end of a sheet is the outline that is derived. -/
theorem outline_of_growth {g : Growth} {d : Derivation} (hitems : d.items = g.items)
    (hlast : spelled d.last? = g.chunks) :
    d.outline = ⟨g.erase.items.reverse, g.erase.chunks.reverse⟩ := by
  rw [Derivation.outline, hitems, hlast, Growth.erase, List.reverse_reverse, List.reverse_reverse]

/-- What is read of a text whose braces match is a derivation of its tokens,
unless its blocks nest too deep. -/
theorem read?_of_bracesMatch (hwhole : (lexemes source).2 = [])
    (hb : BracesMatch (significant {} (lexemes source).1)) :
    ∃ d : Derivation, d.tokens = significant {} (lexemes source).1
      ∧ Outline.read? source
        = if nestingLimit < deepest 0 (lexemes source).1 then .error .tooDeep
          else .ok d.outline := by
  obtain ⟨g, hg, ho⟩ := Growth.bracesMatch_iff.mp hb
  obtain ⟨d, hd, hitems, hlast⟩ := Growth.exists_derivation_of_run hg ho
  refine ⟨d, by simpa [significant] using hd, ?_⟩
  rw [significant, Growth.run_filter] at hg
  have hsteps : Progress.steps {} (place {} (lexemes source).1) = .ok g.erase := by
    rcases Growth.steps_erase {} (place {} (lexemes source).1) with ⟨g', hg', hs⟩ | ⟨hnone, -⟩
    · rw [hg] at hg'
      cases hg'
      exact hs
    · rw [hg] at hnone
      cases hnone
  have houter : g.erase.outer = [] := by rw [Growth.erase, ho]; rfl
  rw [Outline.read?]
  dsimp only
  rw [hsteps, hwhole, outline_of_growth hitems hlast]
  simp [houter]

/-- **A text whose braces match** is a sheet, and its tree is that of a
derivation. -/
theorem parseSheet_of_bracesMatch (hn : NestsWithin nestingLimit source)
    (hwhole : (lexemes source).2 = []) (hb : BracesMatch (significant {} (lexemes source).1)) :
    ∃ d : Derivation, d.tokens = significant {} (lexemes source).1
      ∧ parseSheet source = .ok d.outline.nodes := by
  obtain ⟨d, hd, hread⟩ := read?_of_bracesMatch hwhole hb
  refine ⟨d, hd, ?_⟩
  rw [parseSheet, hread, if_neg (Nat.not_lt.mpr (deepest_le_of_nestsWithin hn hb))]
  rfl

/-- **Any other text** is malformed, however deep its blocks nest. -/
theorem parseSheet_of_not_bracesMatch
    (h : ¬ ((lexemes source).2 = [] ∧ BracesMatch (significant {} (lexemes source).1))) :
    ∃ here, parseSheet source = .error (.malformed here) := by
  suffices hread : ∃ here, Outline.read? source = .error (.malformed here) by
    obtain ⟨here, hread⟩ := hread
    exact ⟨here, by rw [parseSheet, hread]; rfl⟩
  rw [Outline.read?]
  dsimp only
  rcases Growth.steps_erase {} (place {} (lexemes source).1) with ⟨g, hg, hs⟩ | ⟨-, here, hs⟩
  · have hs : Progress.steps {} (place {} (lexemes source).1) = .ok g.erase := hs
    rw [hs]
    dsimp only
    -- read without an error, it has a character that no lexeme begins with or an open block
    by_cases hwhole : (lexemes source).2 = []
    · have ho : g.erase.outer ≠ [] := by
        intro ho
        refine h ⟨hwhole, Growth.bracesMatch_iff.mpr ⟨g, ?_, List.map_eq_nil_iff.mp ho⟩⟩
        rw [significant, Growth.run_filter, hg]
      rw [if_neg (not_not_intro hwhole), if_pos ho]
      exact ⟨_, rfl⟩
    · rw [if_pos hwhole]
      exact ⟨_, rfl⟩
  · have hs : Progress.steps {} (place {} (lexemes source).1) = .error (.malformed here) := hs
    rw [hs]
    exact ⟨here, rfl⟩

/-- Sheets are the texts with lexemes to their end and matching braces. -/
theorem isSheet_iff (hn : NestsWithin nestingLimit source) :
    (∃ nodes, parseSheet source = .ok nodes)
      ↔ (lexemes source).2 = [] ∧ BracesMatch (significant {} (lexemes source).1) := by
  constructor
  · rintro ⟨nodes, hnodes⟩
    by_contra h
    obtain ⟨here, hparse⟩ := parseSheet_of_not_bracesMatch h
    rw [hnodes] at hparse
    cases hparse
  · rintro ⟨hwhole, hb⟩
    obtain ⟨d, -, hparse⟩ := parseSheet_of_bracesMatch hn hwhole hb
    exact ⟨_, hparse⟩

/-- A text with lexemes to its end and matching braces is one whose tokens are
derived. -/
theorem bracesMatch_iff_derived :
    (lexemes source).2 = [] ∧ BracesMatch (significant {} (lexemes source).1)
      ↔ ∃ d : Derivation, Lexing {} source d.tokens [] := by
  rw [← exists_derivation_iff (filter_isSignificant {} _), ← exists_and_left]
  exact exists_congr fun d => lexing_nil_iff.symm

/-- **The grammar of style sheets**: a text whose blocks do not nest too deep is
a sheet exactly when a lexing goes through all of it and its braces match, that
is, when the tokens of a lexing are derived; and it is malformed otherwise.  A
sheet has one lexing, whose tokens have one derivation, and its tree is that of
the derivation. -/
theorem parseSheet_accepts_grammar (hn : NestsWithin 150 source) :
    ((∃ nodes, parseSheet source = .ok nodes)
        ↔ ∃ tokens, Lexing {} source tokens [] ∧ BracesMatch tokens)
      ∧ ((∃ nodes, parseSheet source = .ok nodes)
        ↔ ∃ d : Derivation, Lexing {} source d.tokens [])
      ∧ (∀ defect, parseSheet source = .error defect → ∃ here, defect = .malformed here)
      ∧ ∀ nodes, parseSheet source = .ok nodes →
          ∃ tokens, ∃ d : Derivation,
            (∀ tokens', Lexing {} source tokens' [] ↔ tokens' = tokens)
              ∧ (∀ d' : Derivation, d'.tokens = tokens ↔ d' = d) ∧ nodes = d.outline.nodes := by
  have hdeep : NestsWithin nestingLimit source := hn.mono (by decide)
  have hsheet := isSheet_iff hdeep
  refine ⟨hsheet.trans exists_lexing_iff.symm, hsheet.trans bracesMatch_iff_derived,
    fun defect hdefect => ?_, fun nodes hnodes => ?_⟩
  · have hno : ¬ ((lexemes source).2 = [] ∧ BracesMatch (significant {} (lexemes source).1)) := by
      intro h
      obtain ⟨nodes, hnodes⟩ := hsheet.mpr h
      rw [hnodes] at hdefect
      cases hdefect
    obtain ⟨here, hparse⟩ := parseSheet_of_not_bracesMatch hno
    rw [hdefect] at hparse
    exact ⟨here, Except.error.inj hparse⟩
  · obtain ⟨hwhole, hb⟩ := hsheet.mp ⟨nodes, hnodes⟩
    obtain ⟨d, hd, hparse⟩ := parseSheet_of_bracesMatch hdeep hwhole hb
    rw [hnodes] at hparse
    refine ⟨significant {} (lexemes source).1, d, fun tokens' => ?_, fun d' => ?_,
      Except.ok.inj hparse⟩
    · rw [lexing_nil_iff, and_iff_right hwhole]
    · exact ⟨fun hd' => Derivation.tokens_injective (hd'.trans hd.symm), fun hd' => hd' ▸ hd⟩

/-- A block in which a block without a prelude stands, with an empty statement, a
last statement without its semicolon and a comment. -/
theorem parseSheet_accepts_bare_block :
    NestsWithin 150 "a\x7bb:c;\x7b;d:e\x7d/*;*/\x7d"
      ∧ ∃ tokens, ∃ d : Derivation,
          (∀ tokens', Lexing {} "a\x7bb:c;\x7b;d:e\x7d/*;*/\x7d" tokens' [] ↔ tokens' = tokens)
            ∧ (∀ d' : Derivation, d'.tokens = tokens ↔ d' = d)
            ∧ [.block "a" ["a"] [.declaration "b" "c" false 1,
                .block [] [] [.declaration "d" "e" false 1] none] (some 1)] = d.outline.nodes := by
  have hn : NestsWithin 150 "a\x7bb:c;\x7b;d:e\x7d/*;*/\x7d" := nestsWithin_of_count (by decide)
  exact ⟨hn, (parseSheet_accepts_grammar hn).2.2.2 _ (by cbv)⟩

end FluidScss
