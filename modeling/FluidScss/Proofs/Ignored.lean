/-
FluidScss/Proofs/Ignored.lean

Texts that are ignored wherever they stand between tokens: in front of any other
text they take no token and move those behind them (`Ignored`).  Blanks are, and
comments in slashes and stars, and comments of two slashes with the line break
behind them (`IsComment.ignored`).  So is what stands behind the last token of a
sheet if a line break ends it (`ignored_of_lexemes`); without the line break the
comment it ends with could go on.

As with `ReadsTo`, blanks are dropped one by one, for a run of them is one lexeme
(`significant_blank`).
-/
import FluidScss.Proofs.Boundary

namespace FluidScss

open Outline

variable {text rest body : Text} {c : Char}

/-! ### Ignored texts -/

/-- In front of any other text, the text takes no token. -/
structure Ignored (text : Text) : Prop where
  tokens : ∀ here rest, significant here (lexemes (text ++ rest)).1
    = significant (here.after text) (lexemes rest).1
  whole : ∀ rest, (lexemes (text ++ rest)).2 = (lexemes rest).2

namespace Ignored

theorem nil : Ignored [] := ⟨fun _ _ => rfl, fun _ => rfl⟩

theorem append (h : Ignored text) (hr : Ignored rest) : Ignored (text ++ rest) :=
  ⟨fun here more => by
    rw [List.append_assoc, h.tokens, hr.tokens, Position.after_append],
  fun more => by rw [List.append_assoc, h.whole, hr.whole]⟩

theorem of_munch (h : ∀ rest, munch (text ++ rest) = some (.ignored text, rest)) :
    Ignored text :=
  ⟨fun here rest => by rw [lexemes_of_munch (h rest)]; rfl,
    fun rest => by rw [lexemes_of_munch (h rest)]⟩

/-- One blank. -/
theorem blank (hc : isSheetBlank c = true) : Ignored [c] := by
  have hlexemes (rest : Text) : ∃ l found left,
      lexemes (c :: rest) = (.ignored (c :: l) :: found, left)
      ∧ (lexemes rest = (.ignored l :: found, left) ∨ l = [] ∧ lexemes rest = (found, left)) := by
    have hmunch : munch (c :: rest)
        = some (.ignored (c :: rest.takeWhile isSheetBlank), rest.dropWhile isSheetBlank) := by
      rw [munch, if_pos hc]
    refine ⟨_, _, _, lexemes_of_munch hmunch, ?_⟩
    rcases rest with - | ⟨d, rest⟩
    · exact .inr ⟨rfl, rfl⟩
    · by_cases hd : isSheetBlank d = true
      · -- the two blanks are one lexeme, of which the second alone is the end
        have hmunch' : munch (d :: rest)
            = some (.ignored (d :: rest.takeWhile isSheetBlank), rest.dropWhile isSheetBlank) := by
          rw [munch, if_pos hd]
        rw [List.takeWhile_cons_of_pos hd, List.dropWhile_cons_of_pos hd]
        exact .inl (lexemes_of_munch hmunch')
      · rw [List.takeWhile_cons_of_neg hd, List.dropWhile_cons_of_neg hd]
        exact .inr ⟨rfl, rfl⟩
  refine ⟨fun here rest => ?_, fun rest => ?_⟩ <;>
    obtain ⟨l, found, left, hfound, hrest | ⟨rfl, hrest⟩⟩ := hlexemes rest <;>
    rw [List.singleton_append, hfound, hrest] <;>
    rfl

theorem blanks (h : ∀ c ∈ text, isSheetBlank c = true) : Ignored text := by
  induction text with
  | nil => exact nil
  | cons c text ih =>
    exact (blank (h c (List.mem_cons_self ..))).append
      (ih fun d hd => h d (List.mem_cons_of_mem _ hd))

end Ignored

/-! ### Comments -/

/-- A comment in slashes and stars that ends where it first can, or one of two
slashes with the line break that ends it. -/
inductive IsComment : Text → Prop
  | block {body : Text} (unclosed : ¬ ("*/" : Text) <:+: body) : IsComment ("/*" ++ body ++ "*/")
  | line {body : Text} (unbroken : '\n' ∉ body) : IsComment ("//" ++ body ++ "\n")

/-- A comment is closed where its end first stands. -/
theorem breakOn_commentEnd (h : ¬ ("*/" : Text) <:+: body) (rest : Text) :
    Text.breakOn "*/" (body ++ "*/" ++ rest) = some (body, rest) := by
  induction body with
  | nil => rfl
  | cons c body ih =>
    have hp : ¬ ("*/" : Text).isPrefixOf (c :: (body ++ "*/" ++ rest)) = true := by
      intro hp
      obtain ⟨rfl, hslash⟩ := List.cons_prefix_cons.mp (List.isPrefixOf_iff_prefix.mp hp)
      rcases body with - | ⟨d, body⟩
      · cases (List.cons_prefix_cons.mp hslash).1
      · obtain ⟨rfl, -⟩ := List.cons_prefix_cons.mp hslash
        exact h ⟨[], body, rfl⟩
    rw [List.cons_append, List.cons_append, Text.breakOn, if_neg hp,
      ih fun hi => h (List.infix_cons hi)]
    rfl

/-- **Comments** are ignored. -/
theorem IsComment.ignored (h : IsComment text) : Ignored text := by
  cases h with
  | @block body unclosed =>
    refine Ignored.of_munch fun rest => munch_of_comment ?_
    have hsplit : ("/*" : Text) ++ body ++ "*/" ++ rest
        = '/' :: '*' :: (body ++ "*/" ++ rest) := by simp
    rw [hsplit, comment, breakOn_commentEnd unclosed]
    rfl
  | @line body unbroken =>
    have hlexemes (rest : Text) : lexemes (("//" : Text) ++ body ++ "\n" ++ rest)
        = (.ignored ('/' :: '/' :: body) :: (lexemes ("\n" ++ rest)).1,
          (lexemes ("\n" ++ rest)).2) := by
      have hsplit : ("//" : Text) ++ body ++ "\n" ++ rest = '/' :: '/' :: body ++ '\n' :: rest := by
        simp
      rw [hsplit, lexemes_of_munch (munch_lineComment unbroken rest)]
      rfl
    have hbreak : Ignored "\n" := Ignored.blank rfl
    refine ⟨fun here rest => ?_, fun rest => ?_⟩
    · rw [hlexemes, significant_ignored, hbreak.tokens, ← Position.after_append]
      rfl
    · rw [hlexemes, hbreak.whole]

/-- No comment ends with a line break; the one that ends the line is not its own. -/
theorem getLast?_of_comment (h : comment text = some (body, rest)) : body.getLast? ≠ some '\n' := by
  intro hlast
  have hmem := List.mem_of_getLast? hlast
  rw [comment.eq_def] at h
  split at h
  · obtain ⟨⟨inner, after⟩, -, he⟩ := Option.map_eq_some_iff.mp h
    cases he
    rw [List.getLast?_append] at hlast
    cases hlast
  · cases h
    rcases List.mem_cons.mp hmem with hm | hm
    · cases hm
    · rcases List.mem_cons.mp hm with hm | hm
      · cases hm
      · simpa using List.all_eq_true.mp List.all_takeWhile _ hm
  · cases h

/-- What stands behind the last token of a sheet, if a line break ends it. -/
theorem ignored_of_lexemes {tail : List Lexeme} (h : lexemes text = (tail, []))
    (hi : ∀ l ∈ tail, ∃ b, l = .ignored b) (hn : ∀ c ∈ text.getLast?, c = '\n') :
    Ignored text := by
  induction tail generalizing text with
  | nil =>
    have hsource := source_lexemes text
    rw [h] at hsource
    rw [← hsource]
    exact Ignored.nil
  | cons l tail ih =>
    obtain ⟨b, rfl⟩ := hi l (List.mem_cons_self ..)
    obtain ⟨rest, hm, hrest, hleft⟩ := lexemes_eq_cons (congrArg Prod.fst h)
    obtain ⟨rfl, hne⟩ := eq_of_munch hm
    rw [h] at hleft
    rcases rest with - | ⟨d, rest⟩
    · rcases munch_ignored_cases hm with ⟨c, inner, rfl, hblank, -⟩ | hc
      · rw [List.append_nil]
        exact Ignored.blanks hblank
      · -- the last lexeme ends with a line break, so it is no comment
        rw [List.append_nil] at hn
        have hlast : b.getLast? = some (b.getLast hne) := List.getLast?_eq_some_getLast hne
        exact absurd (hlast.trans (congrArg some (hn _ hlast))) (getLast?_of_comment hc)
    · have hih := ih (Prod.ext hrest hleft) (fun l hl => hi l (List.mem_cons_of_mem _ hl))
        fun c hc => hn c (by rw [List.getLast?_append, hc]; rfl)
      have hm' (more : Text) :
          munch (b ++ (d :: rest ++ more)) = some (.ignored b, d :: rest ++ more) :=
        munch_change hm (fun e he => he) nofun nofun
      refine ⟨fun here more => ?_, fun more => ?_⟩
      · show significant here (lexemes (b ++ (d :: rest) ++ more)).1 = _
        rw [List.append_assoc, lexemes_of_munch (hm' more), significant_ignored, hih.tokens,
          ← Position.after_append]
        rfl
      · show (lexemes (b ++ (d :: rest) ++ more)).2 = _
        rw [List.append_assoc, lexemes_of_munch (hm' more), hih.whole]

end FluidScss
