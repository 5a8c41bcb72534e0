/-
FluidScss/Proofs/Lexing.lean

Lexings of a text: what is ignored is skipped and tokens are taken, again and
again (`Lexing`).  The lexings of a text are the beginnings of one, which is
what `lexemes` finds (`lexing_iff`); so at most one of them goes through the
whole text (`lexing_nil_iff`).

How deep blocks nest is counted in braces: more than `limit` blocks are never
open at once if each lexing takes at most `limit` more opening braces than
closing ones (`NestsWithin`).  As long as no block is closed that was not
opened, that is what `deepest` finds (`deepest_le`).
-/
import FluidScss.Proofs.Terminals

namespace FluidScss

open Outline

/-! ### Lexings -/

/-- From the place `here`, what is ignored is skipped and tokens are taken, each
with the place where it begins, and the text `left` is left. -/
inductive Lexing : Position → Text → List (Position × Lexeme) → Text → Prop
  | stop {here : Position} {text : Text} : Lexing here text [] text
  | skip {here : Position} {text body rest left : Text} {tokens : List (Position × Lexeme)}
      {r : Regex} (ignored : r ∈ Terminal.ignored) (matched : r.match? text = some (body, rest))
      (behind : Lexing (here.after body) rest tokens left) : Lexing here text tokens left
  | take {here : Position} {text body rest left : Text} {tokens : List (Position × Lexeme)}
      {t : Regex × (Text → Lexeme)} (token : t ∈ Terminal.tokens)
      (matched : t.1.match? text = some (body, rest))
      (behind : Lexing (here.after body) rest tokens left) :
      Lexing here text ((here, t.2 body) :: tokens) left

/-- The tokens among lexemes. -/
def significant (here : Position) (found : List Lexeme) : List (Position × Lexeme) :=
  (place here found).filter isSignificant

@[simp] theorem significant_nil (here : Position) : significant here [] = [] := rfl

theorem significant_ignored (here : Position) (body : Text) (found : List Lexeme) :
    significant here (.ignored body :: found) = significant (here.after body) found := rfl

theorem significant_token {l : Lexeme} (hl : ∀ b, l ≠ .ignored b) (here : Position)
    (found : List Lexeme) :
    significant here (l :: found) = (here, l) :: significant (here.after l.source) found := by
  have hs : isSignificant (here, l) = true := by
    rcases l with b | - | - | - | -
    · exact absurd rfl (hl b)
    all_goals rfl
  exact List.filter_cons_of_pos hs

theorem significant_append (here : Position) (found more : List Lexeme) :
    significant here (found ++ more)
      = significant here found ++ significant (here.after (found.flatMap Lexeme.source)) more := by
  induction found generalizing here with
  | nil => rfl
  | cons l found ih =>
    by_cases hl : ∃ b, l = .ignored b
    · obtain ⟨b, rfl⟩ := hl
      rw [List.cons_append, significant_ignored, significant_ignored, ih, List.flatMap_cons,
        Position.after_append]
      rfl
    · have hne : ∀ b, l ≠ .ignored b := fun b hb => hl ⟨b, hb⟩
      rw [List.cons_append, significant_token hne, significant_token hne, ih, List.flatMap_cons,
        Position.after_append, List.cons_append]

/-- Where a text begins makes no difference to what its tokens are. -/
theorem map_snd_significant (here there : Position) (found : List Lexeme) :
    (significant here found).map Prod.snd = (significant there found).map Prod.snd := by
  induction found generalizing here there with
  | nil => rfl
  | cons l found ih =>
    by_cases hl : ∃ b, l = .ignored b
    · obtain ⟨b, rfl⟩ := hl
      rw [significant_ignored, significant_ignored, ih]
    · have hne : ∀ b, l ≠ .ignored b := fun b hb => hl ⟨b, hb⟩
      rw [significant_token hne, significant_token hne, List.map_cons, List.map_cons, ih]

theorem filter_isSignificant (here : Position) (found : List Lexeme) :
    (significant here found).filter isSignificant = significant here found := by
  rw [significant, List.filter_filter]
  simp

theorem lexemes_eq_cons {text : Text} {l : Lexeme} {found : List Lexeme}
    (h : (lexemes text).1 = l :: found) :
    ∃ rest, munch text = some (l, rest) ∧ (lexemes rest).1 = found
      ∧ (lexemes rest).2 = (lexemes text).2 := by
  rcases hm : munch text with - | ⟨l', rest⟩
  · rw [lexemes] at h
    split at h
    · cases h
    · rename_i hs
      rw [hs] at hm
      cases hm
  · rw [lexemes_of_munch hm] at h ⊢
    cases h
    exact ⟨rest, rfl, rfl, rfl⟩

theorem source_ne_nil_of_mem_lexemes {text : Text} {l : Lexeme} (h : l ∈ (lexemes text).1) :
    l.source ≠ [] := by
  fun_induction lexemes text with
  | case1 => cases h
  | case2 text l' rest hm ih =>
    rcases List.mem_cons.mp h with rfl | h
    · exact (eq_of_munch hm).2
    · exact ih h

/-- **Lexings** take the tokens among some first lexemes, and leave the text of
the others. -/
theorem lexing_iff {here : Position} {text left : Text} {tokens : List (Position × Lexeme)} :
    Lexing here text tokens left
      ↔ ∃ front back, (lexemes text).1 = front ++ back ∧ tokens = significant here front
        ∧ left = back.flatMap Lexeme.source ++ (lexemes text).2 := by
  constructor
  · intro h
    induction h with
    | @stop here text => exact ⟨[], (lexemes text).1, rfl, rfl, (source_lexemes text).symm⟩
    | @skip _ _ body _ _ _ _ hi hm _ ih =>
      obtain ⟨front, back, hfront, htokens, hleft⟩ := ih
      rw [lexemes_of_munch (Terminal.munch_ignored_iff.mpr ⟨_, hi, hm⟩)]
      exact ⟨.ignored body :: front, back, by rw [hfront]; rfl, htokens, hleft⟩
    | take ht hm _ ih =>
      obtain ⟨front, back, hfront, htokens, hleft⟩ := ih
      obtain ⟨hmunch, hne, hsource⟩ := Terminal.munch_token_iff.mpr ⟨_, ht, hm, rfl⟩
      rw [lexemes_of_munch hmunch]
      refine ⟨_ :: front, back, by rw [hfront]; rfl, ?_, hleft⟩
      rw [significant_token hne, hsource, htokens]
  · rintro ⟨front, back, hfront, rfl, rfl⟩
    induction front generalizing here text with
    | nil =>
      have hsource := source_lexemes text
      rw [hfront, List.nil_append] at hsource
      rw [hsource]
      exact .stop
    | cons l front ih =>
      obtain ⟨rest, hm, hrest, hleft⟩ := lexemes_eq_cons hfront
      rw [← hleft]
      by_cases hl : ∃ b, l = .ignored b
      · obtain ⟨b, rfl⟩ := hl
        obtain ⟨r, hr, hmatch⟩ := Terminal.munch_ignored_iff.mp hm
        exact .skip hr hmatch (ih hrest)
      · have hne : ∀ b, l ≠ .ignored b := fun b hb => hl ⟨b, hb⟩
        obtain ⟨t, ht, hmatch, htl⟩ := Terminal.munch_token_iff.mp ⟨hm, hne, rfl⟩
        have htake : Lexing here text _ _ := Lexing.take ht hmatch (ih hrest)
        rwa [htl, ← significant_token hne] at htake

/-- A lexing of the whole text takes all the tokens. -/
theorem lexing_nil_iff {here : Position} {text : Text} {tokens : List (Position × Lexeme)} :
    Lexing here text tokens []
      ↔ (lexemes text).2 = [] ∧ tokens = significant here (lexemes text).1 := by
  rw [lexing_iff]
  constructor
  · rintro ⟨front, back, hfront, rfl, hleft⟩
    obtain ⟨hsource, hwhole⟩ := List.append_eq_nil_iff.mp hleft.symm
    rcases back with - | ⟨l, back⟩
    · rw [hfront, List.append_nil]
      exact ⟨hwhole, rfl⟩
    · have hl : l ∈ (lexemes text).1 := by simp [hfront]
      rw [List.flatMap_cons, List.append_eq_nil_iff] at hsource
      exact absurd hsource.1 (source_ne_nil_of_mem_lexemes hl)
  · rintro ⟨hwhole, rfl⟩
    exact ⟨(lexemes text).1, [], (List.append_nil _).symm, rfl, by rw [hwhole]; rfl⟩

/-- What holds of a lexing of the whole text is told of its lexemes. -/
theorem exists_lexing_iff {here : Position} {text : Text} {P : List (Position × Lexeme) → Prop} :
    (∃ tokens, Lexing here text tokens [] ∧ P tokens)
      ↔ (lexemes text).2 = [] ∧ P (significant here (lexemes text).1) := by
  constructor
  · rintro ⟨tokens, hl, hp⟩
    obtain ⟨hwhole, rfl⟩ := lexing_nil_iff.mp hl
    exact ⟨hwhole, hp⟩
  · rintro ⟨hwhole, hp⟩
    exact ⟨_, lexing_nil_iff.mpr ⟨hwhole, rfl⟩, hp⟩

/-! ### Braces -/

/-- How many opening braces are among tokens. -/
def opens (tokens : List (Position × Lexeme)) : Nat := (tokens.map Prod.snd).count .openBrace

/-- How many closing braces are among tokens. -/
def closes (tokens : List (Position × Lexeme)) : Nat := (tokens.map Prod.snd).count .closeBrace

theorem opens_cons (t : Position × Lexeme) (tokens : List (Position × Lexeme)) :
    opens (t :: tokens) = opens [t] + opens tokens := by
  rw [opens, opens, opens, List.map_cons, List.map_cons, List.map_nil, List.count_cons,
    List.count_singleton]
  omega

theorem closes_cons (t : Position × Lexeme) (tokens : List (Position × Lexeme)) :
    closes (t :: tokens) = closes [t] + closes tokens := by
  rw [closes, closes, closes, List.map_cons, List.map_cons, List.map_nil, List.count_cons,
    List.count_singleton]
  omega

/-- No brace closes what is not open, and none is left open. -/
def BracesMatch (tokens : List (Position × Lexeme)) : Prop :=
  (∀ front, front <+: tokens → closes front ≤ opens front) ∧ opens tokens = closes tokens

/-- Where the braces stand makes no difference. -/
theorem bracesMatch_iff_map {ts : List (Position × Lexeme)} : BracesMatch ts
    ↔ (∀ front, front <+: ts.map Prod.snd → front.count .closeBrace ≤ front.count .openBrace)
      ∧ (ts.map Prod.snd).count .openBrace = (ts.map Prod.snd).count .closeBrace := by
  refine and_congr ⟨fun h front hf => ?_, fun h front hf => h _ (hf.map Prod.snd)⟩ Iff.rfl
  have := h _ (List.take_prefix front.length ts)
  rwa [closes, opens, List.map_take, ← List.prefix_iff_eq_take.mp hf] at this

/-- Wherever a lexing of the text stops, at most `limit` blocks are open. -/
def NestsWithin (limit : Nat) (text : Text) : Prop :=
  ∀ tokens left, Lexing {} text tokens left → opens tokens ≤ closes tokens + limit

/-- What is ignored counts for nothing. -/
theorem count_significant {l : Lexeme} (hl : ∀ b, l ≠ .ignored b) (here : Position)
    (found : List Lexeme) : ((significant here found).map Prod.snd).count l = found.count l := by
  induction found generalizing here with
  | nil => rfl
  | cons l' found ih =>
    by_cases hl' : ∃ b, l' = .ignored b
    · obtain ⟨b, rfl⟩ := hl'
      rw [significant_ignored, ih, List.count_cons_of_ne (Ne.symm (hl b))]
    · rw [significant_token (fun b hb => hl' ⟨b, hb⟩), List.map_cons, List.count_cons, ih,
        List.count_cons]

theorem opens_significant (here : Position) (found : List Lexeme) :
    opens (significant here found) = found.count .openBrace :=
  count_significant (by simp) here found

theorem closes_significant (here : Position) (found : List Lexeme) :
    closes (significant here found) = found.count .closeBrace :=
  count_significant (by simp) here found

theorem place_isPrefix {front found : List Lexeme} (h : front <+: found) (here : Position) :
    place here front <+: place here found := by
  induction front generalizing here found with
  | nil => exact List.nil_prefix
  | cons l front ih =>
    obtain ⟨back, rfl⟩ := h
    exact List.cons_prefix_cons.mpr ⟨rfl, ih ⟨back, rfl⟩ _⟩

theorem significant_isPrefix {front found : List Lexeme} (h : front <+: found) (here : Position) :
    significant here front <+: significant here found :=
  (place_isPrefix h here).filter isSignificant

/-- Open blocks are counted in tokens. -/
theorem deepest_significant (depth : Nat) (here : Position) (found : List Lexeme) :
    deepest depth ((significant here found).map Prod.snd) = deepest depth found := by
  induction found generalizing depth here with
  | nil => rfl
  | cons l found ih =>
    rcases l with b | b | - | - | -
    · exact ih depth _
    all_goals
      rw [significant_token (by simp), List.map_cons]
      simp only [deepest, ih]

/-- While nothing is closed that is not open, `deepest` counts the open blocks. -/
theorem deepest_le {limit depth : Nat} {found : List Lexeme}
    (hcloses : ∀ front, front <+: found → front.count .closeBrace ≤ depth + front.count .openBrace)
    (hopens : ∀ front, front <+: found →
      depth + front.count .openBrace ≤ front.count .closeBrace + limit) :
    deepest depth found ≤ limit := by
  induction found generalizing depth with
  | nil =>
    have := hopens [] (List.prefix_refl _)
    simpa [deepest] using this
  | cons l found ih =>
    have hdepth : depth ≤ limit := by
      have := hopens [] List.nil_prefix
      simpa using this
    have hone := hcloses [l] ⟨found, rfl⟩
    -- behind the first lexeme the counts hold for as many blocks as it leaves open
    have hrest : ∀ depth', (∀ front, depth + (l :: front).count .openBrace + front.count .closeBrace
        = depth' + front.count .openBrace + (l :: front).count .closeBrace) →
        deepest depth' found ≤ limit := by
      intro depth' hd
      refine ih (fun front hf => ?_) fun front hf => ?_
      · have := hcloses (l :: front) (List.cons_prefix_cons.mpr ⟨rfl, hf⟩)
        have := hd front
        omega
      · have := hopens (l :: front) (List.cons_prefix_cons.mpr ⟨rfl, hf⟩)
        have := hd front
        omega
    rcases l with b | b | - | - | -
    · exact hrest depth (by simp)
    · exact hrest depth (by simp)
    · refine Nat.max_le.mpr ⟨hdepth, hrest (depth + 1) fun front => ?_⟩
      simp
      omega
    · refine Nat.max_le.mpr ⟨hdepth, hrest (depth - 1) fun front => ?_⟩
      simp at hone ⊢
      omega
    · exact hrest depth (by simp)

/-- Behind lexemes that close nothing but what is open, the open blocks are those
that they leave open. -/
theorem deepest_append {limit depth : Nat} {found more : List Lexeme}
    (hcloses : ∀ front, front <+: found → front.count .closeBrace ≤ depth + front.count .openBrace)
    (hfound : deepest depth found ≤ limit)
    (hmore : deepest (depth + found.count .openBrace - found.count .closeBrace) more ≤ limit) :
    deepest depth (found ++ more) ≤ limit := by
  induction found generalizing depth with
  | nil => exact hmore
  | cons l found ih =>
    have hone := hcloses [l] ⟨found, rfl⟩
    -- behind the first lexeme the counts hold for as many blocks as it leaves open
    have hrest : ∀ depth', (∀ front, depth + (l :: front).count .openBrace + front.count .closeBrace
        = depth' + front.count .openBrace + (l :: front).count .closeBrace) →
        deepest depth' found ≤ limit → deepest depth' (found ++ more) ≤ limit := by
      intro depth' hd hle
      refine ih (fun front hf => ?_) hle ?_
      · have := hcloses (l :: front) (List.cons_prefix_cons.mpr ⟨rfl, hf⟩)
        have := hd front
        omega
      · have hopen : depth' + found.count .openBrace - found.count .closeBrace
            = depth + (l :: found).count .openBrace - (l :: found).count .closeBrace := by
          have := hd found
          omega
        rwa [hopen]
    rcases l with b | b | - | - | -
    · exact hrest depth (by simp) hfound
    · exact hrest depth (by simp) hfound
    · obtain ⟨hdepth, hfound⟩ := Nat.max_le.mp hfound
      refine Nat.max_le.mpr ⟨hdepth, hrest (depth + 1) (fun front => ?_) hfound⟩
      simp
      omega
    · obtain ⟨hdepth, hfound⟩ := Nat.max_le.mp hfound
      refine Nat.max_le.mpr ⟨hdepth, hrest (depth - 1) (fun front => ?_) hfound⟩
      simp at hone ⊢
      omega
    · exact hrest depth (by simp) hfound

/-- A text whose blocks nest so deep at most, and in which nothing is closed
that is not open, is not too deep. -/
theorem deepest_le_of_nestsWithin {limit : Nat} {text : Text} (hn : NestsWithin limit text)
    (hb : BracesMatch (significant {} (lexemes text).1)) : deepest 0 (lexemes text).1 ≤ limit := by
  refine deepest_le (fun front hf => ?_) fun front hf => ?_
  · have := hb.1 _ (significant_isPrefix hf {})
    rw [opens_significant, closes_significant] at this
    omega
  · obtain ⟨back, hback⟩ := hf
    have := hn _ _ (lexing_iff.mpr ⟨front, back, hback.symm, rfl, rfl⟩)
    rw [opens_significant, closes_significant] at this
    omega

theorem count_openBrace_le (found : List Lexeme) :
    found.count .openBrace ≤ (found.flatMap Lexeme.source).count '\x7b' := by
  induction found with
  | nil => exact Nat.le_refl 0
  | cons l found ih =>
    rw [List.flatMap_cons, List.count_append, List.count_cons]
    split
    · rename_i hl
      rw [eq_of_beq hl]
      simp only [Lexeme.source, List.count_singleton_self]
      omega
    · omega

/-- Blocks nest no deeper than there are opening braces among the characters. -/
theorem nestsWithin_of_count {limit : Nat} {text : Text} (h : text.count '\x7b' ≤ limit) :
    NestsWithin limit text := by
  intro tokens left hl
  obtain ⟨front, back, hfront, rfl, -⟩ := lexing_iff.mp hl
  have hsource := congrArg (List.count '\x7b') (source_lexemes text)
  rw [hfront, List.flatMap_append, List.count_append, List.count_append] at hsource
  have hcount := count_openBrace_le front
  rw [opens_significant]
  omega

end FluidScss
