/-
FluidScss/Proofs/Concatenation.lean

Sheets one after the other.  If the first is empty or ends with a line break, and
its last token is a brace or a semicolon, then the two are a sheet whose nodes are
those of the first and then those of the second, so many lines further down; and
the overrides of the one follow those of the other (`parseSheet_append`).

Again there is one exception: a statement of the first sheet may leave an address
open, which the second one closes with a parenthesis (`address_closed_behind`).
-/
import FluidScss.Proofs.Ignored
import FluidScss.Proofs.Placement
import Mathlib.Data.List.Induction

namespace FluidScss

open Outline Node

/-! ### Places further down -/

/-- The place so many lines further down. -/
def Position.down (n : Nat) (here : Position) : Position := ⟨here.line + n, here.column⟩

theorem Position.down_after (n : Nat) (here : Position) (text : Text) :
    (here.down n).after text = (here.after text).down n := by
  induction text generalizing here with
  | nil => rfl
  | cons c text ih =>
    have hstep : (here.down n).next c = (here.next c).down n := by
      rw [Position.next, Position.next]
      split
      · rw [Position.down, Position.down, Nat.add_right_comm]
      · rfl
    show ((here.down n).next c).after text = _
    rw [hstep, ih]
    rfl

/-- Tokens of a text that begins so many lines further down. -/
theorem significant_down (n : Nat) (here : Position) (found : List Lexeme) :
    significant (here.down n) found
      = (significant here found).map (Prod.map (Position.down n) id) := by
  induction found generalizing here with
  | nil => rfl
  | cons l found ih =>
    by_cases hl : ∃ b, l = .ignored b
    · obtain ⟨b, rfl⟩ := hl
      rw [significant_ignored, significant_ignored, Position.down_after, ih]
    · have hne : ∀ b, l ≠ .ignored b := fun b hb => hl ⟨b, hb⟩
      rw [significant_token hne, significant_token hne, Position.down_after, ih]
      rfl

/-- A text that ends with a line break ends at the beginning of a line. -/
theorem Position.after_lines {text : Text} (h : ∀ c ∈ text.getLast?, c = '\n') :
    Position.after {} text = Position.down (text.count '\n') {} := by
  rcases List.eq_nil_or_concat text with rfl | ⟨front, c, rfl⟩
  · rfl
  · rw [List.concat_eq_append] at h ⊢
    obtain rfl := h c List.getLast?_concat
    have hline : (Position.after {} front).line = 1 + front.count '\n' := line_after {} front
    rw [Position.after_append, List.count_append]
    show Position.mk ((Position.after {} front).line + 1) 1 = ⟨1 + (front.count '\n' + 1), 1⟩
    rw [hline, Nat.add_assoc]

/-! ### The last token -/

/-- Lexemes are some up to the last token, and ignored ones. -/
theorem exists_endsStatement {found : List Lexeme}
    (h : ∀ t ∈ (significant {} found).getLast?, t.2.Structural) :
    ∃ read tail, found = read ++ tail ∧ EndsStatement read ∧ ∀ l ∈ tail, ∃ b, l = .ignored b := by
  induction found using List.reverseRecOn with
  | nil => exact ⟨[], [], rfl, nofun, nofun⟩
  | append_singleton found l ih =>
    rw [significant_append] at h
    by_cases hl : ∃ b, l = .ignored b
    · obtain ⟨b, rfl⟩ := hl
      rw [significant_ignored, significant_nil, List.append_nil] at h
      obtain ⟨read, tail, rfl, hends, htail⟩ := ih h
      refine ⟨read, tail ++ [.ignored b], List.append_assoc .., hends, fun l hl => ?_⟩
      rcases List.mem_append.mp hl with hl | hl
      · exact htail l hl
      · exact ⟨b, List.mem_singleton.mp hl⟩
    · rw [significant_token fun b hb => hl ⟨b, hb⟩] at h
      refine ⟨found ++ [l], [], (List.append_nil _).symm, ?_, nofun⟩
      rintro l' hl'
      rw [List.getLast?_concat] at hl'
      cases hl'
      exact h _ List.getLast?_concat

theorem significant_of_ignored {tail : List Lexeme} (h : ∀ l ∈ tail, ∃ b, l = .ignored b)
    (here : Position) : significant here tail = [] := by
  induction tail generalizing here with
  | nil => rfl
  | cons l tail ih =>
    obtain ⟨b, rfl⟩ := h l (List.mem_cons_self ..)
    exact ih (fun l hl => h l (List.mem_cons_of_mem _ hl)) _

/-! ### Two sheets -/

variable {a b : Text} {as bs : List Node}

/-- The tokens of two sheets, one after the other. -/
theorem tokens_append (ha : (lexemes a).2 = []) (hn : ∀ c ∈ a.getLast?, c = '\n')
    (hends : ∀ t ∈ (significant {} (lexemes a).1).getLast?, t.2.Structural)
    (hnone : ClosesNone (lexemes a).1 b) :
    (lexemes (a ++ b)).2 = (lexemes b).2
      ∧ significant {} (lexemes (a ++ b)).1 = significant {} (lexemes a).1
        ++ (significant {} (lexemes b).1).map (Prod.map (Position.down (a.count '\n')) id) := by
  obtain ⟨read, tail, hread, hstatement, htail⟩ := exists_endsStatement hends
  obtain ⟨rest, hsplit, hrest⟩ := exists_of_lexemes hread
  rw [ha] at hrest
  have hignored : Ignored rest := by
    refine ignored_of_lexemes hrest htail fun c hc => hn c ?_
    rw [hsplit, List.getLast?_append, hc]
    rfl
  have hclosed : ClosesNone read (rest ++ b) := by
    refine closesNone_append.mpr ⟨closesNone_behind (hsplit ▸ hread), fun t ht => ?_⟩
    exact hnone t (hread ▸ List.mem_append_left _ ht)
  have hchange := lexemes_change hread hstatement hclosed
  rw [← List.append_assoc, ← hsplit] at hchange
  rw [hchange, hread]
  refine ⟨hignored.whole b, ?_⟩
  rw [significant_append, significant_append, hignored.tokens, significant_of_ignored htail,
    List.append_nil, ← Position.after_append, ← hsplit, Position.after_lines hn, significant_down]

/-- **Sheets one after the other**, where the first one ends with a line break and,
but for what is ignored, with a brace or a semicolon, and the second one closes no
address that the first leaves open: the nodes of the second follow those of the
first, so many lines further down, and its overrides theirs, numbered on. -/
theorem parseSheet_append (ha : parseSheet a = .ok as) (hb : parseSheet b = .ok bs)
    (hn : ∀ c ∈ a.getLast?, c = '\n')
    (hends : ∀ t ∈ (significant {} (lexemes a).1).getLast?, t.2 = .closeBrace ∨ t.2 = .semicolon)
    (hnone : ClosesNone (lexemes a).1 b) :
    parseSheet (a ++ b) = .ok (as ++ relineAll (· + a.count '\n') bs)
      ∧ ∀ m start, ∃ overrides overrides',
        (treeDrafts m a).map (number start) = .ok overrides
          ∧ (treeDrafts m b).map (number (start + overrides.length)) = .ok overrides'
          ∧ (treeDrafts m (a ++ b)).map (number start) = .ok (overrides ++ overrides') := by
  obtain ⟨hwhole, htokens⟩ := tokens_append (parseSheet_eq_ok_iff.mp ha).1 hn
    (fun t ht => .inr (hends t ht)) hnone
  have hparse : parseSheet (a ++ b) = .ok (as ++ relineAll (· + a.count '\n') bs) := by
    refine parseSheet_of_appendedTokens ha hb (fun t ht text htext => ?_) (fun _ => rfl)
      (hwhole.trans (parseSheet_eq_ok_iff.mp hb).1) htokens
    rcases hends t ht with h | h <;> rw [htext] at h <;> cases h
  refine ⟨hparse, fun m start => ?_⟩
  rw [treeDrafts, treeDrafts, treeDrafts, ha, hb, hparse]
  refine ⟨_, _, rfl, rfl, ?_⟩
  rw [length_number, Except.map, Except.map, draftsOfList_append, draftsOfList_reline,
    number_append]

/-- A sheet that ends with a comment, and one with a marker call. -/
theorem parseSheet_append_calls :
    parseSheet ".a\x7bb:c\x7d//\n"
        = .ok [.block ".a" [".a"] [.declaration "b" "c" false 1] (some 1)]
      ∧ parseSheet ".d\x7be:r.resp(1,2,h)\x7d"
        = .ok [.block ".d" [".d"] [.declaration "e" "r.resp(1,2,h)" false 1] (some 1)]
      ∧ parseSheet (".a\x7bb:c\x7d//\n" ++ ".d\x7be:r.resp(1,2,h)\x7d" : Text)
        = .ok ([.block ".a" [".a"] [.declaration "b" "c" false 1] (some 1)]
          ++ relineAll (· + (".a\x7bb:c\x7d//\n" : Text).count '\n')
            [.block ".d" [".d"] [.declaration "e" "r.resp(1,2,h)" false 1] (some 1)]) := by
  have ha : parseSheet ".a\x7bb:c\x7d//\n"
      = .ok [.block ".a" [".a"] [.declaration "b" "c" false 1] (some 1)] := by cbv
  have hb : parseSheet ".d\x7be:r.resp(1,2,h)\x7d"
      = .ok [.block ".d" [".d"] [.declaration "e" "r.resp(1,2,h)" false 1] (some 1)] := by cbv
  have hlex : lexemes ".a\x7bb:c\x7d//\n"
      = ([.chunk ".a", .openBrace, .chunk "b:c", .closeBrace, .ignored "//", .ignored "\n"],
        []) := by cbv
  refine ⟨ha, hb, (parseSheet_append ha hb ?_ ?_ ?_).1⟩
  · rintro c ⟨⟩
    rfl
  · rw [hlex]
    rintro t ⟨⟩
    exact .inl rfl
  · -- an address takes more characters than these chunks have
    rw [hlex]
    intro t ht ho
    have hlength := ho.length
    simp only [List.mem_cons, Lexeme.chunk.injEq, reduceCtorEq, false_or, or_false,
      List.not_mem_nil] at ht
    rcases ht with rfl | rfl <;> exact absurd hlength (by decide)

/-- The second sheet closes an address of the first: its call is read as a part of
the declaration there. -/
theorem address_closed_behind :
    (∃ as bs, parseSheet ".a\x7bb:url(x;\x7d\n" = .ok as
        ∧ parseSheet ".c\x7bw:r.resp(1,2,h)\x7d" = .ok bs)
      ∧ (".a\x7bb:url(x;\x7d\n" : Text).getLast? = some '\n'
      ∧ ((significant {} (lexemes ".a\x7bb:url(x;\x7d\n").1).getLast?.map Prod.snd)
        = some .closeBrace
      ∧ ¬ ∀ m start, ∃ overrides overrides',
        (treeDrafts m ".a\x7bb:url(x;\x7d\n").map (number start) = .ok overrides
          ∧ (treeDrafts m ".c\x7bw:r.resp(1,2,h)\x7d").map (number (start + overrides.length))
            = .ok overrides'
          ∧ (treeDrafts m (".a\x7bb:url(x;\x7d\n" ++ ".c\x7bw:r.resp(1,2,h)\x7d" : Text)).map
            (number start) = .ok (overrides ++ overrides') := by
  refine ⟨⟨_, _, by cbv, by cbv⟩, rfl, by cbv, fun h => ?_⟩
  obtain ⟨overrides, overrides', hfirst, hsecond, hboth⟩ := h ⟨"r", "resp"⟩ 0
  have hfirst' : (treeDrafts ⟨"r", "resp"⟩ ".a\x7bb:url(x;\x7d\n").map (number 0) = .ok [] := by cbv
  rw [hfirst'] at hfirst
  cases hfirst
  have hsecond' : (treeDrafts ⟨"r", "resp"⟩ ".c\x7bw:r.resp(1,2,h)\x7d").map (number 0)
      = .ok [⟨⟨".c", "w", "r.clamp_mb(2, r.min_px(2, h, mobile))"⟩, 0⟩] := by cbv
  have hboth' : (treeDrafts ⟨"r", "resp"⟩
      (".a\x7bb:url(x;\x7d\n" ++ ".c\x7bw:r.resp(1,2,h)\x7d" : Text)).map (number 0)
        = .ok [⟨⟨".a", "b", "url(x;\x7d\n.c\x7bw:r.clamp_mb(2, r.min_px(2, h, mobile))"⟩, 0⟩] := by
    cbv
  rw [hboth'] at hboth
  have hsecond : Except.ok _ = Except.ok overrides' := hsecond'.symm.trans hsecond
  cases hsecond
  cases hboth

end FluidScss
