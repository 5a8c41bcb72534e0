/-
FluidScss/Proofs/Boundary.lean

Lexemes in front of another text.  Lexemes up to a brace or a semicolon do not
depend on what follows, with one exception: the word `url(` begins an address if
a parenthesis closes it somewhere in the rest of the sheet, and is taken letter
by letter if none does.  A chunk that holds the word with no parenthesis behind
it is said to leave an address open (`LeavesOpen`), and in front of a text with a
parenthesis it goes on to there, over braces and semicolons.

* Parts and chunks are the same in front of another text with the same first
  character (`chunkPart_change`, `chunkRest_change`), lexemes likewise
  (`munch_change`).
* So the lexemes up to a brace or a semicolon are the same in front of any text
  (`lexemes_change`), unless a chunk among them leaves an address open and the
  text closes it; and then they are not (`isPrefix_lexemes_change_iff`).
-/
import FluidScss.Proofs.Lexing
import Mathlib.Data.List.TakeWhile
import Mathlib.Tactic.SplitIfs

namespace FluidScss

variable {text part body rest other : Text} {c quote close : Char} {stop : Char → Bool}

/-! ### Parts in front of another text -/

theorem stringRest_change (h : stringRest quote text = some (body, rest)) (other : Text) :
    stringRest quote (body ++ other) = some (body, other) := by
  fun_induction stringRest quote text generalizing body with
  | case1 => cases h
  | case2 =>
    cases h
    rw [List.singleton_append, stringRest.eq_def]
    exact if_pos rfl
  | case3 => cases h
  | case4 => cases h
  | case5 => cases h
  | case6 d rest' hd hq hn ih =>
    obtain ⟨⟨b, a⟩, hb, he⟩ := Option.map_eq_some_iff.mp h
    cases he
    simp [stringRest, hq, hd, ih hb]
  | case7 c rest' hq hn hb ih =>
    obtain ⟨⟨b, a⟩, hb', he⟩ := Option.map_eq_some_iff.mp h
    cases he
    rw [List.cons_append, stringRest.eq_def]
    simp [hq, hn, hb, ih hb']

theorem upTo_change (h : upTo close stop text = some (body, rest)) (other : Text) :
    upTo close stop (body ++ other) = some (body, other) := by
  fun_induction upTo close stop text generalizing body with
  | case1 => cases h
  | case2 =>
    cases h
    exact if_pos rfl
  | case3 => cases h
  | case4 c rest' hc hs ih =>
    obtain ⟨⟨b, a⟩, hb, he⟩ := Option.map_eq_some_iff.mp h
    cases he
    simp [upTo, hc, hs, ih hb]

theorem upTo_eq_none_iff : upTo close (fun _ => false) text = none ↔ close ∉ text := by
  constructor
  · intro h hm
    obtain ⟨front, back, rfl, hf⟩ := List.eq_append_cons_of_mem hm
    rw [upTo_append hf] at h
    cases h
  · intro h
    induction text with
    | nil => rfl
    | cons c text ih =>
      rw [List.mem_cons, not_or] at h
      rw [upTo, if_neg (Ne.symm h.1), if_neg Bool.false_ne_true, ih h.2]
      rfl

/-- A character that is neither a quote nor ends a chunk is a part on its own,
unless with what follows it begins an interpolation, a comment or an address
that is closed. -/
theorem chunkPart_single (hdouble : c ≠ '"') (hquote : c ≠ '\'') (hends : endsChunk c = false)
    (hhash : c = '#' → rest.head? ≠ some '\x7b')
    (hslash : c = '/' → ∀ d ∈ rest.head?, d ≠ '/' ∧ d ≠ '*')
    (hopen : c = 'u' → ("rl(" : Text) <+: rest → ')' ∉ rest) :
    chunkPart (c :: rest) = some ([c], rest) := by
  rw [chunkPart.eq_def]
  split
  · rename_i h
    cases h
  · rename_i h
    cases h
    exact absurd rfl hdouble
  · rename_i h
    cases h
    exact absurd rfl hquote
  · rename_i h
    cases h
    exact absurd rfl (hhash rfl)
  · rename_i h
    cases h
    exact absurd rfl (hslash rfl _ rfl).1
  · rename_i h
    cases h
    exact absurd rfl (hslash rfl _ rfl).2
  · rename_i after h
    cases h
    have hafter : ')' ∉ after := fun hm => hopen rfl ⟨after, rfl⟩ (by simp [hm])
    rw [upTo_eq_none_iff.mpr hafter]
  · rename_i h
    cases h
    rw [if_neg (by rw [hends]; exact Bool.false_ne_true)]

theorem chunkPart_change (h : chunkPart (part ++ rest) = some (part, rest))
    (hhead : ∀ c ∈ other.head?, c ∈ rest.head?)
    (hopen : part = ['u'] → ("rl(" : Text) <+: other → ')' ∉ other) :
    chunkPart (part ++ other) = some (part, other) := by
  rw [chunkPart.eq_def] at h
  split at h
  · cases h
  · obtain ⟨⟨b, a⟩, hb, hpart⟩ := Option.map_eq_some_iff.mp h
    cases hpart
    rw [List.cons_append, chunkPart, stringRest_change hb]
    rfl
  · obtain ⟨⟨b, a⟩, hb, hpart⟩ := Option.map_eq_some_iff.mp h
    cases hpart
    rw [List.cons_append, chunkPart, stringRest_change hb]
    rfl
  · obtain ⟨⟨b, a⟩, hb, hpart⟩ := Option.map_eq_some_iff.mp h
    cases hpart
    rw [List.cons_append, List.cons_append, chunkPart, upTo_change hb]
    rfl
  · cases h
  · cases h
  · rename_i after he
    rcases hu : upTo ')' (fun _ => false) after with - | ⟨b, a⟩
    · rw [hu] at h
      cases h
      exact chunkPart_single (by decide) (by decide) rfl (absurd · (by decide))
        (absurd · (by decide)) fun _ => hopen rfl
    · rw [hu] at h
      cases h
      simp only [List.cons_append]
      rw [chunkPart, upTo_change hu]
  · rename_i c rest' hdouble hquote hhash hline hblock haddress he
    split at h
    · cases h
    · rename_i hends
      cases h
      refine chunkPart_single hdouble hquote (by simpa using hends) (fun hc hd => ?_)
        (fun hc d hd => ⟨?_, ?_⟩) fun hc => hopen (by rw [hc])
      · obtain ⟨rest', rfl⟩ := List.head?_eq_some_iff.mp (hhead _ hd)
        exact hhash rest' hc rfl
      · rintro rfl
        obtain ⟨rest', rfl⟩ := List.head?_eq_some_iff.mp (hhead _ hd)
        exact hline rest' hc rfl
      · rintro rfl
        obtain ⟨rest', rfl⟩ := List.head?_eq_some_iff.mp (hhead _ hd)
        exact hblock rest' hc rfl

/-! ### Addresses that are left open -/

/-- Read part by part, the text begins an address that it does not close. -/
inductive LeavesOpen : Text → Prop
  | here {rest : Text} (unclosed : ')' ∉ rest) : LeavesOpen ('u' :: 'r' :: 'l' :: '(' :: rest)
  | behind {text part after : Text} (first : chunkPart text = some (part, after))
      (rest : LeavesOpen after) : LeavesOpen text

theorem LeavesOpen.exists_suffix (h : LeavesOpen text) :
    ∃ rest, ("url(" : Text) ++ rest <:+ text ∧ ')' ∉ rest := by
  induction h with
  | @here rest unclosed => exact ⟨rest, List.suffix_refl _, unclosed⟩
  | @behind text part after first _ ih =>
    obtain ⟨rest, hs, hrest⟩ := ih
    refine ⟨rest, hs.trans ⟨part, (eq_of_chunkPart first).1.symm⟩, hrest⟩

theorem LeavesOpen.length (h : LeavesOpen text) : 4 ≤ text.length := by
  obtain ⟨rest, hs, -⟩ := h.exists_suffix
  have := hs.length_le
  rw [List.length_append] at this
  exact Nat.le_trans (Nat.le_add_right 4 _) this

/-- If only the first letter of an address is a part, the address is not
closed. -/
theorem not_mem_of_chunkPart_address
    (h : chunkPart ('u' :: 'r' :: 'l' :: '(' :: rest) = some (['u'], part)) : ')' ∉ rest := by
  rw [← upTo_eq_none_iff]
  rw [chunkPart] at h
  rcases hu : upTo ')' (fun _ => false) rest with - | found
  · rfl
  · rw [hu] at h
    cases h

/-- **An address that is left open** is closed by the first parenthesis behind
the text. -/
theorem chunkRest_of_leavesOpen (h : LeavesOpen text) (hbody : ')' ∉ body) (rest : Text) :
    chunkRest (text ++ (body ++ ')' :: rest))
      = (text ++ (body ++ ')' :: (chunkRest rest).1), (chunkRest rest).2) := by
  have hhere : ∀ inner : Text, ')' ∉ inner →
      chunkRest ('u' :: 'r' :: 'l' :: '(' :: (inner ++ (body ++ ')' :: rest)))
        = ('u' :: 'r' :: 'l' :: '(' :: (inner ++ (body ++ ')' :: (chunkRest rest).1)),
          (chunkRest rest).2) := by
    intro inner hinner
    have hclose : ')' ∉ inner ++ body := by simp [hinner, hbody]
    have hpart : chunkPart ('u' :: 'r' :: 'l' :: '(' :: (inner ++ body ++ ')' :: rest))
        = some ('u' :: 'r' :: 'l' :: '(' :: (inner ++ body ++ [')']), rest) := by
      rw [chunkPart, upTo_append hclose]
    rw [← List.append_assoc, chunkRest_of_part hpart]
    simp
  induction h with
  | here unclosed => exact hhere _ unclosed
  | @behind text part after first hrest ih =>
    obtain ⟨rfl, -⟩ := eq_of_chunkPart first
    by_cases hu : part = ['u'] ∧ ("rl(" : Text) <+: after
    · -- the address that begins here is the one that is closed
      obtain ⟨rfl, inner, rfl⟩ := hu
      exact hhere inner (not_mem_of_chunkPart_address first)
    · have hlong := hrest.length
      have hpart : chunkPart (part ++ (after ++ (body ++ ')' :: rest)))
          = some (part, after ++ (body ++ ')' :: rest)) := by
        refine chunkPart_change first (fun c hc => ?_) fun hp hr => absurd ⟨hp, ?_⟩ hu
        · obtain ⟨d, after, rfl⟩ := List.exists_cons_of_length_pos (by omega : 0 < after.length)
          exact hc
        · exact List.prefix_of_prefix_length_le hr (List.prefix_append _ _)
            (Nat.le_trans (by decide) hlong)
      rw [List.append_assoc, chunkRest_of_part hpart, ih, List.append_assoc]

/-- A chunk that leaves an address open has no closing parenthesis behind it. -/
theorem not_mem_of_leavesOpen (h : chunkRest (text ++ rest) = (text, rest))
    (ho : LeavesOpen text) : ')' ∉ rest := by
  intro hm
  obtain ⟨body, after, rfl, hbody⟩ := List.eq_append_cons_of_mem hm
  rw [chunkRest_of_leavesOpen ho hbody] at h
  have := congrArg List.length (Prod.mk.inj h).1
  simp at this

/-- A chunk is its first part and a chunk, if it is not empty. -/
theorem chunkRest_cases (h : chunkRest (text ++ rest) = (text, rest)) :
    text = [] ∧ chunkPart rest = none
      ∨ ∃ part body, text = part ++ body ∧ part ≠ []
        ∧ chunkPart (part ++ (body ++ rest)) = some (part, body ++ rest)
        ∧ chunkRest (body ++ rest) = (body, rest) := by
  rcases hp : chunkPart (text ++ rest) with - | ⟨part, after⟩
  · obtain ⟨rfl, -⟩ := Prod.mk.inj ((chunkRest_of_none hp).symm.trans h)
    exact .inl ⟨rfl, hp⟩
  · rw [chunkRest_of_part hp, Prod.mk.injEq] at h
    obtain ⟨htext, hne⟩ := eq_of_chunkPart hp
    have hafter : after = (chunkRest after).1 ++ rest := by
      conv => lhs; rw [eq_of_chunkRest after, h.2]
    refine .inr ⟨part, (chunkRest after).1, h.1.symm, hne, ?_, ?_⟩
    · rw [← hafter, ← htext, hp]
    · rw [← hafter, ← h.2]

/-- Where a chunk ends no part begins. -/
theorem chunkPart_of_rest (h : chunkRest text = (part, rest)) : chunkPart rest = none := by
  fun_induction chunkRest text generalizing part with
  | case1 text hn =>
    cases h
    exact hn
  | case2 text first after hp body after' hbody ih =>
    cases h
    exact ih hbody

/-- A chunk is the same in front of another text with the same beginning that
takes up no part, unless that closes an address which the chunk leaves open. -/
theorem chunkRest_change (h : chunkRest (text ++ rest) = (text, rest))
    (hhead : ∀ c ∈ other.head?, c ∈ rest.head?) (hends : chunkPart other = none)
    (hopen : LeavesOpen text → ')' ∉ other) : chunkRest (text ++ other) = (text, other) := by
  -- the induction follows the parts of the chunk
  induction hn : text.length using Nat.strongRecOn generalizing text with
  | ind n ih =>
    obtain ⟨rfl, -⟩ | ⟨part, body, rfl, hne, hpart, hbody⟩ := chunkRest_cases h
    · exact chunkRest_of_none hends
    · have hbodyhead : ∀ new : Text, (body = [] → ∀ c ∈ new.head?, c ∈ rest.head?) →
          ∀ c ∈ (body ++ new).head?, c ∈ (body ++ rest).head? := by
        intro new hnew
        rcases body with - | ⟨d, body⟩
        · exact hnew rfl
        · exact fun _ => id
      have hfirst : chunkPart (part ++ body) = some (part, body) := by
        refine chunkPart_change hpart (by simpa using hbodyhead [] nofun) ?_
        rintro rfl ⟨inner, rfl⟩ hm
        exact not_mem_of_chunkPart_address hpart
          (List.mem_append_left rest (by simpa using hm))
      have hword : part = ['u'] → ("rl(" : Text) <+: body ++ other → ')' ∉ body ++ other := by
        rintro rfl hprefix hm
        -- the word does not reach into what follows the chunk
        obtain ⟨inner, rfl⟩ : ("rl(" : Text) <+: body := by
          refine Text.isPrefix_of_isPrefix_append (fun c hc hletter => ?_) hprefix
          obtain ⟨after, rfl⟩ := List.head?_eq_some_iff.mp hc
          have hletter : c ∈ ['r', 'l', '('] := hletter
          simp only [List.mem_cons, List.not_mem_nil, or_false] at hletter
          rcases hletter with rfl | rfl | rfl <;> cases hends
        have hinner : ')' ∉ inner := fun hi =>
          not_mem_of_chunkPart_address hpart (List.mem_append_left rest hi)
        rcases List.mem_append.mp hm with hm | hm
        · exact hinner (by simpa using hm)
        · exact hopen (.here hinner) hm
      have hlength : body.length < n := by
        have := List.length_pos_iff.mpr hne
        rw [List.length_append] at hn
        omega
      have hnew := chunkPart_change hpart (hbodyhead other fun _ => hhead) hword
      rw [List.append_assoc, chunkRest_of_part hnew,
        ih _ hlength hbody (fun ho => hopen (.behind hfirst ho)) rfl]

/-! ### One lexeme -/

/-- Braces and semicolons. -/
def Lexeme.Structural (l : Lexeme) : Prop := l = .openBrace ∨ l = .closeBrace ∨ l = .semicolon

/-- A lexeme is structural, a run of blanks, a comment or a chunk. -/
theorem munch_cases {l : Lexeme} (h : munch text = some (l, rest)) :
    l.Structural ∨ (∃ c tail, text = c :: tail ∧ isSheetBlank c = true
        ∧ l = .ignored (c :: tail.takeWhile isSheetBlank) ∧ rest = tail.dropWhile isSheetBlank)
      ∨ (∃ body, l = .ignored body ∧ comment text = some (body, rest))
      ∨ ∃ t, l = .chunk t ∧ chunk text = some (t, rest) := by
  rcases text with - | ⟨c, text⟩
  · cases h
  · rw [munch] at h
    split_ifs at h with hblank
    · cases h
      exact .inr (.inl ⟨c, text, rfl, hblank, rfl, rfl⟩)
    · cases h
      exact .inl (.inl rfl)
    · cases h
      exact .inl (.inr (.inl rfl))
    · cases h
      exact .inl (.inr (.inr rfl))
    · rcases hc : comment (c :: text) with - | ⟨body, after⟩
      · rw [hc] at h
        obtain ⟨⟨t, rest'⟩, hchunk, he⟩ := Option.map_eq_some_iff.mp h
        cases he
        exact .inr (.inr (.inr ⟨t, rfl, hchunk⟩))
      · rw [hc] at h
        cases h
        exact .inr (.inr (.inl ⟨body, rfl, rfl⟩))

theorem munch_chunk_iff {t : Text} :
    munch text = some (.chunk t, rest) ↔ chunk text = some (t, rest) := by
  refine ⟨fun h => ?_, munch_of_chunk⟩
  obtain hs | ⟨c, tail, -, -, hl, -⟩ | ⟨body, hl, -⟩ | ⟨t', hl, hchunk⟩ := munch_cases h
  · rcases hs with hs | hs | hs <;> cases hs
  · cases hl
  · cases hl
  · cases hl
    exact hchunk

/-- What is ignored is a run of blanks or a comment. -/
theorem munch_ignored_cases {body : Text} (h : munch text = some (.ignored body, rest)) :
    (∃ c inner, body = c :: inner ∧ (∀ d ∈ body, isSheetBlank d = true)
        ∧ ∀ d ∈ rest.head?, isSheetBlank d = false)
      ∨ comment text = some (body, rest) := by
  obtain hs | ⟨c, tail, -, hc, hl, rfl⟩ | ⟨body', hl, hcomment⟩ | ⟨t, hl, -⟩ := munch_cases h
  · rcases hs with hs | hs | hs <;> cases hs
  · cases hl
    refine .inl ⟨c, _, rfl, fun d hd => ?_, fun d hd => ?_⟩
    · rcases List.mem_cons.mp hd with rfl | hd
      · exact hc
      · exact List.mem_takeWhile_imp hd
    · have := List.head?_dropWhile_not isSheetBlank tail
      rw [hd] at this
      simpa using this
  · cases hl
    exact .inr hcomment
  · cases hl

theorem munch_blanks {c : Char} {inner : Text} (hb : ∀ d ∈ c :: inner, isSheetBlank d = true)
    (hrest : ∀ d ∈ rest.head?, isSheetBlank d = false) :
    munch (c :: inner ++ rest) = some (.ignored (c :: inner), rest) := by
  have hinner : ∀ d ∈ inner, isSheetBlank d = true := fun d hd => hb d (List.mem_cons_of_mem _ hd)
  have hstop : rest.takeWhile isSheetBlank = [] ∧ rest.dropWhile isSheetBlank = rest := by
    rcases rest with - | ⟨d, rest⟩
    · exact ⟨rfl, rfl⟩
    · have hd : ¬ isSheetBlank d = true := by rw [hrest d rfl]; exact Bool.false_ne_true
      exact ⟨List.takeWhile_cons_of_neg hd, List.dropWhile_cons_of_neg hd⟩
  rw [List.cons_append, munch, if_pos (hb c (List.mem_cons_self ..)),
    List.takeWhile_append_of_pos hinner, List.dropWhile_append_of_pos hinner, hstop.1, hstop.2,
    List.append_nil]

theorem munch_of_comment {body : Text} (h : comment text = some (body, rest)) :
    munch text = some (.ignored body, rest) := by
  rcases text with - | ⟨c, text⟩
  · cases h
  · have hc : c = '/' := by
      rw [comment.eq_def] at h
      split at h
      · rename_i he
        exact (List.cons.inj he).1
      · rename_i he
        exact (List.cons.inj he).1
      · cases h
    subst hc
    rw [munch, if_neg (by decide), if_neg (by decide), if_neg (by decide), if_neg (by decide), h]

/-- A comment is the same in front of another text with the same beginning. -/
theorem comment_change {body : Text} (h : comment (body ++ rest) = some (body, rest))
    (hhead : ∀ c ∈ other.head?, c ∈ rest.head?) :
    comment (body ++ other) = some (body, other) := by
  rw [comment.eq_def] at h
  split at h
  · obtain ⟨⟨inner, after⟩, hb, he⟩ := Option.map_eq_some_iff.mp h
    cases he
    show comment ('/' :: '*' :: (inner ++ "*/" ++ other)) = _
    rw [comment, Text.breakOn_exchange hb]
    rfl
  · rename_i inner he
    rw [Option.some.injEq, Prod.mk.injEq] at h
    obtain ⟨rfl, rfl⟩ := h
    have hstop : other.takeWhile (· ≠ '\n') = [] ∧ other.dropWhile (· ≠ '\n') = other := by
      rcases other with - | ⟨d, other⟩
      · exact ⟨rfl, rfl⟩
      · have hd : ¬ decide (d ≠ '\n') = true := by
          have := List.head?_dropWhile_not (fun c => decide (c ≠ '\n')) inner
          rw [hhead d rfl] at this
          simpa using this
        exact ⟨List.takeWhile_cons_of_neg hd, List.dropWhile_cons_of_neg hd⟩
    have hall : ∀ d ∈ inner.takeWhile (· ≠ '\n'), decide (d ≠ '\n') = true :=
      fun d hd => (List.all_eq_true.mp List.all_takeWhile) d hd
    show comment ('/' :: '/' :: (inner.takeWhile (· ≠ '\n') ++ other)) = _
    rw [comment, List.takeWhile_append_of_pos hall, List.dropWhile_append_of_pos hall, hstop.1,
      hstop.2, List.append_nil]
  · cases h

/-- A lexeme is the same in front of another text with the same beginning, if a
chunk neither goes on there nor is closed there. -/
theorem munch_change {l : Lexeme} (h : munch (l.source ++ rest) = some (l, rest))
    (hhead : ∀ c ∈ other.head?, c ∈ rest.head?)
    (hends : ∀ t, l = .chunk t → chunkPart other = none)
    (hopen : ∀ t, l = .chunk t → LeavesOpen t → ')' ∉ other) :
    munch (l.source ++ other) = some (l, other) := by
  rcases l with body | t | - | - | -
  · rcases munch_ignored_cases h with ⟨c, inner, rfl, hblank, hstop⟩ | hc
    · exact munch_blanks hblank fun d hd => hstop d (hhead d hd)
    · exact munch_of_comment (comment_change hc hhead)
  · rw [munch_chunk_iff, chunk_eq_some_iff] at h ⊢
    obtain ⟨hne, hblank, hrest⟩ := h
    obtain ⟨c, t, rfl⟩ := List.exists_cons_of_ne_nil hne
    exact ⟨hne, hblank, chunkRest_change hrest hhead (hends _ rfl) (hopen _ rfl)⟩
  all_goals rfl

theorem chunkPart_of_isSheetBlank (h : isSheetBlank c = true) (text : Text) :
    chunkPart (c :: text) = some ([c], text) := by
  simp only [isSheetBlank, Bool.or_eq_true, decide_eq_true_eq] at h
  rcases h with (((rfl | rfl) | rfl) | rfl) | rfl <;> rfl

theorem exists_of_comment {body : Text} (h : comment text = some (body, rest)) :
    ∃ d inner, (d = '/' ∨ d = '*') ∧ body = '/' :: d :: inner := by
  rw [comment.eq_def] at h
  split at h
  · obtain ⟨⟨inner, after⟩, -, he⟩ := Option.map_eq_some_iff.mp h
    cases he
    exact ⟨'*', _, .inr rfl, rfl⟩
  · cases h
    exact ⟨'/', _, .inl rfl, rfl⟩
  · cases h

/-- Where a lexeme begins but no part of a chunk, none begins in front of
another text either. -/
theorem chunkPart_of_munch {l : Lexeme} (h : munch (l.source ++ rest) = some (l, rest))
    (hn : chunkPart (l.source ++ rest) = none) (other : Text) :
    chunkPart (l.source ++ other) = none := by
  rcases l with body | t | - | - | -
  · rcases munch_ignored_cases h with ⟨c, inner, rfl, hblank, -⟩ | hc
    · have hpart := chunkPart_of_isSheetBlank (hblank c (List.mem_cons_self ..)) (inner ++ rest)
      exact absurd (hpart.symm.trans hn) nofun
    · obtain ⟨d, inner, rfl | rfl, rfl⟩ := exists_of_comment hc <;> rfl
  · rw [munch_chunk_iff, chunk_eq_some_iff, chunkRest_of_none hn] at h
    exact absurd (Prod.mk.inj h.2.2).1.symm h.1
  all_goals rfl

/-! ### Lexemes in front of another text -/

/-- The lexemes are none or end with a brace or a semicolon. -/
def EndsStatement (read : List Lexeme) : Prop := ∀ l ∈ read.getLast?, l.Structural

theorem EndsStatement.tail {l : Lexeme} {read : List Lexeme} (h : EndsStatement (l :: read)) :
    EndsStatement read := by
  intro l' hl
  refine h l' ?_
  rcases read with - | ⟨next, read⟩
  · cases hl
  · rwa [List.getLast?_cons_cons]

/-- The lexemes behind some are those of the text behind them. -/
theorem exists_of_lexemes {front back : List Lexeme} (h : (lexemes text).1 = front ++ back) :
    ∃ rest, text = front.flatMap Lexeme.source ++ rest
      ∧ lexemes rest = (back, (lexemes text).2) := by
  induction front generalizing text with
  | nil => exact ⟨text, rfl, Prod.ext h rfl⟩
  | cons l front ih =>
    obtain ⟨after, hm, hafter, hleft⟩ := lexemes_eq_cons h
    obtain ⟨rest, rfl, hrest⟩ := ih hafter
    refine ⟨rest, ?_, hrest.trans (by rw [hleft])⟩
    rw [(eq_of_munch hm).1, List.flatMap_cons, List.append_assoc]

/-- Behind a chunk that leaves an address open nothing closes it. -/
theorem not_mem_of_chunk {t : Text} {found : List Lexeme} (ho : LeavesOpen t)
    (h : (lexemes text).1 = .chunk t :: found) :
    ∃ rest, munch text = some (.chunk t, rest) ∧ (lexemes rest).1 = found ∧ ')' ∉ rest := by
  obtain ⟨rest, hm, hrest, -⟩ := lexemes_eq_cons h
  have hchunk := (chunk_eq_some_iff.mp (munch_chunk_iff.mp hm)).2.2
  rw [(eq_of_munch hm).1] at hchunk
  exact ⟨rest, hm, hrest, not_mem_of_leavesOpen hchunk ho⟩

/-- The text closes no address that a chunk among the lexemes leaves open. -/
def ClosesNone (read : List Lexeme) (text : Text) : Prop :=
  ∀ t, .chunk t ∈ read → LeavesOpen t → ')' ∉ text

theorem closesNone_append {read : List Lexeme} :
    ClosesNone read (text ++ rest) ↔ ClosesNone read text ∧ ClosesNone read rest := by
  simp only [ClosesNone, List.mem_append, not_or]
  exact ⟨fun h => ⟨fun t ht ho => (h t ht ho).1, fun t ht ho => (h t ht ho).2⟩,
    fun h t ht ho => ⟨h.1 t ht ho, h.2 t ht ho⟩⟩

/-- What follows in the text closes none, or the address would not be open. -/
theorem closesNone_behind {read left : List Lexeme}
    (h : (lexemes (read.flatMap Lexeme.source ++ rest)).1 = read ++ left) :
    ClosesNone read rest := by
  intro t ht ho
  obtain ⟨front, back, rfl⟩ := List.append_of_mem ht
  rw [List.append_assoc] at h
  obtain ⟨here, hsplit, hhere⟩ := exists_of_lexemes h
  obtain ⟨after, hm, -, hclosed⟩ := not_mem_of_chunk ho (congrArg Prod.fst hhere)
  rw [(eq_of_munch hm).1, List.flatMap_append, List.append_assoc, List.flatMap_cons,
    List.append_assoc, List.append_cancel_left_eq, List.append_cancel_left_eq] at hsplit
  rw [← hsplit] at hclosed
  exact fun hm => hclosed (List.mem_append_right _ hm)

/-- **Lexemes up to a brace or a semicolon** are the same in front of another
text that closes no address which a chunk among them leaves open. -/
theorem lexemes_change {read left : List Lexeme} {new : Text}
    (h : (lexemes text).1 = read ++ left) (hends : EndsStatement read)
    (hnone : ClosesNone read new) :
    lexemes (read.flatMap Lexeme.source ++ new)
      = (read ++ (lexemes new).1, (lexemes new).2) := by
  induction read generalizing text with
  | nil => rfl
  | cons l read ih =>
    obtain ⟨rest, hm, hrest, -⟩ := lexemes_eq_cons h
    obtain ⟨rfl, -⟩ := eq_of_munch hm
    have hbehind := ih hrest hends.tail fun t ht => hnone t (List.mem_cons_of_mem _ ht)
    have hl : munch (l.source ++ (read.flatMap Lexeme.source ++ new))
        = some (l, read.flatMap Lexeme.source ++ new) := by
      rcases read with - | ⟨next, read⟩
      · rcases hends l rfl with rfl | rfl | rfl <;> rfl
      · -- the next lexeme is where it was, so a chunk ends there again
        obtain ⟨after, hnext, -, -⟩ := lexemes_eq_cons hrest
        obtain ⟨rfl, hne⟩ := eq_of_munch hnext
        refine munch_change hm (fun d hd => ?_) ?_ ?_
        · obtain ⟨c, s, hs⟩ := List.exists_cons_of_ne_nil hne
          rw [List.flatMap_cons, hs] at hd
          rwa [hs, List.cons_append]
        · rintro t rfl
          have hchunk := (chunk_eq_some_iff.mp (munch_chunk_iff.mp hm)).2.2
          rw [List.flatMap_cons, List.append_assoc]
          exact chunkPart_of_munch hnext (chunkPart_of_rest hchunk) _
        · rintro t rfl ho hmem
          rcases List.mem_append.mp hmem with hmem | hmem
          · obtain ⟨after, hsplit, -⟩ := exists_of_lexemes hrest
            obtain ⟨rest, hm', -, hclosed⟩ := not_mem_of_chunk ho h
            obtain rfl := (Prod.mk.inj (Option.some.inj (hm.symm.trans hm'))).2
            exact hclosed (hsplit ▸ List.mem_append_left _ hmem)
          · exact hnone t (List.mem_cons_self ..) ho hmem
    rw [List.flatMap_cons, List.append_assoc, lexemes_of_munch hl, hbehind, List.cons_append]

/-- Otherwise they are not the same. -/
theorem isPrefix_lexemes_change_iff {read left : List Lexeme} {new : Text}
    (h : (lexemes text).1 = read ++ left) (hends : EndsStatement read) :
    read <+: (lexemes (read.flatMap Lexeme.source ++ new)).1 ↔ ClosesNone read new := by
  constructor
  · rintro ⟨more, hmore⟩
    exact closesNone_behind hmore.symm
  · intro hnone
    rw [lexemes_change h hends hnone]
    exact List.prefix_append _ _

end FluidScss
