/-
FluidScss/Proofs/Chunk.lean

Texts that are read as one chunk.  `ChunkText t` lists the parts of `t` one by
one: characters that stand for themselves, strings in double quotes and
`url(` with its parenthesis.  Read in front of a brace or a semicolon, such a
text is a chunk and nothing of what follows is (`munch_chunk`).

Most texts at hand have no quotes, slashes, braces or semicolons at all, and
close the parentheses they open; these are chunk texts (`chunkText_of_plain`).
In front of a chunk text that begins with a blank, any plain text without a
parenthesis may stand (`ChunkText.prepend`): the word `url(` cannot come
about across the blank.
-/
import FluidScss.Proofs.Text
import FluidScss.Sheet.Lexeme

namespace FluidScss

/-- Characters that may stand for themselves in a chunk: no quotes, slashes,
braces or semicolons. -/
def isPlain (c : Char) : Bool := c ≠ '"' && c ≠ '\'' && c ≠ '/' && !endsChunk c

/-- Texts that are read as chunk parts to their end. -/
inductive ChunkText : Text → Prop
  | nil : ChunkText []
  | char {c : Char} {t : Text} (plain : isPlain c = true)
      (hash : c = '#' → ∃ d rest, t = d :: rest ∧ d ≠ '\x7b')
      (url : ¬ ("url(" : Text) <+: c :: t) (rest : ChunkText t) : ChunkText (c :: t)
  | string {body t : Text} (quote : '"' ∉ body) (backslash : '\\' ∉ body) (newline : '\n' ∉ body)
      (rest : ChunkText t) : ChunkText ('"' :: (body ++ '"' :: t))
  | url {body t : Text} (close : ')' ∉ body) (rest : ChunkText t) :
      ChunkText ('u' :: 'r' :: 'l' :: '(' :: (body ++ ')' :: t))

/-- What may follow a chunk: the end, or a character that ends it. -/
def ChunkEnds (rest : Text) : Prop := ∀ c ∈ rest.head?, endsChunk c = true

theorem chunkEnds_cons {c : Char} {rest : Text} (h : endsChunk c = true) :
    ChunkEnds (c :: rest) := by
  intro d hd
  cases hd
  exact h

/-! ### Reading parts -/

theorem stringRest_append {quote : Char} {body rest : Text} (hq : quote ∉ body)
    (hb : '\\' ∉ body) (hn : '\n' ∉ body) :
    stringRest quote (body ++ quote :: rest) = some (body ++ [quote], rest) := by
  induction body with
  | nil =>
    rw [List.nil_append, stringRest.eq_def]
    simp
  | cons c body ih =>
    simp only [List.mem_cons, not_or] at hq hb hn
    rw [List.cons_append, stringRest.eq_def]
    simp only [if_neg (Ne.symm hq.1), if_neg (Ne.symm hn.1), if_neg (Ne.symm hb.1),
      ih hq.2 hb.2 hn.2, Option.map_some]
    rfl

theorem upTo_append {close : Char} {body rest : Text} (hc : close ∉ body) :
    upTo close (fun _ => false) (body ++ close :: rest) = some (body ++ [close], rest) := by
  induction body with
  | nil => simp [upTo]
  | cons c body ih =>
    rw [List.mem_cons, not_or] at hc
    rw [List.cons_append, upTo, if_neg (Ne.symm hc.1), ih hc.2]
    rfl

/-- A plain character is a part on its own unless it begins an interpolation
or a `url(`. -/
theorem chunkPart_cons {c : Char} {text : Text} (hc : isPlain c = true)
    (hhash : c = '#' → ¬ text.head? = some '\x7b') (hurl : ¬ ("url(" : Text) <+: c :: text) :
    chunkPart (c :: text) = some ([c], text) := by
  simp only [isPlain, Bool.and_eq_true, decide_eq_true_eq, Bool.not_eq_true'] at hc
  rw [chunkPart.eq_def]
  split
  · rename_i h
    cases h
  · rename_i h
    cases h
    exact absurd rfl hc.1.1.1
  · rename_i h
    cases h
    exact absurd rfl hc.1.1.2
  · rename_i h
    cases h
    exact absurd rfl (hhash rfl)
  · rename_i h
    cases h
    exact absurd rfl hc.1.2
  · rename_i h
    cases h
    exact absurd rfl hc.1.2
  · rename_i h
    cases h
    exact absurd ⟨_, rfl⟩ hurl
  · rename_i h
    cases h
    rw [if_neg (by rw [hc.2]; exact Bool.false_ne_true)]

theorem chunkPart_of_ends {rest : Text} (h : ChunkEnds rest) : chunkPart rest = none := by
  rcases rest with - | ⟨c, rest⟩
  · rfl
  · have hc : endsChunk c = true := h c rfl
    rw [chunkPart.eq_def]
    split
    all_goals first
      | rfl
      | (rename_i h; cases h; exact absurd hc (by decide))
      | (rename_i h; cases h; exact if_pos hc)

theorem chunkRest_of_part {text part after : Text} (h : chunkPart text = some (part, after)) :
    chunkRest text = (part ++ (chunkRest after).1, (chunkRest after).2) := by
  rw [chunkRest]
  split
  · rename_i hn
    rw [hn] at h
    cases h
  · rename_i part' after' hs
    rw [hs] at h
    cases h
    rfl

theorem chunkRest_of_none {text : Text} (h : chunkPart text = none) : chunkRest text = ([], text) := by
  rw [chunkRest]
  split
  · rfl
  · rename_i hs
    rw [h] at hs
    cases hs

theorem chunkRest_of_ends {rest : Text} (h : ChunkEnds rest) : chunkRest rest = ([], rest) :=
  chunkRest_of_none (chunkPart_of_ends h)

/-- The word that begins an address does not reach beyond a chunk. -/
theorem isPrefix_url_of_ends {text rest : Text} (hr : ChunkEnds rest)
    (h : ("url(" : Text) <+: text ++ rest) : ("url(" : Text) <+: text := by
  refine Text.isPrefix_of_isPrefix_append (fun c hc hmem => ?_) h
  have hends := hr c hc
  have hm : c ∈ ['u', 'r', 'l', '('] := hmem
  simp only [List.mem_cons, List.not_mem_nil, or_false] at hm
  rcases hm with rfl | rfl | rfl | rfl <;> cases hends

/-- A chunk text in front of what ends chunks is taken to its end. -/
theorem chunkRest_append {t rest : Text} (ht : ChunkText t) (hr : ChunkEnds rest) :
    chunkRest (t ++ rest) = (t, rest) := by
  induction ht with
  | nil => exact chunkRest_of_ends hr
  | @char c t plain hash url _ ih =>
    have hpart : chunkPart (c :: (t ++ rest)) = some ([c], t ++ rest) := by
      refine chunkPart_cons plain (fun hh => ?_) fun hu => url ?_
      · obtain ⟨d, t', rfl, hd⟩ := hash hh
        simpa using hd
      · exact isPrefix_url_of_ends hr hu
    rw [List.cons_append, chunkRest_of_part hpart, ih]
    rfl
  | @string body t quote backslash newline _ ih =>
    have hpart : chunkPart ('"' :: (body ++ '"' :: (t ++ rest)))
        = some ('"' :: (body ++ ['"']), t ++ rest) := by
      rw [chunkPart, stringRest_append quote backslash newline]
      rfl
    have hsplit : '"' :: (body ++ '"' :: t) ++ rest = '"' :: (body ++ '"' :: (t ++ rest)) := by
      simp
    rw [hsplit, chunkRest_of_part hpart, ih]
    simp
  | @url body t close _ ih =>
    have hpart : chunkPart ('u' :: 'r' :: 'l' :: '(' :: (body ++ ')' :: (t ++ rest)))
        = some ('u' :: 'r' :: 'l' :: '(' :: (body ++ [')']), t ++ rest) := by
      rw [chunkPart, upTo_append close]
    have hsplit : 'u' :: 'r' :: 'l' :: '(' :: (body ++ ')' :: t) ++ rest
        = 'u' :: 'r' :: 'l' :: '(' :: (body ++ ')' :: (t ++ rest)) := by
      simp
    rw [hsplit, chunkRest_of_part hpart, ih]
    simp

/-- A chunk is not empty and begins with no blank. -/
theorem chunk_eq_some_iff {text t rest : Text} : chunk text = some (t, rest)
    ↔ t ≠ [] ∧ (∀ c ∈ text.head?, isBlank c = false) ∧ chunkRest text = (t, rest) := by
  rcases text with - | ⟨c, text⟩
  · refine ⟨(fun h => by cases h), fun h => ?_⟩
    rw [chunkRest_of_none rfl] at h
    exact absurd (Prod.mk.inj h.2.2).1.symm h.1
  · rw [chunk]
    rcases hb : isBlank c with - | -
    · rw [if_neg Bool.false_ne_true]
      have hhead : ∀ d ∈ (c :: text).head?, isBlank d = false := by
        rintro d ⟨⟩
        exact hb
      rcases hp : chunkPart (c :: text) with - | ⟨part, after⟩
      · rw [chunkRest_of_none hp]
        exact ⟨(fun h => by cases h), fun h => absurd (Prod.mk.inj h.2.2).1.symm h.1⟩
      · rw [chunkRest_of_part hp]
        refine ⟨fun h => ?_, fun h => congrArg some h.2.2⟩
        obtain ⟨rfl, rfl⟩ := Prod.mk.inj (Option.some.inj h)
        exact ⟨fun hn => (eq_of_chunkPart hp).2 (List.append_eq_nil_iff.mp hn).1, hhead, rfl⟩
    · rw [if_pos rfl]
      refine ⟨(fun h => by cases h), fun h => ?_⟩
      have := h.2.1 c rfl
      rw [hb] at this
      cases this

theorem comment_eq_none {text : Text} (h : chunkPart text ≠ none) : comment text = none := by
  rw [comment.eq_def]
  split
  · exact absurd rfl h
  · exact absurd rfl h
  · rfl

/-- A chunk at the front of a text is the lexeme there. -/
theorem munch_of_chunk {text t rest : Text} (h : chunk text = some (t, rest)) :
    munch text = some (.chunk t, rest) := by
  obtain ⟨hne, hblank, hrest⟩ := chunk_eq_some_iff.mp h
  have hpart : chunkPart text ≠ none := by
    intro hn
    rw [chunkRest_of_none hn] at hrest
    exact hne (Prod.mk.inj hrest).1.symm
  rcases text with - | ⟨c, text⟩
  · exact absurd rfl hpart
  · have hends : endsChunk c = false := by
      rw [← Bool.not_eq_true]
      exact fun hc => hpart (chunkPart_of_ends (chunkEnds_cons hc))
    have hsheet : ¬ isSheetBlank c = true := fun hs => by
      have := hblank c rfl
      rw [isBlank_of_isSheetBlank hs] at this
      cases this
    simp only [endsChunk, Bool.or_eq_false_iff, decide_eq_false_iff_not] at hends
    rw [munch, if_neg hsheet, if_neg hends.1.1, if_neg hends.1.2, if_neg hends.2,
      comment_eq_none hpart, h]
    rfl

/-- A chunk text that begins with no blank is one lexeme. -/
theorem munch_chunk {c : Char} {t rest : Text} (ht : ChunkText (c :: t)) (hb : isBlank c = false)
    (hr : ChunkEnds rest) :
    munch (c :: t ++ rest) = some (.chunk (c :: t), rest) := by
  refine munch_of_chunk (chunk_eq_some_iff.mpr ⟨List.cons_ne_nil _ _, ?_, chunkRest_append ht hr⟩)
  rintro d ⟨⟩
  exact hb

/-! ### Plain texts -/

/-- Every parenthesis that is opened is closed somewhere behind it. -/
def Closing : Text → Prop
  | [] => True
  | c :: t => (c = '(' → ')' ∈ t) ∧ Closing t

instance decidableClosing : (t : Text) → Decidable (Closing t)
  | [] => .isTrue trivial
  | c :: t =>
    have := decidableClosing t
    inferInstanceAs (Decidable ((c = '(' → ')' ∈ t) ∧ Closing t))

theorem Closing.append {s t : Text} (hs : Closing s) (ht : Closing t) : Closing (s ++ t) := by
  induction s with
  | nil => exact ht
  | cons c s ih => exact ⟨fun h => List.mem_append_left t (hs.1 h), ih hs.2⟩

theorem closing_of_not_mem {t : Text} (h : '(' ∉ t) : Closing t := by
  induction t with
  | nil => trivial
  | cons c t ih =>
    rw [List.mem_cons, not_or] at h
    exact ⟨fun hc => absurd hc.symm h.1, ih h.2⟩

/-- In front of a text that closes one, any parentheses are closed. -/
theorem Closing.append_of_mem {s t : Text} (hm : ')' ∈ t) (ht : Closing t) : Closing (s ++ t) := by
  induction s with
  | nil => exact ht
  | cons c s ih => exact ⟨fun _ => List.mem_append_right s hm, ih⟩

theorem Closing.of_append {s t : Text} (h : Closing (s ++ t)) : Closing t := by
  induction s with
  | nil => exact h
  | cons c s ih => exact ih h.2

/-- A plain text that closes its parentheses and does not end with a hash is a
chunk text. -/
theorem chunkText_of_plain {t : Text} (hp : ∀ c ∈ t, isPlain c = true)
    (hh : t.getLast? ≠ some '#') (hc : Closing t) : ChunkText t := by
  -- the induction is on the length, for `url(` is taken with its parenthesis
  induction hn : t.length using Nat.strongRecOn generalizing t with
  | ind n ih =>
    have hlast : ∀ s u, t = s ++ u → u.getLast? ≠ some '#' := by
      rintro s u rfl hu
      rw [List.getLast?_append, hu] at hh
      exact hh rfl
    by_cases hu : ("url(" : Text) <+: t
    · obtain ⟨after, rfl⟩ := hu
      have hmem : ')' ∈ after := (Closing.of_append (s := "url") hc).1 rfl
      obtain ⟨body, rest, rfl, hbody⟩ := List.eq_append_cons_of_mem hmem
      refine .url hbody (ih rest.length ?_ ?_ ?_ ?_ rfl)
      · rw [← hn]
        simp only [List.length_append, List.length_cons]
        omega
      · intro d hd
        exact hp d (by simp [hd])
      · exact hlast (("url(" : Text) ++ (body ++ [')'])) rest (by simp)
      · exact Closing.of_append (s := ("url(" : Text) ++ (body ++ [')'])) (by simpa using hc)
    · rcases t with - | ⟨c, t⟩
      · exact .nil
      · refine .char (hp c (List.mem_cons_self ..)) (fun hhash => ?_) hu ?_
        · subst hhash
          rcases t with - | ⟨d, t⟩
          · exact absurd rfl hh
          · refine ⟨d, t, rfl, ?_⟩
            rintro rfl
            have := hp '\x7b' (by simp)
            cases this
        · refine ih t.length ?_ (fun d hd => hp d (List.mem_cons_of_mem _ hd))
            (hlast [c] t rfl) hc.2 rfl
          rw [← hn]
          exact Nat.lt_succ_self _

/-- In front of a blank and a chunk text, plain characters without a
parenthesis make a chunk text. -/
theorem ChunkText.prepend {s t : Text} (hp : ∀ c ∈ s, isPlain c = true) (ho : '(' ∉ s)
    (ht : ChunkText (' ' :: t)) : ChunkText (s ++ ' ' :: t) := by
  induction s with
  | nil => exact ht
  | cons c s ih =>
    have hs := ih (fun d hd => hp d (List.mem_cons_of_mem _ hd))
      fun hm => ho (List.mem_cons_of_mem _ hm)
    refine .char (hp c (List.mem_cons_self ..)) (fun _ => ?_) (fun hu => ?_) hs
    · rcases s with - | ⟨d, s⟩
      · exact ⟨' ', t, rfl, by decide⟩
      · refine ⟨d, s ++ ' ' :: t, rfl, ?_⟩
        rintro rfl
        have := hp '\x7b' (by simp)
        cases this
    · have hc : ("url(" : Text) <+: c :: s := by
        have hwhole : ("url(" : Text) <+: (c :: s) ++ ' ' :: t := hu
        refine Text.isPrefix_of_isPrefix_append (fun d hd => ?_) hwhole
        cases hd
        decide
      exact ho (hc.subset (by decide))

end FluidScss
