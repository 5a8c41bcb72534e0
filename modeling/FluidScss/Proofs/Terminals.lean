/-
FluidScss/Proofs/Terminals.lean

The terminals of the grammar of style sheets, as regular expressions, and what
is read by them.

The three expressions of what is ignored (`Terminal.ignored`) and the four of
tokens (`Terminal.tokens`) are given as they are written in the grammar.  What
they match at the front of a text is what `munch` reads there
(`munch_ignored_iff`, `munch_token_iff`).  In particular no two of them match
at one place, so it does not matter in which order they are tried.

Most of the work is with chunks.  A repeated part of a chunk may be matched in
several ways, but the first way is the one that `chunkPart` takes (`head?_part`),
and a greedy repetition follows the first way of each turn.
-/
import FluidScss.Proofs.Reading
import FluidScss.Proofs.Regex

namespace FluidScss

namespace Terminal

open Regex

/-! ### Expressions -/

/-- What stands in a string: a backslash takes the next character with it. -/
def stringPart (quote : Char) : Regex :=
  alt (one fun c => c ≠ quote && c ≠ '\\' && c ≠ '\n')
    (seq (char '\\') (one fun c => c ≠ '\n'))

/-- A string in these quotes, on one line. -/
def string (quote : Char) : Regex :=
  seq (char quote) (seq (many (stringPart quote)) (char quote))

/-- An interpolation without braces in it. -/
def interpolation : Regex :=
  word ['#', '\x7b'] (seq (many (one fun c => c ≠ '\x7b' && c ≠ '\x7d')) (char '\x7d'))

/-- An address. -/
def address : Regex :=
  word ['u', 'r', 'l', '('] (seq (many (one fun c => c ≠ ')')) (char ')'))

/-- A slash that opens no comment. -/
def slash : Regex := seq (char '/') (notAhead (one fun c => c = '/' || c = '*'))

/-- A hash that opens no interpolation. -/
def hash : Regex := seq (char '#') (notAhead (one fun c => c = '\x7b'))

/-- Characters that need no look at what follows: not those that end a chunk,
quotes, slashes and hashes. -/
def isRaw (c : Char) : Bool :=
  !endsChunk c && c ≠ '"' && c ≠ '\'' && c ≠ '/' && c ≠ '#'

/-- A part of a chunk, where single characters are of a class. -/
def part (single : Char → Bool) : Regex :=
  alt (string '"') (alt (string '\'') (alt interpolation (alt address
    (alt slash (alt hash (one single))))))

/-- A chunk: its first character is no blank. -/
def chunk : Regex := seq (part fun c => isRaw c && !isBlank c) (many (part isRaw))

/-- A comment in slashes and stars. -/
def blockComment : Regex :=
  word ['/', '*'] (seq (few (one fun _ => true)) (seq (char '*') (char '/')))

/-- A comment up to the end of its line. -/
def lineComment : Regex := word ['/', '/'] (many (one fun c => c ≠ '\n'))

/-- A run of blanks. -/
def blanks : Regex := seq (one isSheetBlank) (many (one isSheetBlank))

/-- What is ignored. -/
def ignored : List Regex := [blanks, blockComment, lineComment]

/-- The tokens, each with the lexeme that it is. -/
def tokens : List (Regex × (Text → Lexeme)) :=
  [(chunk, .chunk), (char '\x7b', fun _ => .openBrace), (char '\x7d', fun _ => .closeBrace),
    (char ';', fun _ => .semicolon)]

/-! ### Parts of chunks -/

variable {c quote close : Char} {text rest body : Text} {single stop : Char → Bool}

theorem taking_stringPart_plain (hq : c ≠ quote) (hb : c ≠ '\\') (hn : c ≠ '\n') :
    taking (stringPart quote).ways (c :: text) = [text] := by
  simp [taking, stringPart, ways, hq, hb, hn]

theorem taking_stringPart_escape {d : Char} (hd : d ≠ '\n') :
    taking (stringPart quote).ways ('\\' :: d :: text) = [text] := by
  have hways : (stringPart quote).ways ('\\' :: d :: text) = [text] := by
    simp [stringPart, ways, hd]
  have hlength : text.length < ('\\' :: d :: text).length := by
    rw [List.length_cons, List.length_cons]
    omega
  rw [taking, hways]
  exact List.filter_cons_of_pos (decide_eq_true hlength)

theorem taking_stringPart_quote (hq : quote ≠ '\\') :
    taking (stringPart quote).ways (quote :: text) = [] := by
  simp [taking, stringPart, ways, hq]

theorem taking_stringPart_newline : taking (stringPart quote).ways ('\n' :: text) = [] := by
  simp [taking, stringPart, ways]

theorem taking_stringPart_escaped_newline :
    taking (stringPart quote).ways ('\\' :: '\n' :: text) = [] := by
  simp [taking, stringPart, ways]

/-- In a string there is one way at most, and the string goes on to its first
quote that no backslash takes. -/
theorem ways_string_rest (hq : quote ≠ '\\') (text : Text) :
    (seq (many (stringPart quote)) (char quote)).ways text
      = ((stringRest quote text).map Prod.snd).toList := by
  -- a turn and the closing quote never begin with the same character, so one of them is tried
  fun_induction stringRest quote text with
  | case1 => rw [ways_many_seq]; rfl
  | case2 rest => rw [ways_many_seq, taking_stringPart_quote hq]; simp
  | case3 rest hne => rw [ways_many_seq, taking_stringPart_newline]; simp [hne]
  | case4 hne => rw [ways_many_seq]; simp [hne, taking, stringPart, ways]
  | case5 rest hne => rw [ways_many_seq, taking_stringPart_escaped_newline]; simp [hne]
  | case6 d rest hd hne _ ih =>
    rw [ways_many_seq, taking_stringPart_escape hd, List.flatMap_singleton, ih]
    simp [hne, Function.comp_def]
  | case7 c rest hne hnl hb ih =>
    rw [ways_many_seq, taking_stringPart_plain hne hb hnl, List.flatMap_singleton, ih]
    simp [hne, Function.comp_def]

/-- Up to a character that closes there is one way at most. -/
theorem ways_upTo (hs : ∀ c, single c = (c ≠ close && !stop c)) (text : Text) :
    (seq (many (one single)) (char close)).ways text
      = ((upTo close stop text).map Prod.snd).toList := by
  fun_induction upTo close stop text with
  | case1 => rw [ways_many_seq]; rfl
  | case2 rest => rw [ways_many_seq, taking_one]; simp [hs]
  | case3 c rest hne hstop => rw [ways_many_seq, taking_one]; simp [hs, hne, hstop]
  | case4 c rest hne hstop ih =>
    have hc : single c = true := by simp [hs, hne, hstop]
    rw [ways_many_seq, taking_one, ways_one_cons, if_pos hc, List.flatMap_singleton, ih]
    simp [hne, Function.comp_def]

theorem ways_string_cons (hq : quote ≠ '\\') :
    (string quote).ways (c :: text)
      = if c = quote then ((stringRest quote text).map Prod.snd).toList else [] := by
  rw [string, ways_char_seq_cons, ways_string_rest hq]

theorem ways_interpolation_rest (text : Text) :
    interpolation.ways ('#' :: '\x7b' :: text)
      = ((upTo '\x7d' isOpenBrace text).map Prod.snd).toList := by
  refine (ways_word_append ['#', '\x7b']).trans (ways_upTo (fun c => ?_) text)
  rw [Bool.and_comm, isOpenBrace]
  simp

theorem ways_address_rest (text : Text) :
    address.ways ('u' :: 'r' :: 'l' :: '(' :: text)
      = ((upTo ')' (fun _ => false) text).map Prod.snd).toList :=
  (ways_word_append ['u', 'r', 'l', '(']).trans (ways_upTo (fun c => by simp) text)

theorem ways_alt (r s : Regex) (text : Text) : (alt r s).ways text = r.ways text ++ s.ways text :=
  rfl

/-- Where no interpolation and no address begins, the first character tells
what is tried. -/
theorem ways_part_cons (hs : single c = isRaw c)
    (hi : ¬ ['#', '\x7b'] <+: c :: text) (ha : ¬ ['u', 'r', 'l', '('] <+: c :: text) :
    (part single).ways (c :: text)
      = (if c = '"' then ((stringRest '"' text).map Prod.snd).toList else [])
        ++ ((if c = '\'' then ((stringRest '\'' text).map Prod.snd).toList else [])
        ++ ((if c = '/' ∧ text.head?.any (fun d => d = '/' || d = '*') = false then [text] else [])
        ++ ((if c = '#' ∧ text.head?.any (fun d => d = '\x7b') = false then [text] else [])
        ++ (if isRaw c then [text] else [])))) := by
  have hi' : interpolation.ways (c :: text) = [] := ways_word_eq_nil hi
  have ha' : address.ways (c :: text) = [] := ways_word_eq_nil ha
  simp only [part, slash, hash, ways_alt, hi', ha', ways_char_notAhead, ways_one_cons, hs,
    List.nil_append]
  rw [ways_string_cons (by decide), ways_string_cons (by decide)]

theorem head?_part_quote (hs : single c = isRaw c) (hc : c = '"' ∨ c = '\'') :
    ((part single).ways (c :: text)).head? = (stringRest c text).map Prod.snd := by
  have hraw : isRaw c = false := by
    rcases hc with rfl | rfl <;> rfl
  rcases hc with rfl | rfl <;>
    rw [ways_part_cons hs (by simp) (by simp), hraw] <;>
    simp

theorem head?_part_interpolation (hs : single '#' = isRaw '#') :
    ((part single).ways ('#' :: '\x7b' :: text)).head?
      = (upTo '\x7d' isOpenBrace text).map Prod.snd := by
  have hraw : isRaw '#' = false := rfl
  have ha : ∀ text, address.ways ('#' :: text) = [] := fun _ => ways_word_eq_nil (by simp)
  simp only [part, slash, hash, ways_alt, ways_interpolation_rest, ha, ways_char_notAhead,
    ways_one_cons, hs, hraw]
  rw [ways_string_cons (by decide), ways_string_cons (by decide)]
  simp

theorem ways_part_comment (hs : single '/' = isRaw '/') (hc : c = '/' ∨ c = '*') :
    (part single).ways ('/' :: c :: text) = [] := by
  have hraw : isRaw '/' = false := rfl
  rw [ways_part_cons hs (by simp) (by simp), hraw]
  rcases hc with rfl | rfl <;> simp

/-- An address that is not closed is no address: the letter it begins with is a
part. -/
theorem head?_part_address (hs : single 'u' = isRaw 'u') :
    ((part single).ways ('u' :: 'r' :: 'l' :: '(' :: text)).head?
      = some (((upTo ')' (fun _ => false) text).map Prod.snd).getD
          ('r' :: 'l' :: '(' :: text)) := by
  have hraw : isRaw 'u' = true := rfl
  have hi : ∀ text, interpolation.ways ('u' :: text) = [] := fun _ => ways_word_eq_nil (by simp)
  simp only [part, slash, hash, ways_alt, hi, ways_address_rest, ways_char_notAhead,
    ways_one_cons, hs, hraw]
  rw [ways_string_cons (by decide), ways_string_cons (by decide)]
  rcases upTo ')' (fun _ => false) text with - | ⟨body, after⟩ <;> simp

/-- A character on its own is a part, unless it ends a chunk. -/
theorem head?_part_single (hs : single c = isRaw c) (hdouble : c ≠ '"') (hquote : c ≠ '\'')
    (hi : ∀ rest, c = '#' → text = '\x7b' :: rest → False)
    (hc : ∀ d rest, c = '/' → text = d :: rest → d ≠ '/' ∧ d ≠ '*')
    (ha : ∀ rest, c = 'u' → text = 'r' :: 'l' :: '(' :: rest → False) :
    ((part single).ways (c :: text)).head? = if endsChunk c then none else some text := by
  have hword : ¬ ['#', '\x7b'] <+: c :: text := fun ⟨rest, h⟩ =>
    hi rest (List.cons.inj h).1.symm (List.cons.inj h).2.symm
  have hword' : ¬ ['u', 'r', 'l', '('] <+: c :: text := fun ⟨rest, h⟩ =>
    ha rest (List.cons.inj h).1.symm (List.cons.inj h).2.symm
  rw [ways_part_cons hs hword hword', if_neg hdouble, if_neg hquote]
  by_cases hslash : c = '/'
  · have hends : endsChunk '/' = false := rfl
    have hfree : text.head?.any (fun d => d = '/' || d = '*') = false := by
      rcases text with - | ⟨d, rest⟩
      · rfl
      · simp [hc d rest hslash rfl]
    rw [if_pos ⟨hslash, hfree⟩, hslash, hends]
    simp
  · rw [if_neg fun h => hslash h.1]
    by_cases hhash : c = '#'
    · have hends : endsChunk '#' = false := rfl
      have hfree : text.head?.any (fun d => d = '\x7b') = false := by
        rcases text with - | ⟨d, rest⟩
        · rfl
        · have hne : d ≠ '\x7b' := fun hd => hi rest hhash (by rw [hd])
          simp [hne]
      rw [if_pos ⟨hhash, hfree⟩, hhash, hends]
      simp
    · have hraw : isRaw c = !endsChunk c := by
        simp [isRaw, hdouble, hquote, hslash, hhash]
      rw [if_neg fun h => hhash h.1, hraw]
      rcases endsChunk c <;> simp

/-- **A part of a chunk** is what is tried first. -/
theorem head?_part (hs : single c = isRaw c) (text : Text) :
    ((part single).ways (c :: text)).head? = (chunkPart (c :: text)).map Prod.snd := by
  -- the cases are those of `chunkPart`, which tells them by the characters in front
  rw [chunkPart.eq_def]
  split
  · rename_i h
    cases h
  · rename_i h
    cases h
    rw [head?_part_quote hs (.inl rfl), Option.map_map]
    rfl
  · rename_i h
    cases h
    rw [head?_part_quote hs (.inr rfl), Option.map_map]
    rfl
  · rename_i h
    cases h
    rw [head?_part_interpolation hs, Option.map_map]
    rfl
  · rename_i h
    cases h
    rw [ways_part_comment hs (.inl rfl)]
    rfl
  · rename_i h
    cases h
    rw [ways_part_comment hs (.inr rfl)]
    rfl
  · rename_i rest h
    cases h
    rw [head?_part_address hs]
    rcases upTo ')' (fun _ => false) rest with - | ⟨body, after⟩ <;> rfl
  · rename_i hdouble hquote hi hline hblock ha h
    cases h
    have hc : ∀ d rest, c = '/' → text = d :: rest → d ≠ '/' ∧ d ≠ '*' := by
      rintro d rest hslash rfl
      exact ⟨fun hd => hline rest hslash (by rw [hd]), fun hd => hblock rest hslash (by rw [hd])⟩
    rw [head?_part_single hs hdouble hquote hi hc ha]
    split <;> rfl

/-- The first part of a chunk may not begin with a blank. -/
theorem ways_part_blank (hb : isBlank c = true) (text : Text) :
    (part fun c => isRaw c && !isBlank c).ways (c :: text) = [] := by
  have hne : ∀ d, isBlank d = false → c ≠ d := by
    rintro d hd rfl
    rw [hd] at hb
    cases hb
  have hdq := hne '"' rfl
  have hsq := hne '\'' rfl
  have hhash := hne '#' rfl
  have hslash := hne '/' rfl
  have hi : interpolation.ways (c :: text) = [] :=
    ways_word_eq_nil fun h => hhash (List.cons_prefix_cons.mp h).1.symm
  have ha : address.ways (c :: text) = [] :=
    ways_word_eq_nil fun h => hne 'u' rfl (List.cons_prefix_cons.mp h).1.symm
  simp only [part, slash, hash, ways_alt, ways_char_notAhead, ways_one_cons, hb, hi, ha]
  rw [ways_string_cons (by decide), ways_string_cons (by decide)]
  simp [hdq, hsq, hhash, hslash]

/-! ### Chunks -/

theorem head?_part_raw (text : Text) :
    ((part isRaw).ways text).head? = (chunkPart text).map Prod.snd := by
  rcases text with - | ⟨c, text⟩
  · rfl
  · exact head?_part rfl text

/-- The parts behind the first one are taken as long as there are some. -/
theorem head?_many_part (text : Text) :
    ((many (part isRaw)).ways text).head? = some (chunkRest text).2 := by
  have htaking : ∀ text, (taking (part isRaw).ways text).head? = (chunkPart text).map Prod.snd := by
    intro text
    rw [head?_taking, head?_part_raw]
    intro rest h
    rw [head?_part_raw] at h
    obtain ⟨⟨body, after⟩, hp, rfl⟩ := Option.map_eq_some_iff.mp h
    obtain ⟨htext, hne⟩ := eq_of_chunkPart hp
    have := List.length_pos_iff.mpr hne
    rw [htext, List.length_append]
    dsimp only
    omega
  rw [ways]
  fun_induction chunkRest text with
  | case1 text h =>
    refine head?_manyWays_of_none ?_
    rw [htaking, h]
    rfl
  | case2 text first after h body after' he ih =>
    have hfirst : (taking (part isRaw).ways text).head? = some after := by
      rw [htaking, h]
      rfl
    rw [he] at ih
    rw [head?_manyWays_of_some hfirst, ih]

/-- **Chunks** are what the expression for chunks matches. -/
theorem match?_chunk (text : Text) : chunk.match? text = FluidScss.chunk text := by
  refine match?_eq (fun h => (eq_of_chunk h).1) ?_
  rw [chunk, ways, head?_flatMap_of_ne_nil (g := (many (part isRaw)).ways) (manyWays_ne_nil _)]
  rcases text with - | ⟨c, text⟩
  · rfl
  · rw [FluidScss.chunk]
    by_cases hb : isBlank c = true
    · rw [ways_part_blank hb, if_pos hb]
      rfl
    · rw [Bool.not_eq_true] at hb
      rw [head?_part (by simp [hb]), if_neg (by rw [hb]; exact Bool.false_ne_true)]
      rcases chunkPart (c :: text) with - | ⟨part, after⟩
      · rfl
      · exact head?_many_part after

/-! ### What is ignored -/

theorem match?_blanks (text : Text) : blanks.match? (c :: text)
    = if isSheetBlank c then some (c :: text.takeWhile isSheetBlank, text.dropWhile isSheetBlank)
      else none := by
  split
  · rename_i hc
    have hsplit : c :: text = c :: text.takeWhile isSheetBlank ++ text.dropWhile isSheetBlank := by
      rw [List.cons_append, List.takeWhile_append_dropWhile]
    refine match?_of_head? hsplit ?_
    rw [blanks, ways, ways_one_cons, if_pos hc, List.flatMap_singleton, head?_many_one]
  · rename_i hc
    refine match?_eq_none ?_
    rw [blanks, ways, ways_one_cons, if_neg hc]
    rfl

/-- A lazy run of any characters goes up to the first end of a comment. -/
theorem head?_few_any (text : Text) :
    ((seq (few (one fun _ => true)) (seq (char '*') (char '/'))).ways text).head?
      = (Text.breakOn ['*', '/'] text).map Prod.snd := by
  induction text with
  | nil => rw [ways_few_seq]; rfl
  | cons c text ih =>
    rw [ways_few_seq, taking_one, ways_one_cons, if_pos rfl, List.flatMap_singleton,
      List.head?_append, ih, Text.breakOn, ways_char_seq_cons]
    by_cases hc : c = '*'
    · rcases text with - | ⟨d, text⟩
      · simp [hc, Text.breakOn]
      · by_cases hd : d = '/'
        · simp [hc, hd]
        · simp [hc, hd, Ne.symm hd, Function.comp_def]
    · simp [hc, Ne.symm hc, Function.comp_def]

theorem match?_blockComment (rest : Text) :
    blockComment.match? ('/' :: '*' :: rest) = comment ('/' :: '*' :: rest) := by
  refine match?_eq (fun h => (eq_of_comment h).1) ?_
  have hways : (blockComment.ways ('/' :: '*' :: rest)).head? = _ :=
    (congrArg List.head? (ways_word_append ['/', '*'])).trans (head?_few_any rest)
  rw [hways, comment, Option.map_map]
  rfl

theorem match?_lineComment (rest : Text) :
    lineComment.match? ('/' :: '/' :: rest) = comment ('/' :: '/' :: rest) := by
  refine match?_eq (fun h => (eq_of_comment h).1) ?_
  exact (congrArg List.head? (ways_word_append ['/', '/'])).trans head?_many_one

/-- **Comments** are what one of the two expressions for comments matches. -/
theorem match?_comments {found : Text × Text} :
    blockComment.match? text = some found ∨ lineComment.match? text = some found
      ↔ comment text = some found := by
  by_cases hb : ['/', '*'] <+: text
  · obtain ⟨rest, rfl⟩ := hb
    have hline : lineComment.match? (['/', '*'] ++ rest) = none :=
      match?_eq_none (ways_word_eq_nil (by simp))
    have hblock : blockComment.match? (['/', '*'] ++ rest) = _ := match?_blockComment rest
    rw [hblock, hline]
    simp
  · have hblock : blockComment.match? text = none := match?_eq_none (ways_word_eq_nil hb)
    by_cases hl : ['/', '/'] <+: text
    · obtain ⟨rest, rfl⟩ := hl
      have hline : lineComment.match? (['/', '/'] ++ rest) = _ := match?_lineComment rest
      rw [hline, hblock]
      simp
    · have hline : lineComment.match? text = none := match?_eq_none (ways_word_eq_nil hl)
      have hnone : comment text = none := by
        rw [comment.eq_def]
        split
        · exact absurd ⟨_, rfl⟩ hb
        · exact absurd ⟨_, rfl⟩ hl
        · rfl
      rw [hblock, hline, hnone]
      simp

/-! ### One lexeme -/

theorem comment_cons_of_ne (hc : c ≠ '/') : comment (c :: text) = none := by
  rw [comment.eq_def]
  split
  · rename_i h
    exact absurd (List.cons.inj h).1 hc
  · rename_i h
    exact absurd (List.cons.inj h).1 hc
  · rfl

/-- Where a chunk begins, neither a blank nor one of the structural characters
stands, and no comment begins. -/
theorem begins_of_chunk {found : Text × Text} (h : FluidScss.chunk (c :: text) = some found) :
    isSheetBlank c = false ∧ endsChunk c = false ∧ comment (c :: text) = none := by
  refine ⟨?_, ?_, ?_⟩
  · rcases hb : isSheetBlank c with - | -
    · rfl
    · rw [FluidScss.chunk, if_pos (isBlank_of_isSheetBlank hb)] at h
      cases h
  · rcases he : endsChunk c with - | -
    · rfl
    · rw [FluidScss.chunk, chunkPart_of_ends (chunkEnds_cons he), Option.map_none, ite_self] at h
      cases h
  · rw [comment.eq_def]
    split
    · rename_i heq
      rw [heq] at h
      exact absurd h.symm (Option.some_ne_none found)
    · rename_i heq
      rw [heq] at h
      exact absurd h.symm (Option.some_ne_none found)
    · rfl

/-- Where no blank and no structural character stands, a comment is tried. -/
theorem munch_of_comment (hb : isSheetBlank c = false) (he : endsChunk c = false)
    (hc : comment (c :: text) = some (body, rest)) :
    munch (c :: text) = some (.ignored body, rest) := by
  simp only [endsChunk, Bool.or_eq_false_iff, decide_eq_false_iff_not] at he
  rw [munch, if_neg (by rw [hb]; exact Bool.false_ne_true), if_neg he.1.1, if_neg he.1.2,
    if_neg he.2, hc]

/-- And where no comment begins either, a chunk. -/
theorem munch_of_not_comment (hb : isSheetBlank c = false) (he : endsChunk c = false)
    (hc : comment (c :: text) = none) :
    munch (c :: text) = (FluidScss.chunk (c :: text)).map (Prod.map .chunk id) := by
  simp only [endsChunk, Bool.or_eq_false_iff, decide_eq_false_iff_not] at he
  rw [munch, if_neg (by rw [hb]; exact Bool.false_ne_true), if_neg he.1.1, if_neg he.1.2,
    if_neg he.2, hc]
  rfl

theorem munch_chunk_iff :
    munch text = some (.chunk body, rest) ↔ FluidScss.chunk text = some (body, rest) := by
  constructor
  · intro h
    rw [munch.eq_def] at h
    repeat' split at h
    all_goals try cases h
    obtain ⟨found, hf, he⟩ := Option.map_eq_some_iff.mp h
    cases he
    exact hf
  · intro h
    rcases text with - | ⟨c, text⟩
    · cases h
    · obtain ⟨hb, he, hc⟩ := begins_of_chunk h
      rw [munch_of_not_comment hb he hc, h]
      rfl

/-- **What is ignored** is a lexeme that an expression for it matches. -/
theorem munch_ignored_iff :
    munch text = some (.ignored body, rest) ↔ ∃ r ∈ ignored, r.match? text = some (body, rest) := by
  simp only [ignored, List.mem_cons, List.not_mem_nil, or_false, exists_eq_or_imp, exists_eq_left,
    match?_comments]
  rcases text with - | ⟨c, text⟩
  · simp [munch, match?, blanks, ways, comment]
  · rw [match?_blanks]
    by_cases hb : isSheetBlank c = true
    · have hslash : c ≠ '/' := by
        rintro rfl
        cases hb
      rw [munch, if_pos hb, if_pos hb, comment_cons_of_ne hslash]
      simp
    · rw [if_neg hb]
      rw [Bool.not_eq_true] at hb
      by_cases he : endsChunk c = true
      · have hslash : c ≠ '/' := by
          rintro rfl
          cases he
        simp only [endsChunk, Bool.or_eq_true, decide_eq_true_eq] at he
        rw [comment_cons_of_ne hslash]
        rcases he with (rfl | rfl) | rfl <;> simp [munch, hb]
      · rw [Bool.not_eq_true] at he
        rcases hc : comment (c :: text) with - | ⟨body', rest'⟩
        · rw [munch_of_not_comment hb he hc]
          simp
        · rw [munch_of_comment hb he hc]
          simp

theorem match?_char_iff :
    (char c).match? text = some (body, rest) ↔ text = c :: rest ∧ [c] = body := by
  rcases text with - | ⟨d, text⟩
  · simp [match?]
  · by_cases h : d = c
    · subst h
      have hm : (char d).match? (d :: text) = some ([d], text) := match?_of_head? rfl (by simp)
      rw [hm]
      simp [and_comm]
    · rw [match?_eq_none (by simp [h])]
      simp [h]

/-- **Tokens** are the other lexemes. -/
theorem munch_token_iff {l : Lexeme} :
    (munch text = some (l, rest) ∧ (∀ b, l ≠ .ignored b) ∧ l.source = body)
      ↔ ∃ t ∈ tokens, t.1.match? text = some (body, rest) ∧ t.2 body = l := by
  simp only [tokens, List.mem_cons, List.not_mem_nil, or_false, exists_eq_or_imp, exists_eq_left,
    match?_chunk, match?_char_iff]
  -- a structural character is its own lexeme wherever it stands
  have hchar : ∀ l c, l.source = [c] → munch (c :: rest) = some (l, rest) →
      (munch text = some (l, rest) ↔ text = c :: rest) := by
    intro l c hl hm
    refine ⟨fun h => ?_, fun h => h ▸ hm⟩
    rw [(eq_of_munch h).1, hl]
    rfl
  rcases l with b | b | - | - | -
  · simp
  · rw [munch_chunk_iff]
    constructor
    · rintro ⟨h, -, rfl⟩
      exact .inl ⟨h, rfl⟩
    · rintro (⟨h, hb⟩ | ⟨-, hb⟩ | ⟨-, hb⟩ | ⟨-, hb⟩) <;> cases hb
      exact ⟨h, by simp, rfl⟩
  · rw [hchar _ '\x7b' rfl rfl]
    simp [Lexeme.source]
  · rw [hchar _ '\x7d' rfl rfl]
    simp [Lexeme.source]
  · rw [hchar _ ';' rfl rfl]
    simp [Lexeme.source]

end Terminal

end FluidScss
