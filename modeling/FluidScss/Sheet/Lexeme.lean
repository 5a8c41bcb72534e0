/-
FluidScss/Sheet/Lexeme.lean

The lexemes of a style sheet: what may be ignored (runs of blanks, comments),
the three structural characters, and chunks, the raw text in between.

A chunk is the longest run of *chunk parts*: closed strings, `#` before a
braced interpolation together with it, `url(` up to its parenthesis, and
single characters other than braces, semicolons, quotes, slashes that open a
comment and an unclosed `#` with a brace.  The first character of a chunk is
no blank; later ones may be.

`munch` reads one lexeme and `lexemes` reads them to the end or to the first
character where none begins.  Nothing is lost (`source_lexemes`), and a
lexeme is never empty (`length_of_munch`), which is what ends the loop.
-/
import FluidScss.Text.Blank

namespace FluidScss

/-- A lexeme with its text; the structural characters are their own text. -/
inductive Lexeme
  | ignored (text : Text)
  | chunk (text : Text)
  | openBrace
  | closeBrace
  | semicolon
deriving DecidableEq

namespace Lexeme

/-- The lexeme as it stands in the sheet. -/
def source : Lexeme → Text
  | ignored text => text
  | chunk text => text
  | openBrace => ['\x7b']
  | closeBrace => ['\x7d']
  | semicolon => [';']

end Lexeme

/-! ### Parts of a chunk -/

/-- The rest of a string up to and with the quote that closes it, and the
text behind; a backslash takes the next character with it, and no string
goes beyond its line. -/
def stringRest (quote : Char) : Text → Option (Text × Text)
  | [] => none
  | c :: rest =>
    if c = quote then some ([c], rest)
    else if c = '\n' then none
    else if c = '\\' then
      match rest with
      | [] => none
      | d :: rest =>
        if d = '\n' then none
        else (stringRest quote rest).map fun (body, after) => (c :: d :: body, after)
    else (stringRest quote rest).map fun (body, after) => (c :: body, after)

/-- The text up to and with the first `close`, where no character before it
may satisfy `stop`. -/
def upTo (close : Char) (stop : Char → Bool) : Text → Option (Text × Text)
  | [] => none
  | c :: rest =>
    if c = close then some ([c], rest)
    else if stop c then none
    else (upTo close stop rest).map fun (body, after) => (c :: body, after)

/-- The brace that opens a block. -/
def isOpenBrace (c : Char) : Bool := c = '\x7b'

/-- The characters that end a chunk wherever they stand outside of a part. -/
def endsChunk (c : Char) : Bool := c = '\x7b' || c = '\x7d' || c = ';'

/-- The part of a chunk at the front of the text, and the text behind it. -/
def chunkPart : Text → Option (Text × Text)
  | [] => none
  | '"' :: rest => (stringRest '"' rest).map fun (body, after) => ('"' :: body, after)
  | '\'' :: rest => (stringRest '\'' rest).map fun (body, after) => ('\'' :: body, after)
  | '#' :: '\x7b' :: rest =>
    (upTo '\x7d' isOpenBrace rest).map fun (body, after) => ('#' :: '\x7b' :: body, after)
  | '/' :: '/' :: _ => none
  | '/' :: '*' :: _ => none
  | 'u' :: 'r' :: 'l' :: '(' :: rest =>
    match upTo ')' (fun _ => false) rest with
    | some (body, after) => some ('u' :: 'r' :: 'l' :: '(' :: body, after)
    | none => some (['u'], 'r' :: 'l' :: '(' :: rest)
  | c :: rest => if endsChunk c then none else some ([c], rest)

theorem eq_of_stringRest {quote : Char} {text body after : Text}
    (h : stringRest quote text = some (body, after)) : text = body ++ after ∧ body ≠ [] := by
  fun_induction stringRest quote text generalizing body with
  | case1 => simp at h
  | case2 rest => simp only [Option.some.injEq, Prod.mk.injEq] at h; simp [← h.1, ← h.2]
  | case3 => simp at h
  | case4 => simp at h
  | case5 => simp at h
  | case6 d rest _ _ hd ih =>
    obtain ⟨⟨b, a⟩, hb, he⟩ := Option.map_eq_some_iff.1 h
    simp only [Prod.mk.injEq] at he
    obtain ⟨rfl, rfl⟩ := he
    simp [(ih hb).1]
  | case7 c rest _ _ _ ih =>
    obtain ⟨⟨b, a⟩, hb, he⟩ := Option.map_eq_some_iff.1 h
    simp only [Prod.mk.injEq] at he
    obtain ⟨rfl, rfl⟩ := he
    simp [(ih hb).1]

theorem eq_of_upTo {close : Char} {stop : Char → Bool} {text body after : Text}
    (h : upTo close stop text = some (body, after)) : text = body ++ after := by
  fun_induction upTo close stop text generalizing body with
  | case1 => simp at h
  | case2 rest => simp only [Option.some.injEq, Prod.mk.injEq] at h; simp [← h.1, ← h.2]
  | case3 => simp at h
  | case4 c rest _ _ ih =>
    obtain ⟨⟨b, a⟩, hb, he⟩ := Option.map_eq_some_iff.1 h
    simp only [Prod.mk.injEq] at he
    obtain ⟨rfl, rfl⟩ := he
    simp [ih hb]

/-- A part is a beginning of the text, and not an empty one. -/
theorem eq_of_chunkPart {text part after : Text} (h : chunkPart text = some (part, after)) :
    text = part ++ after ∧ part ≠ [] := by
  rw [chunkPart.eq_def] at h
  split at h
  · simp at h
  · obtain ⟨⟨b, a⟩, hb, he⟩ := Option.map_eq_some_iff.1 h
    simp only [Prod.mk.injEq] at he
    obtain ⟨rfl, rfl⟩ := he
    simp [(eq_of_stringRest hb).1]
  · obtain ⟨⟨b, a⟩, hb, he⟩ := Option.map_eq_some_iff.1 h
    simp only [Prod.mk.injEq] at he
    obtain ⟨rfl, rfl⟩ := he
    simp [(eq_of_stringRest hb).1]
  · obtain ⟨⟨b, a⟩, hb, he⟩ := Option.map_eq_some_iff.1 h
    simp only [Prod.mk.injEq] at he
    obtain ⟨rfl, rfl⟩ := he
    simp [eq_of_upTo hb]
  · simp at h
  · simp at h
  · split at h
    · rename_i hb
      simp only [Option.some.injEq, Prod.mk.injEq] at h
      obtain ⟨rfl, rfl⟩ := h
      simp [eq_of_upTo hb]
    · simp only [Option.some.injEq, Prod.mk.injEq] at h
      obtain ⟨rfl, rfl⟩ := h
      simp
  · split at h
    · simp at h
    · simp only [Option.some.injEq, Prod.mk.injEq] at h
      obtain ⟨rfl, rfl⟩ := h
      simp

/-! ### Lexemes -/

/-- Chunk parts as long as there are some: the chunk's text and what is
behind it. -/
def chunkRest (text : Text) : Text × Text :=
  match _h : chunkPart text with
  | none => ([], text)
  | some (part, after) =>
    let (body, after) := chunkRest after
    (part ++ body, after)
termination_by text.length
decreasing_by
  obtain ⟨rfl, hne⟩ := eq_of_chunkPart _h
  have := List.length_pos_iff.2 hne
  simp only [List.length_append]
  omega

theorem eq_of_chunkRest (text : Text) : text = (chunkRest text).1 ++ (chunkRest text).2 := by
  fun_induction chunkRest text with
  | case1 => simp
  | case2 text part after h body after' he ih =>
    rw [he] at ih
    simp only at ih
    rw [(eq_of_chunkPart h).1]
    rw [List.append_assoc, ← ih]

/-- The chunk at the front of the text. -/
def chunk (text : Text) : Option (Text × Text) :=
  match text with
  | [] => none
  | c :: _ =>
    if isBlank c then none
    else (chunkPart text).map fun (part, after) =>
      (part ++ (chunkRest after).1, (chunkRest after).2)

/-- The comment at the front of the text: one in slashes and stars up to its
end, one of two slashes up to the end of its line. -/
def comment : Text → Option (Text × Text)
  | '/' :: '*' :: rest =>
    (Text.breakOn "*/" rest).map fun (body, after) => ('/' :: '*' :: body ++ "*/", after)
  | '/' :: '/' :: rest =>
    some ('/' :: '/' :: rest.takeWhile (· ≠ '\n'), rest.dropWhile (· ≠ '\n'))
  | _ => none

/-- The lexeme at the front of the text, and the text behind it. -/
def munch : Text → Option (Lexeme × Text)
  | [] => none
  | c :: rest =>
    if isSheetBlank c then
      some (.ignored (c :: rest.takeWhile isSheetBlank), rest.dropWhile isSheetBlank)
    else if c = '\x7b' then some (.openBrace, rest)
    else if c = '\x7d' then some (.closeBrace, rest)
    else if c = ';' then some (.semicolon, rest)
    else
      match comment (c :: rest) with
      | some (text, after) => some (.ignored text, after)
      | none => (chunk (c :: rest)).map fun (text, after) => (.chunk text, after)

theorem eq_of_chunk {text part after : Text} (h : chunk text = some (part, after)) :
    text = part ++ after ∧ part ≠ [] := by
  rw [chunk.eq_def] at h
  split at h
  · simp at h
  · split at h
    · simp at h
    · obtain ⟨⟨p, a⟩, hp, he⟩ := Option.map_eq_some_iff.1 h
      simp only [Prod.mk.injEq] at he
      obtain ⟨rfl, rfl⟩ := he
      obtain ⟨h1, h2⟩ := eq_of_chunkPart hp
      refine ⟨?_, by simp [h2]⟩
      rw [List.append_assoc, ← eq_of_chunkRest, h1]

theorem eq_of_comment {text body after : Text} (h : comment text = some (body, after)) :
    text = body ++ after ∧ body ≠ [] := by
  rw [comment.eq_def] at h
  split at h
  · obtain ⟨⟨b, a⟩, hb, he⟩ := Option.map_eq_some_iff.1 h
    simp only [Prod.mk.injEq] at he
    obtain ⟨rfl, rfl⟩ := he
    simp [Text.eq_of_breakOn hb]
  · simp only [Option.some.injEq, Prod.mk.injEq] at h
    obtain ⟨rfl, rfl⟩ := h
    simp [List.takeWhile_append_dropWhile]
  · simp at h

/-- A lexeme is a beginning of the text, and not an empty one. -/
theorem eq_of_munch {text after : Text} {l : Lexeme} (h : munch text = some (l, after)) :
    text = l.source ++ after ∧ l.source ≠ [] := by
  rw [munch.eq_def] at h
  split at h
  · simp at h
  · rename_i c rest
    split at h
    · simp only [Option.some.injEq, Prod.mk.injEq] at h
      obtain ⟨rfl, rfl⟩ := h
      simp [Lexeme.source, List.takeWhile_append_dropWhile]
    split at h
    · simp only [Option.some.injEq, Prod.mk.injEq] at h
      obtain ⟨rfl, rfl⟩ := h
      simp_all [Lexeme.source]
    split at h
    · simp only [Option.some.injEq, Prod.mk.injEq] at h
      obtain ⟨rfl, rfl⟩ := h
      simp_all [Lexeme.source]
    split at h
    · simp only [Option.some.injEq, Prod.mk.injEq] at h
      obtain ⟨rfl, rfl⟩ := h
      simp_all [Lexeme.source]
    split at h
    · rename_i hc
      simp only [Option.some.injEq, Prod.mk.injEq] at h
      obtain ⟨rfl, rfl⟩ := h
      exact eq_of_comment hc
    · obtain ⟨⟨p, a⟩, hp, he⟩ := Option.map_eq_some_iff.1 h
      simp only [Prod.mk.injEq] at he
      obtain ⟨rfl, rfl⟩ := he
      exact eq_of_chunk hp

theorem length_of_munch {text after : Text} {l : Lexeme} (h : munch text = some (l, after)) :
    after.length < text.length := by
  obtain ⟨rfl, hne⟩ := eq_of_munch h
  have := List.length_pos_iff.2 hne
  simp only [List.length_append]
  omega

/-- The lexemes of a sheet, and the text from where no lexeme begins; it is
empty when the whole sheet was read. -/
def lexemes (text : Text) : List Lexeme × Text :=
  match _h : munch text with
  | none => ([], text)
  | some (l, after) => (l :: (lexemes after).1, (lexemes after).2)
termination_by text.length
decreasing_by all_goals exact length_of_munch _h

/-- The lexemes are the sheet, cut. -/
theorem source_lexemes (text : Text) :
    (lexemes text).1.flatMap Lexeme.source ++ (lexemes text).2 = text := by
  fun_induction lexemes text with
  | case1 => simp
  | case2 text l after h ih =>
    rw [(eq_of_munch h).1]
    simpa using ih

end FluidScss
