/-
FluidScss/Proofs/Reading.lean

Reading texts that are put together.  `Reads n text items` says that `text`,
wherever it stands between statements, is read as the items `items k`, where
`k` is the line on which it begins, and opens no more than `n` blocks at
once.  It is closed under writing texts one after the other (`Reads.append`)
and under braces (`Reads.block`), and holds of blanks, comments on lines of
their own and statements; so whoever prints a sheet proves the parts and has
the whole (`parseSheet_of_reads`).

Blanks need a word.  Where two texts meet their blanks are one lexeme, so
lexemes cannot be put together like texts.  `ReadsTo` speaks about the rest of
a sheet as a whole and drops blanks one by one (`ReadsTo.blank_iff`); what is
meant by `Reads` is that reading may go on with any rest.

`ReadsNodes` is the same for nodes, where a statement or block has just one.
-/
import FluidScss.Proofs.Chunk
import FluidScss.Sheet

namespace FluidScss

open Outline

/-! ### Positions -/

theorem Position.after_append (p : Position) (s t : Text) :
    p.after (s ++ t) = (p.after s).after t := by
  simp [Position.after]

/-- Only LF counts as a line. -/
theorem Position.line_after (p : Position) (s : Text) :
    (p.after s).line = p.line + s.count '\n' := by
  induction s generalizing p with
  | nil => rfl
  | cons c s ih =>
    have hstep : p.after (c :: s) = (p.next c).after s := rfl
    rw [hstep, ih, Position.next]
    by_cases hc : c = '\n'
    · rw [if_pos hc, hc, List.count_cons_self]
      show p.line + 1 + _ = _
      omega
    · rw [if_neg hc, List.count_cons_of_ne hc]

/-! ### The rest of a sheet -/

theorem lexemes_of_munch {text after : Text} {l : Lexeme} (h : munch text = some (l, after)) :
    lexemes text = (l :: (lexemes after).1, (lexemes after).2) := by
  rw [lexemes]
  split
  · rename_i hn
    rw [hn] at h
    cases h
  · rename_i hs
    rw [hs] at h
    cases h
    rfl

theorem lexemes_of_munch_none {text : Text} (h : munch text = none) :
    lexemes text = ([], text) := by
  rw [lexemes]
  split
  · rfl
  · rename_i hs
    rw [h] at hs
    cases hs

theorem lexemes_nil : lexemes [] = ([], []) := lexemes_of_munch_none rfl

/-- A comment of two slashes goes on to the end of its line. -/
theorem munch_lineComment {s : Text} (hs : '\n' ∉ s) (rest : Text) :
    munch ('/' :: '/' :: s ++ '\n' :: rest) = some (.ignored ('/' :: '/' :: s), '\n' :: rest) := by
  have hall : ∀ c ∈ s, (decide (c ≠ '\n')) = true := by
    intro c hc
    rw [decide_eq_true_iff]
    rintro rfl
    exact hs hc
  have hc : comment ('/' :: '/' :: (s ++ '\n' :: rest))
      = some ('/' :: '/' :: s, '\n' :: rest) := by
    rw [comment, List.takeWhile_append_of_pos hall, List.dropWhile_append_of_pos hall]
    simp
  show munch ('/' :: '/' :: (s ++ '\n' :: rest)) = _
  rw [munch, if_neg (by decide), if_neg (by decide), if_neg (by decide), if_neg (by decide), hc]

/-- From the place `here`, with the sheet read up to `p` and `depth` blocks
open, the rest `text` is read to its end as `q`, with never more than `limit`
blocks open. -/
structure ReadsTo (limit : Nat) (p : Progress) (here : Position) (depth : Nat) (text : Text)
    (q : Progress) : Prop where
  steps : p.steps (place here (lexemes text).1) = .ok q
  whole : (lexemes text).2 = []
  deepest : deepest depth (lexemes text).1 ≤ limit

namespace ReadsTo

variable {limit depth depth' : Nat} {p p' q : Progress} {here : Position} {text rest : Text}

theorem nil (h : depth ≤ limit) : ReadsTo limit p here depth [] p := by
  constructor <;> rw [lexemes_nil]
  · rfl
  · exact h

/-- One lexeme and the rest behind it. -/
theorem of_munch {l : Lexeme} (hm : munch text = some (l, rest)) (hs : p.step (here, l) = .ok p')
    (hd : ∀ ls, Outline.deepest depth' ls ≤ limit → Outline.deepest depth (l :: ls) ≤ limit)
    (h : ReadsTo limit p' (here.after l.source) depth' rest q) :
    ReadsTo limit p here depth text q := by
  constructor <;> rw [lexemes_of_munch hm]
  · show p.steps ((here, l) :: place (here.after l.source) (lexemes rest).1) = _
    rw [Progress.steps, hs]
    exact h.steps
  · exact h.whole
  · exact hd _ h.deepest

/-- What is ignored changes nothing. -/
theorem of_munch_ignored {ignored : Text} (hm : munch text = some (.ignored ignored, rest)) :
    ReadsTo limit p here depth text q ↔ ReadsTo limit p (here.after ignored) depth rest q := by
  constructor
  · intro h
    obtain ⟨hs, hw, hd⟩ := h
    rw [lexemes_of_munch hm] at hs hw hd
    exact ⟨hs, hw, hd⟩
  · exact of_munch hm rfl fun _ h => h

/-- One blank in front. -/
theorem blank_iff {c : Char} (hc : isSheetBlank c = true) :
    ReadsTo limit p here depth (c :: rest) q ↔
      ReadsTo limit p (here.after [c]) depth rest q := by
  have hmunch : munch (c :: rest)
      = some (.ignored (c :: rest.takeWhile isSheetBlank), rest.dropWhile isSheetBlank) := by
    rw [munch, if_pos hc]
  rw [of_munch_ignored hmunch]
  rcases rest with - | ⟨d, rest⟩
  · rfl
  · by_cases hd : isSheetBlank d = true
    · -- the two blanks are one lexeme, of which the second alone is the end
      have hmunch' : munch (d :: rest)
          = some (.ignored (d :: rest.takeWhile isSheetBlank), rest.dropWhile isSheetBlank) := by
        rw [munch, if_pos hd]
      rw [of_munch_ignored hmunch', ← Position.after_append,
        List.takeWhile_cons_of_pos hd, List.dropWhile_cons_of_pos hd]
      rfl
    · rw [List.takeWhile_cons_of_neg hd, List.dropWhile_cons_of_neg hd]

theorem blanks {s : Text} (hs : ∀ c ∈ s, isSheetBlank c = true)
    (h : ReadsTo limit p (here.after s) depth rest q) :
    ReadsTo limit p here depth (s ++ rest) q := by
  induction s generalizing here with
  | nil => exact h
  | cons c s ih =>
    exact (blank_iff (hs c (List.mem_cons_self ..))).mpr
      (ih (fun d hd => hs d (List.mem_cons_of_mem _ hd)) h)

/-- A comment up to the end of its line. -/
theorem comment {s : Text} (hs : '\n' ∉ s)
    (h : ReadsTo limit p (here.after ('/' :: '/' :: s)) depth ('\n' :: rest) q) :
    ReadsTo limit p here depth ('/' :: '/' :: s ++ '\n' :: rest) q :=
  (of_munch_ignored (munch_lineComment hs rest)).mpr h

theorem chunk {t : Text} (hne : t ≠ []) (ht : ChunkText t)
    (hb : ∀ c, t.head? = some c → isBlank c = false) (hr : ChunkEnds rest)
    (h : ReadsTo limit { p with chunks := ⟨t, here.line⟩ :: p.chunks } (here.after t) depth rest
      q) :
    ReadsTo limit p here depth (t ++ rest) q := by
  obtain ⟨c, t, rfl⟩ := List.exists_cons_of_ne_nil hne
  exact of_munch (munch_chunk ht (hb c rfl) hr) rfl (fun _ h => h) h

theorem semicolon
    (h : ReadsTo limit
      { p with
        items := (if p.chunks.isEmpty then .empty else .statement p.chunks.reverse) :: p.items
        chunks := [] } (here.after [';']) depth rest q) :
    ReadsTo limit p here depth (';' :: rest) q :=
  of_munch (l := .semicolon) rfl rfl (fun _ h => h) h

theorem openBrace (hd : depth ≤ limit)
    (h : ReadsTo limit { outer := ⟨p.chunks.reverse, p.items⟩ :: p.outer } (here.after ['\x7b'])
      (depth + 1) rest q) :
    ReadsTo limit p here depth ('\x7b' :: rest) q :=
  of_munch (l := .openBrace) rfl rfl (fun _ h => Nat.max_le.mpr ⟨hd, h⟩) h

theorem closeBrace {b : OpenBlock} {outer : List OpenBlock} (ho : p.outer = b :: outer)
    (hd : depth + 1 ≤ limit)
    (h : ReadsTo limit
      { outer, items := .block b.head p.items.reverse p.chunks.reverse :: b.before }
      (here.after ['\x7d']) depth rest q) :
    ReadsTo limit p here (depth + 1) ('\x7d' :: rest) q := by
  refine of_munch (l := .closeBrace) rfl ?_ (fun _ h => Nat.max_le.mpr ⟨hd, h⟩) h
  rw [Progress.step, ho]

end ReadsTo

/-! ### Texts between statements -/

/-- A line break and the indentation behind it are blanks. -/
theorem isSheetBlank_newline_indent (indent : Text) (h : ∀ c ∈ indent, c = ' ') :
    ∀ c ∈ '\n' :: indent, isSheetBlank c = true := by
  intro c hc
  rcases List.mem_cons.mp hc with rfl | hc
  · rfl
  · rw [h c hc]
    rfl

/-- The text is read as the items, given the line where it begins, with at most
`n` blocks of its own open at once. -/
def Reads (n : Nat) (text : Text) (items : Nat → List Item) : Prop :=
  ∀ limit p here depth rest q, p.chunks = [] → depth + n ≤ limit →
    ReadsTo limit { p with items := (items here.line).reverse ++ p.items } (here.after text)
      depth rest q →
    ReadsTo limit p here depth (text ++ rest) q

namespace Reads

variable {m n : Nat} {s t : Text} {f g : Nat → List Item}

theorem mono (h : Reads n t f) (hm : n ≤ m) : Reads m t f := by
  intro limit p here depth rest q hp hd hr
  exact h limit p here depth rest q hp (by omega) hr

theorem blanks (ht : ∀ c ∈ t, isSheetBlank c = true) : Reads 0 t fun _ => [] := by
  intro limit p here depth rest q _ _ hr
  exact ReadsTo.blanks ht hr

theorem append (hs : Reads n s f) (ht : Reads n t g) :
    Reads n (s ++ t) fun k => f k ++ g (k + s.count '\n') := by
  intro limit p here depth rest q hp hd hr
  rw [List.append_assoc]
  refine hs limit p here depth _ q hp hd ?_
  refine ht limit _ _ depth rest q hp hd ?_
  rw [Position.line_after, ← Position.after_append]
  simpa [List.reverse_append] using hr

/-- A comment with its line break. -/
theorem comment (ht : '\n' ∉ t) : Reads 0 ('/' :: '/' :: t ++ ['\n']) fun _ => [] := by
  intro limit p here depth rest q hp _ hr
  have hsplit : '/' :: '/' :: t ++ ['\n'] ++ rest = '/' :: '/' :: t ++ '\n' :: rest := by simp
  rw [hsplit]
  refine ReadsTo.comment ht ((ReadsTo.blank_iff rfl).mpr ?_)
  rwa [← Position.after_append]

/-- A statement with its semicolon. -/
theorem statement (hne : t ≠ []) (ht : ChunkText t)
    (hb : ∀ c, t.head? = some c → isBlank c = false) :
    Reads 0 (t ++ [';']) fun k => [.statement [⟨t, k⟩]] := by
  intro limit p here depth rest q hp _ hr
  rw [List.append_assoc]
  refine ReadsTo.chunk hne ht hb (chunkEnds_cons rfl) (ReadsTo.semicolon ?_)
  rw [← Position.after_append]
  simpa [hp] using hr

/-- A block with the text in front of its brace. -/
theorem block {body : Text} (hne : t ≠ []) (ht : ChunkText t)
    (hb : ∀ c, t.head? = some c → isBlank c = false) (h : Reads n body f) :
    Reads (n + 1) (t ++ '\x7b' :: (body ++ ['\x7d']))
      fun k => [.block [⟨t, k⟩] (f (k + t.count '\n')) []] := by
  intro limit p here depth rest q hp hd hr
  have hsplit : t ++ '\x7b' :: (body ++ ['\x7d']) ++ rest
      = t ++ '\x7b' :: (body ++ '\x7d' :: rest) := by simp
  rw [hsplit]
  refine ReadsTo.chunk hne ht hb (chunkEnds_cons rfl) (ReadsTo.openBrace (by omega) ?_)
  refine h limit _ _ (depth + 1) _ q rfl (by omega) (ReadsTo.closeBrace rfl (by omega) ?_)
  have hline : ((here.after t).after ['\x7b']).line = here.line + t.count '\n' := by
    rw [Position.line_after, Position.line_after]
    simp
  have hafter : (((here.after t).after ['\x7b']).after body).after ['\x7d']
      = here.after (t ++ '\x7b' :: (body ++ ['\x7d'])) := by
    simp only [← Position.after_append]
    simp
  rw [hline, hafter]
  simpa [hp] using hr

end Reads

/-! ### Nodes -/

theorem nodes_append (as bs : List Item) :
    Item.nodes (as ++ bs) = Item.nodes as ++ Item.nodes bs := by
  induction as with
  | nil => rfl
  | cons a as ih => rw [List.cons_append, Item.nodes, Item.nodes, ih, List.append_assoc]

/-- As `Reads`, with the nodes that the items are. -/
def ReadsNodes (n : Nat) (text : Text) (nodes : Nat → List Node) : Prop :=
  ∃ items, Reads n text items ∧ ∀ k, Item.nodes (items k) = nodes k

namespace ReadsNodes

variable {m n : Nat} {s t : Text} {f g : Nat → List Node}

theorem mono (h : ReadsNodes n t f) (hm : n ≤ m) : ReadsNodes m t f := by
  obtain ⟨items, hi, hn⟩ := h
  exact ⟨items, hi.mono hm, hn⟩

theorem congr (h : ReadsNodes n t f) (he : ∀ k, f k = g k) : ReadsNodes n t g := by
  obtain ⟨items, hi, hn⟩ := h
  exact ⟨items, hi, fun k => (hn k).trans (he k)⟩

theorem blanks (ht : ∀ c ∈ t, isSheetBlank c = true) : ReadsNodes n t fun _ => [] :=
  ⟨_, (Reads.blanks ht).mono (Nat.zero_le n), fun _ => rfl⟩

theorem comment (ht : '\n' ∉ t) : ReadsNodes n ('/' :: '/' :: t ++ ['\n']) fun _ => [] :=
  ⟨_, (Reads.comment ht).mono (Nat.zero_le n), fun _ => rfl⟩

theorem append (hs : ReadsNodes n s f) (ht : ReadsNodes n t g) :
    ReadsNodes n (s ++ t) fun k => f k ++ g (k + s.count '\n') := by
  obtain ⟨items, hi, hf⟩ := hs
  obtain ⟨items', hi', hg⟩ := ht
  exact ⟨_, hi.append hi', fun k => by rw [nodes_append, hf, hg]⟩

/-- Blanks in front move the text down by their line breaks. -/
theorem after_blanks (hs : ∀ c ∈ s, isSheetBlank c = true) (ht : ReadsNodes n t f) :
    ReadsNodes n (s ++ t) fun k => f (k + s.count '\n') :=
  (blanks hs).append ht

theorem before_blanks (hs : ReadsNodes n s f) (ht : ∀ c ∈ t, isSheetBlank c = true) :
    ReadsNodes n (s ++ t) f :=
  (hs.append (blanks ht)).congr fun _ => List.append_nil _

theorem statement {node : Nat → Node} (hne : t ≠ []) (ht : ChunkText t)
    (hb : ∀ c, t.head? = some c → isBlank c = false)
    (hn : ∀ k, statementNode? [⟨t, k⟩] = some (node k)) :
    ReadsNodes n (t ++ [';']) fun k => [node k] := by
  refine ⟨_, (Reads.statement hne ht hb).mono (Nat.zero_le n), fun k => ?_⟩
  rw [Item.nodes, Item.node?, hn]
  rfl

theorem block {node : Nat → List Node → Node} (hne : t ≠ []) (ht : ChunkText t)
    (hb : ∀ c, t.head? = some c → isBlank c = false) (hs : ReadsNodes n s f)
    (hn : ∀ k children, blockNode? [⟨t, k⟩] children = some (node k children)) :
    ReadsNodes (n + 1) (t ++ '\x7b' :: (s ++ ['\x7d']))
      fun k => [node k (f (k + t.count '\n'))] := by
  obtain ⟨items, hi, hf⟩ := hs
  refine ⟨_, Reads.block hne ht hb hi, fun k => ?_⟩
  rw [Item.nodes, Item.node?, hn, lastNode, if_pos rfl, List.append_nil, hf]
  rfl

end ReadsNodes

/-! ### Sheets -/

/-- What reading to the end of a sheet comes to. -/
theorem parseSheet_of_readsTo {text : Text} {items : List Item}
    (h : ReadsTo nestingLimit {} {} 0 text { items := items.reverse ++ [] }) :
    parseSheet text = .ok (Item.nodes items) := by
  obtain ⟨hsteps, hwhole, hdeep⟩ := h
  have hread : Outline.read? text = .ok ⟨items, []⟩ := by
    rw [Outline.read?]
    dsimp only
    rw [hsteps, hwhole]
    simp [Nat.not_lt.mpr hdeep]
  rw [parseSheet, hread]
  show Except.ok (Item.nodes items ++ lastNode []) = _
  rw [lastNode, if_pos rfl, List.append_nil]

/-- A text that is read as nodes, with no more than so many blocks open at
once, is a sheet with these nodes. -/
theorem parseSheet_of_reads {n : Nat} {text : Text} {f : Nat → List Node}
    (h : ReadsNodes n text f) (hn : n ≤ nestingLimit) : parseSheet text = .ok (f 1) := by
  obtain ⟨items, hi, hf⟩ := h
  have hread := hi nestingLimit {} {} 0 [] _ rfl (by omega) (ReadsTo.nil (Nat.zero_le _))
  rw [List.append_nil] at hread
  rw [parseSheet_of_readsTo hread]
  exact congrArg Except.ok (hf 1)

/-- Without the line break in front of it, it begins one line further up. -/
theorem parseSheet_of_reads_newline {n : Nat} {text : Text} {f : Nat → List Node}
    (h : ReadsNodes n ('\n' :: text) f) (hn : n ≤ nestingLimit) :
    parseSheet text = .ok (f 0) := by
  obtain ⟨items, hi, hf⟩ := h
  have hread := hi nestingLimit {} ⟨0, 1⟩ 0 [] _ rfl (by omega) (ReadsTo.nil (Nat.zero_le _))
  rw [List.append_nil, ReadsTo.blank_iff rfl] at hread
  rw [parseSheet_of_readsTo hread]
  exact congrArg Except.ok (hf 0)

end FluidScss
