/-
FluidScss/Proofs/Derivation.lean

Derivations of token sequences in the grammar of style sheets

    start:    item* prelude?
    item:     block | prelude SEMICOLON | SEMICOLON
    block:    prelude? LBRACE item* prelude? RBRACE
    prelude:  CHUNK+

as trees with all tokens at their leaves (`Derivation`).  A sequence is read from
left to right while a derivation grows (`Growth`); an opening brace puts the
block under construction on a stack, and a closing brace completes it.

* A growth has used the tokens that were read (`tokens_run`), so the derivation
  at the end is one of the sequence.
* Reading the tokens of a derivation grows it (`run_derivation`); so a sequence
  has no other (`Derivation.tokens_injective`).
* Reading fails at a closing brace without an open block, and nowhere else
  (`run_ne_none_iff`); so the sequences that are derived are those whose braces
  match (`exists_derivation_iff`).
-/
import FluidScss.Proofs.Lexing

namespace FluidScss

open Outline

/-! ### Derivations -/

/-- A prelude is a chunk or more, each with its place. -/
structure Prelude where
  first : Position × Text
  more : List (Position × Text)

/-- Derivations of an item, with the places of braces and semicolons: a block
with a prelude or without, items and perhaps a last statement; a statement; a
semicolon on its own. -/
inductive Branch
  | block (head? : Option Prelude) (opening : Position) (items : List Branch)
      (last? : Option Prelude) (closing : Position)
  | statement (head : Prelude) (closing : Position)
  | semicolon (here : Position)

/-- Derivations of a sheet: items, and perhaps a last statement. -/
structure Derivation where
  items : List Branch
  last? : Option Prelude

namespace Prelude

/-- The chunks of a prelude that may be missing. -/
def spelled : Option Prelude → List (Position × Text)
  | none => []
  | some p => p.first :: p.more

/-- The prelude of chunks, if there are some. -/
def ofSpelled? : List (Position × Text) → Option Prelude
  | [] => none
  | c :: cs => some ⟨c, cs⟩

@[simp] theorem spelled_ofSpelled? (cs : List (Position × Text)) :
    spelled (ofSpelled? cs) = cs := by
  rcases cs with - | ⟨c, cs⟩ <;> rfl

@[simp] theorem ofSpelled?_spelled (p? : Option Prelude) : ofSpelled? (spelled p?) = p? := by
  rcases p? with - | p <;> rfl

end Prelude

open Prelude

/-- Chunks as tokens. -/
def chunkTokens (cs : List (Position × Text)) : List (Position × Lexeme) :=
  cs.map fun (here, text) => (here, .chunk text)

@[simp] theorem chunkTokens_nil : chunkTokens [] = [] := rfl

/-- Chunks with their lines. -/
def chunkLines (cs : List (Position × Text)) : List Chunk :=
  cs.map fun (here, text) => ⟨text, here.line⟩

@[simp] theorem chunkLines_nil : chunkLines [] = [] := rfl

namespace Branch

mutual

/-- The tokens at the leaves, from left to right. -/
def tokens : Branch → List (Position × Lexeme)
  | block head? opening items last? closing =>
    chunkTokens (spelled head?) ++ (opening, .openBrace) ::
      (tokensAll items ++ chunkTokens (spelled last?) ++ [(closing, .closeBrace)])
  | statement head closing => chunkTokens (spelled (some head)) ++ [(closing, .semicolon)]
  | semicolon here => [(here, .semicolon)]

/-- The tokens of items. -/
def tokensAll : List Branch → List (Position × Lexeme)
  | [] => []
  | b :: bs => b.tokens ++ tokensAll bs

end

mutual

/-- The item that is derived. -/
def item : Branch → Item
  | block head? _ items last? _ =>
    .block (chunkLines (spelled head?)) (itemAll items) (chunkLines (spelled last?))
  | statement head _ => .statement (chunkLines (spelled (some head)))
  | semicolon _ => .empty

/-- The items that are derived. -/
def itemAll : List Branch → List Item
  | [] => []
  | b :: bs => b.item :: itemAll bs

end

theorem tokensAll_append (bs bs' : List Branch) :
    tokensAll (bs ++ bs') = tokensAll bs ++ tokensAll bs' := by
  induction bs with
  | nil => rfl
  | cons b bs ih => rw [List.cons_append, tokensAll, tokensAll, ih, List.append_assoc]

theorem itemAll_append (bs bs' : List Branch) :
    itemAll (bs ++ bs') = itemAll bs ++ itemAll bs' := by
  induction bs with
  | nil => rfl
  | cons b bs ih => rw [List.cons_append, itemAll, itemAll, ih, List.cons_append]

end Branch

open Branch

namespace Derivation

/-- The tokens at the leaves, from left to right. -/
def tokens (d : Derivation) : List (Position × Lexeme) :=
  tokensAll d.items ++ chunkTokens (spelled d.last?)

/-- The outline that is derived. -/
def outline (d : Derivation) : Outline := ⟨itemAll d.items, chunkLines (spelled d.last?)⟩

end Derivation

/-! ### Growth -/

/-- A block whose brace is still open, with the items in front of it. -/
structure OpenBranch where
  before : List Branch
  head? : Option Prelude
  opening : Position

/-- The tokens up to the brace that is open. -/
def OpenBranch.tokens (b : OpenBranch) : List (Position × Lexeme) :=
  tokensAll b.before ++ chunkTokens (spelled b.head?) ++ [(b.opening, .openBrace)]

/-- A derivation in part: the open blocks, the innermost first, and in the
innermost body the items and then the chunks read so far. -/
structure Growth where
  outer : List OpenBranch := []
  items : List Branch := []
  chunks : List (Position × Text) := []

namespace Growth

/-- What a semicolon makes of the chunks in front of it. -/
def closed (cs : List (Position × Text)) (here : Position) : Branch :=
  match ofSpelled? cs with
  | none => .semicolon here
  | some head => .statement head here

/-- Reads one token. -/
def step (g : Growth) : Position × Lexeme → Option Growth
  | (_, .ignored _) => some g
  | (here, .chunk text) => some { g with chunks := g.chunks ++ [(here, text)] }
  | (here, .semicolon) => some { g with items := g.items ++ [closed g.chunks here], chunks := [] }
  | (here, .openBrace) => some { outer := ⟨g.items, ofSpelled? g.chunks, here⟩ :: g.outer }
  | (here, .closeBrace) =>
    match g.outer with
    | [] => none
    | b :: outer =>
      let block := .block b.head? b.opening g.items (ofSpelled? g.chunks) here
      some { outer, items := b.before ++ [block] }

/-- Reads tokens from left to right. -/
def run (g : Growth) (ts : List (Position × Lexeme)) : Option Growth := ts.foldlM step g

variable {g g' : Growth} {t : Position × Lexeme} {ts rest : List (Position × Lexeme)}

/-- A closing brace completes the innermost block, if there is one. -/
theorem step_closeBrace {here : Position} (h : g.step (here, .closeBrace) = some g') :
    ∃ b outer, g.outer = b :: outer
      ∧ g' = ⟨outer,
        b.before ++ [.block b.head? b.opening g.items (ofSpelled? g.chunks) here], []⟩ := by
  rcases ho : g.outer with - | ⟨b, outer⟩
  · rw [step, ho] at h
    cases h
  · rw [step, ho] at h
    exact ⟨b, outer, rfl, (Option.some.inj h).symm⟩

@[simp] theorem run_nil : g.run [] = some g := rfl

@[simp] theorem run_cons : g.run (t :: ts) = (g.step t).bind fun g' => g'.run ts := rfl

/-- What is ignored may be left out. -/
theorem run_filter (g : Growth) (ts : List (Position × Lexeme)) :
    g.run (ts.filter isSignificant) = g.run ts := by
  induction ts generalizing g with
  | nil => rfl
  | cons t ts ih =>
    rcases t with ⟨here, b | b | - | - | -⟩
    · exact ih g
    all_goals
      rw [List.filter_cons_of_pos rfl, run_cons, run_cons]
      exact congrArg _ (funext ih)

/-! ### What has been read -/

/-- The tokens that were read. -/
def tokens (g : Growth) : List (Position × Lexeme) :=
  g.outer.reverse.flatMap OpenBranch.tokens ++ (tokensAll g.items ++ chunkTokens g.chunks)

theorem tokens_closed (cs : List (Position × Text)) (here : Position) :
    (closed cs here).tokens = chunkTokens cs ++ [(here, .semicolon)] := by
  rcases cs with - | ⟨c, cs⟩ <;> rfl

/-- **One token** that is read is one token more. -/
theorem tokens_step (h : g.step t = some g') (ht : isSignificant t = true) :
    g'.tokens = g.tokens ++ [t] := by
  rcases t with ⟨here, b | text | - | - | -⟩
  · cases ht
  · cases h
    simp [tokens, chunkTokens]
  · cases h
    simp [tokens, OpenBranch.tokens, tokensAll, chunkTokens]
  · obtain ⟨b, outer, ho, rfl⟩ := step_closeBrace h
    simp [tokens, ho, tokensAll_append, tokensAll, Branch.tokens, OpenBranch.tokens]
  · cases h
    simp [tokens, tokensAll_append, tokensAll, tokens_closed, chunkTokens]

/-- A growth has used the tokens that were read. -/
theorem tokens_run (h : g.run ts = some g') : g'.tokens = g.tokens ++ ts.filter isSignificant := by
  induction ts generalizing g with
  | nil =>
    cases h
    rw [List.filter_nil, List.append_nil]
  | cons t ts ih =>
    rw [run_cons] at h
    obtain ⟨g₁, hstep, hrun⟩ := Option.bind_eq_some_iff.mp h
    rcases ht : isSignificant t with - | -
    · have hsame : g₁ = g := by
        rcases t with ⟨here, b | b | - | - | -⟩
        · exact (Option.some.inj hstep).symm
        all_goals cases ht
      rw [ih hrun, hsame, List.filter_cons_of_neg (by rw [ht]; exact Bool.false_ne_true)]
    · rw [ih hrun, tokens_step hstep ht, List.filter_cons_of_pos ht, List.append_assoc]
      rfl

/-! ### Reading what is derived -/

theorem run_chunkTokens (cs : List (Position × Text)) (g : Growth) :
    g.run (chunkTokens cs ++ rest) = { g with chunks := g.chunks ++ cs }.run rest := by
  induction cs generalizing g with
  | nil => rw [List.append_nil]; rfl
  | cons c cs ih =>
    show { g with chunks := g.chunks ++ [c] }.run (chunkTokens cs ++ rest) = _
    rw [ih]
    simp

mutual

/-- **Reading a derivation of an item** grows it. -/
theorem run_branch (b : Branch) (outer : List OpenBranch) (items : List Branch)
    (rest : List (Position × Lexeme)) :
    run ⟨outer, items, []⟩ (b.tokens ++ rest) = run ⟨outer, items ++ [b], []⟩ rest := by
  rcases b with ⟨head?, opening, body, last?, closing⟩ | ⟨head, closing⟩ | ⟨here⟩
  · -- the body is read with the block on the stack, from where its last brace takes it
    have hsplit : tokensAll body ++ chunkTokens (spelled last?) ++ [(closing, .closeBrace)] ++ rest
        = tokensAll body ++ (chunkTokens (spelled last?) ++ (closing, .closeBrace) :: rest) := by
      simp
    rw [Branch.tokens, List.append_assoc, run_chunkTokens, List.nil_append, List.cons_append,
      hsplit]
    show run ⟨⟨items, ofSpelled? (spelled head?), opening⟩ :: outer, [], []⟩ _ = _
    rw [ofSpelled?_spelled, run_branches body, run_chunkTokens, List.nil_append, List.nil_append]
    show run ⟨outer, items ++ [.block head? opening body (ofSpelled? (spelled last?)) closing],
      []⟩ rest = _
    rw [ofSpelled?_spelled]
  · rw [Branch.tokens, List.append_assoc, run_chunkTokens]
    rfl
  · rfl

/-- Reading derivations of items, one after the other. -/
theorem run_branches (bs : List Branch) (outer : List OpenBranch) (items : List Branch)
    (rest : List (Position × Lexeme)) :
    run ⟨outer, items, []⟩ (tokensAll bs ++ rest) = run ⟨outer, items ++ bs, []⟩ rest := by
  rcases bs with - | ⟨b, bs⟩
  · rw [List.append_nil]; rfl
  · rw [tokensAll, List.append_assoc, run_branch b, run_branches bs, List.append_assoc]
    rfl

end

/-- **Reading the tokens of a derivation** gives the derivation. -/
theorem run_derivation (d : Derivation) :
    run {} d.tokens = some { items := d.items, chunks := spelled d.last? } := by
  rw [Derivation.tokens, run_branches, ← List.append_nil (chunkTokens _), run_chunkTokens]
  rfl

/-- What was read without an open block is derived. -/
theorem exists_derivation_of_run (h : run {} ts = some g) (ho : g.outer = []) :
    ∃ d : Derivation, d.tokens = ts.filter isSignificant
      ∧ d.items = g.items ∧ spelled d.last? = g.chunks := by
  refine ⟨⟨g.items, ofSpelled? g.chunks⟩, ?_, rfl, spelled_ofSpelled? _⟩
  have htokens := tokens_run h
  rw [tokens, ho] at htokens
  rw [Derivation.tokens, spelled_ofSpelled?]
  exact htokens

/-! ### Braces -/

theorem step_eq_none (h : g.step t = none) : t.2 = .closeBrace ∧ g.outer = [] := by
  rcases t with ⟨here, b | b | - | - | -⟩
  · cases h
  · cases h
  · cases h
  · rcases ho : g.outer with - | ⟨b, outer⟩
    · exact ⟨rfl, rfl⟩
    · rw [step, ho] at h
      cases h
  · cases h

/-- **One token** opens a block or closes one, as it is a brace. -/
theorem length_outer_step (h : g.step t = some g') :
    g'.outer.length + closes [t] = g.outer.length + opens [t] := by
  rcases t with ⟨here, b | b | - | - | -⟩
  · cases h
    rfl
  · cases h
    rfl
  · cases h
    rfl
  · obtain ⟨b, outer, ho, rfl⟩ := step_closeBrace h
    rw [ho]
    rfl
  · cases h
    rfl

theorem length_outer_run (h : g.run ts = some g') :
    g'.outer.length + closes ts = g.outer.length + opens ts := by
  induction ts generalizing g with
  | nil =>
    cases h
    rfl
  | cons t ts ih =>
    rw [run_cons] at h
    obtain ⟨g₁, hstep, hrun⟩ := Option.bind_eq_some_iff.mp h
    have hone := length_outer_step hstep
    have hrest := ih hrun
    rw [opens_cons, closes_cons]
    omega

/-- **Reading fails** at a closing brace without an open block, and nowhere
else. -/
theorem run_ne_none_iff (g : Growth) (ts : List (Position × Lexeme)) : g.run ts ≠ none
    ↔ ∀ front, front <+: ts → closes front ≤ g.outer.length + opens front := by
  induction ts generalizing g with
  | nil =>
    refine ⟨fun _ front hf => ?_, fun _ => by simp⟩
    rw [List.prefix_nil.mp hf]
    exact Nat.zero_le _
  | cons t ts ih =>
    rw [run_cons]
    rcases hstep : g.step t with - | g'
    · -- the first token alone is a front that closes too much
      obtain ⟨ht, ho⟩ := step_eq_none hstep
      refine ⟨fun h => absurd rfl h, fun h => ?_⟩
      have := h [t] ⟨ts, rfl⟩
      rw [ho] at this
      simp [closes, opens, ht] at this
    · -- a front is the first token and a front of the rest, with that many blocks more or less
      have hone := length_outer_step hstep
      rw [Option.bind_some, ih]
      constructor
      · intro h front hf
        rcases front with - | ⟨t', front⟩
        · exact Nat.zero_le _
        · obtain ⟨rfl, hfront⟩ := List.cons_prefix_cons.mp hf
          have := h front hfront
          rw [opens_cons, closes_cons]
          omega
      · intro h front hf
        have := h (t :: front) (List.cons_prefix_cons.mpr ⟨rfl, hf⟩)
        rw [opens_cons, closes_cons] at this
        omega

/-- **Braces match** in those sequences that are read without a block left open. -/
theorem bracesMatch_iff : BracesMatch ts ↔ ∃ g, run {} ts = some g ∧ g.outer = [] := by
  have hfails := run_ne_none_iff {} ts
  rw [List.length_nil] at hfails
  constructor
  · rintro ⟨hfronts, htotal⟩
    obtain ⟨g, hg⟩ := Option.ne_none_iff_exists'.mp (hfails.mpr fun front hf => by
      have := hfronts front hf
      omega)
    refine ⟨g, hg, List.length_eq_zero_iff.mp ?_⟩
    have := length_outer_run hg
    rw [List.length_nil] at this
    omega
  · rintro ⟨g, hg, ho⟩
    refine ⟨fun front hf => ?_, ?_⟩
    · have := hfails.mp (by simp [hg]) front hf
      omega
    · have := length_outer_run hg
      rw [ho, List.length_nil] at this
      omega

end Growth

/-- **No sequence has two derivations.** -/
theorem Derivation.tokens_injective {d d' : Derivation} (h : d.tokens = d'.tokens) : d = d' := by
  have hrun := Growth.run_derivation d
  rw [h, Growth.run_derivation d'] at hrun
  have hgrowth := Option.some.inj hrun
  have hitems : d.items = d'.items := (congrArg Growth.items hgrowth).symm
  have hlast : spelled d.last? = spelled d'.last? := (congrArg Growth.chunks hgrowth).symm
  rcases d with ⟨items, last?⟩
  rcases d' with ⟨items', last?'⟩
  have := congrArg ofSpelled? hlast
  rw [ofSpelled?_spelled, ofSpelled?_spelled] at this
  cases hitems
  cases this
  rfl

/-- **Derived sequences** are those in which braces match. -/
theorem exists_derivation_iff {ts : List (Position × Lexeme)}
    (hts : ts.filter isSignificant = ts) : (∃ d : Derivation, d.tokens = ts) ↔ BracesMatch ts := by
  rw [Growth.bracesMatch_iff]
  constructor
  · rintro ⟨d, rfl⟩
    exact ⟨_, Growth.run_derivation d, rfl⟩
  · rintro ⟨g, hg, ho⟩
    obtain ⟨d, hd, -, -⟩ := Growth.exists_derivation_of_run hg ho
    exact ⟨d, hd.trans hts⟩

end FluidScss
