/-
FluidScss/Proofs/Placement.lean

Sheets with the same tokens at other places.  A derivation is moved by moving
the places of its tokens (`Derivation.move`), and all that its tree shows of that
is the lines of its nodes (`nodes_move`); the drafts of a tree do not depend on
them (`draftsOfList_reline`).

A text is a sheet exactly when its tokens are derived and its blocks do not nest
too deep (`parseSheet_eq_ok_iff`).  So a text whose tokens are those of a sheet at
other places is a sheet with the same tree but for the lines
(`parseSheet_of_sameTokens`).
-/
import FluidScss.Proofs.Acceptance
import FluidScss.Proofs.Construct

namespace FluidScss

open Outline Branch Prelude

variable {f : Nat → Nat} {g : Position → Position}

/-! ### Derivations -/

/-- The prelude with its chunks at other places. -/
def Prelude.move (g : Position → Position) (p : Prelude) : Prelude :=
  ⟨Prod.map g id p.first, p.more.map (Prod.map g id)⟩

namespace Branch

mutual

/-- The derivation of an item with its tokens at other places. -/
def move (g : Position → Position) : Branch → Branch
  | block head? opening items last? closing =>
    .block (head?.map (Prelude.move g)) (g opening) (moveAll g items)
      (last?.map (Prelude.move g)) (g closing)
  | statement head closing => .statement (head.move g) (g closing)
  | semicolon here => .semicolon (g here)

/-- The derivations of items with their tokens at other places. -/
def moveAll (g : Position → Position) : List Branch → List Branch
  | [] => []
  | b :: bs => b.move g :: moveAll g bs

end

end Branch

/-- The derivation of a sheet with its tokens at other places. -/
def Derivation.move (g : Position → Position) (d : Derivation) : Derivation :=
  ⟨moveAll g d.items, d.last?.map (Prelude.move g)⟩

theorem spelled_move (g : Position → Position) (p? : Option Prelude) :
    spelled (p?.map (Prelude.move g)) = (spelled p?).map (Prod.map g id) := by
  rcases p? with - | p <;> rfl

theorem chunkTokens_move (g : Position → Position) (cs : List (Position × Text)) :
    chunkTokens (cs.map (Prod.map g id)) = (chunkTokens cs).map (Prod.map g id) := by
  rw [chunkTokens, chunkTokens, List.map_map, List.map_map]
  rfl

mutual

theorem Branch.tokens_move (g : Position → Position) (b : Branch) :
    (b.move g).tokens = b.tokens.map (Prod.map g id) := by
  rcases b with ⟨head?, opening, items, last?, closing⟩ | ⟨head, closing⟩ | ⟨here⟩
  · simp [Branch.move, Branch.tokens, spelled_move, chunkTokens_move,
      Branch.tokensAll_move g items]
  · have hhead := spelled_move g (some head)
    rw [Option.map_some] at hhead
    simp [Branch.move, Branch.tokens, hhead, chunkTokens_move]
  · rfl

theorem Branch.tokensAll_move (g : Position → Position) (bs : List Branch) :
    tokensAll (moveAll g bs) = (tokensAll bs).map (Prod.map g id) := by
  rcases bs with - | ⟨b, bs⟩
  · rfl
  · rw [moveAll, tokensAll, tokensAll, Branch.tokens_move g b, Branch.tokensAll_move g bs,
      List.map_append]

end

/-- **A derivation that is moved** has the moved tokens. -/
theorem Derivation.tokens_move (g : Position → Position) (d : Derivation) :
    (d.move g).tokens = d.tokens.map (Prod.map g id) := by
  rw [Derivation.tokens, Derivation.tokens, Derivation.move, Branch.tokensAll_move, spelled_move,
    chunkTokens_move, List.map_append]

/-! ### Nodes -/

namespace Node

mutual

/-- The node with other lines. -/
def reline (f : Nat → Nat) : Node → Node
  | .declaration property value important line => .declaration property value important (f line)
  | .atRule name params children line => .atRule name params (relineAll f children) (f line)
  | .block selector selectors children line =>
    .block selector selectors (relineAll f children) (line.map f)

/-- Nodes with other lines. -/
def relineAll (f : Nat → Nat) : List Node → List Node
  | [] => []
  | node :: nodes => node.reline f :: relineAll f nodes

end

theorem relineAll_append (f : Nat → Nat) (as bs : List Node) :
    relineAll f (as ++ bs) = relineAll f as ++ relineAll f bs := by
  induction as with
  | nil => rfl
  | cons a as ih => rw [List.cons_append, relineAll, relineAll, ih, List.cons_append]

theorem relineAll_toList (f : Nat → Nat) (node? : Option Node) :
    relineAll f node?.toList = (node?.map (reline f)).toList := by
  rcases node? with - | node <;> rfl

mutual

theorem drafts_reline (m : Marker) (f : Nat → Nat) (parents : List Text) (node : Node) :
    (node.reline f).drafts m parents = node.drafts m parents := by
  cases node with
  | declaration => rfl
  | atRule name params children line =>
    rw [reline, drafts, drafts, draftsOfList_reline m f parents children]
  | block selector selectors children line =>
    rw [reline, drafts, drafts, draftsOfList_reline m f parents children,
      draftsOfList_reline m f _ children]

/-- **Drafts** do not depend on lines. -/
theorem draftsOfList_reline (m : Marker) (f : Nat → Nat) (parents : List Text)
    (nodes : List Node) :
    draftsOfList m parents (relineAll f nodes) = draftsOfList m parents nodes := by
  cases nodes with
  | nil => rfl
  | cons node nodes =>
    rw [relineAll, draftsOfList, draftsOfList, drafts_reline m f parents node,
      draftsOfList_reline m f parents nodes]

end

end Node

open Node

/-! ### Nodes of moved derivations -/

/-- Chunks with other lines. -/
def relineChunks (f : Nat → Nat) (chunks : List Chunk) : List Chunk :=
  chunks.map fun c => ⟨c.text, f c.line⟩

theorem chunkLines_move (hg : ∀ here, (g here).line = f here.line) (cs : List (Position × Text)) :
    chunkLines (cs.map (Prod.map g id)) = relineChunks f (chunkLines cs) := by
  rw [chunkLines, chunkLines, relineChunks, List.map_map, List.map_map]
  exact List.map_congr_left fun c _ => by simp [hg]

theorem chunksText_reline (f : Nat → Nat) (chunks : List Chunk) :
    chunksText (relineChunks f chunks) = chunksText chunks := by
  rw [chunksText, chunksText, relineChunks, List.foldl_map]
  rfl

theorem chunksLine_reline (f : Nat → Nat) {chunks : List Chunk} (hne : chunks ≠ []) :
    chunksLine (relineChunks f chunks) = f (chunksLine chunks) := by
  obtain ⟨c, chunks, rfl⟩ := List.exists_cons_of_ne_nil hne
  rfl

theorem declarationNode?_reline (f : Nat → Nat) (text : Text) (line : Nat) :
    declarationNode? text (f line) = (declarationNode? text line).map (reline f) := by
  rw [declarationNode?, declarationNode?]
  split
  · rfl
  · dsimp only
    split
    · rfl
    · rfl

theorem statementNode?_reline (f : Nat → Nat) (chunks : List Chunk) :
    statementNode? (relineChunks f chunks) = (statementNode? chunks).map (reline f) := by
  rcases chunks with - | ⟨c, chunks⟩
  · rfl
  · rw [statementNode?, statementNode?, chunksText_reline,
      chunksLine_reline f (List.cons_ne_nil _ _)]
    split
    · rfl
    · exact declarationNode?_reline f _ _

theorem lastNode_reline (f : Nat → Nat) (last : List Chunk) :
    lastNode (relineChunks f last) = relineAll f (lastNode last) := by
  rcases last with - | ⟨c, last⟩
  · rfl
  · rw [lastNode, lastNode, if_neg (List.cons_ne_nil _ _), if_neg (by simp [relineChunks]),
      statementNode?_reline, relineAll_toList]

theorem blockNode?_reline (f : Nat → Nat) (head : List Chunk) (children : List Node) :
    blockNode? (relineChunks f head) (relineAll f children)
      = (blockNode? head children).map (reline f) := by
  rcases head with - | ⟨c, head⟩
  · rfl
  · rw [blockNode?, blockNode?, chunksText_reline, chunksLine_reline f (List.cons_ne_nil _ _)]
    split
    · rfl
    · rfl
    · split <;> rfl

mutual

theorem node?_move (hg : ∀ here, (g here).line = f here.line) (b : Branch) :
    (b.move g).item.node? = b.item.node?.map (reline f) := by
  rcases b with ⟨head?, opening, items, last?, closing⟩ | ⟨head, closing⟩ | ⟨here⟩
  · rw [Branch.move, Branch.item, Branch.item, Item.node?, Item.node?, spelled_move, spelled_move,
      chunkLines_move hg, chunkLines_move hg, nodes_moveAll hg items, lastNode_reline,
      ← relineAll_append, blockNode?_reline]
  · have hhead := spelled_move g (some head)
    rw [Option.map_some] at hhead
    rw [Branch.move, Branch.item, Branch.item, Item.node?, Item.node?, hhead, chunkLines_move hg,
      statementNode?_reline]
  · rfl

theorem nodes_moveAll (hg : ∀ here, (g here).line = f here.line) (bs : List Branch) :
    Item.nodes (itemAll (moveAll g bs)) = relineAll f (Item.nodes (itemAll bs)) := by
  rcases bs with - | ⟨b, bs⟩
  · rfl
  · rw [moveAll, itemAll, itemAll, Item.nodes, Item.nodes, node?_move hg b, nodes_moveAll hg bs,
      relineAll_append, relineAll_toList]

end

/-- **The tree of a derivation that is moved** differs in its lines only. -/
theorem nodes_move (hg : ∀ here, (g here).line = f here.line) (d : Derivation) :
    (d.move g).outline.nodes = relineAll f d.outline.nodes := by
  rw [Derivation.outline, Derivation.outline, Derivation.move, Outline.nodes, Outline.nodes,
    nodes_moveAll hg, spelled_move, chunkLines_move hg, lastNode_reline, relineAll_append]

/-! ### Derivations one after the other -/

namespace Derivation

variable {d : Derivation}

/-- Two derivations, one after the other, where the first has no last statement. -/
def append (d d' : Derivation) : Derivation := ⟨d.items ++ d'.items, d'.last?⟩

theorem tokens_append (h : d.last? = none) (d' : Derivation) :
    (d.append d').tokens = d.tokens ++ d'.tokens := by
  rw [append, tokens, tokens, tokens, h, tokensAll_append, spelled, chunkTokens_nil,
    List.append_nil, List.append_assoc]

theorem nodes_append (h : d.last? = none) (d' : Derivation) :
    (d.append d').outline.nodes = d.outline.nodes ++ d'.outline.nodes := by
  have hnone : lastNode (chunkLines (spelled none)) = [] := rfl
  simp only [append, outline, Outline.nodes, itemAll_append, FluidScss.nodes_append, h, hnone,
    List.append_nil, List.append_assoc]

/-- A last statement ends with a chunk. -/
theorem last?_eq_none (h : ∀ t ∈ d.tokens.getLast?, ∀ text, t.2 ≠ .chunk text) :
    d.last? = none := by
  rcases hl : d.last? with - | p
  · rfl
  · obtain ⟨t, ht⟩ : ∃ t, (chunkTokens (p.first :: p.more)).getLast? = some t :=
      ⟨_, List.getLast?_eq_some_getLast (List.cons_ne_nil _ _)⟩
    obtain ⟨c, -, rfl⟩ := List.mem_map.mp (List.mem_of_getLast? ht)
    have hlast : d.tokens.getLast? = some (c.1, .chunk c.2) := by
      rw [tokens, hl, List.getLast?_append, spelled, ht]
      rfl
    exact absurd rfl (h _ hlast c.2)

end Derivation

/-! ### Sheets -/

/-- **A text is a sheet** exactly when its tokens are derived and its blocks do
not nest too deep. -/
theorem parseSheet_eq_ok_iff {source : Text} {nodes : List Node} :
    parseSheet source = .ok nodes
      ↔ (lexemes source).2 = [] ∧ ∃ d : Derivation, d.tokens = significant {} (lexemes source).1
        ∧ deepest 0 (d.tokens.map Prod.snd) ≤ nestingLimit ∧ d.outline.nodes = nodes := by
  constructor
  · intro h
    by_cases hb : (lexemes source).2 = [] ∧ BracesMatch (significant {} (lexemes source).1)
    · obtain ⟨d, hd, hread⟩ := read?_of_bracesMatch hb.1 hb.2
      rw [parseSheet, hread] at h
      split at h
      · cases h
      · rename_i hdeep
        refine ⟨hb.1, d, hd, ?_, Except.ok.inj h⟩
        rw [hd, deepest_significant]
        exact Nat.le_of_not_lt hdeep
    · obtain ⟨here, herror⟩ := parseSheet_of_not_bracesMatch hb
      rw [h] at herror
      cases herror
  · rintro ⟨hwhole, d, hd, hdeep, rfl⟩
    have hb := (exists_derivation_iff (filter_isSignificant {} _)).mp ⟨d, hd⟩
    obtain ⟨d', hd', hread⟩ := read?_of_bracesMatch hwhole hb
    obtain rfl := Derivation.tokens_injective (hd.trans hd'.symm)
    rw [hd, deepest_significant] at hdeep
    rw [parseSheet, hread, if_neg (Nat.not_lt.mpr hdeep)]
    rfl

variable {source new a b : Text} {nodes as bs : List Node}

/-- **The tokens of a sheet at other places** make a sheet with the same tree but
for the lines. -/
theorem parseSheet_of_sameTokens (h : parseSheet source = .ok nodes)
    (hwhole : (lexemes new).2 = [])
    (htokens : (significant {} (lexemes new).1).map Prod.snd
      = (significant {} (lexemes source).1).map Prod.snd) :
    ∃ nodes', parseSheet new = .ok nodes'
      ∧ relineAll (fun _ => 0) nodes' = relineAll (fun _ => 0) nodes := by
  obtain ⟨-, d, hd, hdeep, rfl⟩ := parseSheet_eq_ok_iff.mp h
  have hb : BracesMatch (significant {} (lexemes new).1) := by
    have := (exists_derivation_iff (filter_isSignificant {} _)).mp ⟨d, hd⟩
    rwa [bracesMatch_iff_map, ← htokens, ← bracesMatch_iff_map] at this
  obtain ⟨d', hd'⟩ := (exists_derivation_iff (filter_isSignificant {} _)).mpr hb
  refine ⟨_, parseSheet_eq_ok_iff.mpr ⟨hwhole, d', hd', ?_, rfl⟩, ?_⟩
  · rwa [hd', htokens, ← hd]
  · -- at one place for all tokens the two derivations are the same
    have hsnd : ∀ ts : List (Position × Lexeme), ts.map (Prod.map (fun _ => (⟨0, 0⟩ : Position)) id)
        = (ts.map Prod.snd).map (Prod.mk ⟨0, 0⟩) := fun ts => by rw [List.map_map]; rfl
    have hmove : (d'.move fun _ => ⟨0, 0⟩) = d.move fun _ => ⟨0, 0⟩ :=
      Derivation.tokens_injective <| by
        rw [Derivation.tokens_move, Derivation.tokens_move, hd, hd', hsnd, hsnd, htokens]
    have hnodes : ∀ d : Derivation, (d.move fun _ => ⟨0, 0⟩).outline.nodes
        = relineAll (fun _ => 0) d.outline.nodes := nodes_move fun _ => rfl
    rw [← hnodes, ← hnodes, hmove]

/-- Two sheets, one after the other, where the first ends with no statement that
the second could go on with. -/
theorem parseSheet_of_appendedTokens (ha : parseSheet a = .ok as) (hb : parseSheet b = .ok bs)
    (hends : ∀ t ∈ (significant {} (lexemes a).1).getLast?, ∀ text, t.2 ≠ .chunk text)
    (hg : ∀ here, (g here).line = f here.line) (hwhole : (lexemes new).2 = [])
    (htokens : significant {} (lexemes new).1
      = significant {} (lexemes a).1 ++ (significant {} (lexemes b).1).map (Prod.map g id)) :
    parseSheet new = .ok (as ++ relineAll f bs) := by
  obtain ⟨-, d, hd, hdeep, rfl⟩ := parseSheet_eq_ok_iff.mp ha
  obtain ⟨-, d', hd', hdeep', rfl⟩ := parseSheet_eq_ok_iff.mp hb
  have hlast := Derivation.last?_eq_none (by rwa [hd])
  have hsplit := Derivation.tokens_append hlast (d'.move g)
  refine parseSheet_eq_ok_iff.mpr ⟨hwhole, d.append (d'.move g), ?_, ?_, ?_⟩
  · rw [hsplit, Derivation.tokens_move, htokens, hd, hd']
  · have hmatch := (exists_derivation_iff (filter_isSignificant {} _)).mp ⟨d, hd⟩
    rw [← hd, bracesMatch_iff_map] at hmatch
    have hmoved : (d'.move g).tokens.map Prod.snd = d'.tokens.map Prod.snd := by
      rw [Derivation.tokens_move, List.map_map]
      rfl
    rw [hsplit, List.map_append, hmoved]
    refine deepest_append (by simpa using hmatch.1) hdeep ?_
    rwa [hmatch.2, Nat.zero_add, Nat.sub_self]
  · rw [Derivation.nodes_append hlast, nodes_move hg]

end FluidScss
