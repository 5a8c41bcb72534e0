/-
FluidScss/Proofs/Written.lean

Where the declarations of a tree are written.  A statement is a run of chunks with
no brace and no semicolon among them, and whatever its declaration says stands
there: but for spaces, its value is a part of the text of these chunks
(`writtenIn_of_declared`).  Spaces are left out because some are put between
chunks when they are joined.
-/
import FluidScss.Proofs.Derivation
import FluidScss.Proofs.Statement
import FluidScss.Proofs.TreeScan

namespace FluidScss

open Outline Branch Prelude

variable {chunks : List Chunk} {around : List (List Text)} {node : Node} {declared : Declared}

/-! ### Texts without spaces -/

/-- The text without its spaces. -/
def unspaced (text : Text) : Text := text.filter (· ≠ ' ')

theorem unspaced_append (text rest : Text) :
    unspaced (text ++ rest) = unspaced text ++ unspaced rest := List.filter_append ..

theorem unspaced_sublist {part text : Text} (h : part <:+: text) :
    (unspaced part).Sublist (unspaced text) := h.sublist.filter _

theorem unspaced_addChunk (text : Text) (chunk : Chunk) :
    unspaced (addChunk text chunk) = unspaced text ++ unspaced chunk.text := by
  rw [addChunk]
  split
  · rw [unspaced_append]
  · rw [unspaced_append, unspaced_append]
    show unspaced text ++ [] ++ _ = _
    rw [List.append_nil]

/-! ### Statements -/

/-- What is written in chunks. -/
def chunksWritten (chunks : List Chunk) : Text := chunks.flatMap Chunk.text

theorem unspaced_chunksText (chunks : List Chunk) :
    (unspaced (chunksText chunks)).Sublist (unspaced (chunksWritten chunks)) := by
  have hfold : ∀ text : Text, unspaced (chunks.foldl addChunk text)
      = unspaced text ++ unspaced (chunksWritten chunks) := by
    induction chunks with
    | nil => exact fun text => (List.append_nil _).symm
    | cons chunk chunks ih =>
      intro text
      rw [List.foldl_cons, ih, unspaced_addChunk, List.append_assoc, ← unspaced_append]
      rfl
  have := hfold []
  rw [chunksText]
  refine (unspaced_sublist (Text.trim_isInfix _)).trans ?_
  rw [this]
  exact List.Sublist.refl _

/-- What a declaration says stands in its text. -/
theorem isInfix_of_declarationNode? {text property value : Text} {important : Bool}
    {line line' : Nat}
    (h : declarationNode? text line = some (.declaration property value important line')) :
    value <:+: text := by
  rw [declarationNode?] at h
  split at h
  · cases h
  · rename_i before after hcut
    dsimp only at h
    split at h
    · cases h
    · cases h
      refine (splitImportant_isInfix true _).trans ((Text.trim_isInfix after).trans ?_)
      rw [Text.cut] at hcut
      split at hcut
      · rename_i found rest hb
        cases hcut
        rw [Text.eq_of_breakOn hb]
        exact (List.suffix_append _ _).isInfix
      · cases hcut

theorem declared_of_statementNode? (h : statementNode? chunks = some node)
    (hd : declared ∈ node.declared around) :
    (unspaced declared.value).Sublist (unspaced (chunksWritten chunks)) := by
  rw [statementNode?] at h
  split at h
  · -- an at-rule without a block declares nothing
    cases h
    cases hd
  · obtain ⟨property, value, important, line, rfl⟩ : ∃ property value important line,
        node = .declaration property value important line := by
      rw [declarationNode?] at h
      split at h
      · cases h
      · dsimp only at h
        split at h
        · cases h
        · cases h
          exact ⟨_, _, _, _, rfl⟩
    cases List.mem_singleton.mp hd
    exact (unspaced_sublist (isInfix_of_declarationNode? h)).trans (unspaced_chunksText chunks)

/-- The declarations of a block are those in it. -/
theorem declared_of_blockNode? {children : List Node} (h : blockNode? chunks children = some node)
    (hd : declared ∈ node.declared around) :
    ∃ around', declared ∈ Node.declaredOfList around' children := by
  rw [blockNode?] at h
  split at h
  · cases h
    exact ⟨_, hd⟩
  · cases h
    exact ⟨_, hd⟩
  · split at h
    · cases h
    · cases h
      exact ⟨_, hd⟩

theorem mem_declaredOfList {nodes : List Node} :
    declared ∈ Node.declaredOfList around nodes
      ↔ ∃ node ∈ nodes, declared ∈ node.declared around := by
  induction nodes with
  | nil => simp [Node.declaredOfList]
  | cons node nodes ih => simp [Node.declaredOfList, ih]

/-! ### Runs of chunks -/

/-- Among the tokens there is a run of chunks in which, but for spaces, the text is
written. -/
def WrittenIn (text : Text) (tokens : List (Position × Lexeme)) : Prop :=
  ∃ cs : List (Position × Text), chunkTokens cs <:+: tokens
    ∧ (unspaced text).Sublist (unspaced (cs.flatMap Prod.snd))

theorem WrittenIn.mono {text : Text} {tokens more : List (Position × Lexeme)}
    (h : WrittenIn text tokens) (hi : tokens <:+: more) : WrittenIn text more := by
  obtain ⟨cs, hcs, htext⟩ := h
  exact ⟨cs, hcs.trans hi, htext⟩

theorem chunksWritten_chunkLines (cs : List (Position × Text)) :
    chunksWritten (chunkLines cs) = cs.flatMap Prod.snd := by
  rw [chunksWritten, chunkLines, List.flatMap_map]

theorem writtenIn_of_statementNode? {cs : List (Position × Text)}
    (h : statementNode? (chunkLines cs) = some node) (hd : declared ∈ node.declared around) :
    WrittenIn declared.value (chunkTokens cs) := by
  refine ⟨cs, List.infix_refl _, ?_⟩
  rw [← chunksWritten_chunkLines]
  exact declared_of_statementNode? h hd

theorem writtenIn_of_lastNode {cs : List (Position × Text)}
    (hd : declared ∈ Node.declaredOfList around (lastNode (chunkLines cs))) :
    WrittenIn declared.value (chunkTokens cs) := by
  obtain ⟨node, hnode, hd⟩ := mem_declaredOfList.mp hd
  rw [lastNode] at hnode
  split at hnode
  · cases hnode
  · exact writtenIn_of_statementNode? (Option.mem_toList.mp hnode) hd

/-- The declarations of items and a last statement are those of the items and that
of the statement. -/
theorem writtenIn_body {items : List Item} {tokens : List (Position × Lexeme)}
    {cs : List (Position × Text)}
    (hitems : declared ∈ Node.declaredOfList around (Item.nodes items) →
      WrittenIn declared.value tokens)
    (hd : declared ∈ Node.declaredOfList around (Item.nodes items ++ lastNode (chunkLines cs))) :
    WrittenIn declared.value (tokens ++ chunkTokens cs) := by
  obtain ⟨node, hnode, hdecl⟩ := mem_declaredOfList.mp hd
  rcases List.mem_append.mp hnode with hnode | hnode
  · exact (hitems (mem_declaredOfList.mpr ⟨node, hnode, hdecl⟩)).mono
      (List.prefix_append _ _).isInfix
  · exact (writtenIn_of_lastNode (mem_declaredOfList.mpr ⟨node, hnode, hdecl⟩)).mono
      (List.suffix_append _ _).isInfix

mutual

/-- The declarations of an item are written in its chunks. -/
theorem writtenIn_branch (b : Branch) {around : List (List Text)} {node : Node}
    (h : b.item.node? = some node) (hd : declared ∈ node.declared around) :
    WrittenIn declared.value b.tokens := by
  rcases b with ⟨head?, opening, items, last?, closing⟩ | ⟨head, closing⟩ | ⟨here⟩
  · obtain ⟨around', hd⟩ := declared_of_blockNode? h hd
    refine (writtenIn_body (writtenIn_branches items) hd).mono ?_
    rw [Branch.tokens]
    exact ⟨chunkTokens (spelled head?) ++ [(opening, .openBrace)], [(closing, .closeBrace)],
      by simp⟩
  · exact (writtenIn_of_statementNode? h hd).mono (List.prefix_append _ _).isInfix
  · cases h

theorem writtenIn_branches (bs : List Branch) {around : List (List Text)}
    (hd : declared ∈ Node.declaredOfList around (Item.nodes (itemAll bs))) :
    WrittenIn declared.value (tokensAll bs) := by
  rcases bs with - | ⟨b, bs⟩
  · cases hd
  · rw [itemAll, Item.nodes] at hd
    obtain ⟨node, hnode, hdecl⟩ := mem_declaredOfList.mp hd
    rcases List.mem_append.mp hnode with hnode | hnode
    · exact (writtenIn_branch b (Option.mem_toList.mp hnode) hdecl).mono
        (List.prefix_append _ _).isInfix
    · exact (writtenIn_branches bs (mem_declaredOfList.mpr ⟨node, hnode, hdecl⟩)).mono
        (List.suffix_append _ _).isInfix

end

/-- **Declarations are written in chunks** that follow one another. -/
theorem writtenIn_of_declared {d : Derivation}
    (h : declared ∈ Node.declaredOfList around d.outline.nodes) :
    WrittenIn declared.value d.tokens :=
  writtenIn_body (writtenIn_branches d.items) h

/-! ### Counting characters -/

/-- What is written in the chunks among tokens. -/
def written (tokens : List (Position × Lexeme)) : Text :=
  tokens.flatMap fun t => match t.2 with
    | .chunk text => text
    | _ => []

theorem written_append (tokens more : List (Position × Lexeme)) :
    written (tokens ++ more) = written tokens ++ written more := List.flatMap_append ..

theorem written_chunkTokens (cs : List (Position × Text)) :
    written (chunkTokens cs) = cs.flatMap Prod.snd := by
  rw [written, chunkTokens, List.flatMap_map]

theorem count_unspaced {c : Char} (hc : c ≠ ' ') (text : Text) :
    (unspaced text).count c = text.count c := List.count_filter (by simpa using hc)

/-- A text has no more characters of a kind than the chunks it is written in. -/
theorem WrittenIn.count_le {text : Text} {tokens : List (Position × Lexeme)} {c : Char}
    (h : WrittenIn text tokens) (hc : c ≠ ' ') : text.count c ≤ (written tokens).count c := by
  obtain ⟨cs, ⟨front, back, rfl⟩, htext⟩ := h
  have hcount := htext.count_le c
  rw [count_unspaced hc, count_unspaced hc] at hcount
  rw [written_append, written_append, written_chunkTokens, List.count_append, List.count_append]
  omega

/-- A run of chunks stands on one side of a brace or a semicolon. -/
theorem WrittenIn.cut {text : Text} {front back : List (Position × Lexeme)}
    {t : Position × Lexeme} (h : WrittenIn text (front ++ t :: back)) (ht : ∀ s, t.2 ≠ .chunk s) :
    WrittenIn text front ∨ WrittenIn text back := by
  obtain ⟨cs, ⟨before, behind, he⟩, htext⟩ := h
  have hmem : t ∉ chunkTokens cs := by
    intro hm
    obtain ⟨c, -, rfl⟩ := List.mem_map.mp hm
    exact ht c.2 rfl
  rw [List.append_assoc] at he
  rcases List.append_eq_append_iff.mp he with ⟨z, rfl, hz⟩ | ⟨z, rfl, hz⟩
  · -- the run begins in front of the token, so it ends there
    rcases List.append_eq_append_iff.mp hz with ⟨w, rfl, -⟩ | ⟨w, hw, hb⟩
    · exact .inl ⟨cs, ⟨before, w, List.append_assoc ..⟩, htext⟩
    · rcases w with - | ⟨u, w⟩
      · rw [List.append_nil] at hw
        exact .inl ⟨cs, ⟨before, [], by rw [hw, List.append_nil]⟩, htext⟩
      · obtain rfl := (List.cons.inj hb).1
        exact absurd (by simp [hw]) hmem
  · rcases z with - | ⟨u, z⟩
    · -- the run begins at the token, so it is empty
      rcases hcs : chunkTokens cs with - | ⟨u, us⟩
      · exact .inl ⟨cs, by rw [hcs]; exact List.nil_infix, htext⟩
      · rw [hcs] at hz hmem
        obtain rfl := (List.cons.inj hz).1
        exact absurd (List.mem_cons_self ..) hmem
    · obtain ⟨-, hz⟩ := List.cons.inj hz
      exact .inr ⟨cs, ⟨z, behind, by rw [List.append_assoc, hz]; rfl⟩, htext⟩

/-- What is written in the chunks of a text stands in it. -/
theorem count_written_le (c : Char) (here : Position) (text : Text) :
    (written (significant here (lexemes text).1)).count c ≤ text.count c := by
  have hfound : ∀ (here : Position) (found : List Lexeme),
      (written (significant here found)).count c ≤ (found.flatMap Lexeme.source).count c := by
    intro here found
    induction found generalizing here with
    | nil => exact Nat.le_refl 0
    | cons l found ih =>
      rw [List.flatMap_cons, List.count_append]
      by_cases hl : ∃ b, l = .ignored b
      · obtain ⟨b, rfl⟩ := hl
        rw [significant_ignored]
        have := ih (here.after b)
        omega
      · rw [significant_token fun b hb => hl ⟨b, hb⟩]
        have hrest := ih (here.after l.source)
        have hone : (written [(here, l)]).count c ≤ l.source.count c := by
          rcases l with b | t | - | - | - <;> simp [written, Lexeme.source]
        rw [← List.singleton_append, written_append, List.count_append]
        omega
  have hsource := congrArg (List.count c) (source_lexemes text)
  rw [List.count_append] at hsource
  have := hfound here (lexemes text).1
  omega

end FluidScss
