/-
FluidScss/Proofs/Construct.lean

Sheets written with one construct a line.  A `Construct` is a declaration or
a block of constructs, with the indentation of its lines as part of the data;
`Construct.lines` writes it, a block as the line `a, b {`, the lines of its
children and a line with the closing brace.

Printed so, a forest is a sheet whose tree is the forest again, line numbers
aside: the walk finds the same drafts in both (`treeDrafts_printed`).
-/
import FluidScss.Proofs.Reading
import FluidScss.Proofs.Statement
import FluidScss.Scan.Tree

namespace FluidScss

/-! ### Forests -/

/-- A declaration or a block, with the indentation of its lines. -/
inductive Construct
  | declaration (indent : Nat) (property value : Text) (important : Bool)
  | block (indent : Nat) (selectors : List Text) (children : List Construct) (closing : Nat)

/-- Parentheses are closed in turn: no more of them at any place than were
opened, and all of them in the end. -/
structure Balanced (t : Text) : Prop where
  inside : ∀ front back, t = front ++ back → front.count ')' ≤ front.count '('
  total : t.count ')' = t.count '('

instance (t : Text) : Decidable (Balanced t) :=
  decidable_of_iff ((∀ n < t.length + 1, (t.take n).count ')' ≤ (t.take n).count '(') ∧
      t.count ')' = t.count '(') <| by
    refine ⟨fun h => ⟨fun front back he => ?_, h.2⟩, fun h => ⟨fun n _ => ?_, h.total⟩⟩
    · have hlt : front.length < t.length + 1 := by
        rw [he, List.length_append]
        omega
      have hfront := h.1 front.length hlt
      rwa [he, List.take_left] at hfront
    · exact h.inside _ (t.drop n) (List.take_append_drop n t).symm

/-- The characters of values beside letters and digits. -/
def valueExtra : Text := " .,()%+-*"

/-- The characters of selectors beside letters and digits. -/
def selectorExtra : Text := " .-_&>"

/-- A property in letters and hyphens. -/
structure PlainProperty (property : Text) : Prop where
  ne_nil : property ≠ []
  chars : ∀ c ∈ property, c.isAlpha = true ∨ c = '-'

instance (property : Text) : Decidable (PlainProperty property) :=
  decidable_of_iff (property ≠ [] ∧ ∀ c ∈ property, c.isAlpha = true ∨ c = '-')
    ⟨fun h => ⟨h.1, h.2⟩, fun h => ⟨h.ne_nil, h.chars⟩⟩

namespace Construct

mutual

/-- Whether properties, values and selectors are of the plain kind. -/
def Plain : Construct → Prop
  | .declaration _ property value _ =>
    PlainProperty property ∧ Phrase valueExtra value ∧ Balanced value
  | .block _ selectors children _ =>
    selectors ≠ [] ∧ (∀ s ∈ selectors, Phrase selectorExtra s) ∧ PlainList children

/-- Whether all constructs are plain. -/
def PlainList : List Construct → Prop
  | [] => True
  | c :: cs => c.Plain ∧ PlainList cs

end

mutual

/-- The lines of a construct. -/
def lines : Construct → List Text
  | .declaration indent property value important =>
    [List.replicate indent ' ' ++ (declarationText property value important ++ [';'])]
  | .block indent selectors children closing =>
    (List.replicate indent ' ' ++ (Text.join ", " selectors ++ [' ', '\x7b']))
      :: (linesOfList children ++ [List.replicate closing ' ' ++ ['\x7d']])

/-- The lines of constructs one after the other. -/
def linesOfList : List Construct → List Text
  | [] => []
  | c :: cs => c.lines ++ linesOfList cs

end

mutual

/-- The node that a construct is. -/
def node : Construct → Node
  | .declaration _ property value important => .declaration property value important 1
  | .block _ selectors children _ =>
    .block (Text.join ", " selectors) selectors (nodes children) (some 1)

/-- The nodes that constructs are. -/
def nodes : List Construct → List Node
  | [] => []
  | c :: cs => c.node :: nodes cs

end

mutual

/-- How deep blocks are nested in a construct. -/
def depth : Construct → Nat
  | .declaration _ _ _ _ => 0
  | .block _ _ children _ => depthOfList children + 1

/-- How deep blocks are nested in constructs. -/
def depthOfList : List Construct → Nat
  | [] => 0
  | c :: cs => max c.depth (depthOfList cs)

end

/-- The sheet that constructs make, with or without a line break at its end. -/
def print (forest : List Construct) (final : Bool) : Text :=
  Text.join "\n" (linesOfList forest) ++ if final then ['\n'] else []

end Construct

/-! ### Plain parts -/

theorem PlainProperty.phrase {property : Text} (h : PlainProperty property) :
    Phrase "-" property := by
  have hspace : ' ' ∉ property := by
    intro hm
    rcases h.chars ' ' hm with hc | hc <;> cases hc
  refine ⟨h.ne_nil, fun c hc => ?_, fun hh => ?_, fun hl => ?_⟩
  · rcases h.chars c hc with ha | rfl
    · exact .inl (by rw [Char.isAlphanum, ha, Bool.true_or])
    · exact .inr (List.mem_cons_self ..)
  · exact hspace (List.mem_of_mem_head? hh)
  · exact hspace (List.mem_of_mem_getLast? hl)

/-- In a balanced text every parenthesis is closed. -/
theorem Balanced.closing {t : Text} (h : Balanced t) : Closing t := by
  have hsuffix : ∀ front back, t = front ++ back → Closing back := by
    intro front back
    induction back generalizing front with
    | nil => exact fun _ => trivial
    | cons c back ih =>
      intro he
      refine ⟨?_, ih (front ++ [c]) (by simpa using he)⟩
      rintro rfl
      -- up to here no more were closed than opened, and one was opened since
      have hin := h.inside front ('(' :: back) he
      have htot := h.total
      rw [he, List.count_append, List.count_append, List.count_cons_self,
        List.count_cons_of_ne (by decide)] at htot
      rw [← List.count_pos_iff]
      omega
  exact hsuffix [] t rfl

theorem closing_withImportant {value : Text} (h : Closing value) (important : Bool) :
    Closing (withImportant value important) := by
  cases important
  · exact h
  · exact h.append (closing_of_not_mem (by decide))

theorem mem_withImportant {value : Text} {important : Bool} {c : Char}
    (h : c ∈ withImportant value important) : c ∈ value ∨ c ∈ (" !important" : Text) := by
  cases important
  · exact .inl h
  · exact List.mem_append.mp h

/-- A declaration in plain characters whose value closes its parentheses is
one chunk. -/
theorem chunkText_declaration {propertyExtra property valueExtra value : Text}
    (hp : Phrase propertyExtra property) (hpe : ∀ c ∈ propertyExtra, isPlain c = true)
    (hpo : '(' ∉ propertyExtra) (hv : Phrase valueExtra value)
    (hve : ∀ c ∈ valueExtra, isPlain c = true ∧ c ≠ '#') (hc : Closing value) (important : Bool) :
    ChunkText (declarationText property value important) := by
  refine chunkText_of_plain (fun c hm => ?_) (fun hl => ?_) ?_
  · rcases List.mem_append.mp hm with hm | hm
    · exact hp.plain hpe c hm
    · rcases List.mem_cons.mp hm with rfl | hm
      · rfl
      · rcases List.mem_cons.mp hm with rfl | hm
        · rfl
        · rcases mem_withImportant hm with hm | hm
          · exact hv.plain (fun d hd => (hve d hd).1) c hm
          · have hflag : ∀ d ∈ (" !important" : Text), isPlain d = true := by decide
            exact hflag c hm
  · have hm : '#' ∈ withImportant value important := by
      rw [getLast?_declarationText hv.ne_nil] at hl
      exact List.mem_of_mem_getLast? hl
    rcases mem_withImportant hm with hm | hm
    · exact hv.not_mem rfl (fun hx => (hve _ hx).2 rfl) hm
    · revert hm
      decide
  · refine (closing_of_not_mem (hp.not_mem rfl hpo)).append ?_
    exact ⟨nofun, nofun, closing_withImportant hc important⟩

/-! ### Reading constructs -/

theorem draftsOfList_append (m : Marker) (parents : List Text) (as bs : List Node) :
    Node.draftsOfList m parents (as ++ bs)
      = Node.draftsOfList m parents as ++ Node.draftsOfList m parents bs := by
  induction as with
  | nil => rfl
  | cons a as ih =>
    rw [List.cons_append, Node.draftsOfList, Node.draftsOfList, ih, List.append_assoc]

namespace Construct

/-- Text that is read as nodes which the walk takes for the given ones. -/
def ReadsAs (n : Nat) (text : Text) (nodes : List Node) : Prop :=
  ∃ f, ReadsNodes n text f ∧ ∀ k m parents,
    Node.draftsOfList m parents (f k) = Node.draftsOfList m parents nodes

theorem ReadsAs.append {n : Nat} {s t : Text} {as bs : List Node} (hs : ReadsAs n s as)
    (ht : ReadsAs n t bs) : ReadsAs n (s ++ t) (as ++ bs) := by
  obtain ⟨f, hf, hfd⟩ := hs
  obtain ⟨g, hg, hgd⟩ := ht
  refine ⟨_, hf.append hg, fun k m parents => ?_⟩
  rw [draftsOfList_append, draftsOfList_append, hfd, hgd]

theorem ReadsAs.blanks {n : Nat} {t : Text} (ht : ∀ c ∈ t, isSheetBlank c = true) :
    ReadsAs n t [] :=
  ⟨_, ReadsNodes.blanks ht, fun _ _ _ => rfl⟩

theorem ReadsAs.mono {m n : Nat} {t : Text} {ns : List Node} (h : ReadsAs n t ns) (hm : n ≤ m) :
    ReadsAs m t ns := by
  obtain ⟨f, hf, hfd⟩ := h
  exact ⟨f, hf.mono hm, hfd⟩

theorem isSheetBlank_indent (n : Nat) : ∀ c ∈ '\n' :: List.replicate n ' ', isSheetBlank c = true :=
  isSheetBlank_newline_indent _ fun _ hc => List.eq_of_mem_replicate hc

theorem readsAs_declaration (indent : Nat) {property value : Text} (hp : PlainProperty property)
    (hv : Phrase valueExtra value) (hb : Balanced value) (important : Bool) :
    ReadsAs 0 (Text.precededLines (declaration indent property value important).lines)
      [(declaration indent property value important).node] := by
  have hchunk := chunkText_declaration hp.phrase (by decide) (by decide) hv (by decide)
    hb.closing important
  have hnode := statementNode?_declaration hp.phrase (by decide) (by decide) (by decide) hv.ne_nil
    (hv.trim_eq (by decide)) (unflagged_of_not_mem (hv.not_mem rfl (by decide))) important
  have hstatement : ReadsAs 0 (declarationText property value important ++ [';'])
      [.declaration property value important 1] := by
    refine ⟨_, ReadsNodes.statement (declarationText_ne_nil hp.ne_nil) hchunk
      (isBlank_head_declarationText hp.phrase (by decide)) hnode, fun k m parents => ?_⟩
    rfl
  have hline : Text.precededLines (declaration indent property value important).lines
      = ('\n' :: List.replicate indent ' ')
        ++ (declarationText property value important ++ [';']) := by
    simp [Text.precededLines, lines]
  rw [hline]
  exact (ReadsAs.blanks (isSheetBlank_indent indent)).append hstatement

theorem readsAs_block (indent closing : Nat) {selectors : List Text} {children : List Construct}
    {n : Nat} (hne : selectors ≠ []) (hs : ∀ s ∈ selectors, Phrase selectorExtra s)
    (hc : ReadsAs n (Text.precededLines (linesOfList children)) (nodes children)) :
    ReadsAs (n + 1) (Text.precededLines (block indent selectors children closing).lines)
      [(block indent selectors children closing).node] := by
  have hphrase := Phrase.join hne hs
  have hcolon : (Text.join ", " selectors).getLast? ≠ some ':' := fun hl =>
    hphrase.not_mem (x := ':') rfl (by decide) (List.mem_of_mem_getLast? hl)
  have hnode := blockNode?_phrase hphrase (by decide) (by decide) hcolon
  rw [selectorList_join hne hs (by decide) (by decide)] at hnode
  have hbody : ReadsAs n (Text.precededLines (linesOfList children)
      ++ '\n' :: List.replicate closing ' ') (nodes children) := by
    have := hc.append (ReadsAs.blanks (n := n) (isSheetBlank_indent closing))
    rwa [List.append_nil] at this
  have hblock : ReadsAs (n + 1) (Text.join ", " selectors ++ [' '] ++ '\x7b' ::
      (Text.precededLines (linesOfList children) ++ '\n' :: List.replicate closing ' '
        ++ ['\x7d'])) [(block indent selectors children closing).node] := by
    obtain ⟨f, hf, hfd⟩ := hbody
    refine ⟨_, ReadsNodes.block (by simp) (chunkText_selectors hphrase (by decide) (by decide))
      (isBlank_head_concat hphrase (by decide)) hf fun k children => hnode children k,
      fun k m parents => ?_⟩
    rw [node]
    simp only [Node.draftsOfList, Node.drafts, hfd, if_neg hne]
  have hlines : Text.precededLines (block indent selectors children closing).lines
      = ('\n' :: List.replicate indent ' ') ++ (Text.join ", " selectors ++ [' '] ++ '\x7b' ::
        (Text.precededLines (linesOfList children) ++ '\n' :: List.replicate closing ' '
          ++ ['\x7d'])) := by
    simp [Text.precededLines, lines]
  rw [hlines]
  exact (ReadsAs.blanks (isSheetBlank_indent indent)).append hblock

mutual

/-- A construct is read as the node it is. -/
theorem readsAs_lines (c : Construct) (h : c.Plain) :
    ReadsAs c.depth (Text.precededLines c.lines) [c.node] := by
  cases c with
  | declaration indent property value important =>
    exact readsAs_declaration indent h.1 h.2.1 h.2.2 important
  | block indent selectors children closing =>
    exact readsAs_block indent closing h.1 h.2.1 (readsAs_linesOfList children h.2.2)

theorem readsAs_linesOfList (cs : List Construct) (h : PlainList cs) :
    ReadsAs (depthOfList cs) (Text.precededLines (linesOfList cs)) (nodes cs) := by
  cases cs with
  | nil => exact ReadsAs.blanks (t := []) fun _ hc => absurd hc List.not_mem_nil
  | cons c cs =>
    rw [linesOfList, Text.precededLines_append, depthOfList, nodes]
    exact ((readsAs_lines c h.1).mono (Nat.le_max_left ..)).append
      ((readsAs_linesOfList cs h.2).mono (Nat.le_max_right ..))

end

theorem linesOfList_ne_nil (c : Construct) (cs : List Construct) : linesOfList (c :: cs) ≠ [] := by
  cases c <;> simp [linesOfList, lines]

end Construct

/-- **Printed forests**: the tree of a printed forest has the drafts of the
forest, unless its blocks are nested too deep. -/
theorem treeDrafts_printed (m : Marker) (forest : List Construct)
    (h : Construct.PlainList forest) (final : Bool)
    (hd : Construct.depthOfList forest ≤ Outline.nestingLimit) :
    treeDrafts m (Construct.print forest final)
      = .ok (Node.draftsOfList m rootSelectors (Construct.nodes forest)) := by
  have hfinal : ∀ c ∈ if final then ['\n'] else ([] : Text), isSheetBlank c = true := by
    cases final <;> decide
  have hread := (Construct.readsAs_linesOfList forest h).append
    (Construct.ReadsAs.blanks (n := Construct.depthOfList forest) hfinal)
  rw [List.append_nil] at hread
  rcases forest with - | ⟨c, cs⟩
  · -- an empty forest has no first line
    obtain ⟨f, hf, hfd⟩ := hread
    rw [treeDrafts]
    show (parseSheet (Text.precededLines (Construct.linesOfList []) ++ _)).map _ = _
    rw [parseSheet_of_reads hf hd]
    exact congrArg Except.ok (hfd 1 m rootSelectors)
  · rw [← Text.newline_join (Construct.linesOfList_ne_nil c cs), List.cons_append] at hread
    obtain ⟨f, hf, hfd⟩ := hread
    rw [treeDrafts, Construct.print, parseSheet_of_reads_newline hf hd]
    exact congrArg Except.ok (hfd 0 m rootSelectors)

end FluidScss
