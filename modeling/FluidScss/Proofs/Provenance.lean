/-
FluidScss/Proofs/Provenance.lean

Where the characters of a stylesheet come from.  Everything rendered is put
together from parts of the sources, the marker's name and fixed words, none
of which has a carriage return; and sources are read with their newlines
unified.  So a rendered stylesheet holds one only if the marker's name does
(`unified_renderOverrides`), and else reads back as it was written.

`Text.Unified` is followed through both scans.  Cutting and trimming keep it,
for parts of a text have no other characters (`subset` lemmas); what is built
up from unified texts is unified.
-/
import FluidScss.Proofs.OverrideSheet
import FluidScss.Scan
import FluidScss.Text.Utf8

namespace FluidScss

variable {α : Type}

namespace Text

variable {text text' part : Text} {parts : List Text}

/-! ### Parts of a text -/

theorem trim_subset (text : Text) : trim text ⊆ text := (trim_isInfix text).subset

theorem subset_consHead {c : Char} (h : part ∈ consHead c parts) :
    part = [c] ∨ ∃ p ∈ parts, part ⊆ c :: p := by
  cases parts with
  | nil => exact .inl (List.mem_singleton.mp h)
  | cons p ps =>
    rcases List.mem_cons.mp h with rfl | hm
    · exact .inr ⟨p, List.mem_cons_self .., fun _ hx => hx⟩
    · exact .inr ⟨part, List.mem_cons_of_mem _ hm, List.subset_cons_self _ _⟩

/-- A line has the characters of its text. -/
theorem subset_of_mem_lines (h : part ∈ lines text) : part ⊆ text := by
  fun_induction lines text generalizing part with
  | case1 => cases h
  | case2 rest ih =>
    rcases List.mem_cons.mp h with rfl | hm
    · exact List.nil_subset _
    · exact fun x hx => List.mem_cons_of_mem _ (List.mem_cons_of_mem _ (ih hm hx))
  | case3 c rest hne hbreak ih =>
    rcases List.mem_cons.mp h with rfl | hm
    · exact List.nil_subset _
    · exact fun x hx => List.mem_cons_of_mem _ (ih hm hx)
  | case4 c rest hne hbreak ih =>
    rcases subset_consHead h with rfl | ⟨p, hp, hsub⟩
    · simp
    · exact fun x hx => (List.cons_subset_cons c (ih hp)) (hsub hx)

end Text

open FluidScss.Text

/-! ### Cutting at separators -/

theorem subset_of_mem_piecesFrom {sep part text : Text} {s : Quoting} {depth : Nat}
    (h : part ∈ piecesFrom sep s depth text) : part ⊆ text := by
  induction text generalizing s depth part with
  | nil =>
    rw [List.mem_singleton.mp h]
    exact List.nil_subset _
  | cons c rest ih =>
    rw [piecesFrom] at h
    split at h
    · rcases List.mem_cons.mp h with rfl | hm
      · exact List.nil_subset _
      · exact fun x hx => List.mem_cons_of_mem _ (ih hm hx)
    · rcases subset_consHead h with rfl | ⟨p, hp, hsub⟩
      · simp
      · exact fun x hx => (List.cons_subset_cons c (ih hp)) (hsub hx)

theorem subset_of_mem_splitTopLevel {sep part text : Text} (h : part ∈ splitTopLevel sep text) :
    part ⊆ text := by
  have hpart : part ∈ (pieces sep text).map trim := by
    rw [splitTopLevel] at h
    split at h
    · exact List.dropLast_subset _ h
    · exact h
  obtain ⟨p, hp, rfl⟩ := List.mem_map.mp hpart
  exact fun x hx => subset_of_mem_piecesFrom hp (trim_subset p hx)

/-! ### Values -/

/-- A marker whose name has no carriage return. -/
structure Marker.Unified (m : Marker) : Prop where
  ns : Text.Unified m.ns
  fn : Text.Unified m.fn

variable {m : Marker} {value text : Text}

theorem Segment.unified_clamped (hm : m.Unified) {s : Segment} (hs : Unified (s.source m)) :
    Unified (s.clamped m) := by
  cases s with
  | plain text => exact hs
  | call arguments =>
    have hargs : Unified arguments := by
      rw [Segment.source, unified_append, unified_append] at hs
      exact hs.1.2
    have hpart : ∀ {part}, part ∈ splitTopLevel "," arguments → Unified part := fun hp =>
      hargs.of_subset (subset_of_mem_splitTopLevel hp)
    rw [Segment.clamped, Segment.clamp?.eq_2]
    split
    · -- the clamp expression is made of the marker's namespace and two arguments
      rename_i desktop mobile sizing rest hsplit
      have hmobile : Unified mobile := hpart (by rw [hsplit]; simp)
      have hsizing : Unified sizing := hpart (by rw [hsplit]; simp)
      rw [Option.getD_some, Marker.mobileClamp]
      simp [hm.ns, hmobile, hsizing]
    · exact hs

theorem unified_clampCalls (hm : m.Unified) (hv : Unified value) :
    Unified (clampCalls m value).value := by
  intro hx
  obtain ⟨s, hs, hx⟩ := List.mem_flatMap.mp hx
  refine Segment.unified_clamped hm (hv.of_subset fun x hx => ?_) hx
  rw [← source_segments m value]
  exact List.mem_flatMap.mpr ⟨s, hs, hx⟩

theorem unified_withImportant (hv : Unified value) (important : Bool) :
    Unified (withImportant value important) := by
  cases important
  · exact hv
  · exact unified_append.mpr ⟨hv, by decide⟩

/-! ### Selectors -/

/-- Selectors without carriage returns. -/
def UnifiedAll (texts : List Text) : Prop := ∀ text ∈ texts, Unified text

theorem unifiedAll_root : UnifiedAll rootSelectors := by
  intro s hs
  rw [List.mem_singleton.mp hs]
  exact unified_nil

theorem unified_nestSelector {parent child : Text} (hp : Unified parent) (hc : Unified child) :
    Unified (nestSelector parent child) := by
  rw [nestSelector]
  split
  · exact hc
  · split
    · intro hx
      obtain ⟨d, hd, hx⟩ := List.mem_flatMap.mp hx
      split at hx
      · exact hp hx
      · rw [List.mem_singleton] at hx
        exact hc (hx ▸ hd)
    · exact unified_append.mpr ⟨unified_append.mpr ⟨hp, by decide⟩, hc⟩

theorem unifiedAll_combineSelectors {parents children : List Text} (hp : UnifiedAll parents)
    (hc : UnifiedAll children) : UnifiedAll (combineSelectors parents children) := by
  intro s hs
  obtain ⟨parent, hparent, hs⟩ := List.mem_flatMap.mp hs
  obtain ⟨child, hchild, rfl⟩ := List.mem_map.mp hs
  obtain ⟨raw, hraw, rfl⟩ := List.mem_map.mp hchild
  exact unified_nestSelector (hp parent hparent) ((hc raw hraw).of_subset (trim_subset raw))

/-! ### Drafts -/

/-- A draft without carriage returns. -/
structure Draft.Unified (d : Draft) : Prop where
  selector : Text.Unified d.selector
  property : Text.Unified d.property
  value : Text.Unified d.value

theorem unified_declarationDrafts {parents : List Text} {property : Text} (hm : m.Unified)
    (hp : UnifiedAll parents) (hprop : Unified property) (hv : Unified value) (important : Bool) :
    ∀ d ∈ declarationDrafts m parents property value important, d.Unified := by
  intro d hd
  rw [declarationDrafts] at hd
  split at hd
  · obtain ⟨selector, hs, rfl⟩ := List.mem_map.mp hd
    exact ⟨hp selector hs, hprop, unified_withImportant (unified_clampCalls hm hv) important⟩
  · cases hd

/-! ### The tree scan -/

mutual

/-- A node whose selectors, properties and values have no carriage return. -/
def Node.Unified : Node → Prop
  | .declaration property value _ _ => Text.Unified property ∧ Text.Unified value
  | .atRule _ _ children _ => Node.UnifiedList children
  | .block _ selectors children _ => UnifiedAll selectors ∧ Node.UnifiedList children

/-- All nodes of a list are unified. -/
def Node.UnifiedList : List Node → Prop
  | [] => True
  | node :: nodes => node.Unified ∧ Node.UnifiedList nodes

end

mutual

/-- Of unified nodes the drafts are unified. -/
theorem unified_drafts (hm : m.Unified) {parents : List Text} (hp : UnifiedAll parents) :
    ∀ node : Node, node.Unified → ∀ d ∈ node.drafts m parents, d.Unified
  | .declaration property value important line, hn => by
    intro d hd
    rw [Node.Unified] at hn
    rw [Node.drafts] at hd
    split at hd
    · cases hd
    · exact unified_declarationDrafts hm hp hn.1 hn.2 important d hd
  | .atRule name params children line, hn => by
    rw [Node.Unified] at hn
    rw [Node.drafts]
    exact unified_draftsOfList hm hp children hn
  | .block selector selectors children line, hn => by
    rw [Node.Unified] at hn
    rw [Node.drafts]
    split
    · exact unified_draftsOfList hm hp children hn.2
    · exact unified_draftsOfList hm (unifiedAll_combineSelectors hp hn.1) children hn.2

theorem unified_draftsOfList (hm : m.Unified) {parents : List Text} (hp : UnifiedAll parents) :
    ∀ nodes : List Node, Node.UnifiedList nodes →
      ∀ d ∈ Node.draftsOfList m parents nodes, d.Unified
  | [], _ => by
    intro d hd
    cases hd
  | node :: nodes, hn => by
    intro d hd
    rw [Node.UnifiedList] at hn
    rw [Node.draftsOfList] at hd
    rcases List.mem_append.mp hd with hd | hd
    · exact unified_drafts hm hp node hn.1 d hd
    · exact unified_draftsOfList hm hp nodes hn.2 d hd

end

/-- Chunks without carriage returns. -/
def UnifiedChunks (chunks : List Chunk) : Prop := ∀ chunk ∈ chunks, Unified chunk.text

theorem unified_chunksText {chunks : List Chunk} (h : UnifiedChunks chunks) :
    Unified (chunksText chunks) := by
  have hfold : ∀ (chunks : List Chunk) (text : Text), UnifiedChunks chunks → Unified text →
      Unified (chunks.foldl addChunk text) := by
    intro chunks
    induction chunks with
    | nil => exact fun text _ ht => ht
    | cons chunk chunks ih =>
      intro text hc ht
      have hchunk := hc chunk (List.mem_cons_self ..)
      refine ih _ (fun k hk => hc k (List.mem_cons_of_mem _ hk)) ?_
      rw [addChunk]
      split
      · exact unified_append.mpr ⟨ht, hchunk⟩
      · exact unified_append.mpr ⟨unified_append.mpr ⟨ht, by decide⟩, hchunk⟩
  exact (hfold chunks [] h unified_nil).of_subset (trim_subset _)

theorem unified_atRuleNode (text : Text) {children : List Node} (hc : Node.UnifiedList children)
    (line : Nat) : (atRuleNode text children line).Unified := by
  rw [atRuleNode, Node.Unified]
  exact hc

theorem unified_declarationNode? {line : Nat} {node : Node} (ht : Unified text)
    (h : declarationNode? text line = some node) : node.Unified := by
  rw [declarationNode?] at h
  split at h
  · cases h
  · rename_i property value hcut
    -- property and value are cut from the text
    have hparts : property ⊆ text ∧ value ⊆ text := by
      rw [Text.cut] at hcut
      split at hcut
      · rename_i before after hb
        cases hcut
        rw [eq_of_breakOn hb]
        simp
      · cases hcut
    dsimp only at h
    split at h
    · cases h
    · cases h
      rw [Node.Unified]
      refine ⟨ht.of_subset fun x hx => hparts.1 (trim_subset _ hx), ht.of_subset fun x hx => ?_⟩
      exact hparts.2 (trim_subset _ ((splitImportant_isInfix true _).subset hx))

theorem unified_statementNode? {chunks : List Chunk} {node : Node} (hc : UnifiedChunks chunks)
    (h : statementNode? chunks = some node) : node.Unified := by
  have ht := unified_chunksText hc
  rw [statementNode?] at h
  split at h
  · have hnil : Node.UnifiedList [] := trivial
    cases h
    exact unified_atRuleNode _ hnil _
  · exact unified_declarationNode? ht h

theorem unifiedList_toList {node : Option Node} (h : ∀ n, node = some n → n.Unified) :
    Node.UnifiedList node.toList := by
  cases node with
  | none => trivial
  | some n => exact ⟨h n rfl, trivial⟩

theorem unifiedList_append {ns ms : List Node} (hn : Node.UnifiedList ns)
    (hm : Node.UnifiedList ms) : Node.UnifiedList (ns ++ ms) := by
  induction ns with
  | nil => exact hm
  | cons n ns ih => exact ⟨hn.1, ih hn.2⟩

theorem unifiedList_lastNode {last : List Chunk} (h : UnifiedChunks last) :
    Node.UnifiedList (lastNode last) := by
  rw [lastNode]
  split
  · trivial
  · exact unifiedList_toList fun n hn => unified_statementNode? h hn

theorem unified_blockNode? {head : List Chunk} {children : List Node} {node : Node}
    (hh : UnifiedChunks head) (hc : Node.UnifiedList children)
    (h : blockNode? head children = some node) : node.Unified := by
  have ht := unified_chunksText hh
  rw [blockNode?] at h
  split at h
  · cases h
    exact ⟨List.forall_mem_nil _, hc⟩
  · cases h
    exact unified_atRuleNode _ hc _
  · split at h
    · cases h
    · cases h
      refine ⟨fun s hs => ht.of_subset ?_, hc⟩
      exact subset_of_mem_splitTopLevel (List.mem_filter.mp hs).1

mutual

/-- An item whose chunks have no carriage return. -/
def Item.Unified : Item → Prop
  | .empty => True
  | .statement chunks => UnifiedChunks chunks
  | .block head body last => UnifiedChunks head ∧ Item.UnifiedList body ∧ UnifiedChunks last

/-- All items of a list are unified. -/
def Item.UnifiedList : List Item → Prop
  | [] => True
  | item :: items => item.Unified ∧ Item.UnifiedList items

end

mutual

theorem unified_node? : ∀ (item : Item), item.Unified → ∀ n, item.node? = some n → n.Unified
  | .empty, _, n, h => by
    rw [Item.node?] at h
    cases h
  | .statement chunks, hi, n, h => by
    rw [Item.Unified] at hi
    rw [Item.node?] at h
    exact unified_statementNode? hi h
  | .block head body last, hi, n, h => by
    rw [Item.Unified] at hi
    rw [Item.node?] at h
    exact unified_blockNode? hi.1
      (unifiedList_append (unifiedList_nodes body hi.2.1) (unifiedList_lastNode hi.2.2)) h

theorem unifiedList_nodes : ∀ items : List Item, Item.UnifiedList items →
    Node.UnifiedList (Item.nodes items)
  | [], _ => trivial
  | item :: items, hi => by
    rw [Item.UnifiedList] at hi
    rw [Item.nodes]
    exact unifiedList_append (unifiedList_toList (unified_node? item hi.1))
      (unifiedList_nodes items hi.2)

end

/-! ### Reading the tree -/

/-- A sheet read in part, without carriage returns. -/
structure Outline.Progress.Unified (p : Outline.Progress) : Prop where
  heads : ∀ b ∈ p.outer, UnifiedChunks b.head
  before : ∀ b ∈ p.outer, ∀ item ∈ b.before, item.Unified
  items : ∀ item ∈ p.items, item.Unified
  chunks : UnifiedChunks p.chunks

theorem unifiedList_iff {items : List Item} :
    Item.UnifiedList items ↔ ∀ item ∈ items, item.Unified := by
  induction items with
  | nil => simp [Item.UnifiedList]
  | cons item items ih => simp [Item.UnifiedList, ih]

theorem unifiedChunks_reverse {chunks : List Chunk} (h : UnifiedChunks chunks) :
    UnifiedChunks chunks.reverse :=
  fun chunk hm => h chunk (List.mem_reverse.mp hm)

theorem unifiedList_reverse {items : List Item} (h : ∀ item ∈ items, item.Unified) :
    Item.UnifiedList items.reverse :=
  unifiedList_iff.mpr fun item hm => h item (List.mem_reverse.mp hm)

namespace Outline

theorem Progress.Unified.step {p q : Progress} {l : Position × Lexeme} (hp : p.Unified)
    (hl : Text.Unified l.2.source) (h : p.step l = .ok q) : q.Unified := by
  obtain ⟨at_, l⟩ := l
  cases l with
  | ignored text =>
    cases h
    exact hp
  | chunk text =>
    cases h
    refine { hp with chunks := fun chunk hm => ?_ }
    rcases List.mem_cons.mp hm with rfl | hm
    · exact hl
    · exact hp.chunks chunk hm
  | semicolon =>
    cases h
    refine { hp with items := fun item hm => ?_, chunks := List.forall_mem_nil _ }
    rcases List.mem_cons.mp hm with rfl | hm
    · split
      · trivial
      · exact unifiedChunks_reverse hp.chunks
    · exact hp.items item hm
  | openBrace =>
    cases h
    refine ⟨fun b hb => ?_, fun b hb => ?_, List.forall_mem_nil _, List.forall_mem_nil _⟩
    · rcases List.mem_cons.mp hb with rfl | hb
      · exact unifiedChunks_reverse hp.chunks
      · exact hp.heads b hb
    · rcases List.mem_cons.mp hb with rfl | hb
      · exact hp.items
      · exact hp.before b hb
  | closeBrace =>
    rw [Progress.step] at h
    split at h
    · cases h
    · rename_i b outer ho
      cases h
      have hb : b ∈ p.outer := by rw [ho]; exact List.mem_cons_self ..
      have houter : ∀ b' ∈ outer, b' ∈ p.outer := fun b' hm => by
        rw [ho]
        exact List.mem_cons_of_mem _ hm
      refine ⟨fun b' hm => hp.heads b' (houter b' hm), fun b' hm => hp.before b' (houter b' hm),
        fun item hm => ?_, List.forall_mem_nil _⟩
      rcases List.mem_cons.mp hm with rfl | hm
      · exact ⟨hp.heads b hb, unifiedList_reverse hp.items, unifiedChunks_reverse hp.chunks⟩
      · exact hp.before b hb item hm

theorem Progress.Unified.steps {p q : Progress} {ls : List (Position × Lexeme)} (hp : p.Unified)
    (hl : ∀ l ∈ ls, Text.Unified l.2.source) (h : p.steps ls = .ok q) : q.Unified := by
  induction ls generalizing p with
  | nil =>
    cases h
    exact hp
  | cons l ls ih =>
    rw [Progress.steps] at h
    split at h
    · rename_i p' hs
      exact ih (hp.step (hl l (List.mem_cons_self ..)) hs)
        (fun l' hm => hl l' (List.mem_cons_of_mem _ hm)) h
    · cases h

end Outline

theorem mem_of_mem_place {p : Position} {ls : List Lexeme} {l : Position × Lexeme}
    (h : l ∈ place p ls) : l.2 ∈ ls := by
  induction ls generalizing p with
  | nil => cases h
  | cons k ls ih =>
    rcases List.mem_cons.mp h with rfl | hm
    · exact List.mem_cons_self ..
    · exact List.mem_cons_of_mem _ (ih hm)

/-- The tree of a unified sheet is unified. -/
theorem unifiedList_of_parseSheet {source : Text} {nodes : List Node} (hs : Unified source)
    (h : parseSheet source = .ok nodes) : Node.UnifiedList nodes := by
  have hlexemes : ∀ l ∈ place {} (lexemes source).1, Text.Unified l.2.source := by
    intro l hl
    refine hs.of_subset fun x hx => ?_
    rw [← source_lexemes source]
    exact List.mem_append_left _ (List.mem_flatMap.mpr ⟨l.2, mem_of_mem_place hl, hx⟩)
  rw [parseSheet] at h
  rcases hr : Outline.read? source with defect | o
  · rw [hr] at h
    cases h
  · rw [hr] at h
    cases h
    rw [Outline.read?] at hr
    dsimp only at hr
    split at hr
    · cases hr
    · rename_i p hsteps
      have hempty : Outline.Progress.Unified {} :=
        ⟨List.forall_mem_nil _, List.forall_mem_nil _, List.forall_mem_nil _,
          List.forall_mem_nil _⟩
      have hp := hempty.steps hlexemes hsteps
      split at hr
      · cases hr
      · split at hr
        · cases hr
        · split at hr
          · cases hr
          · cases hr
            exact unifiedList_append (unifiedList_nodes _ (unifiedList_reverse hp.items))
              (unifiedList_lastNode (unifiedChunks_reverse hp.chunks))

/-! ### The line scan -/

theorem lineValue?_subset {text value : Text} (h : lineValue? text = some value) :
    value ⊆ text := by
  have hup : ∀ {text value : Text}, upToSemicolon? text = some value → value ⊆ text := by
    intro text
    induction text with
    | nil => exact nofun
    | cons c rest ih =>
      intro value h
      rw [upToSemicolon?] at h
      split at h
      · cases h
        exact List.nil_subset _
      · obtain ⟨v, hv, rfl⟩ := Option.map_eq_some_iff.mp h
        exact List.cons_subset_cons c (ih hv)
  have hhere : ∀ {text value : Text}, valueHere? text = some value → value ⊆ text := by
    intro text value h
    cases text with
    | nil => cases h
    | cons c rest =>
      obtain ⟨v, hv, rfl⟩ := Option.map_eq_some_iff.mp h
      exact List.cons_subset_cons c (hup hv)
  induction text with
  | nil => cases h
  | cons c rest ih =>
    rw [lineValue?] at h
    split at h
    · split at h
      · rename_i v hv
        cases h
        exact fun x hx => List.mem_cons_of_mem _ (ih hv hx)
      · exact hhere h
    · exact hhere h

theorem dropBlockComment_subset (value : Text) : dropBlockComment value ⊆ value := by
  rw [dropBlockComment]
  split
  · rename_i before after hb
    split
    · intro x hx
      rw [eq_of_breakOn hb]
      simp [trim_subset _ hx]
    · exact List.Subset.refl _
  · exact List.Subset.refl _

theorem dropLineComment_subset (value : Text) : dropLineComment value ⊆ value := by
  rw [dropLineComment]
  split
  · rename_i before after hb
    intro x hx
    rw [eq_of_breakOn hb]
    simp [trim_subset _ hx]
  · exact List.Subset.refl _

/-- What a line declares stands in the line. -/
theorem lineDeclaration?_subset {line property value : Text} {important : Bool}
    (h : lineDeclaration? line = some (property, value, important)) :
    property ⊆ line ∧ value ⊆ line := by
  rw [lineDeclaration?] at h
  split at h
  · cases h
  · rename_i property' rest hp
    split at h
    · cases h
    · rename_i value' hv
      obtain ⟨rfl, hsplit⟩ := Prod.mk.inj (Option.some.inj h)
      have hvalue' : value = (splitImportant false (dropLineComment (dropBlockComment
          (trim value')))).1 := by rw [hsplit]
      subst hvalue'
      -- the property begins the trimmed line, the rest stands behind its colon
      rw [lineProperty?] at hp
      have htrim : trimLeft line ⊆ line := (List.dropWhile_suffix _).subset
      split at hp
      · cases hp
      · split at hp
        · rename_i hcolon
          cases hp
          refine ⟨fun x hx => htrim ((List.takeWhile_prefix _).subset hx), fun x hx => ?_⟩
          have hvalue := trim_subset _ (dropBlockComment_subset _ (dropLineComment_subset _
            ((splitImportant_isInfix false _).subset hx)))
          have hrest : x ∈ trimLeft ((trimLeft line).dropWhile isPropertyChar) := by
            rw [hcolon]
            exact List.mem_cons_of_mem _ (lineValue?_subset hv hvalue)
          exact htrim ((List.dropWhile_suffix _).subset ((List.dropWhile_suffix _).subset hrest))
        · cases hp

/-- Open blocks whose selectors have no carriage return. -/
def SelectorStack.Unified (s : SelectorStack) : Prop := ∀ frame ∈ s.frames, UnifiedAll frame

theorem SelectorStack.Unified.current {s : SelectorStack} (h : s.Unified) :
    UnifiedAll s.current := by
  rw [SelectorStack.current]
  rcases hf : s.frames with - | ⟨frame, frames⟩
  · exact unifiedAll_root
  · exact h frame (by rw [hf]; exact List.mem_cons_self ..)

theorem unified_stackAfter {s : SelectorStack} {line : Text} (h : s.Unified)
    (hl : Unified line) : (stackAfter s line).Unified := by
  have hpopped : (s.popMany (line.count '\x7d')).Unified := fun frame hf =>
    h frame (List.drop_subset _ _ hf)
  have hselectors : UnifiedAll (lineSelectors line) := by
    rw [lineSelectors]
    split
    · exact nofun
    · rename_i before after hb
      dsimp only
      split
      · exact nofun
      · intro selector hs
        refine hl.of_subset fun x hx => ?_
        rw [eq_of_breakOn hb]
        simp [trim_subset _ (subset_of_mem_splitTopLevel hs hx)]
  rw [stackAfter]
  by_cases hs : ((lineSelectors line).map trim).filter (· ≠ []) = []
  · rw [SelectorStack.push_eq_self hs]
    exact hpopped
  · rw [SelectorStack.push_eq_cons rfl hs]
    refine List.forall_mem_cons.mpr ⟨?_, hpopped⟩
    refine unifiedAll_combineSelectors hpopped.current fun child hc => ?_
    obtain ⟨raw, hraw, rfl⟩ := List.mem_map.mp (List.mem_filter.mp hc).1
    exact (hselectors raw hraw).of_subset (trim_subset raw)

theorem unified_linesDrafts (hm : m.Unified) {ls : List Text} {s : SelectorStack}
    (hs : s.Unified) (hl : UnifiedAll ls) : ∀ d ∈ linesDrafts m s ls, d.Unified := by
  induction ls generalizing s with
  | nil => exact nofun
  | cons line ls ih =>
    have hline := hl line (List.mem_cons_self ..)
    have hafter := unified_stackAfter hs hline
    intro d hd
    rcases List.mem_append.mp hd with hd | hd
    · rw [lineDraftsOf] at hd
      split at hd
      · cases hd
      · split at hd
        · cases hd
        · rename_i property value important hdecl
          obtain ⟨hprop, hvalue⟩ := lineDeclaration?_subset hdecl
          exact unified_declarationDrafts hm hafter.current (hline.of_subset hprop)
            (hline.of_subset hvalue) important d hd
    · exact ih hafter (fun l hm => hl l (List.mem_cons_of_mem _ hm)) d hd

/-! ### The stylesheet -/

/-- The drafts of a unified sheet are unified, whichever scan finds them. -/
theorem unified_sheetDrafts {source : Text} (hm : m.Unified) (hs : Unified source) :
    ∀ d ∈ sheetDrafts m source, d.Unified := by
  rw [sheetDrafts, treeDrafts]
  rcases hp : parseSheet source with defect | nodes
  · refine unified_linesDrafts hm ?_ fun line hl => hs.of_subset (subset_of_mem_lines hl)
    exact fun frame hf => absurd hf List.not_mem_nil
  · exact unified_draftsOfList hm unifiedAll_root nodes (unifiedList_of_parseSheet hs hp)

/-- A source is read with its newlines unified. -/
theorem unified_readSource {bytes : ByteArray} {source : Text}
    (h : Text.readSource? bytes = some source) : Unified source := by
  rw [Text.readSource?] at h
  split at h
  · cases h
    exact unified_nil
  · obtain ⟨raw, -, rfl⟩ := Option.map_eq_some_iff.mp h
    exact cr_not_mem_unifyNewlines _

/-- Declarations without carriage returns, under one selector. -/
structure UnifiedRule (rule : Text × Properties) : Prop where
  selector : Unified rule.1
  entries : ∀ e ∈ rule.2, Unified e.1 ∧ Unified e.2

theorem unifiedRule_mergeRules {overrides : List Override}
    (h : ∀ o ∈ overrides, o.toDraft.Unified) : ∀ rule ∈ mergeRules overrides, UnifiedRule rule := by
  -- that the rules so far are unified carries the fold; sorting only reorders
  have hfold : ∀ (os : List Override) (rules : Rules), (∀ o ∈ os, o.toDraft.Unified) →
      (∀ rule ∈ rules, UnifiedRule rule) →
        ∀ rule ∈ os.foldl addOverride rules, UnifiedRule rule := by
    intro os
    induction os with
    | nil => exact fun rules _ hr => hr
    | cons o os ih =>
      intro rules ho hr
      have hd := ho o (List.mem_cons_self ..)
      refine ih _ (fun p hp => ho p (List.mem_cons_of_mem _ hp)) (forall_upsert ?_ ?_ hr)
      · exact ⟨hd.selector, forall_upsert ⟨hd.property, hd.value⟩
          (fun _ _ => ⟨hd.property, hd.value⟩) nofun⟩
      · exact fun props hp => ⟨hd.selector, forall_upsert ⟨hd.property, hd.value⟩
          (fun _ _ => ⟨hd.property, hd.value⟩) hp.entries⟩
  exact hfold _ [] (fun o ho => h o (List.mem_mergeSort.mp ho)) nofun

theorem unified_ruleBlock {rule : Text × Properties} (h : UnifiedRule rule) :
    Unified (ruleBlock rule) := by
  have hlines : ∀ line ∈ rule.2.map declarationLine, Unified line := by
    intro line hl
    obtain ⟨e, he, rfl⟩ := List.mem_map.mp hl
    have hp := h.entries e he
    rw [declarationLine]
    simp [hp.1, hp.2]
  have hjoined : Unified (join ['\n'] (rule.2.map declarationLine)) :=
    Unified.join (by decide) hlines
  rw [ruleBlock]
  simp [h.selector, hjoined]

theorem unified_indentLines {indent text : Text} (hi : Unified indent) (ht : Unified text) :
    Unified (indentLines indent text) := by
  refine Unified.join (by decide) fun part hp => ?_
  obtain ⟨line, hl, rfl⟩ := List.mem_map.mp hp
  exact unified_append.mpr ⟨hi, ht.of_subset (subset_of_mem_splitOn hl)⟩

/-- **Newlines of stylesheets**: a stylesheet rendered from overrides without
carriage returns has one only if the marker's name does. -/
theorem unified_renderOverrides (hm : m.Unified) (mobileMax : Int) {overrides : List Override}
    (h : ∀ o ∈ overrides, o.toDraft.Unified) :
    Unified (renderOverrides m mobileMax overrides) := by
  have hblocks : Unified (ruleBlocks (mergeRules overrides)) := by
    rw [ruleBlocks]
    split
    · exact unified_nil
    · refine unified_append.mpr ⟨Unified.join (by decide) fun part hp => ?_, by decide⟩
      obtain ⟨rule, hr, rfl⟩ := List.mem_map.mp hp
      exact unified_indentLines (by decide) (unified_ruleBlock (unifiedRule_mergeRules h rule hr))
  have hnumber : Unified (ofInt mobileMax) := by
    refine (inAlphabet_ofInt mobileMax).not_mem ?_ ?_ <;> decide
  have hmixin : Unified overridesMixin := by decide
  have hstamp : Unified generatedStamp := by decide
  have hname : Unified configName := by decide
  have hheader : Unified (overridesHeader m) := by
    unfold overridesHeader Marker.qualified
    simp only [unified_append, hm.ns, hm.fn, hstamp, hname, and_true, true_and]
    decide
  rw [renderOverrides, renderRules]
  simp [hheader, hblocks, hnumber, hmixin]

end FluidScss
