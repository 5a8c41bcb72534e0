/-
FluidScss/Proofs/TreeScan.lean

What the tree scan means.  The walk of `FluidScss/Scan/Tree` hands resolved
selectors down; the meaning does without them.  It takes the declarations of
a tree in the order of the sheet, each with the selector lists of the rule
blocks around it (`Node.declared`), and for every choice of one selector from
each list folds the rule of nesting over the choice (`choices`,
`foldl nested`).  The rules of nesting and of the flag are told here once more,
and the definitions of the scan are found to follow them
(`nestSelector_eq_nested`, `withImportant_eq_flagged`).

The two agree on trees whose selectors are trimmed and not empty
(`draftsOfList_eq_flatMap_declared`), and the parser makes no others
(`tidy_of_parseSheet`).  There the selectors handed down are the folds of all
choices (`resolved`), and they are those of the top only at the top
(`resolved_eq_root_iff`), which is what the comparison in the walk needs.

Main result: `treeScan_eq_reference`.
-/
import FluidScss.Proofs.Text
import FluidScss.Scan.Tree
import Mathlib

namespace FluidScss

/-! ### Choices -/

/-- The ways to choose one element of each list, in lexicographic order: the
choice from the first list varies slowest. -/
def choices {α : Type} : List (List α) → List (List α)
  | [] => [[]]
  | l :: ls => l.flatMap fun x => (choices ls).map (x :: ·)

/-- In one list more at the end the choice varies fastest. -/
theorem choices_concat {α : Type} (ls : List (List α)) (l : List α) :
    choices (ls ++ [l]) = (choices ls).flatMap fun chosen => l.map (chosen ++ [·]) := by
  induction ls with
  | nil => simp [choices, List.map_eq_flatMap]
  | cons k ks ih =>
    simp only [List.cons_append, choices, ih, List.map_flatMap, List.flatMap_assoc,
      List.flatMap_map, List.map_map]
    rfl

/-! ### The rules of nesting and of the flag -/

/-- A selector nested in a parent.  The parts of the child between its
ampersands are put around the parent; a child without one descends from the
parent; and the empty parent leaves the child as it is. -/
def nested (parent child : Text) : Text :=
  if parent.isEmpty then child
  else
    match Text.splitOn '&' child with
    | [whole] => parent ++ ' ' :: whole
    | parts => Text.join parent parts

/-- A value with the flag behind it, if it is set. -/
def flagged (value : Text) (important : Bool) : Text :=
  value ++ if important then (" !important" : Text) else []

theorem nestSelector_eq_nested : nestSelector = nested := by
  funext parent child
  rw [nestSelector, nested]
  by_cases hp : parent = []
  · rw [if_pos hp, if_pos (List.isEmpty_iff.mpr hp)]
  rw [if_neg hp, if_neg (mt List.isEmpty_iff.mp hp)]
  by_cases hamp : '&' ∈ child
  · rw [if_pos hamp, Text.replace_eq_join_splitOn]
    split
    · rename_i whole hparts
      -- one part alone would be the child itself, and no part has an ampersand
      have hwhole : child = whole := by
        rw [← Text.join_splitOn '&' child, hparts, Text.join_singleton]
      have hpart := Text.not_mem_of_mem_splitOn (hparts ▸ List.mem_singleton_self whole)
      exact absurd (hwhole ▸ hamp) hpart
    · rfl
  · rw [if_neg hamp, Text.splitOn_eq_singleton hamp, List.append_assoc]
    rfl

theorem withImportant_eq_flagged : withImportant = flagged := by
  funext value important
  cases important with
  | true => rfl
  | false =>
    rw [withImportant, flagged, if_neg Bool.false_ne_true, if_neg Bool.false_ne_true,
      List.append_nil]

/-! ### Resolved selectors -/

/-- A selector as the parser leaves it. -/
def TidySelector (s : Text) : Prop := s ≠ [] ∧ Text.trim s = s

/-- The selectors of blocks around a place, as the parser leaves them. -/
def TidyAround (around : List (List Text)) : Prop :=
  ∀ selectors ∈ around, ∀ s ∈ selectors, TidySelector s

theorem tidyAround_nil : TidyAround [] := fun _ hs => absurd hs List.not_mem_nil

theorem TidyAround.concat {around : List (List Text)} {selectors : List Text}
    (ht : TidyAround around) (hs : ∀ s ∈ selectors, TidySelector s) :
    TidyAround (around ++ [selectors]) := by
  intro inner hi
  rcases List.mem_append.mp hi with hi | hi
  · exact ht inner hi
  · rw [List.mem_singleton.mp hi]
    exact hs

theorem nestSelector_ne_nil {parent child : Text} (hc : child ≠ []) :
    nestSelector parent child ≠ [] := by
  rw [nestSelector]
  split
  · exact hc
  · rename_i hp
    split
    · -- the ampersand is replaced by a parent that is not empty
      rename_i hamp
      rw [Text.replace]
      intro he
      rw [List.flatMap_eq_nil_iff] at he
      have := he '&' hamp
      rw [if_pos rfl] at this
      exact hp this
    · exact List.append_ne_nil_of_right_ne_nil _ hc

/-- Selectors that are not empty stay so inside any parents. -/
theorem nil_not_mem_combineSelectors {parents selectors : List Text}
    (h : ∀ s ∈ selectors, TidySelector s) : [] ∉ combineSelectors parents selectors := by
  intro hm
  rw [combineSelectors, List.mem_flatMap] at hm
  obtain ⟨parent, -, hm⟩ := hm
  rw [List.map_map] at hm
  obtain ⟨child, hc, hnil⟩ := List.mem_map.mp hm
  rw [Function.comp_apply, (h child hc).2] at hnil
  exact nestSelector_ne_nil (h child hc).1 hnil

/-- The selectors of a declaration inside blocks with the given selectors,
the outermost first: the folds of all choices. -/
def resolved (around : List (List Text)) : List Text :=
  (choices around).map (List.foldl nestSelector [])

/-- One block further in, the selectors are combined with those of the
block. -/
theorem resolved_concat (around : List (List Text)) {selectors : List Text}
    (ht : ∀ s ∈ selectors, TidySelector s) :
    resolved (around ++ [selectors]) = combineSelectors (resolved around) selectors := by
  have htrim : selectors.map Text.trim = selectors := by
    conv_rhs => rw [← List.map_id selectors]
    exact List.map_congr_left fun s hs => (ht s hs).2
  rw [resolved, choices_concat, combineSelectors, htrim, resolved]
  simp only [List.map_flatMap, List.flatMap_map, List.map_map]
  refine List.flatMap_congr fun chosen _ => List.map_congr_left fun s _ => ?_
  simp only [Function.comp_apply, List.foldl_append, List.foldl_cons, List.foldl_nil]

/-- Inside a block no selector is empty. -/
theorem ne_nil_of_mem_resolved {around : List (List Text)} (hne : around ≠ [])
    (ht : TidyAround around) {s : Text}
    (hs : s ∈ resolved around) : s ≠ [] := by
  -- the innermost selector is nested last, and nesting never gives nothing
  obtain ⟨outer, last, rfl⟩ := (List.eq_nil_or_concat' around).resolve_left hne
  have hlast := ht last (List.mem_append_right _ (List.mem_singleton_self last))
  rw [resolved_concat outer hlast] at hs
  exact ne_of_mem_of_not_mem hs (nil_not_mem_combineSelectors hlast)

/-- The selectors of the top are found at the top only. -/
theorem resolved_eq_root_iff {around : List (List Text)}
    (ht : TidyAround around) :
    resolved around = rootSelectors ↔ around = [] := by
  constructor
  · intro he
    by_contra hne
    refine ne_nil_of_mem_resolved hne ht (s := []) ?_ rfl
    rw [he]
    exact List.mem_singleton_self _
  · rintro rfl
    rfl

/-! ### The declarations of a tree -/

/-- A declaration and the selector lists of the rule blocks around it, the
outermost first. -/
structure Declared where
  around : List (List Text)
  property : Text
  value : Text
  important : Bool

mutual

/-- The declarations of a node inside blocks with the selectors `around`, in
the order of the sheet; at-rules and blocks without selectors are passed
over. -/
def Node.declared (around : List (List Text)) : Node → List Declared
  | .declaration property value important _ => [⟨around, property, value, important⟩]
  | .atRule _ _ children _ => Node.declaredOfList around children
  | .block _ selectors children _ =>
    Node.declaredOfList (if selectors = [] then around else around ++ [selectors]) children

/-- The declarations of nodes side by side. -/
def Node.declaredOfList (around : List (List Text)) : List Node → List Declared
  | [] => []
  | node :: nodes => node.declared around ++ Node.declaredOfList around nodes

end

/-- The drafts that a declaration stands for: none outside of rule blocks and
none without a call that is replaced; else one for each choice of selectors. -/
def Declared.drafts (m : Marker) (d : Declared) : List Draft :=
  if d.around = [] ∨ (clampCalls m d.value).changed = false then []
  else (choices d.around).map fun chosen =>
    ⟨chosen.foldl nested [], d.property, flagged (clampCalls m d.value).value d.important⟩

/-- The drafts that the trees stand for. -/
def referenceDrafts (m : Marker) (nodes : List Node) : List Draft :=
  (Node.declaredOfList [] nodes).flatMap (Declared.drafts m)

/-! ### The walk and its meaning -/

mutual

/-- All selectors of the node are as the parser leaves them. -/
def Node.Tidy : Node → Prop
  | .declaration _ _ _ _ => True
  | .atRule _ _ children _ => Node.TidyList children
  | .block _ selectors children _ => (∀ s ∈ selectors, TidySelector s) ∧ Node.TidyList children

/-- All selectors of the nodes are as the parser leaves them. -/
def Node.TidyList : List Node → Prop
  | [] => True
  | node :: nodes => node.Tidy ∧ Node.TidyList nodes

end

theorem declarationDrafts_resolved (m : Marker) (around : List (List Text))
    (ht : TidyAround around) (property value : Text)
    (important : Bool) (line : Nat) :
    Node.drafts m (resolved around) (.declaration property value important line)
      = Declared.drafts m ⟨around, property, value, important⟩ := by
  rw [Node.drafts, Declared.drafts]
  by_cases ha : around = []
  · rw [if_pos ((resolved_eq_root_iff ht).mpr ha), if_pos (.inl ha)]
  · rw [if_neg fun he => ha ((resolved_eq_root_iff ht).mp he), declarationDrafts]
    by_cases hc : (clampCalls m value).changed = true
    · rw [if_pos hc, if_neg (by simp [ha, hc]), resolved, List.map_map, nestSelector_eq_nested,
        withImportant_eq_flagged]
      rfl
    · rw [if_neg hc, if_pos (.inr (by simpa using hc))]

-- the induction is on the tree: the selectors handed down stay the folds of
-- all choices from the lists passed on the way
mutual

theorem drafts_eq_flatMap_declared (m : Marker) (around : List (List Text))
    (ht : TidyAround around) (node : Node)
    (hn : node.Tidy) :
    node.drafts m (resolved around) = (node.declared around).flatMap (Declared.drafts m) := by
  cases node with
  | declaration property value important line =>
    rw [declarationDrafts_resolved m around ht, Node.declared, List.flatMap_singleton]
  | atRule name params children line =>
    rw [Node.drafts, Node.declared]
    exact draftsOfList_eq_flatMap_declared m around ht children hn
  | block selector selectors children line =>
    obtain ⟨hs, hc⟩ := hn
    rw [Node.drafts, Node.declared]
    by_cases he : selectors = []
    · -- a block without selectors hands down what it was handed
      rw [if_pos he, if_pos he]
      exact draftsOfList_eq_flatMap_declared m around ht children hc
    · rw [if_neg he, if_neg he, ← resolved_concat around hs]
      exact draftsOfList_eq_flatMap_declared m _ (ht.concat hs) children hc

theorem draftsOfList_eq_flatMap_declared (m : Marker) (around : List (List Text))
    (ht : TidyAround around) (nodes : List Node)
    (hn : Node.TidyList nodes) :
    Node.draftsOfList m (resolved around) nodes
      = (Node.declaredOfList around nodes).flatMap (Declared.drafts m) := by
  cases nodes with
  | nil => rfl
  | cons node nodes =>
    rw [Node.draftsOfList, Node.declaredOfList, List.flatMap_append,
      drafts_eq_flatMap_declared m around ht node hn.1,
      draftsOfList_eq_flatMap_declared m around ht nodes hn.2]

end

mutual

/-- The selectors around a declaration of a tidy tree are tidy. -/
theorem tidy_of_mem_declared (around : List (List Text))
    (ht : TidyAround around) (node : Node) (hn : node.Tidy)
    (d : Declared) (hd : d ∈ node.declared around) :
    TidyAround d.around := by
  cases node with
  | declaration property value important line =>
    rw [Node.declared, List.mem_singleton] at hd
    rw [hd]
    exact ht
  | atRule name params children line =>
    exact tidy_of_mem_declaredOfList around ht children hn d hd
  | block selector selectors children line =>
    obtain ⟨hs, hc⟩ := hn
    rw [Node.declared] at hd
    refine tidy_of_mem_declaredOfList _ ?_ children hc d hd
    split
    · exact ht
    · exact ht.concat hs

theorem tidy_of_mem_declaredOfList (around : List (List Text))
    (ht : TidyAround around) (nodes : List Node)
    (hn : Node.TidyList nodes) (d : Declared) (hd : d ∈ Node.declaredOfList around nodes) :
    TidyAround d.around := by
  cases nodes with
  | nil => cases hd
  | cons node nodes =>
    rw [Node.declaredOfList, List.mem_append] at hd
    rcases hd with hd | hd
    · exact tidy_of_mem_declared around ht node hn.1 d hd
    · exact tidy_of_mem_declaredOfList around ht nodes hn.2 d hd

end

theorem selector_ne_nil_of_mem_drafts {m : Marker} {d : Declared} {draft : Draft}
    (ht : TidyAround d.around) (h : draft ∈ d.drafts m) :
    draft.selector ≠ [] := by
  rw [Declared.drafts] at h
  split at h
  · cases h
  · rename_i hne
    rw [not_or] at hne
    obtain ⟨chosen, hc, rfl⟩ := List.mem_map.mp h
    refine ne_nil_of_mem_resolved hne.1 ht ?_
    rw [resolved, nestSelector_eq_nested]
    exact List.mem_map_of_mem hc

/-! ### What the parser makes -/

theorem tidySelector_of_mem_selectorList {text s : Text} (h : s ∈ selectorList text) :
    TidySelector s := by
  rw [selectorList, List.mem_filter, decide_eq_true_iff] at h
  refine ⟨h.2, ?_⟩
  -- dropping an empty last piece adds none
  have hmem : s ∈ (pieces "," text).map Text.trim := by
    have hs := h.1
    rw [splitTopLevel] at hs
    split at hs
    · exact List.dropLast_subset _ hs
    · exact hs
  obtain ⟨piece, -, rfl⟩ := List.mem_map.mp hmem
  exact Text.trim_trim piece

theorem tidyList_append {ns ms : List Node} (hn : Node.TidyList ns) (hm : Node.TidyList ms) :
    Node.TidyList (ns ++ ms) := by
  induction ns with
  | nil => exact hm
  | cons n ns ih => exact ⟨hn.1, ih hn.2⟩

theorem tidyList_toList {node : Option Node} (h : ∀ n, node = some n → n.Tidy) :
    Node.TidyList node.toList := by
  cases node with
  | none => trivial
  | some n => exact ⟨h n rfl, trivial⟩

/-- A statement has no children. -/
theorem tidy_of_statementNode? {chunks : List Chunk} {n : Node}
    (h : statementNode? chunks = some n) : n.Tidy := by
  rw [statementNode?] at h
  split at h
  · cases h
    trivial
  · rw [declarationNode?] at h
    split at h
    · cases h
    · dsimp only at h
      split at h
      · cases h
      · cases h
        trivial

theorem tidyList_lastNode (last : List Chunk) : Node.TidyList (lastNode last) := by
  rw [lastNode]
  split
  · trivial
  · exact tidyList_toList fun _ => tidy_of_statementNode?

theorem tidy_of_blockNode? {head : List Chunk} {children : List Node} {n : Node}
    (hc : Node.TidyList children) (h : blockNode? head children = some n) : n.Tidy := by
  rw [blockNode?] at h
  split at h
  · cases h
    exact ⟨fun s hs => absurd hs List.not_mem_nil, hc⟩
  · cases h
    exact hc
  · split at h
    · cases h
    · cases h
      exact ⟨fun s => tidySelector_of_mem_selectorList, hc⟩

mutual

theorem tidy_of_node? (item : Item) {n : Node} (h : item.node? = some n) : n.Tidy := by
  cases item with
  | empty => cases h
  | statement chunks => exact tidy_of_statementNode? h
  | block head body last =>
    exact tidy_of_blockNode? (tidyList_append (tidyList_nodes body) (tidyList_lastNode last)) h

theorem tidyList_nodes (items : List Item) : Node.TidyList (Item.nodes items) := by
  cases items with
  | nil => trivial
  | cons item items =>
    exact tidyList_append (tidyList_toList fun _ => tidy_of_node? item) (tidyList_nodes items)

end

/-- The selectors of a parsed sheet are trimmed and not empty. -/
theorem tidy_of_parseSheet {source : Text} {nodes : List Node}
    (h : parseSheet source = .ok nodes) : Node.TidyList nodes := by
  rw [parseSheet] at h
  rcases hr : Outline.read? source with e | o <;> rw [hr] at h <;> cases h
  exact tidyList_append (tidyList_nodes o.items) (tidyList_lastNode o.last)

/-! ### The main result -/

/-- Numbering gives each draft the number at its place. -/
theorem number_eq_mapIdx (start : Int) (ds : List Draft) :
    number start ds = ds.mapIdx fun i d => ⟨d, start + i⟩ := by
  induction ds generalizing start with
  | nil => rfl
  | cons d ds ih =>
    rw [number, ih, List.mapIdx_cons]
    simp [Int.add_assoc, Int.add_comm 1]

/-- **The tree scan**: for a sheet that parses, its overrides are what the
declarations stand for, in order, numbered from `start` without a gap.  None
of them has an empty selector, and a declaration outside of rule blocks
stands for none. -/
theorem treeScan_eq_reference (m : Marker) (source : Text) (start : Int) (nodes : List Node)
    (h : parseSheet source = .ok nodes) :
    (treeDrafts m source).map (number start)
        = .ok ((referenceDrafts m nodes).mapIdx fun i d => ⟨d, start + i⟩) ∧
      (∀ d ∈ referenceDrafts m nodes, d.selector ≠ []) ∧
      ∀ d ∈ Node.declaredOfList [] nodes, d.around = [] → d.drafts m = [] := by
  have ht := tidy_of_parseSheet h
  refine ⟨?_, fun d hd => ?_, fun d _ ha => ?_⟩
  · -- at the top the selectors handed down are the fold of no choice
    have hwalk : Node.draftsOfList m rootSelectors nodes = referenceDrafts m nodes :=
      draftsOfList_eq_flatMap_declared m [] tidyAround_nil nodes ht
    rw [treeDrafts, h]
    show Except.ok (number start (Node.draftsOfList m rootSelectors nodes)) = _
    rw [hwalk, number_eq_mapIdx]
  · obtain ⟨e, he, hd⟩ := List.mem_flatMap.mp hd
    have hte := tidy_of_mem_declaredOfList [] tidyAround_nil nodes ht e he
    exact selector_ne_nil_of_mem_drafts hte hd
  · rw [Declared.drafts, if_pos (.inl ha)]

/-- A sheet with two selectors around two, one of them with an ampersand, and a
flag. -/
theorem treeScan_eq_reference_example :
    parseSheet "a, b \x7b c, &d \x7b x: r.resp(2px, 1px, h1) !important \x7d \x7d"
        = .ok [.block "a, b" ["a", "b"] [.block "c, &d" ["c", "&d"]
            [.declaration "x" "r.resp(2px, 1px, h1)" true 1] (some 1)] (some 1)] ∧
      (treeDrafts ⟨"r", "resp"⟩
          "a, b \x7b c, &d \x7b x: r.resp(2px, 1px, h1) !important \x7d \x7d").map (number 5)
        = .ok [⟨⟨"a c", "x", "r.clamp_mb(1px, r.min_px(1px, h1, mobile)) !important"⟩, 5⟩,
          ⟨⟨"ad", "x", "r.clamp_mb(1px, r.min_px(1px, h1, mobile)) !important"⟩, 6⟩,
          ⟨⟨"b c", "x", "r.clamp_mb(1px, r.min_px(1px, h1, mobile)) !important"⟩, 7⟩,
          ⟨⟨"bd", "x", "r.clamp_mb(1px, r.min_px(1px, h1, mobile)) !important"⟩, 8⟩] :=
  ⟨by cbv, (treeScan_eq_reference _ _ 5 _ (by cbv)).1.trans (by cbv)⟩

end FluidScss
