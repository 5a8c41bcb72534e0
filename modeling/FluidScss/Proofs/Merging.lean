/-
FluidScss/Proofs/Merging.lean

What merging makes of overrides.  `mergeRules` sorts and then adds one override
after the other, at two levels: a selector has properties, and a property a
value.  The result is told by what was added, read in order of discovery
(`mergeRules_eq_reference`):

* the selectors, and under each selector its properties, stand where they first
  occur, and none of them is lost;
* the value of a property is that of the last override of it.

At either level one more entry is an `upsert`, so each of these facts is one
about what an `upsert` does to the keys and to what is found under a key, and an
induction on the overrides from the end.

Sorting comes in at the end.  A list in order in which equals stand as they were
given is the only one (`StablySorted.eq`), so it is what `mergeRules` adds up;
and where no two orders are equal there is one list in order for all permutations
of the overrides, so that they are merged to the same rules.
-/
import FluidScss.Override
import Mathlib.Data.List.Induction
import Mathlib.Data.List.Nodup

namespace FluidScss

/-! ### Keys and what is found under them -/

section Upsert

variable {κ α : Type} [BEq κ] [LawfulBEq κ]
variable {key k : κ} {new : α} {f : α → α} {entries : List (κ × α)}

theorem lookup_cons_eq [DecidableEq κ] (entry : κ × α) (entries : List (κ × α)) (k : κ) :
    (entry :: entries).lookup k = if k = entry.1 then some entry.2 else entries.lookup k := by
  rw [List.lookup_cons]
  by_cases h : k = entry.1
  · rw [beq_iff_eq.mpr h, if_pos h]
  · rw [beq_eq_false_iff_ne.mpr h, if_neg h]

/-- A key that was added last is new, or stands where it stood. -/
theorem eraseDups_concat (keys : List κ) (key : κ) :
    (keys ++ [key]).eraseDups
      = if key ∈ keys then keys.eraseDups else keys.eraseDups ++ [key] := by
  rw [List.eraseDups_append]
  by_cases h : key ∈ keys <;> simp [List.removeAll, h, List.eraseDups_cons]

/-- What is found under the key is the change of what was there; nothing else
is found otherwise than before. -/
theorem lookup_upsert [DecidableEq κ] :
    (upsert key new f entries).lookup k
      = if k = key then some (f ((entries.lookup key).getD new)) else entries.lookup k := by
  induction entries with
  | nil => rw [upsert, lookup_cons_eq]; rfl
  | cons e rest ih =>
    obtain ⟨l, a⟩ := e
    rw [upsert]
    by_cases hl : l = key
    · rw [if_pos hl, lookup_cons_eq, lookup_cons_eq, lookup_cons_eq, hl, if_pos rfl]
      by_cases h : k = key
      · rw [if_pos h, if_pos h]
        rfl
      · rw [if_neg h, if_neg h, if_neg h]
    · rw [if_neg hl, lookup_cons_eq, lookup_cons_eq, lookup_cons_eq, ih, if_neg (Ne.symm hl)]
      by_cases h : k = key
      · rw [if_pos h, if_pos h, if_neg fun he => hl (he.symm.trans h)]
      · rw [if_neg h, if_neg h]

end Upsert

/-! ### The properties of one selector -/

variable {overrides sorted other : List Override} {o : Override} {rules : Rules}
variable {selector property : Text}

/-- The properties of a selector with one more override of it. -/
def addProperty (properties : Properties) (o : Override) : Properties :=
  upsert o.property o.value (fun _ => o.value) properties

/-- Properties stand where they first occur. -/
theorem properties_foldl_addProperty (overrides : List Override) :
    (overrides.foldl addProperty []).map Prod.fst = (overrides.map (·.property)).eraseDups := by
  induction overrides using List.reverseRecOn with
  | nil => rfl
  | append_singleton overrides o ih =>
    rw [List.foldl_concat, addProperty, map_fst_upsert, ih, List.map_append, List.map_singleton,
      eraseDups_concat]
    simp only [List.mem_eraseDups]

/-- The last value of a property is its value. -/
theorem lookup_foldl_addProperty (overrides : List Override) (property : Text) :
    (overrides.foldl addProperty []).lookup property
      = (overrides.filter (·.property = property)).getLast?.map (·.value) := by
  induction overrides using List.reverseRecOn with
  | nil => rfl
  | append_singleton overrides o ih =>
    rw [List.foldl_concat, addProperty, lookup_upsert, ih, List.filter_append]
    by_cases h : property = o.property
    · simp [h]
    · have h' : ¬ o.property = property := fun he => h he.symm
      simp [h, h']

/-! ### The selectors of rules -/

/-- The properties of a selector, none if it has no rule. -/
def Rules.under (rules : Rules) (selector : Text) : Properties :=
  (rules.lookup selector).getD []

/-- One more override adds a property under its own selector only. -/
theorem under_addOverride :
    (addOverride rules o).under selector
      = if selector = o.selector then addProperty (rules.under selector) o
        else rules.under selector := by
  rw [Rules.under, addOverride, lookup_upsert]
  by_cases h : selector = o.selector
  · rw [if_pos h, if_pos h, h]
    rfl
  · rw [if_neg h, if_neg h]
    rfl

/-- Selectors stand where they first occur. -/
theorem selectors_foldl_addOverride (overrides : List Override) :
    (overrides.foldl addOverride []).map Prod.fst = (overrides.map (·.selector)).eraseDups := by
  induction overrides using List.reverseRecOn with
  | nil => rfl
  | append_singleton overrides o ih =>
    rw [List.foldl_concat, addOverride, map_fst_upsert, ih, List.map_append, List.map_singleton,
      eraseDups_concat]
    simp only [List.mem_eraseDups]

/-- Under a selector stand the properties of its own overrides. -/
theorem under_foldl_addOverride (overrides : List Override) (selector : Text) :
    Rules.under (overrides.foldl addOverride []) selector
      = (overrides.filter (·.selector = selector)).foldl addProperty [] := by
  induction overrides using List.reverseRecOn with
  | nil => rfl
  | append_singleton overrides o ih =>
    rw [List.foldl_concat, under_addOverride, ih, List.filter_append]
    by_cases h : selector = o.selector
    · simp [h]
    · have h' : ¬ o.selector = selector := fun he => h he.symm
      simp [h, h']

/-- The value of the last override of a property of a selector, if there is one. -/
def lastValue? (overrides : List Override) (selector property : Text) : Option Text :=
  (overrides.filter fun o => o.selector = selector ∧ o.property = property).getLast?.map (·.value)

/-- The last value of a property of a selector is its value. -/
theorem value_foldl_addOverride (overrides : List Override) (selector property : Text) :
    (Rules.under (overrides.foldl addOverride []) selector).lookup property
      = lastValue? overrides selector property := by
  rw [under_foldl_addOverride, lookup_foldl_addProperty, lastValue?, List.filter_filter]
  simp only [Bool.decide_and, Bool.and_comm]

/-! ### Order -/

/-- A list holds the overrides in order of discovery, equals as they were
given. -/
structure StablySorted (overrides sorted : List Override) : Prop where
  perm : sorted.Perm overrides
  ordered : sorted.Pairwise (·.order ≤ ·.order)
  stable : ∀ order, sorted.filter (·.order = order) = overrides.filter (·.order = order)

/-- It is enough to look at the orders that occur. -/
theorem stablySorted_iff : StablySorted overrides sorted ↔
    sorted.Perm overrides ∧ sorted.Pairwise (·.order ≤ ·.order) ∧
      ∀ o ∈ overrides, sorted.filter (·.order = o.order) = overrides.filter (·.order = o.order) := by
  refine ⟨fun h => ⟨h.perm, h.ordered, fun o _ => h.stable o.order⟩, fun ⟨hp, ho, h⟩ =>
    ⟨hp, ho, fun order => ?_⟩⟩
  by_cases hm : ∃ o ∈ overrides, o.order = order
  · obtain ⟨o, hmem, rfl⟩ := hm
    exact h o hmem
  · have hnone : ∀ o ∈ overrides, ¬ decide (o.order = order) = true := fun o hmem hd =>
      hm ⟨o, hmem, of_decide_eq_true hd⟩
    rw [List.filter_eq_nil_iff.mpr hnone,
      List.filter_eq_nil_iff.mpr fun o hmem => hnone o (hp.mem_iff.mp hmem)]

instance (overrides sorted : List Override) : Decidable (StablySorted overrides sorted) :=
  decidable_of_iff _ stablySorted_iff.symm

/-- The order of `mergeRules`. -/
def inOrder (overrides : List Override) : List Override :=
  overrides.mergeSort fun a b => a.order ≤ b.order

theorem mergeRules_eq (overrides : List Override) :
    mergeRules overrides = (inOrder overrides).foldl addOverride [] := rfl

theorem pairwise_inOrder (overrides : List Override) :
    (inOrder overrides).Pairwise (·.order ≤ ·.order) := by
  have h := @List.pairwise_mergeSort _ (fun a b : Override => decide (a.order ≤ b.order))
    (by simpa using fun a b c => Int.le_trans) (by simpa using fun a b => Int.le_total _ _) overrides
  simpa [inOrder] using h

theorem stablySorted_inOrder (overrides : List Override) :
    StablySorted overrides (inOrder overrides) where
  perm := List.mergeSort_perm _ _
  ordered := pairwise_inOrder overrides
  stable order := by
    -- equals are a part of the list that is in order already, and sorting keeps such parts
    have hkept : (overrides.filter (·.order = order)).Sublist (inOrder overrides) := by
      refine List.sublist_mergeSort (by simpa using fun a b c => Int.le_trans)
        (by simpa using fun a b => Int.le_total _ _) ?_ List.filter_sublist
      refine List.pairwise_iff_forall_sublist.mpr fun {a b} h => ?_
      have ha := (List.mem_filter.mp (h.subset (List.mem_cons_self ..))).2
      have hb := (List.mem_filter.mp (h.subset (List.mem_cons_of_mem _ (List.mem_cons_self ..)))).2
      simp only [decide_eq_true_eq] at ha hb ⊢
      omega
    have hfilter := hkept.filter (·.order = order)
    rw [List.filter_filter] at hfilter
    simp only [Bool.and_self] at hfilter
    exact (hfilter.eq_of_length ((List.mergeSort_perm overrides _).filter _).length_eq.symm).symm

/-- Lists in order with the same equals are equal. -/
theorem eq_of_ordered (hsorted : sorted.Pairwise (·.order ≤ ·.order))
    (hother : other.Pairwise (·.order ≤ ·.order))
    (h : ∀ order, sorted.filter (·.order = order) = other.filter (·.order = order)) :
    sorted = other := by
  induction sorted generalizing other with
  | nil =>
    rcases other with - | ⟨b, other⟩
    · rfl
    · have hb := h b.order
      simp at hb
  | cons a sorted ih =>
    rw [List.pairwise_cons] at hsorted
    -- the first is the least of its list, so it is the first of the other too
    have ha : a ∈ other := by
      have hm : a ∈ (a :: sorted).filter (·.order = a.order) := by simp
      rw [h] at hm
      exact List.mem_of_mem_filter hm
    rcases other with - | ⟨b, other⟩
    · cases ha
    · rw [List.pairwise_cons] at hother
      have hb : b ∈ a :: sorted := by
        have hm : b ∈ (b :: other).filter (·.order = b.order) := by simp
        rw [← h] at hm
        exact List.mem_of_mem_filter hm
      have hle : a.order ≤ b.order := by
        rcases List.mem_cons.mp hb with rfl | hb
        · exact Int.le_refl _
        · exact hsorted.1 b hb
      have hge : b.order ≤ a.order := by
        rcases List.mem_cons.mp ha with rfl | ha
        · exact Int.le_refl _
        · exact hother.1 a ha
      have horder : b.order = a.order := Int.le_antisymm hge hle
      have hfirst := h a.order
      rw [List.filter_cons_of_pos (by simp), List.filter_cons_of_pos (by simpa using horder)]
        at hfirst
      obtain ⟨rfl, -⟩ := List.cons.inj hfirst
      refine congrArg (a :: ·) (ih hsorted.2 hother.2 fun order => ?_)
      have hrest := h order
      by_cases hk : a.order = order
      · rw [List.filter_cons_of_pos (by simpa using hk), List.filter_cons_of_pos (by simpa using hk)]
          at hrest
        exact (List.cons.inj hrest).2
      · rwa [List.filter_cons_of_neg (by simpa using hk), List.filter_cons_of_neg (by simpa using hk)]
          at hrest

/-- There is one list in order in which equals stand as they were given. -/
theorem StablySorted.eq (h : StablySorted overrides sorted) : sorted = inOrder overrides :=
  eq_of_ordered h.ordered (pairwise_inOrder overrides) fun order =>
    (h.stable order).trans ((stablySorted_inOrder overrides).stable order).symm

/-- Where no two orders are equal, all permutations have one list in order. -/
theorem inOrder_of_perm (hnodup : (overrides.map (·.order)).Nodup) (h : other.Perm overrides) :
    inOrder other = inOrder overrides := by
  have hperm : (inOrder other).Perm (inOrder overrides) :=
    (stablySorted_inOrder other).perm.trans (h.trans (stablySorted_inOrder overrides).perm.symm)
  refine hperm.eq_of_pairwise ?_ (pairwise_inOrder other) (pairwise_inOrder overrides)
  intro a b ha hb hab hba
  have ha' : a ∈ overrides := (stablySorted_inOrder overrides).perm.mem_iff.mp (hperm.mem_iff.mp ha)
  have hb' : b ∈ overrides := (stablySorted_inOrder overrides).perm.mem_iff.mp hb
  exact List.inj_on_of_nodup_map hnodup ha' hb' (Int.le_antisymm hab hba)

/-! ### Merging -/

/-- **What is merged**: of the overrides in order of discovery, equals as they
were given, the selectors stand where they first occur, the properties of a
selector where they first occur among its own, and the value of a property is
that of the last override of it; and if no two orders are equal, it does not
matter how the overrides were given. -/
theorem mergeRules_eq_reference (h : StablySorted overrides sorted) :
    (mergeRules overrides).map Prod.fst = (sorted.map (·.selector)).eraseDups ∧
      (∀ selector, ((mergeRules overrides).under selector).map Prod.fst
        = ((sorted.filter (·.selector = selector)).map (·.property)).eraseDups) ∧
      (∀ selector property, ((mergeRules overrides).under selector).lookup property
        = lastValue? sorted selector property) ∧
      ((overrides.map (·.order)).Nodup →
        ∀ other : List Override, other.Perm overrides → mergeRules other = mergeRules overrides) := by
  rw [h.eq, mergeRules_eq]
  refine ⟨selectors_foldl_addOverride _, fun selector => ?_, value_foldl_addOverride _,
    fun hnodup other hother => ?_⟩
  · rw [under_foldl_addOverride, properties_foldl_addProperty]
  · rw [mergeRules_eq, inOrder_of_perm hnodup hother]

/-- A late value that was given first wins, in the place where an early one
stands, and so it does however the three are given. -/
theorem mergeRules_eq_reference_late :
    StablySorted
        [⟨⟨".a", "width", "late"⟩, 5⟩, ⟨⟨".b", "color", "red"⟩, 1⟩, ⟨⟨".a", "width", "early"⟩, 0⟩]
        [⟨⟨".a", "width", "early"⟩, 0⟩, ⟨⟨".b", "color", "red"⟩, 1⟩, ⟨⟨".a", "width", "late"⟩, 5⟩] ∧
      ∃ rules, (∀ other : List Override, other.Perm [⟨⟨".a", "width", "late"⟩, 5⟩,
          ⟨⟨".b", "color", "red"⟩, 1⟩, ⟨⟨".a", "width", "early"⟩, 0⟩] → mergeRules other = rules) ∧
        rules.map Prod.fst = ([".a", ".b"] : List Text) ∧
        (rules.under ".a").map Prod.fst = (["width"] : List Text) ∧
        (rules.under ".a").lookup ("width" : Text) = some ("late" : Text) := by
  have h : StablySorted
      [⟨⟨".a", "width", "late"⟩, 5⟩, ⟨⟨".b", "color", "red"⟩, 1⟩, ⟨⟨".a", "width", "early"⟩, 0⟩]
      [⟨⟨".a", "width", "early"⟩, 0⟩, ⟨⟨".b", "color", "red"⟩, 1⟩, ⟨⟨".a", "width", "late"⟩, 5⟩] := by
    decide
  obtain ⟨hselectors, hproperties, hvalues, hperm⟩ := mergeRules_eq_reference h
  refine ⟨h, _, hperm (by decide), hselectors.trans ?_, (hproperties _).trans ?_,
    (hvalues _ _).trans ?_⟩ <;> decide

end FluidScss
