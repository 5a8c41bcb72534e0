/-
FluidScss/Proofs/Discovery.lean

What discovery finds, and in which order.  Discovery reads the sources below a
directory off the list of all entries and sorts them once.  Here it is shown to
be a walk: `FileTree.sources` takes the entries of a directory by name, goes
into a directory where it comes to one, unless that is passed over, and keeps
the files with the ending of sources.

Both lists are sorted without equals, so it is enough that they have the same
members (`sources_eq_sort`).  For the walk that takes a tree: each place stands
in the list once, and around each there is a directory (`FileTree.IsTree`).
Files written and directories made keep it a tree.

The order of names is that of lists of characters in the library, and the order
of places is that of lists of names (`Text.le_iff`, `Place.le_iff`).
-/
import FluidScss.Proofs.Gather
import Mathlib

namespace FluidScss

open FluidScss.Action

variable {w w' : Workspace} {dir p : Path} {place parts : Place} {name : Text} {e : Entry}

/-! ### Orders -/

theorem Text.le_iff {s t : Text} : Text.le s t = true ↔ s ≤ t := by
  induction s generalizing t with
  | nil => exact ⟨fun _ => not_lt.mp (List.not_lt_nil t), fun _ => by rw [Text.le]⟩
  | cons c s ih =>
    rcases t with - | ⟨d, t⟩
    · exact ⟨nofun, fun h => absurd (List.nil_lt_cons c s) (not_lt.mpr h)⟩
    · have hc : c.val < d.val ↔ c < d := Iff.rfl
      rw [Text.le, Bool.or_eq_true, Bool.and_eq_true, decide_eq_true_iff, decide_eq_true_iff, ih, hc,
        le_iff_lt_or_eq, le_iff_lt_or_eq, List.cons_lt_cons_iff, List.cons.injEq]
      tauto

theorem Place.le_iff {p q : Place} : Place.le p q = true ↔ p ≤ q := by
  induction p generalizing q with
  | nil => exact ⟨fun _ => not_lt.mp (List.not_lt_nil q), fun _ => by rw [Place.le]⟩
  | cons part p ih =>
    rcases q with - | ⟨part', q⟩
    · exact ⟨nofun, fun h => absurd (List.nil_lt_cons part p) (not_lt.mpr h)⟩
    · rw [Place.le, le_iff_lt_or_eq, List.cons_lt_cons_iff, List.cons.injEq]
      by_cases h : part = part'
      · simp [h, ih, le_iff_lt_or_eq]
      · simp [h, Text.le_iff, le_iff_lt_or_eq]

/-- Sorting what has no equals gives a list that goes up. -/
theorem sortedLT_mergeSort {α : Type} [LinearOrder α] {le : α → α → Bool}
    (hle : ∀ a b, le a b = true ↔ a ≤ b) {l : List α} (h : l.Nodup) :
    (l.mergeSort le).SortedLT := by
  have hsorted : (l.mergeSort le).Pairwise fun a b => le a b = true := List.pairwise_mergeSort
    (fun a b c hab hbc => (hle a c).mpr (((hle a b).mp hab).trans ((hle b c).mp hbc)))
    (fun a b => by simpa only [Bool.or_eq_true, hle] using le_total a b) l
  refine List.SortedLE.sortedLT_of_nodup ?_ ((List.mergeSort_perm l le).nodup_iff.mpr h)
  exact (hsorted.imp (hle _ _).mp).sortedLE

/-! ### Trees -/

namespace FileTree

variable {t t' : FileTree}

/-- The entries are those of a tree: each place stands there once, and the
place around it is a directory. -/
structure IsTree (t : FileTree) : Prop where
  once : (t.entries.map Prod.fst).Nodup
  around : ∀ place ∈ t.entries.map Prod.fst, t.find? place.dropLast = some .directory

instance (t : FileTree) : Decidable t.IsTree :=
  decidable_of_iff ((t.entries.map Prod.fst).Nodup ∧
    ∀ place ∈ t.entries.map Prod.fst, t.find? place.dropLast = some .directory)
    ⟨fun h => ⟨h.1, h.2⟩, fun h => ⟨h.once, h.around⟩⟩

theorem lookup_eq_some_iff_mem {entries : List (Place × Entry)} (h : (entries.map Prod.fst).Nodup) :
    entries.lookup place = some e ↔ (place, e) ∈ entries := by
  rw [List.lookup_eq_some_iff]
  constructor
  · rintro ⟨before, after, rfl, -⟩
    exact List.mem_append_right _ (List.mem_cons_self ..)
  · intro hm
    obtain ⟨before, after, rfl⟩ := List.append_of_mem hm
    refine ⟨before, after, rfl, fun found hfound => ?_⟩
    rw [List.map_append, List.map_cons, List.nodup_append] at h
    have hne := h.2.2 found.1 (List.mem_map_of_mem hfound) place (List.mem_cons_self ..)
    simpa using Ne.symm hne

theorem IsTree.find?_eq_some_iff (h : t.IsTree) (hne : place ≠ []) :
    t.find? place = some e ↔ (place, e) ∈ t.entries := by
  rw [find?, if_neg hne]
  exact lookup_eq_some_iff_mem h.once

/-- Around what stands somewhere is a directory. -/
theorem IsTree.directory_dropLast (h : t.IsTree) (hs : t.find? place = some e) :
    t.find? place.dropLast = some .directory := by
  by_cases hne : place = []
  · rw [hne]
    rfl
  · have hm := (h.find?_eq_some_iff hne).mp hs
    exact h.around place (List.mem_map_of_mem (f := Prod.fst) hm)

/-- What stands somewhere has directories all the way. -/
theorem IsTree.directory_of_append (h : t.IsTree) {rest : Place} (hne : rest ≠ [])
    (hs : t.find? (place ++ rest) = some e) : t.find? place = some .directory := by
  induction rest generalizing place with
  | nil => exact absurd rfl hne
  | cons name rest ih =>
    have hnext : ∃ d, t.find? (place ++ [name]) = some d := by
      rcases rest with - | ⟨next, rest⟩
      · exact ⟨e, hs⟩
      · exact ⟨_, ih (List.cons_ne_nil _ _) (by rwa [List.append_assoc])⟩
    obtain ⟨d, hd⟩ := hnext
    have haround := h.directory_dropLast hd
    rwa [List.dropLast_concat] at haround

/-- A place where something is written or made has a directory around it. -/
theorem IsTree.directory_of_slot (h : t.IsTree) (hs : t.slot p = .ok place)
    (hd : t.find? place ≠ some .directory) : t.find? place.dropLast = some .directory := by
  rw [slot] at hs
  split at hs
  · cases hs
    exact absurd rfl hd
  · split at hs
    · cases hs
    · split at hs
      · rename_i part _ _ here _ _ hhere
        cases hs
        by_cases hpart : part = ['.', '.']
        · -- a double dot leads up to a directory
          rw [if_pos hpart] at hd
          exact absurd (h.directory_dropLast hhere) hd
        · rwa [if_neg hpart, List.dropLast_concat]
      · cases hs
      · cases hs

theorem map_fst_setEntry (entries : List (Place × Entry)) (place : Place) (e : Entry) :
    (setEntry entries place e).map Prod.fst = if place ∈ entries.map Prod.fst
      then entries.map Prod.fst else entries.map Prod.fst ++ [place] := by
  induction entries with
  | nil => rfl
  | cons found rest ih =>
    obtain ⟨q, d⟩ := found
    rw [setEntry]
    by_cases hq : q = place
    · simp [hq]
    · simp only [hq, if_false, List.map_cons, ih, List.mem_cons, Ne.symm hq, false_or]
      split <;> rfl

/-- A tree with an entry set in a directory, and no directory made a file, is a
tree. -/
theorem IsTree.set (h : t.IsTree) (hin : t.find? place.dropLast = some .directory)
    (hd : t.find? place ≠ some .directory) (e : Entry) : (t.set place e).IsTree := by
  have hkept : ∀ q, t.find? q = some .directory → (t.set place e).find? q = some .directory := by
    intro q hq
    rw [find?_set t (ne_nil_of_find? hd), if_neg (by rintro rfl; exact hd hq), hq]
  have hkeys := map_fst_setEntry t.entries place e
  constructor
  · show ((setEntry t.entries place e).map Prod.fst).Nodup
    rw [hkeys]
    split
    · exact h.once
    · rename_i hnew
      refine List.nodup_append.mpr ⟨h.once, List.nodup_singleton place, fun q hq q' hq' heq => ?_⟩
      rw [heq, List.mem_singleton.mp hq'] at hq
      exact hnew hq
  · show ∀ q ∈ (setEntry t.entries place e).map Prod.fst, _
    intro q hq
    apply hkept
    rw [hkeys] at hq
    split at hq
    · exact h.around q hq
    · rcases List.mem_append.mp hq with hq | hq
      · exact h.around q hq
      · rwa [List.mem_singleton.mp hq]

/-- **Trees stay trees** when a file is written. -/
theorem IsTree.of_writeBytes (h : t.IsTree) {bytes : ByteArray}
    (hw : t.writeBytes p bytes = .ok t') : t'.IsTree := by
  obtain ⟨place, hs, hd, rfl⟩ := eq_of_writeBytes hw
  exact h.set (h.directory_of_slot hs hd) hd _

/-- **Trees stay trees** when a directory is made. -/
theorem IsTree.of_makeDirectory (h : t.IsTree) (hm : t.makeDirectory p = .ok t') : t'.IsTree := by
  obtain ⟨place, hs, hnone, rfl⟩ := eq_of_makeDirectory hm
  have hd : t.find? place ≠ some .directory := by rw [hnone]; exact nofun
  exact h.set (h.directory_of_slot hs hd) hd _

/-! ### Listing a directory -/

theorem mem_below : (parts, e) ∈ t.below place ↔ parts ≠ [] ∧ (place ++ parts, e) ∈ t.entries := by
  rw [below, List.mem_filterMap]
  constructor
  · rintro ⟨⟨q, e'⟩, hm, hq⟩
    dsimp only at hq
    split at hq
    · rename_i part rest hdrop
      cases hq
      exact ⟨List.cons_ne_nil _ _, eq_of_dropParts? hdrop ▸ hm⟩
    · cases hq
  · rintro ⟨hne, hm⟩
    obtain ⟨part, rest, rfl⟩ := List.exists_cons_of_ne_nil hne
    exact ⟨_, hm, by simp only [dropParts?_append]⟩

theorem IsTree.nodup_below (h : t.IsTree) (place : Place) :
    ((t.below place).map Prod.fst).Nodup := by
  have hpairs : (t.below place).Pairwise fun found found' => found.1 ≠ found'.1 := by
    refine List.Pairwise.filterMap _ (fun found found' hne => ?_) (List.pairwise_map.mp h.once)
    obtain ⟨q, e⟩ := found
    obtain ⟨q', e'⟩ := found'
    intro b hb b' hb' heq
    dsimp only at hb hb'
    split at hb
    · rename_i hdrop
      split at hb'
      · rename_i hdrop'
        cases hb
        cases hb'
        apply hne
        show q = q'
        rw [eq_of_dropParts? hdrop, eq_of_dropParts? hdrop']
        exact congrArg (place ++ ·) heq
      · cases hb'
    · cases hb
  exact List.pairwise_map.mpr hpairs

/-- The name that a place is from the directory around it. -/
def onlyName? : Place → Option Text
  | [name] => some name
  | _ => none

theorem onlyName?_eq_some_iff : onlyName? place = some name ↔ place = [name] := by
  rcases place with - | ⟨first, - | ⟨second, rest⟩⟩ <;> simp [onlyName?]

/-- The names of what stands in a directory, in order. -/
def names (t : FileTree) (place : Place) : List Text :=
  (((t.below place).map Prod.fst).filterMap onlyName?).mergeSort Text.le

theorem mem_names : name ∈ t.names place ↔ place ++ [name] ∈ t.entries.map Prod.fst := by
  simp only [names, List.mem_mergeSort, List.mem_filterMap, List.mem_map, onlyName?_eq_some_iff]
  constructor
  · rintro ⟨_, ⟨⟨parts, e⟩, hm, rfl⟩, rfl⟩
    exact ⟨_, (mem_below.mp hm).2, rfl⟩
  · rintro ⟨⟨q, e⟩, hm, rfl⟩
    exact ⟨_, ⟨([name], e), mem_below.mpr ⟨List.cons_ne_nil _ _, hm⟩, rfl⟩, rfl⟩

theorem IsTree.mem_names_iff (h : t.IsTree) :
    name ∈ t.names place ↔ ∃ e, t.find? (place ++ [name]) = some e := by
  rw [mem_names, List.mem_map]
  constructor
  · rintro ⟨⟨q, e⟩, hm, rfl⟩
    exact ⟨e, (h.find?_eq_some_iff (by simp)).mpr hm⟩
  · rintro ⟨e, he⟩
    exact ⟨_, (h.find?_eq_some_iff (by simp)).mp he, rfl⟩

theorem IsTree.sortedLT_names (h : t.IsTree) (place : Place) : (t.names place).SortedLT := by
  refine sortedLT_mergeSort (fun _ _ => Text.le_iff) ?_
  refine List.Pairwise.filterMap _ (fun parts parts' hne => ?_) (h.nodup_below place)
  intro name hname name' hname' heq
  rw [onlyName?_eq_some_iff] at hname hname'
  exact hne (by rw [hname, hname', heq])

/-! ### The walk -/

/-- The length of the longest place. -/
def depth (t : FileTree) : Nat := (t.entries.map fun found => found.1.length).foldr max 0

theorem length_le_depth (h : place ∈ t.entries.map Prod.fst) : place.length ≤ t.depth := by
  obtain ⟨found, hm, rfl⟩ := List.mem_map.mp h
  rw [depth]
  generalize t.entries = entries at hm
  induction entries with
  | nil => cases hm
  | cons first rest ih =>
    rw [List.map_cons, List.foldr_cons]
    rcases List.mem_cons.mp hm with rfl | hm
    · exact le_max_left _ _
    · exact le_trans (ih hm) (le_max_right _ _)

/-- The sources that a walk comes to by one name in a directory: those inside
if it is a directory that is not passed over, and itself if it is a file with
the ending of sources. -/
def sourcesAt (t : FileTree) (place : Place) (name : Text) (inside : List Place) : List Place :=
  match t.find? (place ++ [name]) with
  | some .directory => if name ∈ skippedDirs then [] else inside.map (name :: ·)
  | some (.file _) => if sheetEnding.isSuffixOf name then [[name]] else []
  | none => []

/-- The sources below a directory, seen from there, as a walk comes to them
that takes what stands in a directory by name. -/
def sources (t : FileTree) (place : Place) : List Place :=
  (t.names place).attach.flatMap fun ⟨name, _⟩ =>
    t.sourcesAt place name (t.sources (place ++ [name]))
termination_by t.depth - place.length
decreasing_by
  have hlength := length_le_depth (mem_names.mp ‹_›)
  rw [List.length_append, List.length_singleton] at hlength ⊢
  omega

theorem sources_eq (t : FileTree) (place : Place) : t.sources place =
    (t.names place).flatMap fun name => t.sourcesAt place name (t.sources (place ++ [name])) := by
  conv_rhs => rw [← List.attach_map_subtype_val (t.names place), List.flatMap_map]
  rw [sources]

/-- A source as it is seen from a directory: a file below it with the ending of
sources, in no directory that is passed over. -/
structure IsSourceAt (t : FileTree) (place parts : Place) : Prop where
  file : ∃ bytes, t.find? (place ++ parts) = some (.file bytes)
  named : ∃ name, parts.getLast? = some name ∧ IsSourceName name
  passed : ∀ name ∈ parts.dropLast, name ∉ skippedDirs

theorem mem_sourcesAt {inside : List Place} : parts ∈ t.sourcesAt place name inside ↔
    (t.find? (place ++ [name]) = some .directory ∧ name ∉ skippedDirs ∧
      ∃ rest ∈ inside, name :: rest = parts) ∨
    ((∃ bytes, t.find? (place ++ [name]) = some (.file bytes)) ∧ IsSourceName name ∧
      parts = [name]) := by
  rw [sourcesAt]
  rcases t.find? (place ++ [name]) with - | - | bytes
  · simp
  · by_cases hskip : name ∈ skippedDirs <;> simp [hskip]
  · by_cases hname : sheetEnding.isSuffixOf name = true <;> simp [hname, IsSourceName]

/-- A source is in a directory that is not passed over, where it is one, or it
stands here itself. -/
theorem IsTree.isSourceAt_cons_iff (h : t.IsTree) {rest : Place} :
    t.IsSourceAt place (name :: rest) ↔
      (t.find? (place ++ [name]) = some .directory ∧ name ∉ skippedDirs ∧
        t.IsSourceAt (place ++ [name]) rest) ∨
      ((∃ bytes, t.find? (place ++ [name]) = some (.file bytes)) ∧ IsSourceName name ∧
        rest = []) := by
  have hassoc : place ++ [name] ++ rest = place ++ name :: rest := by simp
  constructor
  · rintro ⟨⟨bytes, hfile⟩, ⟨last, hlast, hname⟩, hpassed⟩
    rcases rest with - | ⟨next, rest⟩
    · obtain rfl : name = last := Option.some.inj hlast
      exact .inr ⟨⟨bytes, hfile⟩, hname, rfl⟩
    · rw [← hassoc] at hfile
      have hdir := h.directory_of_append (List.cons_ne_nil _ _) hfile
      rw [List.dropLast_cons_of_ne_nil (List.cons_ne_nil _ _), List.forall_mem_cons] at hpassed
      exact .inl ⟨hdir, hpassed.1, ⟨bytes, hfile⟩, ⟨last, by rwa [List.getLast?_cons_cons] at hlast,
        hname⟩, hpassed.2⟩
  · rintro (⟨-, hskip, ⟨bytes, hfile⟩, ⟨last, hlast, hname⟩, hpassed⟩ | ⟨hfile, hname, rfl⟩)
    · obtain ⟨next, rest, rfl⟩ : ∃ next more, rest = next :: more :=
        List.exists_cons_of_ne_nil (by rintro rfl; cases hlast)
      refine ⟨⟨bytes, hassoc ▸ hfile⟩, ⟨last, by rwa [List.getLast?_cons_cons], hname⟩, ?_⟩
      rw [List.dropLast_cons_of_ne_nil (List.cons_ne_nil _ _), List.forall_mem_cons]
      exact ⟨hskip, hpassed⟩
    · exact ⟨hfile, ⟨name, rfl, hname⟩, nofun⟩

/-- **What the walk finds** are the sources, all of them and nothing else. -/
theorem IsTree.mem_sources (h : t.IsTree) : parts ∈ t.sources place ↔ t.IsSourceAt place parts := by
  induction parts generalizing place with
  | nil =>
    rw [sources_eq, List.mem_flatMap]
    constructor
    · rintro ⟨name, -, hm⟩
      rcases mem_sourcesAt.mp hm with ⟨-, -, rest, -, hrest⟩ | ⟨-, -, hnil⟩
      · cases hrest
      · cases hnil
    · rintro ⟨-, ⟨name, hname, -⟩, -⟩
      cases hname
  | cons name rest ih =>
    rw [sources_eq, List.mem_flatMap, h.isSourceAt_cons_iff]
    constructor
    · rintro ⟨name', -, hm⟩
      rcases mem_sourcesAt.mp hm with ⟨hdir, hskip, rest', hin, hrest⟩ | ⟨hfile, hname, hnil⟩
      · cases hrest
        exact .inl ⟨hdir, hskip, ih.mp hin⟩
      · cases hnil
        exact .inr ⟨hfile, hname, rfl⟩
    · rintro (⟨hdir, hskip, hin⟩ | ⟨⟨bytes, hfile⟩, hname, rfl⟩)
      · exact ⟨name, h.mem_names_iff.mpr ⟨_, hdir⟩,
          mem_sourcesAt.mpr (.inl ⟨hdir, hskip, rest, ih.mpr hin, rfl⟩)⟩
      · exact ⟨name, h.mem_names_iff.mpr ⟨_, hfile⟩,
          mem_sourcesAt.mpr (.inr ⟨⟨bytes, hfile⟩, hname, rfl⟩)⟩

/-- What the walk comes to by a name begins with that name. -/
theorem exists_of_mem_sourcesAt {inside : List Place} (h : parts ∈ t.sourcesAt place name inside) :
    ∃ rest, parts = name :: rest := by
  rcases mem_sourcesAt.mp h with ⟨-, -, rest, -, rfl⟩ | ⟨-, -, rfl⟩
  · exact ⟨rest, rfl⟩
  · exact ⟨[], rfl⟩

/-- **The walk goes up**: what it finds comes in the order of places. -/
theorem IsTree.sortedLT_sources (h : t.IsTree) (place : Place) : (t.sources place).SortedLT := by
  induction place using sources.induct t with
  | case1 place ih =>
    rw [sources_eq, List.sortedLT_iff_pairwise, List.pairwise_flatMap]
    constructor
    · intro name hname
      have hinside := (ih name hname).pairwise
      rw [sourcesAt]
      split
      · split
        · exact List.Pairwise.nil
        · exact List.pairwise_map.mpr
            (hinside.imp fun hlt => List.cons_lt_cons_iff.mpr (.inr ⟨rfl, hlt⟩))
      · split
        · exact List.pairwise_singleton _ _
        · exact List.Pairwise.nil
      · exact List.Pairwise.nil
    · refine (h.sortedLT_names place).pairwise.imp fun hlt parts hparts parts' hparts' => ?_
      obtain ⟨rest, rfl⟩ := exists_of_mem_sourcesAt hparts
      obtain ⟨rest', rfl⟩ := exists_of_mem_sourcesAt hparts'
      exact List.cons_lt_cons_iff.mpr (.inl hlt)

/-- Sorting the sources among all entries finds what the walk finds, as it
finds it. -/
theorem IsTree.sources_eq_sort (h : t.IsTree) (place : Place) :
    (((t.below place).filter isSourceEntry).map Prod.fst).mergeSort Place.le = t.sources place := by
  refine List.SortedLT.eq_of_mem_iff ?_ (h.sortedLT_sources place) fun parts => ?_
  · refine sortedLT_mergeSort (fun _ _ => Place.le_iff) ?_
    exact (h.nodup_below place).sublist (List.filter_sublist.map _)
  · rw [h.mem_sources, List.mem_mergeSort, List.mem_map]
    constructor
    · rintro ⟨⟨_, e⟩, hm, rfl⟩
      obtain ⟨hbelow, hsource⟩ := List.mem_filter.mp hm
      obtain ⟨hne, hentry⟩ := mem_below.mp hbelow
      have hfind := (h.find?_eq_some_iff (List.append_ne_nil_of_right_ne_nil _ hne)).mpr hentry
      rcases e with - | bytes
      · cases hsource
      · rw [isSourceEntry, Bool.and_eq_true, Option.any_eq_true, List.all_eq_true] at hsource
        exact ⟨⟨bytes, hfind⟩, hsource.1, fun name hname => of_decide_eq_true (hsource.2 name hname)⟩
    · rintro ⟨⟨bytes, hfind⟩, ⟨name, hlast, hname⟩, hpassed⟩
      have hne : parts ≠ [] := by
        rintro rfl
        cases hlast
      have hentry :=
        (h.find?_eq_some_iff (List.append_ne_nil_of_right_ne_nil _ hne)).mp hfind
      refine ⟨(parts, .file bytes), List.mem_filter.mpr ⟨mem_below.mpr ⟨hne, hentry⟩, ?_⟩, rfl⟩
      rw [isSourceEntry, Bool.and_eq_true, Option.any_eq_true, List.all_eq_true]
      exact ⟨⟨name, hlast, hname⟩, fun name hname => decide_eq_true (hpassed name hname)⟩

/-- Trees are told apart by what stands where, not by the order of their
entries. -/
theorem IsTree.find?_eq_of_perm (h : t.IsTree) (hp : t'.entries.Perm t.entries) :
    t'.IsTree ∧ ∀ place, t'.find? place = t.find? place := by
  have hkeys : (t'.entries.map Prod.fst).Perm (t.entries.map Prod.fst) := hp.map _
  have honce := hkeys.nodup_iff.mpr h.once
  have hfind : ∀ place, t'.find? place = t.find? place := by
    intro place
    by_cases hnil : place = []
    · rw [find?, find?, if_pos hnil, if_pos hnil]
    · rw [find?, find?, if_neg hnil, if_neg hnil]
      refine Option.ext fun e => ?_
      rw [lookup_eq_some_iff_mem honce, lookup_eq_some_iff_mem h.once, hp.mem_iff]
  exact ⟨⟨honce, fun place hm => (hfind _).trans (h.around place (hkeys.mem_iff.mp hm))⟩, hfind⟩

end FileTree

/-! ### Discovery -/

/-- The path that leads from a directory down to a place below it. -/
def Path.under (dir : Path) (parts : Place) : Path := { dir with parts := dir.parts ++ parts }

/-- What discovery finds below a directory: nothing if it is none, and the
sources that the walk comes to but for those excluded. -/
def foundBelow (t : FileTree) (exclude : List Path) (dir : Path) : List Path :=
  match t.locate dir with
  | .error _ => []
  | .ok place =>
    if t.find? place = some .directory then
      ((t.sources place).map dir.under).filter fun p => p.normalize ∉ exclude.map Path.normalize
    else []

variable {t t' : FileTree} {exclude : List Path}

theorem run_mapM_normalize (ps : List Path) (w : Workspace) : run (ps.mapM Action.normalize) w =
    (if ps.any Path.hasNul then .error .invalidValue else .ok (ps.map Path.normalize), w) := by
  induction ps with
  | nil => rfl
  | cons p ps ih =>
    rw [List.mapM_cons, List.any_cons]
    rcases hp : p.hasNul with - | -
    · have hrun : run (Action.normalize p) w = (.ok p.normalize, w) := by
        rw [Action.normalize, Path.normalize?, hp]
        rfl
      rw [run_bind_of_ok hrun, run_bind, ih]
      rcases ps.any Path.hasNul with - | - <;> rfl
    · have hrun : run (Action.normalize p) w = (.error .invalidValue, w) := by
        rw [Action.normalize, Path.normalize?, hp]
        rfl
      rw [run_bind_of_error hrun]
      rfl

theorem run_discover_eq (dirs exclude : List Path) (w : Workspace) : run (discover dirs exclude) w =
    (if exclude.any Path.hasNul then .error .invalidValue
      else .ok (discoverIn w.tree dirs (exclude.map Path.normalize)), w) := by
  rw [discover, run_bind, run_mapM_normalize]
  rcases exclude.any Path.hasNul with - | - <;> rfl

/-- Discovery below one directory is the walk from there. -/
theorem foundBelow_eq (h : t.IsTree) (exclude : List Path) (dir : Path) :
    (sourcesBelow t dir).filter (fun p => p.normalize ∉ exclude.map Path.normalize)
      = foundBelow t exclude dir := by
  rw [sourcesBelow, foundBelow]
  rcases hl : t.locate dir with - | place
  · rfl
  · dsimp only
    have hd : t.isDirectory dir = true ↔ t.find? place = some .directory := by
      rw [FileTree.isDirectory_iff, hl]
      constructor
      · rintro ⟨place', heq, hd⟩
        rwa [← Except.ok.inj heq] at hd
      · exact fun hd => ⟨place, rfl, hd⟩
    by_cases hplace : t.find? place = some .directory
    · rw [if_pos hplace, if_pos (hd.mpr hplace), h.sources_eq_sort]
      rfl
    · rw [if_neg hplace, if_neg (mt hd.mp hplace)]
      rfl

theorem discoverIn_eq (h : t.IsTree) (dirs exclude : List Path) :
    discoverIn t dirs (exclude.map Path.normalize) = dirs.flatMap (foundBelow t exclude) := by
  rw [discoverIn]
  exact congrArg (dirs.flatMap ·) (funext fun dir => foundBelow_eq h exclude dir)

theorem mem_foundBelow (h : t.IsTree) : p ∈ foundBelow t exclude dir ↔
    ∃ place parts, t.locate dir = .ok place ∧ t.IsSourceAt place parts ∧ p = dir.under parts ∧
      p.normalize ∉ exclude.map Path.normalize := by
  rw [foundBelow]
  rcases hl : t.locate dir with e | place
  · simp
  · dsimp only
    constructor
    · intro hm
      split at hm
      · obtain ⟨hm, hex⟩ := List.mem_filter.mp hm
        obtain ⟨parts, hparts, rfl⟩ := List.mem_map.mp hm
        exact ⟨place, parts, rfl, h.mem_sources.mp hparts, rfl, of_decide_eq_true hex⟩
      · cases hm
    · rintro ⟨place', parts, hplace, hparts, rfl, hex⟩
      cases hplace
      have hne : parts ≠ [] := by
        rintro rfl
        obtain ⟨name, hname, -⟩ := hparts.named
        cases hname
      obtain ⟨bytes, hfile⟩ := hparts.file
      rw [if_pos (h.directory_of_append hne hfile), List.mem_filter]
      exact ⟨List.mem_map_of_mem (h.mem_sources.mpr hparts), decide_eq_true hex⟩

theorem nodup_foundBelow (h : t.IsTree) (exclude : List Path) (dir : Path) :
    (foundBelow t exclude dir).Nodup := by
  rw [foundBelow]
  split
  · exact List.nodup_nil
  · split
    · refine List.Nodup.filter _ (List.Nodup.map (fun parts parts' heq => ?_)
        (h.sortedLT_sources _).nodup)
      exact List.append_cancel_left (congrArg Path.parts heq)
    · exact List.nodup_nil

/-- Where paths lead is told by what stands where. -/
theorem FileTree.walk_congr (h : ∀ place, t'.find? place = t.find? place) (here : Place)
    (ps : List Text) : t'.walk here ps = t.walk here ps := by
  induction ps generalizing here with
  | nil => rfl
  | cons part ps ih => simp only [walk, h, ih]

/-- Discovery below a directory does not depend on the order of entries. -/
theorem foundBelow_of_perm (h : t.IsTree) (hp : t'.entries.Perm t.entries) (exclude : List Path)
    (dir : Path) : foundBelow t' exclude dir = foundBelow t exclude dir := by
  obtain ⟨h', hfind⟩ := h.find?_eq_of_perm hp
  have hsources : ∀ place, t'.sources place = t.sources place := by
    intro place
    refine (h'.sortedLT_sources place).eq_of_mem_iff (h.sortedLT_sources place) fun parts => ?_
    rw [h'.mem_sources, h.mem_sources]
    exact ⟨fun ⟨hf, hn, hs⟩ => ⟨hfind _ ▸ hf, hn, hs⟩, fun ⟨hf, hn, hs⟩ => ⟨hfind _ ▸ hf, hn, hs⟩⟩
  simp only [foundBelow, FileTree.locate, FileTree.walk_congr hfind, hsources, hfind]

/-- **Discovery is the walk**: for every tree, all directories and all excluded
paths, of which none can have the NUL character, it answers with what the walk
from each directory comes to, one directory after the other.  Below each of
them these are the sources that are not excluded, each once; and the order in
which the entries of the tree are listed has no part in it. -/
theorem discover_walks (w : Workspace) (h : w.tree.IsTree) (dirs exclude : List Path) :
    run (discover dirs exclude) w = (if exclude.any Path.hasNul then .error .invalidValue
      else .ok (dirs.flatMap (foundBelow w.tree exclude)), w) ∧
    (∀ dir, (foundBelow w.tree exclude dir).Nodup ∧ ∀ p, p ∈ foundBelow w.tree exclude dir ↔
      ∃ place parts, w.tree.locate dir = .ok place ∧ w.tree.IsSourceAt place parts ∧
        p = dir.under parts ∧ p.normalize ∉ exclude.map Path.normalize) ∧
    ∀ t', t'.entries.Perm w.tree.entries →
      (run (discover dirs exclude) { w with tree := t' }).1 = (run (discover dirs exclude) w).1 := by
  refine ⟨?_, fun dir => ⟨nodup_foundBelow h exclude dir, fun p => mem_foundBelow h⟩, ?_⟩
  · rw [run_discover_eq, discoverIn_eq h]
  · intro t' hp
    have hfound := funext (foundBelow_of_perm h hp exclude)
    rw [run_discover_eq, run_discover_eq, discoverIn_eq h, discoverIn_eq (h.find?_eq_of_perm hp).1,
      hfound]

/-- A project with sources in a directory, beside one of its name, and among
modules. -/
def walkedProject : Workspace where
  tree := ⟨[(["src", "b.scss"], .file ⟨#[]⟩), (["src", "node_modules"], .directory),
    (["src", "a.scss"], .file ⟨#[]⟩), (["src"], .directory), (["src", "a"], .directory),
    (["src", "node_modules", "y.scss"], .file ⟨#[]⟩), (["src", "a", "x.scss"], .file ⟨#[]⟩)]⟩
  log := []

/-- The directory comes before its namesake, the modules are passed over, and
what is excluded may be spelled in any way. -/
theorem discover_walks_past_modules : walkedProject.tree.IsTree ∧
    run (discover [Path.ofText "src", Path.ofText "lib"] [Path.ofText "src/a/../b.scss"])
      walkedProject = (.ok [Path.ofText "src/a/x.scss", Path.ofText "src/a.scss"], walkedProject) := by
  have htree : walkedProject.tree.IsTree := by decide +kernel
  have hfound : [Path.ofText "src", Path.ofText "lib"].flatMap
      (foundBelow walkedProject.tree [Path.ofText "src/a/../b.scss"])
        = [Path.ofText "src/a/x.scss", Path.ofText "src/a.scss"] := by
    cbv
  have hwalk := (discover_walks walkedProject htree [Path.ofText "src", Path.ofText "lib"]
    [Path.ofText "src/a/../b.scss"]).1
  rw [hfound] at hwalk
  exact ⟨htree, hwalk⟩

end FluidScss
