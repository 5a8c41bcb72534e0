/-
FluidScss/Proofs/Collection.lean

The order of what is collected from files.  One number after the other is given
out through all the files, so what is collected is what each file has alone, one
file behind the other, and its orders increase (`pairwise_number`).  A list whose
orders increase is in order already, and adding up its overrides does not look at
their orders (`foldl_addOverride_congr`); so collected overrides are merged by
adding up those of the files as they come, and a later file has the last word
(`collectOverrides_in_order`).

Which of the two scans reads a file makes no difference here, for both give
drafts, and the numbers are given out afterwards.
-/
import FluidScss.Proofs.Gather
import FluidScss.Proofs.Merging
import Mathlib

namespace FluidScss

open FluidScss.Action

variable {m : Marker} {w : Workspace} {files : List Path} {overrides other : List Override}

/-! ### Numbered drafts -/

theorem map_toDraft_number (start : Int) (drafts : List Draft) :
    (number start drafts).map (·.toDraft) = drafts := by
  induction drafts generalizing start with
  | nil => rfl
  | cons d drafts ih => rw [number, List.map_cons, ih]

theorem le_order_of_mem_number {start : Int} {drafts : List Draft} {o : Override}
    (h : o ∈ number start drafts) : start ≤ o.order := by
  induction drafts generalizing start with
  | nil => cases h
  | cons d drafts ih =>
    rw [number] at h
    rcases List.mem_cons.mp h with rfl | h
    · exact Int.le_refl _
    · have := ih h
      omega

/-- The orders given out increase. -/
theorem pairwise_number (start : Int) (drafts : List Draft) :
    (number start drafts).Pairwise (·.order < ·.order) := by
  induction drafts generalizing start with
  | nil => exact .nil
  | cons d drafts ih =>
    rw [number, List.pairwise_cons]
    refine ⟨fun o ho => ?_, ih _⟩
    have hle := le_order_of_mem_number ho
    show start < o.order
    omega

/-! ### Adding up -/

/-- What is in order already is merged as it stands. -/
theorem mergeRules_of_pairwise (h : overrides.Pairwise (·.order < ·.order)) :
    mergeRules overrides = overrides.foldl addOverride [] := by
  rw [mergeRules_eq, inOrder, List.mergeSort_of_pairwise]
  exact h.imp fun hlt => decide_eq_true (Int.le_of_lt hlt)

/-- Adding up does not look at the orders. -/
theorem foldl_addOverride_congr (h : overrides.map (·.toDraft) = other.map (·.toDraft))
    (rules : Rules) : overrides.foldl addOverride rules = other.foldl addOverride rules := by
  have hdrafts : ∀ os : List Override, os.foldl addOverride rules
      = (os.map (·.toDraft)).foldl (fun rules d => addOverride rules ⟨d, 0⟩) rules := by
    intro os
    rw [List.foldl_map]
    rfl
  rw [hdrafts, h, ← hdrafts]

/-- The last value is that of the last part which has one. -/
theorem lastValue?_append_cons {front own back : List Override} {selector property value : Text}
    (hown : lastValue? own selector property = some value)
    (hback : ∀ o ∈ back, ¬ (o.selector = selector ∧ o.property = property)) :
    lastValue? (front ++ (own ++ back)) selector property = some value := by
  have hnone : back.filter (fun o => o.selector = selector ∧ o.property = property) = [] :=
    List.filter_eq_nil_iff.mpr fun o ho hd => hback o ho (of_decide_eq_true hd)
  rw [lastValue?] at hown ⊢
  obtain ⟨last, hlast, rfl⟩ := Option.map_eq_some_iff.mp hown
  rw [List.filter_append, List.filter_append, hnone, List.append_nil, List.getLast?_append, hlast]
  rfl

/-! ### Files -/

/-- A file that can be read is scanned alone. -/
theorem run_scanFile {p : Path} {source : Text} (h : run (readSource p) w = (.ok source, w)) :
    run (scanFile m p 0) w = (.ok (number 0 (draftsIn m w p)), w) := by
  rw [scanFile, run_bind_of_ok h, draftsIn, h]
  rfl

/-- **Files are collected in their order**: of files that can be read, in
whichever way each of them is scanned, the drafts collected are those that each
file has alone, one file behind the other, and their orders increase from the
first to the last.  So merging adds them up as they come, and a value stays if no
later file has another. -/
theorem collectOverrides_in_order (m : Marker) (w : Workspace) (files : List Path)
    (hread : ∀ p ∈ files, ∃ source, run (readSource p) w = (.ok source, w)) :
    ∃ found alone, run (collectOverrides m 0 files) w = (.ok found, w) ∧
      List.Forall₂ (fun p own => run (scanFile m p 0) w = (.ok own, w)) files alone ∧
      found.map (·.toDraft) = alone.flatMap (·.map (·.toDraft)) ∧
      found.Pairwise (·.order < ·.order) ∧
      mergeRules found = alone.flatten.foldl addOverride [] ∧
      ∀ earlier own later, alone = earlier ++ own :: later → ∀ selector property value,
        lastValue? own selector property = some value →
        (∀ o ∈ later.flatten, ¬ (o.selector = selector ∧ o.property = property)) →
        ((mergeRules found).under selector).lookup property = some value := by
  let found := number 0 (files.flatMap (draftsIn m w))
  let alone := files.map fun p => number 0 (draftsIn m w p)
  have hdrafts : found.map (·.toDraft) = alone.flatMap (·.map (·.toDraft)) := by
    simp only [found, alone, List.flatMap_map, map_toDraft_number]
  have hordered : found.Pairwise (·.order < ·.order) := pairwise_number _ _
  have hmerged : mergeRules found = alone.flatten.foldl addOverride [] := by
    rw [mergeRules_of_pairwise hordered]
    refine foldl_addOverride_congr ?_ []
    rw [hdrafts, List.map_flatten, List.flatMap_def]
  refine ⟨found, alone, run_collectOverrides_iff.mpr ⟨rfl, hread, rfl⟩, ?_, hdrafts, hordered,
    hmerged, ?_⟩
  · refine List.forall₂_map_right_iff.mpr (List.forall₂_same.mpr fun p hp => ?_)
    obtain ⟨source, hs⟩ := hread p hp
    exact run_scanFile hs
  · intro earlier own later halone selector property value hown hlater
    rw [hmerged, value_foldl_addOverride, halone, List.flatten_append, List.flatten_cons]
    exact lastValue?_append_cons hown hlater

/-! ### A sheet with a tree and one without -/

/-- Two sheets, the second of which does not close its block. -/
def mixedProject : Workspace where
  tree := ⟨[(["a.scss"], .file (Text.encode "a\x7bw:r.resp(1,2,h)\x7d")),
    (["b.scss"], .file (Text.encode "a \x7b\n w: r.resp(3,4,h);\n"))]⟩

/-- The second has no tree. -/
theorem treeDrafts_unclosed : ∃ defect,
    treeDrafts ⟨"r", "resp"⟩ "a \x7b\n w: r.resp(3,4,h);\n" = .error defect := by
  have h : (treeDrafts ⟨"r", "resp"⟩ "a \x7b\n w: r.resp(3,4,h);\n").toOption = none := by cbv
  rcases hd : treeDrafts ⟨"r", "resp"⟩ "a \x7b\n w: r.resp(3,4,h);\n" with defect | drafts
  · exact ⟨defect, rfl⟩
  · rw [hd] at h
    cases h

theorem run_readSource_mixed :
    run (readSource ⟨.single, ["a.scss"]⟩) mixedProject
        = (.ok "a\x7bw:r.resp(1,2,h)\x7d", mixedProject) ∧
      run (readSource ⟨.single, ["b.scss"]⟩) mixedProject
        = (.ok "a \x7b\n w: r.resp(3,4,h);\n", mixedProject) := by
  refine ⟨run_readSource_iff.mpr ⟨rfl, rfl, _, rfl, ?_⟩,
    run_readSource_iff.mpr ⟨rfl, rfl, _, rfl, ?_⟩⟩ <;>
  · rw [Text.readSource?, Text.decode_encode]
    rfl

/-- So it is scanned line by line. -/
theorem draftsIn_mixed :
    draftsIn ⟨"r", "resp"⟩ mixedProject ⟨.single, ["b.scss"]⟩
      = [⟨"a", "w", "r.clamp_mb(4, r.min_px(4, h, mobile))"⟩] := by
  obtain ⟨defect, hd⟩ := treeDrafts_unclosed
  rw [draftsIn, run_readSource_mixed.2]
  show sheetDrafts _ _ = _
  rw [sheetDrafts, hd]
  cbv

/-- The value of the second sheet wins, though alone it has the same number as
that of the first. -/
theorem collectOverrides_in_order_mixed :
    (∀ p ∈ [(⟨.single, ["a.scss"]⟩ : Path), ⟨.single, ["b.scss"]⟩],
        ∃ source, run (readSource p) mixedProject = (.ok source, mixedProject)) ∧
      ∃ (found : List Override) (alone : List (List Override)), run (collectOverrides ⟨"r", "resp"⟩ 0
          [⟨.single, ["a.scss"]⟩, ⟨.single, ["b.scss"]⟩]) mixedProject = (.ok found, mixedProject) ∧
        found.map (·.toDraft) = alone.flatMap (·.map (·.toDraft)) ∧
        found.Pairwise (·.order < ·.order) ∧
        mergeRules found = alone.flatten.foldl addOverride [] ∧
        ((mergeRules found).under "a").lookup ("w" : Text)
          = some ("r.clamp_mb(4, r.min_px(4, h, mobile))" : Text) := by
  have hread : ∀ p ∈ [(⟨.single, ["a.scss"]⟩ : Path), ⟨.single, ["b.scss"]⟩],
      ∃ source, run (readSource p) mixedProject = (.ok source, mixedProject) := by
    simp only [List.mem_cons, List.not_mem_nil, or_false, forall_eq_or_imp, forall_eq]
    exact ⟨⟨_, run_readSource_mixed.1⟩, _, run_readSource_mixed.2⟩
  obtain ⟨found, alone, hrun, halone, hdrafts, hordered, hmerged, hlast⟩ :=
    collectOverrides_in_order ⟨"r", "resp"⟩ mixedProject _ hread
  refine ⟨hread, found, alone, hrun, hdrafts, hordered, hmerged, ?_⟩
  obtain ⟨first, rest, -, hrest, rfl⟩ := List.forall₂_cons_left_iff.mp halone
  obtain ⟨second, none, hsecond, hnone, rfl⟩ := List.forall₂_cons_left_iff.mp hrest
  rw [List.forall₂_nil_left_iff] at hnone
  rw [run_scanFile run_readSource_mixed.2, draftsIn_mixed] at hsecond
  cases hsecond
  cases hnone
  exact hlast [first] _ [] rfl "a" "w" _ (by decide) nofun

end FluidScss
