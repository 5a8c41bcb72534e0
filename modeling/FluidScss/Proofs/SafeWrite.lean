/-
FluidScss/Proofs/SafeWrite.lean

What a safe write that succeeds has done.  `SafelyWritten target content w`
lists the ways with the plan and the workspace that each of them leaves, and
`run_writeSafely_iff` says that each of them happens and that there are no
others.

Where text is stored, `Workspace.Stored` says all that is known afterwards:
the path leads to a file with the text, and no other file was touched.  From
this follows the fixed point: after a safe write, however it went, the same
write leaves the tree as it is (`SafelyWritten.again`).  The mode is then
`unchanged` unless the target is someone else's or the content does not read
back as it was written, which needs a carriage return.
-/
import FluidScss.Proofs.HandWritten
import FluidScss.Proofs.Overwrite

namespace FluidScss

variable {α β : Type} {w w' w₁ : Workspace} {path target : Path} {text content : Text}
variable {place : Place} {bytes : ByteArray}

namespace Action

/-! ### Runs that succeed -/

/-- A run in two parts that succeeds is a run of the first part that
succeeds, followed by one of the second. -/
theorem exists_of_run_bind {a : Action α} {f : α → Action β} {y : β}
    (h : run (a >>= f) w = (.ok y, w')) :
    ∃ x w'', run a w = (.ok x, w'') ∧ run (f x) w'' = (.ok y, w') := by
  rcases hr : run a w with ⟨e | x, w''⟩
  · rw [run_bind_of_error hr] at h
    cases h
  · rw [run_bind_of_ok hr] at h
    exact ⟨x, w'', rfl, h⟩

/-- Work that asks leaves the workspace it found. -/
theorem Asks.eq {a : Action α} (ha : Asks a) {r : Except Fault α} (h : run a w = (r, w')) :
    w' = w := by
  have hw := ha w
  rw [h] at hw
  exact hw.symm

/-- A part that asks is run in the workspace that the rest is run in. -/
theorem exists_of_asks_bind {a : Action α} {f : α → Action β} {y : β} (ha : Asks a)
    (h : run (a >>= f) w = (.ok y, w')) :
    ∃ x, run a w = (.ok x, w) ∧ run (f x) w = (.ok y, w') := by
  obtain ⟨x, w'', hr, hf⟩ := exists_of_run_bind h
  obtain rfl := ha.eq hr
  exact ⟨x, hr, hf⟩

/-! ### Reading -/

theorem run_readBytes (p : Path) (w : Workspace) :
    run (readBytes p) w =
      (if p.hasNul then .error .invalidValue
        else match w.tree.readBytes p with
          | .ok bytes => .ok bytes
          | .error e => .error (.system e p), w) := by
  unfold readBytes
  by_cases hp : p.hasNul = true
  · simp only [hp, if_true]
    rfl
  · rw [Bool.not_eq_true] at hp
    simp only [hp, Bool.false_eq_true, if_false]
    rw [run_bind_of_ok (run_tree w)]
    rcases w.tree.readBytes p with e | bytes <;> rfl

/-- Decoding succeeds on a file whose bytes decode. -/
theorem run_decoded_iff {decode : ByteArray → Option Text} {p : Path} :
    run (do decoded decode (← readBytes p)) w = (.ok text, w') ↔
      w' = w ∧ p.hasNul = false ∧
        ∃ bytes, w.tree.readBytes p = .ok bytes ∧ decode bytes = some text := by
  rw [run_bind, run_readBytes]
  by_cases hp : p.hasNul = true
  · simp only [hp, if_true]
    constructor
    · intro h
      cases h
    · rintro ⟨-, hn, -⟩
      cases hn
  · rw [Bool.not_eq_true] at hp
    simp only [hp, Bool.false_eq_true, if_false, true_and]
    rcases hb : w.tree.readBytes p with e | bytes
    · constructor
      · intro h
        cases h
      · rintro ⟨-, bytes, h, -⟩
        cases h
    · dsimp only
      rw [decoded]
      rcases hd : decode bytes with - | found
      · constructor
        · intro h
          cases h
        · rintro ⟨-, bytes', h, hd'⟩
          cases h
          rw [hd] at hd'
          cases hd'
      · constructor
        · intro h
          cases h
          exact ⟨rfl, bytes, rfl, hd⟩
        · rintro ⟨rfl, bytes', h, hd'⟩
          cases h
          rw [hd] at hd'
          cases hd'
          rfl

theorem run_readText_iff {p : Path} :
    run (readText p) w = (.ok text, w') ↔
      w' = w ∧ p.hasNul = false ∧
        ∃ bytes, w.tree.readBytes p = .ok bytes ∧ Text.read? bytes = some text :=
  run_decoded_iff

/-! ### Making directories -/

end Action

/-- Every file of the second workspace is a file of the first, with the same
bytes. -/
def Workspace.NoNewFiles (w w' : Workspace) : Prop :=
  ∀ place bytes, w'.tree.find? place = some (.file bytes) →
    w.tree.find? place = some (.file bytes)

instance : IsPreorder Workspace Workspace.NoNewFiles where
  refl _ _ _ h := h
  trans _ _ _ h h' place bytes hf := h place bytes (h' place bytes hf)

namespace FileTree

variable {t t' : FileTree} {p : Path}

/-- Where a path leads to something no directory can be made. -/
theorem makeDirectory_of_locate (h : t.locate p = .ok place) :
    t.makeDirectory p = .error .alreadyExists := by
  obtain ⟨e, he⟩ := Option.isSome_iff_exists.mp (isSome_of_locate h)
  rw [makeDirectory, slot_of_locate h]
  simp only [he]

/-- The directory around a file is there. -/
theorem isDirectory_parent (hl : t.locate p = .ok place)
    (hd : t.find? place ≠ some .directory) : t.isDirectory p.parent = true := by
  obtain ⟨root, parts⟩ := p
  rcases List.eq_nil_or_concat' parts with rfl | ⟨init, part, rfl⟩
  · cases hl
    exact absurd rfl hd
  · obtain ⟨mid, h1, h2⟩ := exists_walk_append hl
    refine isDirectory_iff.mpr ⟨mid, ?_, (walk_cons h2).1⟩
    rw [locate, Path.parent, List.dropLast_concat]
    exact h1

end FileTree

theorem Path.hasNul_parent (h : path.hasNul = false) : path.parent.hasNul = false := by
  rw [hasNul, List.any_eq_false] at h ⊢
  intro part hm
  exact h part (List.dropLast_subset _ hm)

namespace Action

theorem noNewFiles_makeDirectoryIn (p : Path) :
    Within Workspace.NoNewFiles (makeDirectoryIn p) := by
  unfold makeDirectoryIn
  split
  · exact within_throw_bind _ _
  · intro w
    rw [run_bind, run_tree]
    dsimp only
    rcases hm : w.tree.makeDirectory p with e | t
    · cases e
      case notFound => exact refl w
      all_goals
        refine within_bind (asks_isDirectory p).within (fun found => ?_) w
        cases found
        · exact within_throw _
        · exact within_pure ()
    · obtain ⟨made, -, hnone, rfl⟩ := FileTree.eq_of_makeDirectory hm
      intro place bytes hf
      have hne : made ≠ [] := FileTree.ne_nil_of_find? (by rw [hnone]; exact nofun)
      have hf' : (w.tree.set made .directory).find? place = some (.file bytes) := hf
      rw [FileTree.find?_set _ hne] at hf'
      by_cases hp : place = made
      · rw [if_pos hp] at hf'
        cases hf'
      · rwa [if_neg hp] at hf'

theorem noNewFiles_makeDirectories (p : Path) :
    Within Workspace.NoNewFiles (makeDirectories p) := by
  suffices h : ∀ root parts, Within Workspace.NoNewFiles (makeDirectoriesFrom root parts) from
    h p.root p.parts.reverse
  intro root parts
  induction parts with
  | nil => exact noNewFiles_makeDirectoryIn _
  | cons part parts ih =>
    rw [makeDirectoriesFrom]
    split
    · exact within_throw_bind _ _
    · exact within_bind within_tree fun _ => by
        split
        · exact within_bind ih fun _ => noNewFiles_makeDirectoryIn _
        · exact noNewFiles_makeDirectoryIn _

theorem run_makeDirectoryIn_of_isDirectory {p : Path} (hd : w.tree.isDirectory p = true)
    (hn : p.hasNul = false) : run (makeDirectoryIn p) w = (.ok (), w) := by
  obtain ⟨place, hl, -⟩ := FileTree.isDirectory_iff.mp hd
  have hasks : run (isDirectory p) w = (.ok true, w) := by
    rw [← hd]
    rfl
  unfold makeDirectoryIn
  rw [hn, if_neg Bool.false_ne_true, run_bind_of_ok (run_tree w),
    FileTree.makeDirectory_of_locate hl]
  dsimp only
  rw [run_bind_of_ok hasks]
  rfl

/-- Making a directory that is there does nothing. -/
theorem run_makeDirectories_of_isDirectory {p : Path} (hd : w.tree.isDirectory p = true)
    (hn : p.hasNul = false) : run (makeDirectories p) w = (.ok (), w) := by
  obtain ⟨root, parts⟩ := p
  have hin := run_makeDirectoryIn_of_isDirectory hd hn
  rw [makeDirectories]
  rcases hrev : parts.reverse with - | ⟨part, rest⟩
  · rw [List.reverse_eq_nil_iff] at hrev
    subst hrev
    exact hin
  · obtain ⟨place, hl, -⟩ := FileTree.isDirectory_iff.mp hd
    have hparts : (part :: rest).reverse = parts := by rw [← hrev, List.reverse_reverse]
    rw [makeDirectoriesFrom, hparts, hn, if_neg Bool.false_ne_true,
      run_bind_of_ok (run_tree w), FileTree.makeDirectory_of_locate hl]
    exact hin

end Action

open FluidScss.Action

/-! ### Storing -/

theorem run_store_iff : run (store path text) w = (.ok (), w₁) ↔
    ∃ w' place, w.Puts path w' place ∧
      w₁ = { w' with tree := w'.tree.set place (.file (Text.encode text)) } := by
  constructor
  · intro h
    rcases run_store path text w with ⟨w', place, hp, hr⟩ | ⟨hno, -⟩
    · rw [hr] at h
      cases h
      exact ⟨w', place, hp, rfl⟩
    · -- what is stored has been put somewhere
      obtain ⟨done, w', hmade, hwrite⟩ := exists_of_run_bind h
      rw [writeText, run_change] at hwrite
      split at hwrite
      · cases hwrite
      · rename_i hnul
        rcases hw : w'.tree.writeBytes path (Text.encode text) with e | t
        · rw [hw] at hwrite
          cases hwrite
        · obtain ⟨place, hs, hd, -⟩ := FileTree.eq_of_writeBytes hw
          exact absurd ⟨hmade, by simpa using hnul, hs, hd⟩ (hno w' place)
  · rintro ⟨w', place, hp, rfl⟩
    rcases run_store path text w with ⟨w'', place', hp', hr⟩ | ⟨hno, -⟩
    · obtain ⟨rfl, rfl⟩ := hp.unique hp'
      exact hr
    · exact absurd hp (hno w' place)

/-- A text was stored at a place: the path leads there, to a file with the
text, what stood elsewhere stands there and no other file is new. -/
structure Workspace.Stored (w : Workspace) (path : Path) (text : Text) (w₁ : Workspace)
    (place : Place) : Prop where
  named : path.hasNul = false
  leads : w₁.tree.locate path = .ok place
  holds : w₁.tree.find? place = some (.file (Text.encode text))
  grows : w.Grows w₁
  others : ∀ q ≠ place, ∀ e, w.tree.find? q = some e → w₁.tree.find? q = some e
  files : ∀ q ≠ place, ∀ bytes, w₁.tree.find? q = some (.file bytes) →
    w.tree.find? q = some (.file bytes)

theorem stored_of_run_store (h : run (store path text) w = (.ok (), w₁)) :
    ∃ place, w.Stored path text w₁ place := by
  obtain ⟨w', place, hp, rfl⟩ := run_store_iff.mp h
  have hadds := adds_makeDirectories path.parent w
  have hfiles := noNewFiles_makeDirectories path.parent w
  rw [hp.made] at hadds hfiles
  have hfind : ∀ q, (w'.tree.set place (.file (Text.encode text))).find? q
      = if q = place then some (.file (Text.encode text)) else w'.tree.find? q :=
    FileTree.find?_set _ (FileTree.ne_nil_of_find? hp.free) _
  refine ⟨place, hp.named, FileTree.locate_set_of_slot hp.slot hp.free _, ?_, ?_, ?_, ?_⟩
  · exact (hfind place).trans (if_pos rfl)
  · exact hadds.grows.trans (FileTree.grows_set_file hp.free _)
  · intro q hq e he
    exact ((hfind q).trans (if_neg hq)).trans (hadds q e he)
  · intro q hq bytes hb
    exact hfiles q bytes (((hfind q).trans (if_neg hq)).symm.trans hb)

/-- Where the directory around a path is there, storing sets one file. -/
theorem set_of_run_store (h : run (store path text) w = (.ok (), w₁))
    (hd : w.tree.isDirectory path.parent = true) :
    ∃ place, w.tree.slot path = .ok place ∧ w.tree.find? place ≠ some .directory ∧
      w₁ = { w with tree := w.tree.set place (.file (Text.encode text)) } := by
  obtain ⟨w', place, hp, rfl⟩ := run_store_iff.mp h
  have hmade := run_makeDirectories_of_isDirectory hd (Path.hasNul_parent hp.named)
  rw [hp.made] at hmade
  cases hmade
  exact ⟨place, hp.slot, hp.free, rfl⟩

/-- Where a path leads to a file, storing writes there. -/
theorem run_store_of_leads (hl : w.tree.locate path = .ok place)
    (hf : w.tree.find? place = some (.file bytes)) (hn : path.hasNul = false) (text : Text) :
    run (store path text) w
      = (.ok (), { w with tree := w.tree.set place (.file (Text.encode text)) }) := by
  have hd := FileTree.ne_directory hf
  have hmade := run_makeDirectories_of_isDirectory (FileTree.isDirectory_parent hl hd)
    (Path.hasNul_parent hn)
  exact run_store_iff.mpr ⟨w, place, ⟨hmade, hn, FileTree.slot_of_locate hl, hd⟩, rfl⟩

/-- A text that is stored where it stands already changes nothing. -/
theorem run_store_again (hl : w.tree.locate path = .ok place)
    (hf : w.tree.find? place = some (.file (Text.encode text))) (hn : path.hasNul = false) :
    run (store path text) w = (.ok (), w) := by
  rw [run_store_of_leads hl hf hn, FileTree.set_eq_self hf]

/-! ### Writing safely -/

/-- The file beside a target that takes the content if the target is someone
else's. -/
def besidePath (target : Path) : Path := target.parent.child (target.name ++ ".new")

theorem getLast?_beside {t : FileTree} (hs : t.slot (besidePath target) = .ok place) :
    place.getLast? = some (target.name ++ (".new" : Text)) := by
  refine FileTree.slot_child (fun he => ?_) hs
  have := congrArg List.length he
  simp [upwards] at this

/-- A file that is there is not the file beside it. -/
theorem ne_beside {t t' : FileTree} {beside : Place} (hl : t.locate target = .ok place)
    (hd : t.find? place ≠ some .directory) (hs : t'.slot (besidePath target) = .ok beside) :
    place ≠ beside := by
  rintro rfl
  have hname := (FileTree.getLast?_of_locate hl hd).symm.trans (getLast?_beside hs)
  have := congrArg List.length (Option.some.inj hname)
  simp at this

/-- What a safe write that succeeded did. -/
inductive SafelyWritten (target : Path) (content : Text) (w : Workspace) :
    WritePlan → Workspace → Prop
  | created {w₁ : Workspace} (missing : w.tree.has target = false)
      (stored : run (store target content) w = (.ok (), w₁)) :
      SafelyWritten target content w ⟨target, target, content, .created⟩ w₁
  | unchanged (there : w.tree.has target = true)
      (reads : run (readText target) w = (.ok content, w))
      (stamped : Text.contains generatedStamp content = true) :
      SafelyWritten target content w ⟨target, target, content, .unchanged⟩ w
  | overwritten {w₁ : Workspace} {text : Text} (there : w.tree.has target = true)
      (reads : run (readText target) w = (.ok text, w))
      (stamped : Text.contains generatedStamp text = true) (differs : text ≠ content)
      (stored : run (store target content) w = (.ok (), w₁)) :
      SafelyWritten target content w ⟨target, target, content, .overwritten⟩ w₁
  | conflict {w₁ : Workspace} {text : Text} (there : w.tree.has target = true)
      (reads : run (readText target) w = (.ok text, w))
      (foreign : Text.contains generatedStamp text = false) (hasName : target.name ≠ [])
      (stored : run (store (besidePath target) content) w = (.ok (), w₁)) :
      SafelyWritten target content w ⟨target, besidePath target, content, .conflict⟩ w₁

/-- A plan that is made is carried out. -/
theorem run_planned_iff {existing : Option Text} {plan : WritePlan} :
    run (do
      let plan ← WritePlan.make target content existing generatedStamp
      plan.apply
      return plan) w = (.ok plan, w₁) ↔
    WritePlan.make target content existing generatedStamp = .ok plan ∧
      run plan.apply w = (.ok (), w₁) := by
  rcases hm : WritePlan.make target content existing generatedStamp with e | made
  · constructor
    · intro h
      cases h
    · rintro ⟨h, -⟩
      cases h
  · have hlift : run (liftM (Except.ok made : Except Fault WritePlan) : Action WritePlan) w
        = (.ok made, w) := rfl
    rw [run_bind_of_ok hlift]
    rcases ha : run made.apply w with ⟨e | done, w'⟩
    · rw [run_bind_of_error ha]
      constructor
      · intro h
        cases h
      · rintro ⟨h, h'⟩
        cases h
        rw [ha] at h'
        cases h'
    · rw [run_bind_of_ok ha]
      constructor
      · intro h
        cases h
        exact ⟨rfl, ha⟩
      · rintro ⟨h, h'⟩
        cases h
        rw [ha] at h'
        cases h'
        rfl

/-- A plan that does not leave the target alone stores its content. -/
theorem run_apply_of_ne (mode : WriteMode) (h : mode ≠ .unchanged) :
    run (WritePlan.apply ⟨target, path, content, mode⟩) w = run (store path content) w := by
  rw [WritePlan.apply_eq, if_neg h]

/-- Where nothing is, the content is stored at the target. -/
theorem run_writeSafely_of_missing {plan : WritePlan} (hh : w.tree.has target = false) :
    run (writeSafely target content generatedStamp) w = (.ok plan, w₁) ↔
      plan = ⟨target, target, content, .created⟩ ∧
        run (store target content) w = (.ok (), w₁) := by
  have hexists : run (fileExists target) w = (.ok (w.tree.has target), w) := rfl
  have hnone : run (pure none : Action (Option Text)) w = (.ok none, w) := rfl
  unfold writeSafely
  rw [run_bind_of_ok hexists, hh, if_neg Bool.false_ne_true, run_bind_of_ok hnone,
    run_planned_iff]
  constructor
  · rintro ⟨hm, ha⟩
    cases hm
    exact ⟨rfl, (run_apply_of_ne .created nofun).symm.trans ha⟩
  · rintro ⟨rfl, hs⟩
    exact ⟨rfl, (run_apply_of_ne .created nofun).trans hs⟩

/-- Where a file is, it is read, and the plan made from what it reads as is
carried out. -/
theorem run_writeSafely_of_there {plan : WritePlan} (hh : w.tree.has target = true) :
    run (writeSafely target content generatedStamp) w = (.ok plan, w₁) ↔
      ∃ text, run (readText target) w = (.ok text, w) ∧
        WritePlan.make target content (some text) generatedStamp = .ok plan ∧
        run plan.apply w = (.ok (), w₁) := by
  have hexists : run (fileExists target) w = (.ok (w.tree.has target), w) := rfl
  unfold writeSafely
  rw [run_bind_of_ok hexists, hh, if_pos rfl, ← bind_pure_comp]
  constructor
  · intro h
    obtain ⟨existing, hr, h⟩ :=
      exists_of_asks_bind (within_bind (asks_readText target) fun _ => within_pure _) h
    obtain ⟨text, hread, hpure⟩ := exists_of_asks_bind (asks_readText target) hr
    cases hpure
    exact ⟨text, hread, run_planned_iff.mp h⟩
  · rintro ⟨text, hread, hplan⟩
    have hmap : run (readText target >>= fun text => pure (some text)) w
        = (.ok (some text), w) := by
      rw [run_bind_of_ok hread]
      rfl
    rw [run_bind_of_ok hmap]
    exact run_planned_iff.mpr hplan

/-- The plans against a text that stands at the target: one of its own texts is
replaced or left alone, and next to any other the content gets a file. -/
theorem make_some_iff {plan : WritePlan} :
    WritePlan.make target content (some text) generatedStamp = .ok plan ↔
      (Text.contains generatedStamp text = true ∧ text = content ∧
        plan = ⟨target, target, content, .unchanged⟩) ∨
      (Text.contains generatedStamp text = true ∧ text ≠ content ∧
        plan = ⟨target, target, content, .overwritten⟩) ∨
      (Text.contains generatedStamp text = false ∧ target.name ≠ [] ∧
        plan = ⟨target, besidePath target, content, .conflict⟩) := by
  rw [WritePlan.make]
  rcases hs : Text.contains generatedStamp text with - | -
  · rw [if_neg Bool.false_ne_true, conflictPath?, Path.withName?]
    by_cases hn : target.name = []
    · simp only [hn, if_true, reduceCtorEq, ne_eq, not_true, false_and, and_false, or_false]
    · simp only [hn, if_false, reduceCtorEq, ne_eq, not_false_eq_true, true_and, false_and,
        false_or, Except.ok.injEq, besidePath, eq_comm]
  · rw [if_pos rfl]
    by_cases hc : text = content
    · simp only [hc, if_true, reduceCtorEq, ne_eq, not_true, true_and, false_and, or_false,
        Except.ok.injEq, eq_comm]
    · simp only [hc, if_false, reduceCtorEq, ne_eq, not_false_eq_true, true_and, false_and,
        false_or, or_false, Except.ok.injEq, eq_comm]

/-- A safe write succeeds in the ways listed, and in no other. -/
theorem run_writeSafely_iff {plan : WritePlan} :
    run (writeSafely target content generatedStamp) w = (.ok plan, w₁) ↔
      SafelyWritten target content w plan w₁ := by
  constructor
  · intro h
    rcases hh : w.tree.has target with - | -
    · obtain ⟨rfl, hs⟩ := (run_writeSafely_of_missing hh).mp h
      exact .created hh hs
    · obtain ⟨text, hread, hm, ha⟩ := (run_writeSafely_of_there hh).mp h
      rcases make_some_iff.mp hm with ⟨hs, rfl, rfl⟩ | ⟨hs, hc, rfl⟩ | ⟨hs, hn, rfl⟩
      · rw [WritePlan.apply_eq, if_pos rfl] at ha
        cases ha
        exact .unchanged hh hread hs
      · exact .overwritten hh hread hs hc ((run_apply_of_ne .overwritten nofun).symm.trans ha)
      · exact .conflict hh hread hs hn ((run_apply_of_ne .conflict nofun).symm.trans ha)
  · intro h
    cases h with
    | created missing stored =>
      exact (run_writeSafely_of_missing missing).mpr ⟨rfl, stored⟩
    | unchanged there reads stamped =>
      refine (run_writeSafely_of_there there).mpr
        ⟨content, reads, make_some_iff.mpr (.inl ⟨stamped, rfl, rfl⟩), ?_⟩
      rw [WritePlan.apply_eq, if_pos rfl]
      rfl
    | overwritten there reads stamped differs stored =>
      exact (run_writeSafely_of_there there).mpr
        ⟨_, reads, make_some_iff.mpr (.inr (.inl ⟨stamped, differs, rfl⟩)),
          (run_apply_of_ne .overwritten nofun).trans stored⟩
    | conflict there reads foreign hasName stored =>
      exact (run_writeSafely_of_there there).mpr
        ⟨_, reads, make_some_iff.mpr (.inr (.inr ⟨foreign, hasName, rfl⟩)),
          (run_apply_of_ne .conflict nofun).trans stored⟩

namespace SafelyWritten

variable {plan : WritePlan}

theorem content_eq (h : SafelyWritten target content w plan w₁) : plan.content = content := by
  cases h <;> rfl

/-- What reads as stamped is not someone else's. -/
theorem mode_ne_conflict (h : SafelyWritten target content w plan w₁)
    (hr : run (readText target) w = (.ok text, w))
    (hs : Text.contains generatedStamp text = true) : plan.mode ≠ .conflict := by
  cases h with
  | conflict there reads foreign =>
    rw [hr] at reads
    cases reads
    rw [hs] at foreign
    cases foreign
  | _ => exact nofun

end SafelyWritten

/-! ### Writing again -/

/-- A file that a path leads to, with the bytes of a text, reads as the text
with its newlines unified. -/
theorem run_readText_of_encoded (hl : w.tree.locate path = .ok place)
    (hf : w.tree.find? place = some (.file (Text.encode text))) (hn : path.hasNul = false) :
    run (readText path) w = (.ok (Text.unifyNewlines text), w) :=
  run_readText_iff.mpr ⟨rfl, hn, Text.encode text,
    (FileTree.readBytes_eq_ok_iff hl).mpr hf, Text.read_encode text⟩

namespace SafelyWritten

variable {plan : WritePlan}

/-- After the content was stored at the target, the same write changes
nothing. -/
theorem again_of_stored {place : Place} (hl : w.tree.locate target = .ok place)
    (hf : w.tree.find? place = some (.file (Text.encode content)))
    (hn : target.hasNul = false)
    (hs : Text.contains generatedStamp (Text.unifyNewlines content) = true) :
    ∃ plan, SafelyWritten target content w plan w ∧ plan.path = target ∧
      (Text.unifyNewlines content = content → plan.mode = .unchanged) := by
  have hthere : w.tree.has target = true := FileTree.has_iff_locate.mpr ⟨place, hl⟩
  have hread := run_readText_of_encoded hl hf hn
  by_cases hc : Text.unifyNewlines content = content
  · rw [hc] at hread hs
    exact ⟨_, .unchanged hthere hread hs, rfl, fun _ => rfl⟩
  · exact ⟨_, .overwritten hthere hread hs hc (run_store_again hl hf hn), rfl,
      fun h => absurd h hc⟩

/-- **Writing again**: after a safe write of stamped content the same write
succeeds and leaves the workspace as it is, whatever was logged since; and
unless the target is someone else's, content that reads back as it was written
is found unchanged. -/
theorem again (h : SafelyWritten target content w plan w₁)
    (hs : Text.contains generatedStamp (Text.unifyNewlines content) = true) {w₂ : Workspace}
    (ht : w₂.tree = w₁.tree) :
    ∃ plan', SafelyWritten target content w₂ plan' w₂ ∧ plan'.path = plan.path ∧
      (plan.mode ≠ .conflict → Text.unifyNewlines content = content →
        plan'.mode = .unchanged) := by
  obtain ⟨tree, log⟩ := w₂
  cases ht
  cases h with
  | created missing stored =>
    obtain ⟨place, hst⟩ := stored_of_run_store stored
    obtain ⟨plan', hp, hpath, hm⟩ :=
      again_of_stored (w := ⟨w₁.tree, log⟩) hst.leads hst.holds hst.named hs
    exact ⟨plan', hp, hpath, fun _ => hm⟩
  | unchanged there reads stamped =>
    obtain ⟨-, hread⟩ := run_readText_iff.mp reads
    exact ⟨_, .unchanged there (run_readText_iff.mpr ⟨rfl, hread⟩) stamped, rfl, fun _ _ => rfl⟩
  | overwritten there reads stamped differs stored =>
    obtain ⟨place, hst⟩ := stored_of_run_store stored
    obtain ⟨plan', hp, hpath, hm⟩ :=
      again_of_stored (w := ⟨w₁.tree, log⟩) hst.leads hst.holds hst.named hs
    exact ⟨plan', hp, hpath, fun _ => hm⟩
  | @conflict _ text there reads foreign hasName stored =>
    obtain ⟨beside, hst⟩ := stored_of_run_store stored
    obtain ⟨-, hn, bytes, hb, hdec⟩ := run_readText_iff.mp reads
    obtain ⟨place, hl, hf⟩ := FileTree.locate_of_readBytes hb
    -- the file beside is another, so the target reads as it did
    have hne := ne_beside hl (FileTree.ne_directory hf) (FileTree.slot_of_locate hst.leads)
    have hf' := hst.others place hne _ hf
    have hl' := FileTree.locate_of_grows hst.grows hl
    have hreads : run (readText target) ⟨w₁.tree, log⟩ = (.ok text, ⟨w₁.tree, log⟩) :=
      run_readText_iff.mpr ⟨rfl, hn, bytes, (FileTree.readBytes_eq_ok_iff hl').mpr hf', hdec⟩
    have hthere : w₁.tree.has target = true := FileTree.has_iff_locate.mpr ⟨place, hl'⟩
    exact ⟨_, .conflict hthere hreads foreign hasName
      (run_store_again (w := ⟨w₁.tree, log⟩) hst.leads hst.holds hst.named), rfl,
      fun h => absurd rfl h⟩

end SafelyWritten

end FluidScss
