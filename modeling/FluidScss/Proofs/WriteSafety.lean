/-
FluidScss/Proofs/WriteSafety.lean

Requests and files written by hand.  Every part of a request that writes is
put under the judgement of `FluidScss/Proofs/HandWritten`: `writeSafely` with
its target as the aim, first lines and registering with none.  The requests
follow by its rules, and a session by induction on its requests.

Main result: a file written by hand has the same bytes at the end of a
session when, and only when, no write of the session overlooked it
(`handWritten_kept_iff`).  A target without double dots overlooks nothing;
one with them can, for the question whether it is there is asked before the
directories on its way are made (`handWritten_lost_behind_missing_directory`).
-/
import FluidScss.Proofs.HandWritten
import Mathlib

namespace FluidScss

open FluidScss.Action

variable {root : Path} {f : HandFile}

/-! ### Storing -/

theorem grows_writeText (path : Path) (text : Text) :
    Within Workspace.Grows (writeText path text) := by
  intro w
  rw [writeText, run_change]
  split
  · exact refl w
  · rcases hw : w.tree.writeBytes path (Text.encode text) with e | t
    · exact refl w
    · exact FileTree.grows_of_writeBytes hw

theorem grows_store (path : Path) (text : Text) : Within Workspace.Grows (store path text) :=
  within_bind (adds_makeDirectories _).grows fun _ => grows_writeText path text

namespace HandFile

variable {P : ByteArray → Prop} {path target : Path} {text content : Text} {w w₁ : Workspace}

theorem Holds.of_puts {place : Place} (h : f.Holds root P w) (hp : w.Puts path w₁ place) :
    f.Holds root P w₁ := by
  have ha := adds_makeDirectories path.parent w
  rw [hp.made] at ha
  exact h.of_adds ha

/-- Storing by a path that does not name the place leaves it as it was. -/
theorem Holds.store_ne (h : f.Holds root P w) (hno : ∀ w', ¬ w.Puts path w' f.place) :
    f.Holds root P (run (store path text) w).2 := by
  rcases run_store path text w with ⟨w', place, hp, hr⟩ | ⟨-, ha⟩
  · rw [hr]
    refine (h.of_puts hp).set_ne hp.free ?_
    rintro rfl
    exact hno w' hp
  · exact h.of_adds ha

/-- Storing a stamped text by a path that names the place loses the file. -/
theorem Holds.store_eq (h : f.Holds root P w) (hp : w.Puts path w₁ f.place)
    (hs : Text.contains generatedStamp text = true) :
    f.Lost root (run (store path text) w).2 := by
  rcases run_store path text w with ⟨w', place, hp', hr⟩ | ⟨hno, -⟩
  · obtain ⟨rfl, rfl⟩ := hp'.unique hp
    rw [hr]
    exact (h.of_puts hp).set_eq ⟨text, rfl, hs⟩
  · exact absurd hp (hno w₁ f.place)

theorem Lost.store (h : f.Lost root w) (hs : Text.contains generatedStamp text = true) :
    f.Lost root (run (store path text) w).2 := by
  by_cases hp : ∃ w', w.Puts path w' f.place
  · obtain ⟨w', hp⟩ := hp
    exact h.store_eq hp hs
  · exact h.store_ne fun w' hp' => hp ⟨w', hp'⟩

/-! ### Writing safely -/

/-- Planning with what stands at the target, and writing. -/
theorem run_planned (target : Path) (content : Text) (existing : Option Text) (w : Workspace) :
    (run (do
      let plan ← WritePlan.make target content existing generatedStamp
      plan.apply
      return plan) w).2
      = match WritePlan.make target content existing generatedStamp with
        | .ok plan => (run plan.apply w).2
        | .error _ => w := by
  rcases hm : WritePlan.make target content existing generatedStamp with e | plan
  · rfl
  · exact snd_run_bind_pure plan.apply (fun _ => plan) w

/-- What a safe write does: where its target leads nowhere, and where it leads
to a stamped file, the content is stored by the target; where it leads to
something else, nothing is done or the content is stored beside it. -/
theorem writeSafely_cases (target : Path) (content : Text) (w : Workspace) :
    (w.tree.has target = false ∧
      (run (writeSafely target content generatedStamp) w).2 = (run (store target content) w).2) ∨
    (w.tree.has target = true ∧ (run (writeSafely target content generatedStamp) w).2 = w) ∨
    (∃ place bytes text, w.tree.locate target = .ok place ∧
      w.tree.find? place = some (.file bytes) ∧ Text.read? bytes = some text ∧
      Text.contains generatedStamp text = true ∧
      (run (writeSafely target content generatedStamp) w).2 = (run (store target content) w).2) ∨
    (w.tree.has target = true ∧
      (run (writeSafely target content generatedStamp) w).2
        = (run (store (target.parent.child (target.name ++ ".new")) content) w).2) := by
  have hexists : run (fileExists target) w = (.ok (w.tree.has target), w) := rfl
  unfold writeSafely
  rw [run_bind_of_ok hexists]
  rcases hh : w.tree.has target with - | -
  · -- the target leads nowhere, so the plan is to store
    left
    have hnone : run (pure none : Action (Option Text)) w = (.ok none, w) := rfl
    refine ⟨rfl, ?_⟩
    rw [if_neg Bool.false_ne_true, run_bind_of_ok hnone, run_planned, WritePlan.make]
    dsimp only
    rw [WritePlan.apply_eq]
    rfl
  · right
    rw [if_pos rfl]
    have hasks := asks_readText target w
    rcases hr : run (readText target) w with ⟨e | text, w'⟩ <;> rw [hr] at hasks <;>
      obtain rfl : w = w' := hasks
    · -- what cannot be read is not planned for
      left
      refine ⟨rfl, ?_⟩
      have hmap : run (some <$> readText target) w = (.error e, w) := by
        rw [← bind_pure_comp, run_bind_of_error hr]
      rw [run_bind_of_error hmap]
    · have hmap : run (some <$> readText target) w = (.ok (some text), w) := by
        rw [← bind_pure_comp, run_bind_of_ok hr]
        rfl
      rw [run_bind_of_ok hmap, run_planned, WritePlan.make]
      by_cases hs : Text.contains generatedStamp text = true
      · -- a file of ours is stored anew unless its content is the same
        rw [if_pos hs]
        dsimp only
        rw [WritePlan.apply_eq]
        by_cases hc : text = content
        · left
          rw [if_pos hc]
          exact ⟨rfl, rfl⟩
        · right
          left
          obtain ⟨place, bytes, hl, hf, hd⟩ := run_decoded hr
          rw [if_neg hc]
          exact ⟨place, bytes, text, hl, hf, hd, hs, rfl⟩
      · -- a file of someone else has the content put beside it
        rw [if_neg hs, conflictPath?, Path.withName?]
        by_cases hn : target.name = []
        · left
          rw [if_pos hn]
          exact ⟨rfl, rfl⟩
        · right
          right
          rw [if_neg hn]
          dsimp only
          rw [WritePlan.apply_eq]
          exact ⟨rfl, rfl⟩

/-- The name that content goes to beside a file is not the file's. -/
theorem not_puts_beside (target : Path) (w w' : Workspace) :
    ¬ w.Puts (target.parent.child (target.name ++ ".new")) w' f.place := by
  intro hp
  have hne : target.name ++ (".new" : Text) ≠ upwards := by
    intro he
    have := congrArg List.length he
    simp [upwards] at this
  exact f.name _ (FileTree.slot_child hne hp.slot) (List.suffix_append _ _)

/-- A stamped file that the target leads to is not the one written by hand. -/
theorem Kept.not_puts_stamped {place : Place} {bytes : ByteArray} (h : f.Kept root w)
    (hl : w.tree.locate target = .ok place) (hf : w.tree.find? place = some (.file bytes))
    (hr : Text.read? bytes = some text) (hs : Text.contains generatedStamp text = true)
    (w' : Workspace) : ¬ w.Puts target w' f.place := by
  intro hp
  have ha := adds_makeDirectories target.parent w
  rw [hp.made] at ha
  -- the target still leads where it led, so that is the place it names
  have hslot := FileTree.slot_of_locate (FileTree.locate_of_grows ha.grows hl)
  rw [hp.slot] at hslot
  cases hslot
  obtain ⟨before, hb, rfl⟩ := h.bytes
  rw [hb] at hf
  cases hf
  exact not_handWritten_of_read hr hs f.handWritten

theorem guards_writeSafely (target : Path) {content : Text}
    (hc : Text.contains generatedStamp content = true) :
    f.Guards root (Aims.at_ target) (writeSafely target content generatedStamp) where
  grows := by
    intro w
    rcases writeSafely_cases target content w with
      ⟨-, hr⟩ | ⟨-, hr⟩ | ⟨_, _, _, -, -, -, -, hr⟩ | ⟨-, hr⟩ <;> rw [hr]
    · exact grows_store _ _ w
    · exact refl w
    · exact grows_store _ _ w
    · exact grows_store _ _ w
  aims := by
    intro w aim hm
    cases List.mem_singleton.mp hm
    exact refl w
  kept := by
    intro w hk hn
    rcases writeSafely_cases target content w with
      ⟨hh, hr⟩ | ⟨-, hr⟩ | ⟨_, _, _, hl, hf, hd, hs, hr⟩ | ⟨-, hr⟩ <;> rw [hr]
    · exact hk.store_ne fun w' hp => hn (w, target) (List.mem_singleton_self _) ⟨hh, w', hp⟩
    · exact hk
    · exact hk.store_ne (Kept.not_puts_stamped hk hl hf hd hs)
    · exact hk.store_ne (not_puts_beside target w)
  lost := by
    intro w hk ho
    obtain ⟨aim, hm, hno, w', hp⟩ := ho
    cases List.mem_singleton.mp hm
    -- an overlooked place is one the target does not lead to before
    rcases writeSafely_cases target content w with
      ⟨-, hr⟩ | ⟨hh, -⟩ | ⟨place, _, _, hl, -, -, -, -⟩ | ⟨hh, -⟩
    · rw [hr]
      exact hk.store_eq hp hc
    · rw [hno] at hh
      cases hh
    · have hh := FileTree.has_iff_locate.mpr ⟨place, hl⟩
      rw [hno] at hh
      cases hh
    · rw [hno] at hh
      cases hh
  stays := by
    intro w hl
    rcases writeSafely_cases target content w with
      ⟨-, hr⟩ | ⟨-, hr⟩ | ⟨_, _, _, -, -, -, -, hr⟩ | ⟨-, hr⟩ <;> rw [hr]
    · exact Lost.store hl hc
    · exact hl
    · exact Lost.store hl hc
    · exact Lost.store hl hc

/-! ### Entries and their registration -/

/-- Writing by a path that does not name the place leaves it as it was. -/
theorem find?_writeText {path : Path}
    (hno : ∀ place, w.tree.slot path = .ok place → place ≠ f.place) :
    (run (writeText path text) w).2.tree.find? f.place = w.tree.find? f.place := by
  rw [writeText, run_change]
  split
  · rfl
  · rcases hw : w.tree.writeBytes path (Text.encode text) with e | t
    · rfl
    · obtain ⟨place, hs, hd, rfl⟩ := FileTree.eq_of_writeBytes hw
      show (w.tree.set place _).find? f.place = _
      rw [FileTree.find?_set _ (FileTree.ne_nil_of_find? hd), if_neg (Ne.symm (hno place hs))]

/-- First lines go to a blank file only. -/
theorem guards_ensureBoilerplate (path : Path) (ns : Text) :
    f.Guards root Aims.none (ensureBoilerplate path ns) := by
  unfold ensureBoilerplate
  refine Guards.of_asks (asks_isFile path) |>.before fun found => ?_
  rcases found with - | -
  · exact Guards.pure false
  · rw [if_pos rfl]
    have hgrows : Within Workspace.Grows (do
        let text ← readRaw path
        if Text.isBlank text then
          writeText path (entryBoilerplate ns path.stem (lineBreakOf text))
          return true
        else return false) := by
      refine within_bind (asks_readRaw path).within fun text => ?_
      split
      · exact within_bind (grows_writeText _ _) fun _ => within_pure true
      · exact within_pure false
    refine Guards.of_eq hgrows fun w h => ?_
    have hasks := asks_readRaw path w
    rcases hr : run (readRaw path) w with ⟨e | text, w'⟩ <;> rw [hr] at hasks <;>
      obtain rfl : w = w' := hasks
    · rw [run_bind_of_error hr]
    · rw [run_bind_of_ok hr]
      by_cases hb : Text.isBlank text = true
      · obtain ⟨place, bytes, hl, hf, hd⟩ := run_decoded hr
        rw [if_pos hb, snd_run_bind_pure]
        refine find?_writeText fun place' hs => ?_
        rw [FileTree.slot_of_locate hl] at hs
        cases hs
        -- what stands at the file's place is not blank
        rintro rfl
        obtain ⟨bytes', hb', he⟩ := h.bytes
        rw [hf] at hb'
        cases hb'
        rw [not_isBlank_of_kept he hd] at hb
        cases hb
      · rw [if_neg hb]
        rfl

theorem guards_writeConfig (text : Text) :
    f.Guards root Aims.none (writeText (Config.fileIn root) text) := by
  refine Guards.of_eq (grows_writeText _ _) fun w h => find?_writeText fun place hs => ?_
  -- the configuration is there, so the path names the place where it stands
  obtain ⟨place', hl, hne⟩ := h.config
  rw [FileTree.slot_of_locate hl] at hs
  cases hs
  exact hne

theorem guards_registerEntry {c : Config} (hc : c.root = root) (entry : Path) :
    f.Guards root Aims.none (registerEntry c entry) := by
  subst hc
  unfold registerEntry
  refine (Guards.of_asks (asks_normalize _)).before fun place => ?_
  refine (Guards.of_asks (within_lift _)).before fun sources => ?_
  refine (Guards.of_asks (asks_normalize _)).before fun sources => ?_
  split
  · refine (Guards.of_asks (asks_readText _)).before fun text => ?_
    split
    · refine (Guards.of_asks (within_lift _)).before fun data => ?_
      split
      · exact (guards_writeConfig _).before fun _ => Guards.pure true
      · exact Guards.pure false
    · exact Guards.throw _
    · exact Guards.throw _
    · exact Guards.throw _
  · exact Guards.pure false

theorem guards_bootstrapEntry {c : Config} (hc : c.root = root) (path : Path) :
    f.Guards root Aims.none (bootstrapEntry c path) := by
  unfold bootstrapEntry
  refine (Guards.of_asks (within_lift _)).before fun settings => ?_
  refine (guards_ensureBoilerplate _ _).before fun written => ?_
  split
  · refine (Guards.of_adds (adds_log _ _)).before fun _ => ?_
    refine (guards_registerEntry hc path).before fun registered => ?_
    split
    · refine (Guards.of_adds (adds_log _ _)).before fun _ => ?_
      exact Guards.of_asks (asks_load _)
    · exact Guards.pure c
  · exact Guards.pure c

/-! ### Requests -/

theorem guards_writeHelper (c : Config) : f.Guards root (Aims.helper c) (writeHelper c) := by
  refine Guards.next (Guards.of_asks (within_lift _)) fun path _ _ _ => ?_
  refine Guards.next (Guards.of_asks (within_lift _)) fun content w w' hr => ?_
  rw [run_lift] at hr
  exact guards_writeSafely path (stamp_renderHelper (congrArg Prod.fst hr))

theorem guards_initProject (c : Config) : f.Guards root (Aims.init c) (initProject c) := by
  unfold initProject
  rw [← bind_assoc]
  have hdirs : Within Workspace.Adds (do makeDirectories (← c.sourceDir)) :=
    within_bind (within_lift _) fun _ => adds_makeDirectories _
  refine Guards.next (Guards.of_adds hdirs) fun _ _ _ _ => ?_
  refine (guards_writeHelper c).bind fun helper _ _ _ => ?_
  cases c.autofill with
  | error fault =>
    dsimp only
    split
    · exact Guards.pure _
    · exact Guards.throw _
  | ok settings =>
    exact (guards_writeSafely _ (stamp_renderOverrides _ _ _)).before fun _ => Guards.pure _

theorem guards_generate (c : Config) (targets : Option (List Path)) (output : Option Path) :
    f.Guards root (Aims.generate c targets output) (generate c targets output) := by
  refine Guards.next (Guards.of_asks (asks_gather _ _ _)) fun i _ _ _ => ?_
  refine (guards_writeSafely _ (stamp_renderOverrides _ _ _)).before fun plan => ?_
  exact (Guards.of_adds (adds_log _ _)).before fun _ => Guards.pure _

theorem guards_generateEntry (c : Config) (entry : Path) (output : Option Path) :
    f.Guards root (Aims.entry c entry output) (generateEntry c entry output) :=
  Guards.next (Guards.of_asks (asks_entryTarget _ _ _)) fun _ _ _ _ => guards_generate _ _ _

theorem guards_generateConfigured (c : Config) (entry : Text) :
    f.Guards root (Aims.entry c (Path.ofText entry) none) (generateConfigured c entry) := by
  refine (guards_generateEntry c _ none).attempt.before fun outcome => ?_
  split
  · exact Guards.pure _
  · exact Guards.pure _
  · exact Guards.throw _

theorem guards_generateEach (c : Config) (entries : List Text) :
    f.Guards root (Aims.each c entries) (generateEach c entries) := by
  induction entries with
  | nil => exact Guards.pure []
  | cons entry entries ih =>
    refine (guards_generateConfigured c entry).bind fun result _ _ _ => ?_
    exact ih.before fun rest => Guards.pure _

theorem guards_generateEntries (c : Config) :
    f.Guards root (Aims.entries c) (generateEntries c) := by
  refine Guards.next (Guards.of_asks (within_lift _)) fun settings _ _ _ => ?_
  dsimp only
  split
  · rename_i he
    rw [he]
    exact (Guards.throw _).before fun _ => guards_generateEach c []
  · exact guards_generateEach c settings.entries

theorem guards_handleChange {c : Config} (hc : c.root = root) (path : Path) :
    f.Guards root (Aims.change c path) (handleChange c path) := by
  unfold handleChange Aims.change
  dsimp only
  split
  · exact Guards.pure _
  · split
    · exact (guards_generateEntries c).before fun _ => Guards.pure _
    · refine Guards.next (guards_bootstrapEntry hc _) fun c' _ _ _ => ?_
      exact (guards_generateEntry c' _ none).before fun _ => Guards.pure _

theorem guards_work {c : Config} (hc : c.root = root) (s : Step) :
    f.Guards root (Aims.step c s) (s.work c) := by
  cases s with
  | init => exact (guards_initProject c).discard
  | helper => exact (guards_writeHelper c).discard
  | run targets output => exact (guards_generate c targets output).discard
  | generateAll => exact (guards_generate c none none).discard
  | generateEntry entry output => exact (guards_generateEntry c entry output).discard
  | generateEntries => exact (guards_generateEntries c).discard
  | change path => exact (guards_handleChange hc path).discard

theorem guards_act (s : Step) :
    f.Guards root (Aims.next (Config.load root) fun c => Aims.step c s) (s.act root) :=
  Guards.next (Guards.of_asks (asks_load root)) fun _ _ _ h =>
    guards_work (root_of_load h) s

/-! ### Sessions -/

theorem Lost.session (steps : List Step) (h : f.Lost root w) :
    f.Lost root (session root steps w) := by
  induction steps generalizing w with
  | nil => exact h
  | cons s steps ih => exact ih ((guards_act s).stays w h)

/-- A file that no write overlooks is kept through the session. -/
theorem Kept.session (steps : List Step) (h : f.Kept root w)
    (hn : ∀ aim ∈ sessionAims root steps w, ¬ aim.1.Overlooks aim.2 f.place) :
    f.Kept root (session root steps w) := by
  induction steps generalizing w with
  | nil => exact h
  | cons s steps ih =>
    refine ih ((guards_act s).kept w h fun aim hm => hn aim ?_) fun aim hm => hn aim ?_
    · exact List.mem_append_left _ hm
    · exact List.mem_append_right _ hm

/-- A file that a write overlooks is lost. -/
theorem Kept.lost_session (steps : List Step) (h : f.Kept root w)
    (ho : ∃ aim ∈ sessionAims root steps w, aim.1.Overlooks aim.2 f.place) :
    f.Lost root (FluidScss.session root steps w) := by
  induction steps generalizing w with
  | nil =>
    obtain ⟨aim, hm, -⟩ := ho
    cases hm
  | cons s steps ih =>
    -- the first request loses the file, or keeps it and a later one loses it
    by_cases hs : ∃ aim ∈ Aims.next (Config.load root) (fun c => Aims.step c s) w,
        aim.1.Overlooks aim.2 f.place
    · exact Lost.session steps ((guards_act s).lost w h hs)
    · have hk := (guards_act s).kept w h fun aim hm hov => hs ⟨aim, hm, hov⟩
      obtain ⟨aim, hm, hov⟩ := ho
      rcases List.mem_append.mp hm with hm | hm
      · exact absurd ⟨aim, hm, hov⟩ hs
      · exact ih hk ⟨aim, hm, hov⟩

/-- Whatever the file, a session only adds to the tree. -/
theorem grows_session (root : Path) (f : HandFile) (steps : List Step) (w : Workspace) :
    w.Grows (session root steps w) := by
  induction steps generalizing w with
  | nil => exact refl w
  | cons s steps ih => exact Trans.trans ((guards_act (f := f) s).grows w) (ih _)

/-- The tree only grows up to each aim of a session. -/
theorem grows_of_mem_sessionAims (f : HandFile) (steps : List Step) :
    ∀ aim ∈ sessionAims root steps w, w.Grows aim.1 := by
  induction steps generalizing w with
  | nil =>
    intro aim hm
    cases hm
  | cons s steps ih =>
    intro aim hm
    rcases List.mem_append.mp hm with hm | hm
    · exact (guards_act (f := f) s).aims w aim hm
    · exact Trans.trans ((guards_act (f := f) s).grows w) (ih aim hm)

end HandFile

/-! ### The main result -/

/-- Without a configuration nothing is done. -/
theorem session_of_no_config (steps : List Step) {w : Workspace}
    (hno : w.tree.has (Config.fileIn root) = false) :
    session root steps w = w ∧ sessionAims root steps w = [] := by
  have hload : run (Config.load root) w = (.error (.configuration .missingFile), w) := by
    rw [run_load, hno]
    rfl
  induction steps with
  | nil => exact ⟨rfl, rfl⟩
  | cons s steps ih =>
    have hact : (run (s.act root) w).2 = w := by
      rw [Step.act, run_bind_of_error hload]
    refine ⟨?_, ?_⟩
    · rw [session, hact]
      exact ih.1
    · show Aims.next _ _ w ++ sessionAims root steps (run (s.act root) w).2 = []
      rw [hact, ih.2, Aims.next, hload]
      rfl

/-- **Files written by hand**: such a file, unless it is the configuration or
its name ends in `.new`, has the same bytes at the end of a session when, and
only when, no write overlooked it; and only a target with a double dot can
overlook it. -/
theorem handWritten_kept_iff (root : Path) (steps : List Step) (w : Workspace) (p : Path)
    (place : Place) (bytes : ByteArray) (hplace : w.tree.locate p = .ok place)
    (hfile : w.tree.readBytes p = .ok bytes) (hhand : HandWritten bytes)
    (hname : ∀ name, place.getLast? = some name → ¬ (".new" : Text) <:+ name)
    (hconfig : w.tree.locate (Config.fileIn root) ≠ .ok place) :
    ((session root steps w).tree.readBytes p = .ok bytes ↔
      ∀ aim ∈ sessionAims root steps w, ¬ aim.1.Overlooks aim.2 place) ∧
    ∀ aim ∈ sessionAims root steps w, aim.1.Overlooks aim.2 place → upwards ∈ aim.2.parts := by
  let f : HandFile := ⟨place, bytes, hhand, hname⟩
  refine ⟨?_, fun aim hm => ?_⟩
  · rcases hl : w.tree.locate (Config.fileIn root) with e | q
    · -- no request gets past loading the configuration
      have hno : w.tree.has (Config.fileIn root) = false := by
        rw [FileTree.has, FileTree.entryAt, hl]
        rfl
      obtain ⟨hs, ha⟩ := session_of_no_config steps hno
      rw [hs, ha]
      exact ⟨fun _ aim hm => absurd hm List.not_mem_nil, fun _ => hfile⟩
    · have hk : f.Kept root w := by
        refine ⟨⟨q, hl, ?_⟩, bytes, (FileTree.readBytes_eq_ok_iff hplace).mp hfile, rfl⟩
        rintro rfl
        exact hconfig hl
      have hend := FileTree.locate_of_grows (HandFile.grows_session root f steps w) hplace
      rw [FileTree.readBytes_eq_ok_iff hend]
      constructor
      · -- what is lost is stamped, and no bytes are stamped and by hand
        intro hkept aim hm hov
        obtain ⟨lost, hf, hs⟩ := (HandFile.Kept.lost_session steps hk ⟨aim, hm, hov⟩).bytes
        rw [hkept] at hf
        cases hf
        exact not_handWritten_of_stamped hs hhand
      · intro hn
        obtain ⟨kept, hf, rfl⟩ := (HandFile.Kept.session steps hk hn).bytes
        exact hf
  · have hr := FileTree.reachable_of_locate hplace
    exact Workspace.upwards_mem_of_overlooks
      (hr.of_grows (HandFile.grows_of_mem_sessionAims f steps aim hm))

/-! ### A file that is lost -/

/-- The root of a project. -/
def exampleRoot : Path := ⟨.single, ["project"]⟩

/-- A style sheet in it, written by hand. -/
def exampleSheet : HandFile where
  place := ["project", "hand.scss"]
  bytes := Text.encode ".mine \x7b color: red; \x7d\n"
  handWritten := by
    intro text ht
    rw [Text.decode_encode] at ht
    cases ht
    decide
  name := by
    intro name hn
    cases hn
    decide

/-- The project: the style sheet and an empty configuration. -/
def exampleProject : Workspace where
  tree := ⟨[(["project"], .directory), (["project", configName], .file (Text.encode "\x7b\x7d")),
    (exampleSheet.place, .file exampleSheet.bytes)]⟩

/-- The way to the style sheet through a directory that is not there. -/
def exampleDetour : Path := ⟨.relative, ["missing", upwards, "hand.scss"]⟩

theorem handWritten_kept_iff_example :
    (session exampleRoot [.init] exampleProject).tree.readBytes (exampleRoot.child "hand.scss")
        = .ok exampleSheet.bytes ↔
      ∀ aim ∈ sessionAims exampleRoot [.init] exampleProject,
        ¬ aim.1.Overlooks aim.2 exampleSheet.place :=
  (handWritten_kept_iff exampleRoot [.init] exampleProject (exampleRoot.child "hand.scss")
    exampleSheet.place exampleSheet.bytes rfl rfl exampleSheet.handWritten exampleSheet.name
    (by decide)).1

theorem load_exampleProject :
    run (Config.load exampleRoot) exampleProject = (.ok ⟨exampleRoot, []⟩, exampleProject) := by
  have hbytes : run (readBytes (Config.fileIn exampleRoot)) exampleProject
      = (.ok (Text.encode "\x7b\x7d"), exampleProject) := rfl
  have htext : run (readText (Config.fileIn exampleRoot)) exampleProject
      = (.ok "\x7b\x7d", exampleProject) := by
    unfold readText
    rw [run_bind_of_ok hbytes, decoded, Text.read_encode]
    rfl
  have hjson : Json.read? "\x7b\x7d" = .ok (.obj []) := by cbv
  rw [run_load, if_pos (by decide), run_bind_of_ok htext, run_lift, Config.ofText, hjson]

/-- A directory on the way that is missing hides the file from the question
whether it is there, and is made before the file is written. -/
theorem overlooks_exampleDetour :
    exampleProject.Overlooks (exampleRoot.join exampleDetour) exampleSheet.place := by
  have hmade : exampleProject.Puts (exampleRoot.join exampleDetour)
      { exampleProject with tree := exampleProject.tree.set ["project", "missing"] .directory }
      exampleSheet.place := ⟨rfl, rfl, rfl, nofun⟩
  exact ⟨rfl, _, hmade⟩

/-- A run with that output writes over the style sheet. -/
theorem handWritten_lost_behind_missing_directory :
    exampleProject.tree.readBytes (exampleRoot.child "hand.scss") = .ok exampleSheet.bytes ∧
      HandWritten exampleSheet.bytes ∧
      exampleProject.tree.locate (Config.fileIn exampleRoot) ≠ .ok exampleSheet.place ∧
      (session exampleRoot [.run (some []) (some exampleDetour)] exampleProject).tree.readBytes
        (exampleRoot.child "hand.scss") ≠ .ok exampleSheet.bytes := by
  refine ⟨rfl, exampleSheet.handWritten, by decide, fun hkept => ?_⟩
  have hk : exampleSheet.Kept exampleRoot exampleProject :=
    ⟨⟨_, rfl, by decide⟩, _, rfl, rfl⟩
  obtain ⟨i, hi, hout⟩ : ∃ i, run (gather ⟨exampleRoot, []⟩ (some []) (some exampleDetour))
      exampleProject = (.ok i, exampleProject) ∧ i.output = exampleRoot.join exampleDetour :=
    ⟨_, rfl, rfl⟩
  have haims : (exampleProject, exampleRoot.join exampleDetour)
      ∈ sessionAims exampleRoot [.run (some []) (some exampleDetour)] exampleProject := by
    refine List.mem_append_left _ ?_
    rw [Aims.next, load_exampleProject]
    show _ ∈ Aims.generate ⟨exampleRoot, []⟩ (some []) (some exampleDetour) exampleProject
    rw [Aims.generate, Aims.next, hi]
    dsimp only
    rw [hout]
    exact List.mem_singleton_self _
  have hl := hk.lost_session _ ⟨_, haims, overlooks_exampleDetour⟩
  obtain ⟨bytes, hb, hs⟩ := hl.bytes
  have hlocate : exampleProject.tree.locate (exampleRoot.child "hand.scss")
      = .ok exampleSheet.place := rfl
  have hgrows := HandFile.grows_session exampleRoot exampleSheet
    [.run (some []) (some exampleDetour)] exampleProject
  rw [FileTree.readBytes_eq_ok_iff (FileTree.locate_of_grows hgrows hlocate)] at hkept
  rw [hkept] at hb
  cases hb
  exact not_handWritten_of_stamped hs exampleSheet.handWritten

end FluidScss
