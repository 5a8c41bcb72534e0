/-
FluidScss/Proofs/Stopping.lean

Faults that end a loop.  A loop logs faults of the project and of the file
system and goes on (`Fault.isLogged`); work that ends with any other fault
stops it (`Stops`).  Work in two parts stops where its first part does, or
where its second does behind it (`stops_bind_iff`), so what stops a step is put
together from what stops its parts.

Of the parts that use files only two stop: reading a file whose bytes do not
decode, and using a path with the NUL character.  `FileTree.Garbled` says both
of a file that is read, and that is all that stops a safe write
(`stops_writeSafely_iff`).
-/
import FluidScss.Proofs.KitFault

namespace FluidScss

open FluidScss.Action

variable {α β : Type} {w w' w₁ : Workspace} {e : Fault} {p path target : Path}

/-- The levels that nested work is sure to go down: the arrays and objects of a
text that is read, and the directories around one that is made.  How many more
it can go depends on the work around it. -/
def nestingReach : Nat := 900

/-- Whether a loop logs a fault and goes on. -/
def Fault.isLogged (e : Fault) : Bool := e.isKitFault || e.isSystemFault

/-- A file that is no text in an encoding: its path holds the NUL character, or
its bytes do not decode. -/
def FileTree.Garbled (t : FileTree) (decode : ByteArray → Option Text) (p : Path) : Prop :=
  p.hasNul = true ∨ ∃ bytes, t.readBytes p = .ok bytes ∧ decode bytes = none

/-! ### The NUL character -/

namespace Path

theorem hasNul_child (p : Path) (name : Text) :
    (p.child name).hasNul = (p.hasNul || decide ('\x00' ∈ name)) := by
  rw [child, hasNul, hasNul, List.any_append, List.any_cons, List.any_nil, Bool.or_false]

theorem not_mem_name (h : p.hasNul = false) : '\x00' ∉ p.name := by
  rw [name]
  rcases hlast : p.parts.getLast? with - | part
  · exact List.not_mem_nil
  · rw [hasNul, List.any_eq_false] at h
    simpa using h part (List.mem_of_getLast? hlast)

end Path

theorem hasNul_besidePath (h : p.hasNul = false) : (besidePath p).hasNul = false := by
  have hname : '\x00' ∉ p.name ++ (".new" : Text) := by
    rw [List.mem_append, not_or]
    exact ⟨Path.not_mem_name h, by decide⟩
  rw [besidePath, Path.hasNul_child, Path.hasNul_parent h, decide_eq_false hname]
  rfl

namespace Action

/-! ### Work that stops -/

/-- Work that ends with a fault that is not logged. -/
def Stops (a : Action α) (w : Workspace) : Prop :=
  ∃ e w', run a w = (.error e, w') ∧ e.isLogged = false

/-- Work whose faults are all logged. -/
abbrev Lasting (a : Action α) : Prop := FailsOnly (·.isLogged = true) a

theorem FailsOnly.not_stops {a : Action α} (h : Lasting a) : ¬ Stops a w := by
  rintro ⟨e, w', hr, he⟩
  rw [h w e w' hr] at he
  cases he

theorem stops_congr {a b : Action α} (h : run a w = run b w') : Stops a w ↔ Stops b w' := by
  unfold Stops
  rw [h]

theorem not_stops_of_ok {a : Action α} {x : α} (h : run a w = (.ok x, w')) : ¬ Stops a w := by
  rintro ⟨e, w'', hr, -⟩
  rw [h] at hr
  cases hr

theorem stops_iff_of_error {a : Action α} (h : run a w = (.error e, w')) :
    Stops a w ↔ e.isLogged = false := by
  refine ⟨?_, fun he => ⟨e, w', h, he⟩⟩
  rintro ⟨e', w'', hr, he⟩
  rw [h] at hr
  cases hr
  exact he

theorem not_stops_of_error {a : Action α} (h : run a w = (.error e, w'))
    (he : e.isLogged = true) : ¬ Stops a w := by
  rw [stops_iff_of_error h, he]
  exact nofun

theorem stops_lift_iff {r : Except Fault α} :
    Stops (liftM r : Action α) w ↔ ∃ e, r = .error e ∧ e.isLogged = false := by
  constructor
  · rintro ⟨e, w', hr, he⟩
    rw [run_lift] at hr
    exact ⟨e, (Prod.mk.inj hr).1, he⟩
  · rintro ⟨e, rfl, he⟩
    exact ⟨e, w, rfl, he⟩

/-- Work in two parts stops in one of them. -/
theorem stops_bind_iff {a : Action α} {f : α → Action β} :
    Stops (a >>= f) w ↔ Stops a w ∨ ∃ x w', run a w = (.ok x, w') ∧ Stops (f x) w' := by
  constructor
  · rintro ⟨e, w', hr, he⟩
    rcases cases_of_run_bind hr with hr | ⟨x, w₁, hx, hr⟩
    · exact .inl ⟨e, w', hr, he⟩
    · exact .inr ⟨x, w₁, hx, e, w', hr, he⟩
  · rintro (⟨e, w', hr, he⟩ | ⟨x, w', hx, e, w'', hr, he⟩)
    · exact ⟨e, w', run_bind_of_error hr, he⟩
    · exact ⟨e, w'', (run_bind_of_ok hx).trans hr, he⟩

/-- After a part that succeeds it is the rest that matters. -/
theorem stops_bind_of_ok {a : Action α} {f : α → Action β} {x : α}
    (h : run a w = (.ok x, w')) : Stops (a >>= f) w ↔ Stops (f x) w' :=
  stops_congr (run_bind_of_ok h)

/-- Before a part that does not stop it is the first that matters. -/
theorem stops_bind_of_lasting {a : Action α} {f : α → Action β} (h : ∀ x, Lasting (f x)) :
    Stops (a >>= f) w ↔ Stops a w := by
  rw [stops_bind_iff]
  refine or_iff_left ?_
  rintro ⟨x, w', -, hs⟩
  exact (h x).not_stops hs

/-! ### Files -/

/-- Reading stops at files that are no text. -/
theorem stops_read_iff {decode : ByteArray → Option Text} :
    Stops (do decoded decode (← readBytes p)) w ↔ w.tree.Garbled decode p := by
  unfold Stops FileTree.Garbled
  rw [run_bind, run_readBytes]
  by_cases hp : p.hasNul = true
  · simp only [hp, if_true, true_or, iff_true]
    exact ⟨_, _, rfl, rfl⟩
  · rw [Bool.not_eq_true] at hp
    simp only [hp, Bool.false_eq_true, if_false, false_or]
    rcases hb : w.tree.readBytes p with e | bytes
    · refine ⟨?_, nofun⟩
      rintro ⟨e, w', hr, he⟩
      cases hr
      cases he
    · dsimp only
      rw [decoded]
      rcases hd : decode bytes with - | text
      · exact ⟨fun _ => ⟨bytes, rfl, hd⟩, fun _ => ⟨_, _, rfl, rfl⟩⟩
      · constructor
        · rintro ⟨e, w', hr, -⟩
          cases hr
        · rintro ⟨bytes', hb', hd'⟩
          cases hb'
          rw [hd] at hd'
          cases hd'

theorem stops_readText_iff : Stops (readText p) w ↔ w.tree.Garbled Text.read? p := stops_read_iff

/-- Where nothing is there are no bytes that could be no text. -/
theorem garbled_iff_of_missing {decode : ByteArray → Option Text} (h : w.tree.has p = false) :
    w.tree.Garbled decode p ↔ p.hasNul = true := by
  refine or_iff_left ?_
  rintro ⟨bytes, hb, -⟩
  obtain ⟨place, hl, -⟩ := FileTree.locate_of_readBytes hb
  rw [FileTree.has_iff_locate.mpr ⟨place, hl⟩] at h
  cases h

/-- The path of a file that was read holds no NUL character. -/
theorem hasNul_of_read {decode : ByteArray → Option Text} {text : Text}
    (h : run (do decoded decode (← readBytes p)) w = (.ok text, w')) : p.hasNul = false :=
  (run_decoded_iff.mp h).2.1

theorem lasting_writeText (hp : p.hasNul = false) (text : Text) : Lasting (writeText p text) := by
  intro w e w' h
  rw [writeText, run_change, hp, if_neg Bool.false_ne_true] at h
  split at h <;> cases h
  rfl

theorem lasting_makeDirectoryIn (hp : p.hasNul = false) : Lasting (makeDirectoryIn p) := by
  unfold makeDirectoryIn
  rw [hp, if_neg Bool.false_ne_true]
  refine failsOnly_tree.bind fun t => ?_
  split
  · exact nofun
  · exact failsOnly_throw rfl
  · refine (failsOnly_tree.bind fun _ => failsOnly_pure _ : Lasting (isDirectory p)).bind
      fun found => ?_
    cases found
    · exact failsOnly_throw rfl
    · exact failsOnly_pure ()

/-- The directories around a path hold the NUL character only if it does. -/
theorem lasting_makeDirectoriesFrom {root : Root} {parts : List Text}
    (hp : Path.hasNul ⟨root, parts.reverse⟩ = false) :
    Lasting (makeDirectoriesFrom root parts) := by
  induction parts with
  | nil => exact lasting_makeDirectoryIn hp
  | cons part parts ih =>
    have hparts : Path.hasNul ⟨root, parts.reverse⟩ = false := by
      have h := Path.hasNul_parent hp
      rwa [Path.parent, List.reverse_cons, List.dropLast_concat] at h
    have hone := lasting_makeDirectoryIn hp
    rw [makeDirectoriesFrom, hp, if_neg Bool.false_ne_true]
    refine failsOnly_tree.bind fun t => ?_
    split
    · exact (ih hparts).bind fun _ => hone
    · exact hone

theorem lasting_makeDirectories (hp : p.hasNul = false) : Lasting (makeDirectories p) := by
  refine lasting_makeDirectoriesFrom ?_
  rwa [List.reverse_reverse]

theorem lasting_store (hp : p.hasNul = false) (text : Text) : Lasting (store p text) :=
  (lasting_makeDirectories (Path.hasNul_parent hp)).bind fun _ => lasting_writeText hp text

/-- No directory is made whose path holds the NUL character. -/
theorem stops_makeDirectories (hp : p.hasNul = true) : Stops (makeDirectories p) w := by
  obtain ⟨root, parts⟩ := p
  obtain ⟨front, part, rfl⟩ : ∃ front part, parts = front ++ [part] := by
    rcases List.eq_nil_or_concat' parts with rfl | h
    · cases hp
    · exact h
  refine ⟨.invalidValue, w, ?_, rfl⟩
  have hwhole : Path.hasNul ⟨root, (part :: front.reverse).reverse⟩ = true := by
    rwa [List.reverse_cons, List.reverse_reverse]
  rw [makeDirectories, List.reverse_concat, makeDirectoriesFrom, hwhole, if_pos rfl]
  rfl

end Action

/-- Where the directory holds the NUL character with the path, storing stops. -/
theorem stops_store_iff {text : Text} (hparent : p.parent.hasNul = p.hasNul) :
    Stops (store p text) w ↔ p.hasNul = true := by
  cases hp : p.hasNul with
  | false => exact ⟨fun h => absurd h (lasting_store hp text).not_stops, nofun⟩
  | true => exact ⟨fun _ => rfl, fun _ => stops_bind_iff.mpr (.inl (stops_makeDirectories
      (hparent.trans hp)))⟩

/-! ### Writing safely -/

/-- The plan against a text is for the target or the file beside it. -/
theorem exists_plan (hname : target.name ≠ []) (content text : Text) :
    ∃ plan, WritePlan.make target content (some text) generatedStamp = .ok plan ∧
      (plan.path = target ∨ plan.path = besidePath target) := by
  cases hs : Text.contains generatedStamp text with
  | false => exact ⟨_, make_some_iff.mpr (.inr (.inr ⟨hs, hname, rfl⟩)), .inr rfl⟩
  | true =>
    by_cases hc : text = content
    · exact ⟨_, make_some_iff.mpr (.inl ⟨hs, hc, rfl⟩), .inl rfl⟩
    · exact ⟨_, make_some_iff.mpr (.inr (.inl ⟨hs, hc, rfl⟩)), .inl rfl⟩

theorem lasting_planned {plan : WritePlan} (hp : plan.path.hasNul = false) :
    Lasting (do
      plan.apply
      return plan) := by
  refine FailsOnly.bind ?_ fun _ => failsOnly_pure plan
  rw [WritePlan.apply_eq]
  split
  · exact failsOnly_pure ()
  · exact lasting_store hp _

/-- A safe write stops at targets that are no text. -/
theorem stops_writeSafely_iff {content : Text} (hname : target.name ≠ [])
    (hparent : target.parent.hasNul = target.hasNul) :
    Stops (writeSafely target content generatedStamp) w ↔ w.tree.Garbled Text.read? target := by
  have hexists : run (fileExists target) w = (.ok (w.tree.has target), w) := rfl
  unfold writeSafely
  rw [stops_bind_of_ok hexists]
  cases hh : w.tree.has target with
  | false =>
    -- the target is created, and there is nothing to read
    have hnone : run (pure none : Action (Option Text)) w = (.ok none, w) := rfl
    have hmake : run (liftM (WritePlan.make target content none generatedStamp)
        : Action WritePlan) w = (.ok ⟨target, target, content, .created⟩, w) := rfl
    rw [if_neg Bool.false_ne_true, stops_bind_of_ok hnone, stops_bind_of_ok hmake,
      stops_bind_of_lasting fun _ => failsOnly_pure _, WritePlan.apply_eq, if_neg nofun,
      stops_store_iff hparent, garbled_iff_of_missing hh]
  | true =>
    rw [if_pos rfl, ← bind_pure_comp, bind_assoc, stops_bind_iff, stops_readText_iff]
    refine or_iff_left ?_
    -- a target that was read holds no NUL character, and so the plan is for a path without one
    rintro ⟨text, w', hread, hstops⟩
    have hnul := hasNul_of_read hread
    obtain ⟨plan, hmake, hpath⟩ := exists_plan hname content text
    have hlift : run (liftM (WritePlan.make target content (some text) generatedStamp)
        : Action WritePlan) w' = (.ok plan, w') := by
      rw [run_lift, hmake]
    rw [pure_bind] at hstops
    refine (lasting_planned ?_).not_stops ((stops_bind_of_ok hlift).mp hstops)
    rcases hpath with h | h <;> rw [h]
    · exact hnul
    · exact hasNul_besidePath hnul

/-! ### Loops -/

/-- The workspace with a line more in the log. -/
def Workspace.logged (w : Workspace) (level : Level) (message : Text) : Workspace :=
  { w with log := w.log ++ [⟨level, message⟩] }

theorem run_log (level : Level) (message : Text) (w : Workspace) :
    run (Action.log level message) w = (.ok (), w.logged level message) := rfl

end FluidScss
