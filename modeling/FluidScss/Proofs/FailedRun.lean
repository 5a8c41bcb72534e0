/-
FluidScss/Proofs/FailedRun.lean

Runs that fail.  A generation reads before it writes and writes one file at
the end, so one that fails has written no file: what stood in the tree stands
there, and at most directories are new (`Workspace.Spared`).  The judgement
`a.Spares` says so of all failing runs of `a`; it is closed under what
generations are put together from.
-/
import FluidScss.Proofs.SafeWrite

namespace FluidScss

open FluidScss.Action

variable {α β : Type} {w w' : Workspace}

/-- All that stood in the tree stands there as it was, and no file is new. -/
structure Workspace.Spared (w w' : Workspace) : Prop where
  adds : w.Adds w'
  noNewFiles : w.NoNewFiles w'

instance : IsPreorder Workspace Workspace.Spared where
  refl w := ⟨refl w, refl w⟩
  trans _ _ _ h h' := ⟨Trans.trans h.adds h'.adds, Trans.trans h.noNewFiles h'.noNewFiles⟩

namespace Action

/-- Runs that fail spare all files. -/
def Spares (a : Action α) : Prop :=
  ∀ w e w', run a w = (.error e, w') → w.Spared w'

/-- What keeps all files, failing or not, spares them when it fails. -/
theorem Spares.of_within {a : Action α} (h : Within Workspace.Spared a) : Spares a := by
  intro w e w' hr
  have hw := h w
  rwa [hr] at hw

theorem Spares.of_asks {a : Action α} (h : Asks a) : Spares a := .of_within h.within

/-- Before it fails, work may go through a part that keeps all files. -/
theorem Spares.bind_within {a : Action α} {f : α → Action β} (ha : Within Workspace.Spared a)
    (hf : ∀ x, Spares (f x)) : Spares (a >>= f) := by
  intro w e w' h
  have hw := ha w
  rw [run_bind] at h
  rcases hr : run a w with ⟨e' | x, w₁⟩ <;> rw [hr] at h hw
  · cases h
    exact hw
  · exact Trans.trans hw (hf x w₁ e w' h)

theorem Spares.bind_asks {a : Action α} {f : α → Action β} (ha : Asks a)
    (hf : ∀ x, Spares (f x)) : Spares (a >>= f) :=
  .bind_within ha.within hf

/-- What follows may write, if it does not fail. -/
theorem Spares.bind_total {a : Action α} {f : α → Action β} (ha : Spares a)
    (hf : ∀ x w, ∃ y w', run (f x) w = (.ok y, w')) : Spares (a >>= f) := by
  intro w e w' h
  rw [run_bind] at h
  rcases hr : run a w with ⟨e' | x, w₁⟩ <;> rw [hr] at h
  · cases h
    exact ha w _ _ hr
  · obtain ⟨y, w₂, hy⟩ := hf x w₁
    dsimp only at h
    rw [hy] at h
    cases h

/-! ### Writing -/

theorem spares_writeText (path : Path) (text : Text) : Spares (writeText path text) := by
  intro w e w' h
  rw [writeText, run_change] at h
  split at h
  · cases h
    exact refl w
  · split at h
    · cases h
    · cases h
      exact refl w

theorem spares_store (path : Path) (text : Text) : Spares (store path text) :=
  .bind_within (fun w => ⟨adds_makeDirectories _ w, noNewFiles_makeDirectories _ w⟩)
    fun _ => spares_writeText path text

end Action

theorem spares_writeSafely (target : Path) (content stamp : Text) :
    Spares (writeSafely target content stamp) := by
  refine .bind_asks (asks_fileExists target) fun found => ?_
  have hplan : ∀ existing, Spares (do
      let plan ← WritePlan.make target content existing stamp
      plan.apply
      return plan) := by
    intro existing
    refine .bind_asks (within_lift _) fun plan => .bind_total ?_ fun _ w => ⟨plan, w, rfl⟩
    rw [WritePlan.apply_eq]
    split
    · exact .of_asks (within_pure ())
    · exact spares_store _ _
  cases found
  · exact .bind_asks (within_pure none) hplan
  · refine .bind_asks ?_ hplan
    rw [← bind_pure_comp]
    exact within_bind (asks_readText target) fun _ => within_pure _

/-! ### Generating -/

theorem spares_generate (c : Config) (targets : Option (List Path)) (output : Option Path) :
    Spares (generate c targets output) := by
  refine .bind_asks (asks_gather c targets output) fun i => ?_
  exact .bind_total (spares_writeSafely _ _ _) fun plan w => ⟨_, _, rfl⟩

/-- **A generation that fails writes no file.** -/
theorem spares_generateEntry (c : Config) (entry : Path) (output : Option Path) :
    Spares (generateEntry c entry output) :=
  .bind_asks (asks_entryTarget c entry output) fun _ => spares_generate _ _ _

end FluidScss
