/-
FluidScss/Proofs/Action.lean

Running work, and what it keeps.  `Action.run` is the result of work and the
workspace it leaves; one lemma per construct says how a run goes on.

`a.Within R` says that every run of `a` relates the workspace it starts from
to the one it leaves.  For a relation that is reflexive and transitive this
is closed under everything work is put together from (`within_bind`), so what
one step of the file system keeps is proved once and inherited by all that is
built on it.  Work that changes nothing is `a.Asks`, and it is within every
such relation.
-/
import FluidScss.Generate
import FluidScss.Project
import FluidScss.Watch.Responsive
import Mathlib.Order.Defs.Unbundled

namespace FluidScss

variable {α β : Type}

/-- A result of two parts has a result of the first. -/
theorem exists_of_except_bind {a : Except Fault α} {f : α → Except Fault β} {y : β}
    (h : (a >>= f) = .ok y) : ∃ x, a = .ok x ∧ f x = .ok y := by
  rcases a with e | x
  · cases h
  · exact ⟨x, rfl, h⟩

namespace Action

/-! ### Runs -/

/-- The result of work or its fault, and the workspace it leaves. -/
def run (a : Action α) (w : Workspace) : Except Fault α × Workspace := a w

@[simp] theorem run_lift (e : Except Fault α) (w : Workspace) :
    run (liftM e : Action α) w = (e, w) := by
  cases e <;> rfl

@[simp] theorem run_tree (w : Workspace) : run tree w = (.ok w.tree, w) := rfl

/-- Work goes on from where its first part ended, unless that part failed. -/
theorem run_bind (a : Action α) (f : α → Action β) (w : Workspace) :
    run (a >>= f) w = match run a w with
      | (.ok x, w') => run (f x) w'
      | (.error e, w') => (.error e, w') := by
  simp only [run, bind, ExceptT.bind, ExceptT.mk, StateT.bind]
  rcases (a w : Except Fault α × Workspace) with ⟨_ | x, w'⟩ <;> rfl

theorem run_bind_of_ok {a : Action α} {f : α → Action β} {w w' : Workspace} {x : α}
    (h : run a w = (.ok x, w')) : run (a >>= f) w = run (f x) w' := by
  rw [run_bind, h]

theorem run_bind_of_error {a : Action α} {f : α → Action β} {w w' : Workspace} {e : Fault}
    (h : run a w = (.error e, w')) : run (a >>= f) w = (.error e, w') := by
  rw [run_bind, h]

/-- A result that is there is gone on with. -/
theorem run_lift_bind {r : Except Fault α} {f : α → Action β} {x : α} (h : r = .ok x)
    (w : Workspace) : run ((liftM r : Action α) >>= f) w = run (f x) w := by
  rw [h]
  rfl

/-- What follows without touching the workspace leaves it as it was left. -/
theorem snd_run_bind_pure (a : Action α) (f : α → β) (w : Workspace) :
    (run (a >>= fun x => pure (f x)) w).2 = (run a w).2 := by
  rw [run_bind]
  rcases run a w with ⟨_ | x, w'⟩ <;> rfl

/-! ### What every run keeps -/

/-- Every run relates where it starts to where it ends. -/
def Within (R : Workspace → Workspace → Prop) (a : Action α) : Prop := ∀ w, R w (run a w).2

/-- Work that changes nothing. -/
abbrev Asks (a : Action α) : Prop := Within Eq a

variable {R : Workspace → Workspace → Prop} [IsPreorder Workspace R]

theorem Asks.within {a : Action α} (ha : Asks a) : Within R a := by
  intro w
  rw [← ha w]
  exact refl w

theorem within_pure (x : α) : Within R (pure x : Action α) := fun w => refl w

theorem within_throw (e : Fault) : Within R (throw e : Action α) := fun w => refl w

/-- What follows a fault is not run. -/
theorem within_throw_bind (e : Fault) (f : α → Action β) :
    Within R ((throw e : Action α) >>= f) := fun w => refl w

theorem within_lift (e : Except Fault α) : Within R (liftM e : Action α) := by
  intro w
  rw [run_lift]
  exact refl w

theorem within_tree : Within R tree := fun w => refl w

theorem within_ofSystem (p : Path) (r : Except SystemFault α) : Within R (ofSystem p r) := by
  intro w
  cases r <;> exact refl w

/-- What follows need only be related where its first part leads. -/
theorem within_bind_of {a : Action α} {f : α → Action β} (ha : Within R a)
    (hf : ∀ w x w', run a w = (.ok x, w') → R w' (run (f x) w').2) : Within R (a >>= f) := by
  intro w
  have h := ha w
  rw [run_bind]
  rcases hr : run a w with ⟨_ | x, w'⟩ <;> rw [hr] at h
  · exact h
  · exact Trans.trans h (hf w x w' hr)

theorem within_bind {a : Action α} {f : α → Action β} (ha : Within R a)
    (hf : ∀ x, Within R (f x)) : Within R (a >>= f) :=
  within_bind_of ha fun _ x w' _ => hf x w'

omit [IsPreorder Workspace R] in
theorem within_attempt {a : Action α} (ha : Within R a) : Within R (attempt a) :=
  fun w => ha w

end Action

end FluidScss
