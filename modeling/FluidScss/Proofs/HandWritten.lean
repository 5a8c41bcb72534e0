/-
FluidScss/Proofs/HandWritten.lean

What a session does to a file that someone wrote by hand: one that is not
blank and does not carry the stamp of generated files.

`Guards A a` says what work `a` with the aims `A` does to such a file at one
place.  It stays as it is unless one of the aims overlooks the place; if one
does, the file is replaced by a generated one and is never seen again.  The
judgement is closed under everything work is put together from, so it is
proved once for `writeSafely` and inherited by every request.

The two outcomes exclude each other (`not_handWritten_of_stamped`), so what
the judgement says of a whole session is an equivalence.
-/
import FluidScss.Proofs.Session
import FluidScss.Proofs.Text

namespace FluidScss

/-- Bytes that a person wrote, as far as a program can tell: text, if it is
text, that is not blank and does not carry the stamp. -/
def HandWritten (bytes : ByteArray) : Prop :=
  ∀ text, Text.decode? bytes = some text →
    Text.isBlank text = false ∧ Text.contains generatedStamp text = false

/-- The bytes of a text that carries the stamp. -/
def Stamped (bytes : ByteArray) : Prop :=
  ∃ text, bytes = Text.encode text ∧ Text.contains generatedStamp text = true

theorem not_handWritten_of_stamped {bytes : ByteArray} (h : Stamped bytes) :
    ¬ HandWritten bytes := by
  rintro hh
  obtain ⟨text, rfl, ht⟩ := h
  have := (hh text (Text.decode_encode text)).2
  rw [ht] at this
  cases this

/-- Neither kind of file is blank. -/
theorem not_isBlank_of_kept {bytes : ByteArray} {text : Text}
    (h : HandWritten bytes ∨ Stamped bytes) (ht : Text.decode? bytes = some text) :
    Text.isBlank text = false := by
  rcases h with hh | ⟨stamped, rfl, hs⟩
  · exact (hh text ht).1
  · rw [Text.decode_encode] at ht
    cases ht
    exact Text.not_isBlank_of_contains (c := 'G') (by decide) (by decide) hs

/-- What a stamped file reads as carries the stamp in the file itself. -/
theorem not_handWritten_of_read {bytes : ByteArray} {text : Text}
    (ht : Text.read? bytes = some text) (hs : Text.contains generatedStamp text = true) :
    ¬ HandWritten bytes := by
  intro hh
  obtain ⟨raw, hraw, rfl⟩ := Option.map_eq_some_iff.mp ht
  have hc := Text.contains_of_contains_unifyNewlines (by decide) hs
  rw [(hh raw hraw).2] at hc
  cases hc

/-! ### Generated texts carry the stamp -/

theorem stamp_renderOverrides (m : Marker) (mobileMax : Int) (overrides : List Override) :
    Text.contains generatedStamp (renderOverrides m mobileMax overrides) = true := by
  rw [Text.contains_iff_isInfix]
  have hheader : generatedStamp <:+: overridesHeader m := by
    unfold overridesHeader
    simp only [List.append_assoc]
    iterate 5 apply Text.isInfix_append_right
    exact (List.prefix_append _ _).isInfix
  unfold renderOverrides renderRules
  simp only [List.append_assoc]
  exact hheader.trans (List.prefix_append _ _).isInfix

theorem stamp_renderHelper {c : Config} {text : Text} (h : renderHelper c = .ok text) :
    Text.contains generatedStamp text = true := by
  rw [Text.contains_iff_isInfix]
  have hline : generatedStamp <:+: "// " ++ generatedStamp ++ " from " ++ configName := by
    simp only [List.append_assoc]
    apply Text.isInfix_append_right
    exact (List.prefix_append _ _).isInfix
  rw [renderHelper] at h
  rcases hc : c.coefficients with _ | ⟨mobile, desktop⟩ <;> rw [hc] at h <;> cases h
  refine (hline.trans (Text.isInfix_join_of_mem ?_)).trans (List.prefix_append _ _).isInfix
  iterate 6 apply List.mem_append_left
  simp [helperHead]

/-! ### Writing -/

/-- All that stood in the tree stands there, its directories still
directories. -/
def Workspace.Grows (w w' : Workspace) : Prop := w.tree.Grows w'.tree

instance : IsPreorder Workspace Workspace.Grows where
  refl w := FileTree.Grows.refl w.tree
  trans _ _ _ h h' := FileTree.Grows.trans h h'

theorem Workspace.Adds.grows {w w' : Workspace} (h : w.Adds w') : w.Grows w' :=
  FileTree.Extends.grows h

theorem Action.Within.grows {α : Type} {a : Action α} (h : Action.Within Workspace.Adds a) :
    Action.Within Workspace.Grows a :=
  fun w => (h w).grows

/-- Makes the directories around a path and writes a text to it. -/
def Action.store (path : Path) (text : Text) : Action Unit := do
  makeDirectories path.parent
  writeText path text

theorem WritePlan.apply_eq (plan : WritePlan) :
    plan.apply = if plan.mode = .unchanged then pure () else Action.store plan.path plan.content := by
  unfold apply Action.store
  split <;> rfl

theorem Workspace.Puts.unique {w w₁ w₂ : Workspace} {path : Path} {place₁ place₂ : Place}
    (h₁ : w.Puts path w₁ place₁) (h₂ : w.Puts path w₂ place₂) : w₁ = w₂ ∧ place₁ = place₂ := by
  have hw : w₁ = w₂ := congrArg Prod.snd (h₁.made.symm.trans h₂.made)
  subst hw
  have hp := h₁.slot.symm.trans h₂.slot
  cases hp
  exact ⟨rfl, rfl⟩

open FluidScss.Action in
/-- A text is stored if the directories around the path can be made and it
then names a place for a file; otherwise only directories were added. -/
theorem run_store (path : Path) (text : Text) (w : Workspace) :
    (∃ w' place, w.Puts path w' place ∧ run (store path text) w
        = (.ok (), { w' with tree := w'.tree.set place (.file (Text.encode text)) })) ∨
    ((∀ w' place, ¬ w.Puts path w' place) ∧ w.Adds (run (store path text) w).2) := by
  unfold store
  have hadds := adds_makeDirectories path.parent w
  rcases hm : run (makeDirectories path.parent) w with ⟨e | _, w'⟩ <;> rw [hm] at hadds
  · right
    refine ⟨fun w'' place hp => ?_, ?_⟩
    · have := hp.made
      rw [hm] at this
      cases this
    · rw [run_bind_of_error hm]
      exact hadds
  · rw [run_bind_of_ok hm, writeText, run_change]
    -- past the directories, a path with the NUL character, one that names no
    -- place and one that names a directory are refused
    have hno : (path.hasNul = true ∨ ∀ place, w'.tree.slot path = .ok place →
        w'.tree.find? place = some .directory) → ∀ w'' place, ¬ w.Puts path w'' place := by
      intro h w'' place hp
      have hw : w'' = w' := congrArg Prod.snd (hp.made.symm.trans hm)
      subst hw
      rcases h with hnul | hdir
      · rw [hp.named] at hnul
        cases hnul
      · exact hp.free (hdir place hp.slot)
    by_cases hnul : path.hasNul = true
    · right
      rw [if_pos hnul]
      exact ⟨hno (.inl hnul), hadds⟩
    · rw [if_neg hnul]
      rcases hs : w'.tree.slot path with e | place
      · right
        have hw : w'.tree.writeBytes path (Text.encode text) = .error e := by
          rw [FileTree.writeBytes, hs]
        rw [hw]
        refine ⟨hno (.inr fun place h => ?_), hadds⟩
        rw [hs] at h
        cases h
      · by_cases hd : w'.tree.find? place = some .directory
        · right
          have hw : w'.tree.writeBytes path (Text.encode text) = .error .isDirectory := by
            rw [FileTree.writeBytes, hs]
            simp only [hd]
          rw [hw]
          refine ⟨hno (.inr fun place' h => ?_), hadds⟩
          rw [hs] at h
          cases h
          exact hd
        · left
          have hw : w'.tree.writeBytes path (Text.encode text)
              = .ok (w'.tree.set place (.file (Text.encode text))) := by
            rw [FileTree.writeBytes, hs]
            simp only
          rw [hw]
          exact ⟨w', place, ⟨hm, by simpa using hnul, hs, hd⟩, rfl⟩

/-! ### The file and what holds of it -/

/-- A file written by hand: the place where it stands and its bytes.  Its
name is none of those that content goes to beside a file of someone else. -/
structure HandFile where
  place : Place
  bytes : ByteArray
  handWritten : HandWritten bytes
  name : ∀ name, place.getLast? = some name → ¬ (".new" : Text) <:+ name

namespace HandFile

variable {α β : Type} (root : Path) (f : HandFile)

/-- Bytes with the property `P` stand at the file's place, and the
configuration stands at another. -/
structure Holds (P : ByteArray → Prop) (w : Workspace) : Prop where
  config : ∃ place, w.tree.locate (Config.fileIn root) = .ok place ∧ place ≠ f.place
  bytes : ∃ bytes, w.tree.find? f.place = some (.file bytes) ∧ P bytes

/-- The file is there as it was. -/
abbrev Kept (w : Workspace) : Prop := f.Holds root (· = f.bytes) w

/-- A generated file is there in its stead. -/
abbrev Lost (w : Workspace) : Prop := f.Holds root Stamped w

/-- What stands there either way. -/
def Either (bytes : ByteArray) : Prop := HandWritten bytes ∨ Stamped bytes

variable {root f} {P Q : ByteArray → Prop} {w w' : Workspace}

theorem Holds.mono (h : f.Holds root P w) (hpq : ∀ bytes, P bytes → Q bytes) :
    f.Holds root Q w := by
  obtain ⟨bytes, hb, hp⟩ := h.bytes
  exact ⟨h.config, bytes, hb, hpq bytes hp⟩

theorem Kept.either (h : f.Kept root w) : f.Holds root Either w :=
  Holds.mono h fun _ he => .inl (he ▸ f.handWritten)

theorem Lost.either (h : f.Lost root w) : f.Holds root Either w :=
  Holds.mono h fun _ hs => .inr hs

/-- Where the tree has grown and the place is as it was, what held holds. -/
theorem Holds.of_eq (h : f.Holds root P w) (hg : w.Grows w')
    (he : w'.tree.find? f.place = w.tree.find? f.place) : f.Holds root P w' := by
  obtain ⟨place, hl, hne⟩ := h.config
  exact ⟨⟨place, FileTree.locate_of_grows hg hl, hne⟩, by rw [he]; exact h.bytes⟩

theorem Holds.of_adds (h : f.Holds root P w) (ha : w.Adds w') : f.Holds root P w' := by
  obtain ⟨bytes, hb, -⟩ := h.bytes
  exact h.of_eq ha.grows (by rw [hb, ha _ _ hb])

/-- A file written to another place leaves all as it was. -/
theorem Holds.set_ne {place : Place} {bytes : ByteArray} (h : f.Holds root P w)
    (hd : w.tree.find? place ≠ some .directory) (hne : place ≠ f.place) :
    f.Holds root P { w with tree := w.tree.set place (.file bytes) } := by
  refine h.of_eq (FileTree.grows_set_file hd bytes) ?_
  show (w.tree.set place _).find? f.place = _
  rw [FileTree.find?_set _ (FileTree.ne_nil_of_find? hd), if_neg (Ne.symm hne)]

/-- A file written to the place itself is what stands there then. -/
theorem Holds.set_eq {bytes : ByteArray} (h : f.Holds root P w) (hq : Q bytes) :
    f.Holds root Q { w with tree := w.tree.set f.place (.file bytes) } := by
  obtain ⟨before, hb, -⟩ := h.bytes
  have hd : w.tree.find? f.place ≠ some .directory := by
    rw [hb]
    exact nofun
  obtain ⟨place, hl, hne⟩ := h.config
  refine ⟨⟨place, FileTree.locate_of_grows (FileTree.grows_set_file hd bytes) hl, hne⟩,
    bytes, ?_, hq⟩
  show (w.tree.set f.place _).find? f.place = _
  rw [FileTree.find?_set _ (FileTree.ne_nil_of_find? hd), if_pos rfl]

/-! ### The judgement -/

variable (root f)

/-- What work with the aims `A` does to the file. -/
structure Guards (A : Aims) (a : Action α) : Prop where
  grows : Action.Within Workspace.Grows a
  aims : ∀ w, ∀ aim ∈ A w, w.Grows aim.1
  kept : ∀ w, f.Kept root w → (∀ aim ∈ A w, ¬ aim.1.Overlooks aim.2 f.place) →
    f.Kept root (Action.run a w).2
  lost : ∀ w, f.Kept root w → (∃ aim ∈ A w, aim.1.Overlooks aim.2 f.place) →
    f.Lost root (Action.run a w).2
  stays : ∀ w, f.Lost root w → f.Lost root (Action.run a w).2

variable {root f} {A : Aims} {a : Action α}

theorem Guards.congr {A' : Aims} (h : f.Guards root A a) (he : ∀ w, A' w = A w) :
    f.Guards root A' a where
  grows := h.grows
  aims w aim hm := h.aims w aim (by rwa [he w] at hm)
  kept w hk hn := h.kept w hk (by rwa [he w] at hn)
  lost w hk ho := h.lost w hk (by rwa [he w] at ho)
  stays := h.stays

/-- Work that leaves the place as it is has no need of aims. -/
theorem Guards.of_eq (hg : Action.Within Workspace.Grows a)
    (he : ∀ w, f.Holds root Either w →
      (Action.run a w).2.tree.find? f.place = w.tree.find? f.place) :
    f.Guards root Aims.none a where
  grows := hg
  aims _ _ hm := by cases hm
  kept w hk _ := hk.of_eq (hg w) (he w (Kept.either hk))
  lost w _ ho := by
    obtain ⟨aim, hm, -⟩ := ho
    cases hm
  stays w hl := hl.of_eq (hg w) (he w (Lost.either hl))

theorem Guards.of_adds (ha : Action.Within Workspace.Adds a) : f.Guards root Aims.none a := by
  refine Guards.of_eq ha.grows fun w h => ?_
  obtain ⟨bytes, hb, -⟩ := h.bytes
  rw [hb, ha w _ _ hb]

theorem Guards.of_asks (ha : Action.Asks a) : f.Guards root Aims.none a :=
  Guards.of_adds ha.within

/-- The aims of work in two parts are those of the parts. -/
theorem Guards.bind {B : α → Aims} {g : α → Action β} (ha : f.Guards root A a)
    (hg : ∀ x w w', Action.run a w = (.ok x, w') → f.Guards root (B x) (g x)) :
    f.Guards root (A.andNext a B) (a >>= g) := by
  -- a first part that fails is all there is, and has all the aims
  have hrun : ∀ w, (∃ e w', Action.run a w = (.error e, w') ∧
      Action.run (a >>= g) w = (.error e, w') ∧ A.andNext a B w = A w) ∨
      ∃ x w', Action.run a w = (.ok x, w') ∧
        Action.run (a >>= g) w = Action.run (g x) w' ∧ A.andNext a B w = A w ++ B x w' := by
    intro w
    rcases hr : Action.run a w with ⟨e | x, w'⟩
    · exact .inl ⟨e, w', rfl, Action.run_bind_of_error hr, by simp [Aims.andNext, Aims.next, hr]⟩
    · exact .inr ⟨x, w', rfl, Action.run_bind_of_ok hr, by simp [Aims.andNext, Aims.next, hr]⟩
  constructor
  case grows =>
    -- each part only adds to the tree
    intro w
    have h := ha.grows w
    rcases hrun w with ⟨e, w', hr, hb, -⟩ | ⟨x, w', hr, hb, -⟩ <;> rw [hr] at h <;> rw [hb]
    · exact h
    · exact Trans.trans h ((hg x w w' hr).grows w')
  case aims =>
    intro w aim hm
    rcases hrun w with ⟨e, w', -, -, hA⟩ | ⟨x, w', hr, -, hA⟩ <;> rw [hA] at hm
    · exact ha.aims w aim hm
    · rcases List.mem_append.mp hm with hm | hm
      · exact ha.aims w aim hm
      · have h := ha.grows w
        rw [hr] at h
        exact Trans.trans h ((hg x w w' hr).aims w' aim hm)
  case kept =>
    intro w hk hn
    rcases hrun w with ⟨e, w', hr, hb, hA⟩ | ⟨x, w', hr, hb, hA⟩ <;> rw [hA] at hn <;> rw [hb]
    · have h := ha.kept w hk hn
      rwa [hr] at h
    · have h := ha.kept w hk fun aim hm => hn aim (List.mem_append_left _ hm)
      rw [hr] at h
      exact (hg x w w' hr).kept w' h fun aim hm => hn aim (List.mem_append_right _ hm)
  case lost =>
    intro w hk ho
    rcases hrun w with ⟨e, w', hr, hb, hA⟩ | ⟨x, w', hr, hb, hA⟩ <;> rw [hA] at ho <;> rw [hb]
    · have h := ha.lost w hk ho
      rwa [hr] at h
    · -- what the first part loses the second leaves lost; what it keeps is
      -- lost in the second, for the aim that overlooks the file is there
      by_cases h1 : ∃ aim ∈ A w, aim.1.Overlooks aim.2 f.place
      · have h := ha.lost w hk h1
        rw [hr] at h
        exact (hg x w w' hr).stays w' h
      · have h := ha.kept w hk fun aim hm hov => h1 ⟨aim, hm, hov⟩
        rw [hr] at h
        obtain ⟨aim, hm, hov⟩ := ho
        rcases List.mem_append.mp hm with hm | hm
        · exact absurd ⟨aim, hm, hov⟩ h1
        · exact (hg x w w' hr).lost w' h ⟨aim, hm, hov⟩
  case stays =>
    intro w hl
    have h := ha.stays w hl
    rcases hrun w with ⟨e, w', hr, hb, -⟩ | ⟨x, w', hr, hb, -⟩ <;> rw [hr] at h <;> rw [hb]
    · exact h
    · exact (hg x w w' hr).stays w' h

/-- Work whose first part has no aims. -/
theorem Guards.next {B : α → Aims} {g : α → Action β} (ha : f.Guards root Aims.none a)
    (hg : ∀ x w w', Action.run a w = (.ok x, w') → f.Guards root (B x) (g x)) :
    f.Guards root (Aims.next a B) (a >>= g) :=
  (ha.bind hg).congr fun _ => rfl

/-- Work whose second part has no aims. -/
theorem Guards.before {g : α → Action β} (ha : f.Guards root A a)
    (hg : ∀ x, f.Guards root Aims.none (g x)) : f.Guards root A (a >>= g) := by
  refine (ha.bind fun x _ _ _ => hg x).congr fun w => ?_
  rcases hr : Action.run a w with ⟨e | x, w'⟩ <;> simp [Aims.andNext, Aims.next, Aims.none, hr]

theorem Guards.pure (x : α) : f.Guards root Aims.none (Pure.pure x : Action α) :=
  Guards.of_asks (Action.within_pure x)

theorem Guards.throw (e : Fault) :
    f.Guards root Aims.none (MonadExcept.throw e : Action α) :=
  Guards.of_asks (Action.within_throw e)

theorem Guards.attempt (ha : f.Guards root A a) : f.Guards root A (Action.attempt a) where
  grows := ha.grows
  aims := ha.aims
  kept := ha.kept
  lost := ha.lost
  stays := ha.stays

theorem Guards.discard (ha : f.Guards root A a) : f.Guards root A (Functor.discard a) := by
  have hd : Functor.discard a = a >>= fun _ => Pure.pure PUnit.unit := by
    rw [bind_pure_comp]
    rfl
  rw [hd]
  exact ha.before fun _ => Guards.pure _

end HandFile

end FluidScss
