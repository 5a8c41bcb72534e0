/-
FluidScss/Proofs/FileTree.lean

What file trees keep while they are worked on.  Nothing here is ever taken
away: `t.Grows t'` says that all that stands in `t` stands in `t'`, its
directories still directories, and `t.Extends t'` that it stands there
unchanged.  A path that leads somewhere leads to the same place in a tree
that has grown (`locate_of_grows`), so the place of a file may be fixed at
the start of a run.

`walk_names` is the other half of following paths: without double dots a
path spells the place it leads to.  Together with `Reachable`, the places
that can be come to from the root, it gives the one fact about double dots
that is needed later (`has_of_slot`): a path without them to a file that is
there is found to be there.

Which paths the system refuses is told apart from the walk that finds it out
(`Overlong`, `refuses_iff`), and so are the long ones of which nothing can be
said here (`Unsettled`).
-/
import FluidScss.FileTree.Changes
import Mathlib.Data.List.Basic

namespace FluidScss

namespace FileTree

variable {t t' t'' : FileTree} {here mid place : Place} {p : Path} {ps qs : List Text}

/-! ### Growing -/

/-- What stands in `t` stands in `t'`, and directories are directories. -/
def Grows (t t' : FileTree) : Prop :=
  ∀ place e, t.find? place = some e →
    ∃ e', t'.find? place = some e' ∧ (e = .directory → e' = .directory)

/-- What stands in `t` stands in `t'` as it was. -/
def Extends (t t' : FileTree) : Prop :=
  ∀ place e, t.find? place = some e → t'.find? place = some e

theorem Extends.refl (t : FileTree) : t.Extends t := fun _ _ h => h

theorem Extends.trans (h : t.Extends t') (h' : t'.Extends t'') : t.Extends t'' :=
  fun place e he => h' place e (h place e he)

theorem Extends.grows (h : t.Extends t') : t.Grows t' :=
  fun place e he => ⟨e, h place e he, id⟩

theorem Grows.refl (t : FileTree) : t.Grows t := (Extends.refl t).grows

theorem Grows.trans (h : t.Grows t') (h' : t'.Grows t'') : t.Grows t'' := by
  intro place e he
  obtain ⟨e', he', hd⟩ := h place e he
  obtain ⟨e'', he'', hd'⟩ := h' place e' he'
  exact ⟨e'', he'', fun hdir => hd' (hd hdir)⟩

theorem Grows.directory (h : t.Grows t') (hp : t.find? place = some .directory) :
    t'.find? place = some .directory := by
  obtain ⟨e', he', hd⟩ := h place _ hp
  rw [he', hd rfl]

theorem Grows.isSome (h : t.Grows t') (hp : (t.find? place).isSome) :
    (t'.find? place).isSome := by
  obtain ⟨e, he⟩ := Option.isSome_iff_exists.mp hp
  obtain ⟨e', he', -⟩ := h place e he
  rw [he']
  rfl

/-- A place that is no directory is not the root. -/
theorem ne_nil_of_find? (h : t.find? place ≠ some .directory) : place ≠ [] := by
  rintro rfl
  exact h rfl

theorem ne_directory {bytes : ByteArray} (h : t.find? place = some (.file bytes)) :
    t.find? place ≠ some .directory := by
  rw [h]
  exact nofun

/-- A file may be written where no directory stands. -/
theorem grows_set_file (h : t.find? place ≠ some .directory) (bytes : ByteArray) :
    t.Grows (t.set place (.file bytes)) := by
  intro q e he
  rw [find?_set t (ne_nil_of_find? h)]
  by_cases hq : q = place
  · subst hq
    refine ⟨.file bytes, if_pos rfl, fun hd => ?_⟩
    rw [he, hd] at h
    exact absurd rfl h
  · exact ⟨e, by rw [if_neg hq, he], id⟩

/-- What is set where nothing stood leaves all else as it was. -/
theorem extends_set (h : t.find? place = none) (e : Entry) : t.Extends (t.set place e) := by
  intro q d hd
  have hne : place ≠ [] := ne_nil_of_find? (by rw [h]; exact nofun)
  have hq : q ≠ place := by
    rintro rfl
    rw [h] at hd
    cases hd
  rw [find?_set t hne, if_neg hq, hd]

/-! ### Following paths -/

/-- One step of a walk: from a directory to what stands there. -/
theorem walk_cons {part : Text} (h : t.walk here (part :: ps) = .ok place) :
    t.find? here = some .directory ∧
      ∃ next, next = (if part = upwards then here.dropLast else here ++ [part]) ∧
        (t.find? next).isSome ∧ t.walk next ps = .ok place := by
  rw [walk] at h
  split at h
  · rename_i hd
    refine ⟨hd, _, rfl, ?_⟩
    by_cases hs : (t.find? (if part = upwards then here.dropLast else here ++ [part])).isSome
    · exact ⟨hs, (if_pos hs).symm.trans h⟩
    · cases (if_neg hs).symm.trans h
  · cases h
  · cases h

theorem walk_cons_of {part : Text} (hd : t.find? here = some .directory) {next : Place}
    (hn : next = if part = upwards then here.dropLast else here ++ [part])
    (hs : (t.find? next).isSome) : t.walk here (part :: ps) = t.walk next ps := by
  subst hn
  rw [walk, hd]
  exact if_pos hs

theorem walk_of_grows (hg : t.Grows t') (h : t.walk here ps = .ok place) :
    t'.walk here ps = .ok place := by
  induction ps generalizing here with
  | nil => exact h
  | cons part ps ih =>
    obtain ⟨hd, next, hn, hs, hw⟩ := walk_cons h
    rw [walk_cons_of (hg.directory hd) hn (hg.isSome hs)]
    exact ih hw

/-- In a tree that has grown a path leads where it led. -/
theorem locate_of_grows (hg : t.Grows t') (h : t.locate p = .ok place) :
    t'.locate p = .ok place :=
  walk_of_grows hg h

theorem walk_append (h : t.walk here ps = .ok mid) :
    t.walk here (ps ++ qs) = t.walk mid qs := by
  induction ps generalizing here with
  | nil =>
    cases h
    rfl
  | cons part ps ih =>
    obtain ⟨hd, next, hn, hs, hw⟩ := walk_cons h
    rw [List.cons_append, walk_cons_of hd hn hs]
    exact ih hw

/-- A walk along two lists of components is a walk along the first, and then
along the second. -/
theorem exists_walk_append (h : t.walk here (ps ++ qs) = .ok place) :
    ∃ mid, t.walk here ps = .ok mid ∧ t.walk mid qs = .ok place := by
  induction ps generalizing here with
  | nil => exact ⟨here, rfl, h⟩
  | cons part ps ih =>
    obtain ⟨hd, next, hn, hs, hw⟩ := walk_cons h
    obtain ⟨mid, h1, h2⟩ := ih hw
    exact ⟨mid, by rw [walk_cons_of hd hn hs, h1], h2⟩

/-- What a path leads to stands there. -/
theorem isSome_of_walk (hh : (t.find? here).isSome) (h : t.walk here ps = .ok place) :
    (t.find? place).isSome := by
  induction ps generalizing here with
  | nil =>
    cases h
    exact hh
  | cons part ps ih =>
    obtain ⟨-, next, -, hs, hw⟩ := walk_cons h
    exact ih hs hw

theorem isSome_of_locate (h : t.locate p = .ok place) : (t.find? place).isSome :=
  isSome_of_walk rfl h

theorem entryAt_of_locate {e : Entry} (h : t.locate p = .ok place)
    (he : t.find? place = some e) : t.entryAt p = .ok e := by
  rw [entryAt, h]
  simp only [he]

theorem locate_of_entryAt {e : Entry} (h : t.entryAt p = .ok e) :
    ∃ place, t.locate p = .ok place ∧ t.find? place = some e := by
  rw [entryAt] at h
  split at h
  · cases h
  · rename_i place hl
    refine ⟨place, hl, ?_⟩
    rcases hf : t.find? place with - | d <;> rw [hf] at h <;> cases h
    rfl

theorem has_iff_locate : t.has p = true ↔ ∃ place, t.locate p = .ok place := by
  constructor
  · intro h
    rw [has] at h
    rcases he : t.entryAt p with _ | e
    · rw [he] at h
      cases h
    · obtain ⟨place, hl, -⟩ := locate_of_entryAt he
      exact ⟨place, hl⟩
  · rintro ⟨place, hl⟩
    obtain ⟨e, he⟩ := Option.isSome_iff_exists.mp (isSome_of_locate hl)
    rw [has, entryAt_of_locate hl he]
    rfl

theorem readBytes_eq_ok_iff {bytes : ByteArray} (h : t.locate p = .ok place) :
    t.readBytes p = .ok bytes ↔ t.find? place = some (.file bytes) := by
  obtain ⟨e, he⟩ := Option.isSome_iff_exists.mp (isSome_of_locate h)
  rw [readBytes, entryAt_of_locate h he, he]
  cases e <;> simp

theorem locate_of_readBytes {bytes : ByteArray} (h : t.readBytes p = .ok bytes) :
    ∃ place, t.locate p = .ok place ∧ t.find? place = some (.file bytes) := by
  rcases he : t.entryAt p with e | d
  · rw [readBytes, he] at h
    cases h
  · obtain ⟨place, hl, -⟩ := locate_of_entryAt he
    exact ⟨place, hl, (readBytes_eq_ok_iff hl).mp h⟩

/-! ### Slots -/

/-- A path that leads to a place names it. -/
theorem slot_of_locate (h : t.locate p = .ok place) : t.slot p = .ok place := by
  obtain ⟨root, parts⟩ := p
  rcases List.eq_nil_or_concat' parts with rfl | ⟨init, part, rfl⟩
  · exact h
  · obtain ⟨mid, h1, h2⟩ := exists_walk_append h
    obtain ⟨hd, next, hn, -, hw⟩ := walk_cons h2
    have hm : t.locate (Path.parent ⟨root, init ++ [part]⟩) = .ok mid := by
      rw [Path.parent, List.dropLast_concat]
      exact h1
    rw [slot, List.getLast?_concat]
    simp only [hm, hd]
    cases hw
    exact congrArg Except.ok hn.symm

/-- What is written by a path is a file where the path names a place without
a directory. -/
theorem eq_of_writeBytes {bytes : ByteArray} (h : t.writeBytes p bytes = .ok t') :
    ∃ place, t.slot p = .ok place ∧ t.find? place ≠ some .directory ∧
      t' = t.set place (.file bytes) := by
  rw [writeBytes] at h
  split at h
  · cases h
  · rename_i place hs
    refine ⟨place, hs, ?_⟩
    split at h
    · cases h
    · rename_i hne
      cases h
      exact ⟨hne, rfl⟩

/-- A directory is made where a path names a place and nothing stands. -/
theorem eq_of_makeDirectory (h : t.makeDirectory p = .ok t') :
    ∃ place, t.slot p = .ok place ∧ t.find? place = none ∧ t' = t.set place .directory := by
  rw [makeDirectory] at h
  split at h
  · cases h
  · rename_i place hs
    refine ⟨place, hs, ?_⟩
    split at h
    · cases h
    · rename_i hn
      cases h
      exact ⟨hn, rfl⟩

theorem grows_of_writeBytes {bytes : ByteArray} (h : t.writeBytes p bytes = .ok t') :
    t.Grows t' := by
  obtain ⟨place, -, hd, rfl⟩ := eq_of_writeBytes h
  exact grows_set_file hd bytes

theorem extends_of_makeDirectory (h : t.makeDirectory p = .ok t') : t.Extends t' := by
  obtain ⟨place, -, hn, rfl⟩ := eq_of_makeDirectory h
  exact extends_set hn .directory

/-- A place that a path names ends with the path's name, unless that goes up. -/
theorem getLast?_of_slot {name : Text} (hs : t.slot p = .ok place)
    (hl : p.parts.getLast? = some name) (hu : name ≠ upwards) : place.getLast? = some name := by
  rw [slot, hl] at hs
  dsimp only at hs
  split at hs
  · cases hs
  · split at hs
    · have hne : ¬ name = ['.', '.'] := hu
      rw [if_neg hne] at hs
      cases hs
      simp
    · cases hs
    · cases hs

/-- The slot of a path with another last component, unless that goes up. -/
theorem slot_child {name : Text} (hname : name ≠ upwards)
    (h : t.slot (p.child name) = .ok place) : place.getLast? = some name :=
  getLast?_of_slot h (by simp [Path.child]) hname

/-! ### Paths without double dots -/

/-- Without double dots a walk goes down by the components it is given. -/
theorem walk_names (hu : upwards ∉ ps) (h : t.walk here ps = .ok place) :
    place = here ++ ps := by
  induction ps generalizing here with
  | nil =>
    cases h
    simp
  | cons part ps ih =>
    rw [List.mem_cons, not_or] at hu
    obtain ⟨-, next, hn, -, hw⟩ := walk_cons h
    rw [if_neg (Ne.symm hu.1)] at hn
    rw [ih hu.2 hw, hn, List.append_assoc]
    rfl

/-- Without double dots a path spells the place that it names. -/
theorem slot_names (hu : upwards ∉ p.parts) (h : t.slot p = .ok place) : place = p.parts := by
  obtain ⟨root, parts⟩ := p
  rcases List.eq_nil_or_concat' parts with rfl | ⟨init, part, rfl⟩
  · cases h
    rfl
  · rw [List.mem_append, List.mem_singleton, not_or] at hu
    rw [slot, List.getLast?_concat, Path.parent, List.dropLast_concat] at h
    dsimp only at h
    split at h
    · cases h
    · rename_i here hh
      have hpart : ¬ part = ['.', '.'] := Ne.symm hu.2
      split at h
      · rw [if_neg hpart] at h
        cases h
        rw [walk_names hu.1 hh, List.nil_append]
      · cases h
      · cases h

/-- A place that the walk down to it comes to. -/
structure Reachable (t : FileTree) (place : Place) : Prop where
  walk : t.walk [] place = .ok place
  names : upwards ∉ place

theorem Reachable.dropLast (h : t.Reachable place) : t.Reachable place.dropLast := by
  rcases List.eq_nil_or_concat' place with rfl | ⟨init, last, rfl⟩
  · exact h
  · rw [List.dropLast_concat]
    have hu : upwards ∉ init := fun hm => h.names (List.mem_append_left _ hm)
    obtain ⟨mid, h1, -⟩ := exists_walk_append h.walk
    rw [walk_names hu h1, List.nil_append] at h1
    exact ⟨h1, hu⟩

/-- All places that walks from a reachable place lead to are reachable. -/
theorem Reachable.of_walk (hh : t.Reachable here) (h : t.walk here ps = .ok place) :
    t.Reachable place := by
  induction ps generalizing here with
  | nil =>
    cases h
    exact hh
  | cons part ps ih =>
    obtain ⟨hd, next, hn, hs, hw⟩ := walk_cons h
    refine ih ?_ hw
    by_cases hu : part = upwards
    · rw [if_pos hu] at hn
      exact hn ▸ hh.dropLast
    · rw [if_neg hu] at hn
      refine ⟨?_, ?_⟩
      · have hstep : next = if part = upwards then here.dropLast else here ++ [part] := by
          rw [if_neg hu, hn]
        calc t.walk [] next = t.walk here [part] := by rw [hn, walk_append hh.walk]
          _ = .ok next := by rw [walk_cons_of hd hstep hs]; rfl
      · rw [hn, List.mem_append, List.mem_singleton, not_or]
        exact ⟨hh.names, Ne.symm hu⟩

theorem reachable_of_locate (h : t.locate p = .ok place) : t.Reachable place :=
  Reachable.of_walk ⟨rfl, List.not_mem_nil⟩ h

theorem Reachable.of_grows (hg : t.Grows t') (h : t.Reachable place) : t'.Reachable place :=
  ⟨walk_of_grows hg h.walk, h.names⟩

/-- A path without double dots that names, in whatever tree, a place that is
reachable leads there. -/
theorem has_of_slot (hu : upwards ∉ p.parts) (hs : t'.slot p = .ok place)
    (hr : t.Reachable place) : t.has p = true := by
  refine has_iff_locate.mpr ⟨place, ?_⟩
  rw [locate, ← slot_names hu hs]
  exact hr.walk

/-! ### Names that are too long -/

/-- Components that come to a name that is too long: those in front of it lead
to a directory, and nothing has that name there. -/
def ComesToLongName (t : FileTree) (here : Place) (parts : List Text) : Prop :=
  ∃ front name rest, parts = front ++ name :: rest ∧ ∃ dir, t.walk here front = .ok dir ∧
    t.find? dir = some .directory ∧
    t.find? (if name = upwards then dir.dropLast else dir ++ [name]) = none ∧
    maxNameBytes < (Text.encode name).size

/-- No name is come to from where no directory stands. -/
theorem ComesToLongName.directory (h : t.ComesToLongName here ps) :
    t.find? here = some .directory := by
  obtain ⟨front, name, rest, rfl, dir, hwalk, hdir, -⟩ := h
  cases front with
  | nil =>
    cases hwalk
    exact hdir
  | cons part front => exact (walk_cons hwalk).1

/-- Where something stands the name is further down. -/
theorem comesToLongName_cons_of_some {part : Text} {next : Place}
    (hd : t.find? here = some .directory)
    (hn : next = if part = upwards then here.dropLast else here ++ [part])
    (hs : (t.find? next).isSome) :
    t.ComesToLongName here (part :: ps) ↔ t.ComesToLongName next ps := by
  constructor
  · rintro ⟨front, name, rest, hps, dir, hwalk, hdir, hnone, hlong⟩
    cases front with
    | nil =>
      cases hps
      cases hwalk
      rw [hn, hnone] at hs
      cases hs
    | cons first front =>
      cases hps
      rw [walk_cons_of hd hn hs] at hwalk
      exact ⟨front, name, rest, rfl, dir, hwalk, hdir, hnone, hlong⟩
  · rintro ⟨front, name, rest, rfl, dir, hwalk, hlong⟩
    exact ⟨part :: front, name, rest, rfl, dir, by rw [walk_cons_of hd hn hs, hwalk], hlong⟩

/-- Where nothing stands it is the name that was to be there. -/
theorem comesToLongName_cons_of_none {part : Text} (hd : t.find? here = some .directory)
    (hs : t.find? (if part = upwards then here.dropLast else here ++ [part]) = none) :
    t.ComesToLongName here (part :: ps) ↔ maxNameBytes < (Text.encode part).size := by
  constructor
  · rintro ⟨front, name, rest, hps, dir, hwalk, -, -, hlong⟩
    cases front with
    | nil =>
      cases hps
      exact hlong
    | cons first front =>
      cases hps
      obtain ⟨-, next, rfl, hsome, -⟩ := walk_cons hwalk
      rw [hs] at hsome
      cases hsome
  · exact fun hlong => ⟨[], part, ps, rfl, here, rfl, hd, hs, hlong⟩

theorem stopsAtLongName_iff : t.stopsAtLongName here ps = true ↔ t.ComesToLongName here ps := by
  induction ps generalizing here with
  | nil =>
    refine ⟨nofun, ?_⟩
    rintro ⟨front, name, rest, h, -⟩
    exact absurd h.symm (List.append_ne_nil_of_right_ne_nil _ (List.cons_ne_nil _ _))
  | cons part ps ih =>
    rw [stopsAtLongName]
    split
    · rename_i hd
      dsimp only
      rw [show ['.', '.'] = upwards from rfl]
      by_cases hs : (t.find? (if part = upwards then here.dropLast else here ++ [part])).isSome
      · rw [if_pos hs, ih, comesToLongName_cons_of_some hd rfl hs]
      · rw [if_neg hs, comesToLongName_cons_of_none hd (by simpa using hs), decide_eq_true_iff]
    · rename_i hd
      exact ⟨nofun, fun h => absurd h.directory hd⟩

/-- A path that the system refuses: nothing stands there, and it is too long or
comes to a name that is. -/
structure Overlong (t : FileTree) (p : Path) : Prop where
  named : p.hasNul = false
  missing : t.has p = false
  long : maxPathBytes < (Text.encode p.toText).size ∨ t.ComesToLongName [] p.parts

theorem refuses_iff : t.refuses p = true ↔ t.Overlong p := by
  rw [refuses, Bool.and_eq_true, Bool.and_eq_true, Bool.or_eq_true, Bool.not_eq_true',
    Bool.not_eq_true', decide_eq_true_iff, stopsAtLongName_iff]
  exact ⟨fun h => ⟨h.1.1, h.1.2, h.2⟩, fun h => ⟨⟨h.named, h.missing⟩, h.long⟩⟩

theorem refuses_eq_false_iff : t.refuses p = false ↔ ¬ t.Overlong p := by
  rw [← refuses_iff, Bool.not_eq_true]

/-- A path that is too long for the system, or has a name that is. -/
def IsLong (p : Path) : Prop :=
  maxPathBytes < (Text.encode p.toText).size ∨
    ∃ name ∈ p.parts, maxNameBytes < (Text.encode name).size

instance (p : Path) : Decidable (IsLong p) := inferInstanceAs (Decidable (_ ∨ _))

/-- A long path of which nothing is said.  The tree keeps something there,
though a system would refuse the path; or the NUL character in it may stand for
half of a pair, and some halves can be in a path. -/
structure Unsettled (t : FileTree) (p : Path) : Prop where
  long : IsLong p
  kept : t.has p = true ∨ p.hasNul = true

end FileTree

end FluidScss
