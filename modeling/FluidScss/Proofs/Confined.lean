/-
FluidScss/Proofs/Confined.lean

Work that writes at some places only.  A path leads to the place that its
normal form spells, whatever the tree (`Path.place`), so the places that work
may write are told by its paths alone.  `Confined S` says of two workspaces
that their files differ at places of `S` at most and that all that stood
stands; it is reflexive and transitive, and work is within it if each of its
writes goes to a place of `S`, whether it fails or not.

Generating entries is confined to the stylesheets next to the sources and the
files beside those (`confined_generateEntry`), and giving an entry its first
lines to the entry and the configuration (`confined_bootstrapEntry`).  What
lies elsewhere reads as it did (`Confined.reads`).
-/
import FluidScss.Proofs.EntryOutput
import FluidScss.Proofs.FailedRun

namespace FluidScss

open FluidScss.Action

variable {α β : Type} {w w' w₁ : Workspace} {c : Config} {S S' : Place → Prop}
variable {p path target dir : Path} {here : Place} {name text content : Text}

/-! ### Places of paths -/

/-- Where a path leads, if it leads anywhere. -/
def Path.place (p : Path) : Place := normalParts p.parts

theorem FileTree.place_of_locate {t : FileTree} (h : t.locate p = .ok here) : p.place = here :=
  normalParts_of_locate h

/-- The place that a path names for writing is the one it leads to. -/
theorem FileTree.place_of_slot {t : FileTree} (h : t.slot p = .ok here) : p.place = here := by
  obtain ⟨root, parts⟩ := p
  rcases List.eq_nil_or_concat' parts with rfl | ⟨init, part, rfl⟩
  · cases h
    rfl
  · rw [slot, List.getLast?_concat, Path.parent, List.dropLast_concat] at h
    dsimp only at h
    split at h
    · cases h
    · rename_i around hl
      have hfold : init.foldl Path.walkPart [] = around.reverse := foldl_walkPart_of_walk hl
      split at h
      · cases h
        show (List.foldl Path.walkPart [] (init ++ [part])).reverse = _
        rw [List.foldl_append, hfold, List.foldl_cons, List.foldl_nil, Path.walkPart]
        by_cases hu : part = ['.', '.']
        · rw [if_pos hu, if_pos hu, List.tail_reverse, List.reverse_reverse]
        · rw [if_neg hu, if_neg hu, List.reverse_cons, List.reverse_reverse]
      · cases h
      · cases h

theorem Path.place_child (hu : name ≠ upwards) : (p.child name).place = p.place ++ [name] := by
  have hu' : ¬ name = ['.', '.'] := hu
  rw [place, place, child, normalParts, List.foldl_append, List.foldl_cons, List.foldl_nil,
    walkPart, if_neg hu', List.reverse_cons]
  rfl

/-- The names in a directory tell its places apart. -/
theorem Path.name_of_place_child {name' : Text} (hu : name ≠ upwards) (hu' : name' ≠ upwards)
    (h : (p.child name).place = (p.child name').place) : name = name' := by
  rw [place_child hu, place_child hu'] at h
  exact List.singleton_injective (List.append_cancel_left h)

/-! ### Differences at some places only -/

/-- A file is new at a place, or holds other bytes. -/
def Workspace.Alters (w w' : Workspace) (place : Place) : Prop :=
  ∃ bytes, w'.tree.find? place = some (.file bytes) ∧ w.tree.find? place ≠ some (.file bytes)

/-- What stood stands, and outside of `S` the files are the same. -/
structure Workspace.Confined (S : Place → Prop) (w w' : Workspace) : Prop where
  grows : w.Grows w'
  others : ∀ place, ¬ S place → ∀ e, w.tree.find? place = some e → w'.tree.find? place = some e
  files : ∀ place, ¬ S place → ∀ bytes, w'.tree.find? place = some (.file bytes) →
    w.tree.find? place = some (.file bytes)

instance : IsPreorder Workspace (Workspace.Confined S) where
  refl w := ⟨refl w, fun _ _ _ h => h, fun _ _ _ h => h⟩
  trans _ _ _ h h' :=
    ⟨Trans.trans h.grows h'.grows,
      fun place hp e he => h'.others place hp e (h.others place hp e he),
      fun place hp bytes hb => h.files place hp bytes (h'.files place hp bytes hb)⟩

namespace Workspace

theorem Confined.mono (h : Confined S w w') (hS : ∀ place, S place → S' place) :
    Confined S' w w' :=
  ⟨h.grows, fun place hp => h.others place fun hs => hp (hS place hs),
    fun place hp => h.files place fun hs => hp (hS place hs)⟩

theorem Confined.of_alters (h : Confined S w w') (ha : w.Alters w' here) : S here := by
  by_contra hp
  obtain ⟨bytes, hb, hne⟩ := ha
  exact hne (h.files here hp bytes hb)

/-- Where all files are spared no place is written. -/
theorem Spared.confined (h : w.Spared w') : Confined S w w' :=
  ⟨h.adds.grows, fun place _ => h.adds place, fun place _ => h.noNewFiles place⟩

theorem Confined.of_tree (h : w'.tree = w.tree) : Confined S w w' := by
  have hfind : ∀ place, w'.tree.find? place = w.tree.find? place := fun place => by rw [h]
  refine ⟨?_, fun place _ e he => (hfind place).trans he, fun place _ bytes hb =>
    (hfind place).symm.trans hb⟩
  show w.tree.Grows w'.tree
  rw [h]
  exact FileTree.Grows.refl _

/-- A file elsewhere reads as it did. -/
theorem Confined.reads {decode : ByteArray → Option Text} (h : Confined S w w')
    (hp : ¬ S p.place) (hr : run (do decoded decode (← readBytes p)) w = (.ok text, w₁)) :
    run (do decoded decode (← readBytes p)) w' = (.ok text, w') := by
  obtain ⟨-, hn, bytes, hb, hdec⟩ := run_decoded_iff.mp hr
  obtain ⟨place, hl, hf⟩ := FileTree.locate_of_readBytes hb
  rw [FileTree.place_of_locate hl] at hp
  have hsame : w'.tree.find? place = w.tree.find? place := by
    rw [hf]
    exact h.others place hp _ hf
  exact run_decoded_iff.mpr
    ⟨rfl, hn, bytes, (FileTree.readBytes_of_grows h.grows hl hsame).trans hb, hdec⟩

end Workspace

namespace Action

open Workspace

/-! ### Writing -/

theorem confined_log (level : Level) (message : Text) :
    Within (Confined S) (Action.log level message) :=
  fun _ => .of_tree rfl

theorem confined_makeDirectories (p : Path) : Within (Confined S) (makeDirectories p) :=
  fun w => Spared.confined ⟨adds_makeDirectories p w, noNewFiles_makeDirectories p w⟩

/-- Writing to a path alters its place at most. -/
theorem confined_writeText (hp : S path.place) (text : Text) :
    Within (Confined S) (writeText path text) := by
  intro w
  rw [writeText, run_change]
  split
  · exact refl w
  · rcases hw : w.tree.writeBytes path (Text.encode text) with e | t
    · exact refl w
    · obtain ⟨place, hs, hd, rfl⟩ := FileTree.eq_of_writeBytes hw
      rw [FileTree.place_of_slot hs] at hp
      have hfind : ∀ q, ¬ S q →
          (w.tree.set place (.file (Text.encode text))).find? q = w.tree.find? q := by
        intro q hq
        have hne : q ≠ place := by
          rintro rfl
          exact hq hp
        rw [FileTree.find?_set _ (FileTree.ne_nil_of_find? hd), if_neg hne]
      exact ⟨FileTree.grows_set_file hd _, fun q hq e he => (hfind q hq).trans he,
        fun q hq bytes hb => (hfind q hq).symm.trans hb⟩

theorem confined_store (hp : S path.place) (text : Text) :
    Within (Confined S) (store path text) :=
  within_bind (confined_makeDirectories _) fun _ => confined_writeText hp text

end Action

open Workspace

/-- Content goes to its target or to the file beside it. -/
theorem path_of_make {existing : Option Text} {stamp : Text} {plan : WritePlan}
    (h : WritePlan.make target content existing stamp = .ok plan) :
    plan.path = target ∨ plan.path = besidePath target := by
  cases existing with
  | none =>
    cases h
    exact .inl rfl
  | some text =>
    rw [WritePlan.make] at h
    by_cases hs : Text.contains stamp text = true
    · rw [if_pos hs] at h
      cases h
      exact .inl rfl
    · rw [if_neg hs, conflictPath?, Path.withName?] at h
      by_cases hn : target.name = []
      · rw [if_pos hn] at h
        cases h
      · rw [if_neg hn] at h
        cases h
        exact .inr rfl

/-- A safe write alters the target and the file beside it at most. -/
theorem confined_writeSafely (hp : S target.place) (hnew : S (besidePath target).place)
    (content stamp : Text) : Within (Confined S) (writeSafely target content stamp) := by
  refine within_bind (asks_fileExists target).within fun found => ?_
  have hplan : ∀ existing, Within (Confined S) (do
      let plan ← WritePlan.make target content existing stamp
      plan.apply
      return plan) := by
    intro existing
    refine within_bind_of (within_lift _) fun w plan w' hm => ?_
    rw [run_lift] at hm
    have hpath : S plan.path.place := by
      rcases path_of_make (Prod.mk.inj hm).1 with h | h
      · rw [h]
        exact hp
      · rw [h]
        exact hnew
    refine within_bind ?_ (fun _ => within_pure plan) w'
    rw [WritePlan.apply_eq]
    split
    · exact within_pure ()
    · exact confined_store hpath _
  cases found
  · exact within_bind (within_pure none) hplan
  · refine within_bind ?_ hplan
    rw [← bind_pure_comp]
    exact within_bind (asks_readText target).within fun _ => within_pure _

theorem SafelyWritten.confined {plan : WritePlan} (h : SafelyWritten target content w plan w') :
    Confined (fun q => q = target.place ∨ q = (besidePath target).place) w w' := by
  have hw := confined_writeSafely (S := fun q => q = target.place ∨ q = (besidePath target).place)
    (.inl rfl) (.inr rfl) content generatedStamp w
  rwa [run_writeSafely_iff.mpr h] at hw

/-! ### Stylesheets of entries -/

/-- The name of an entry's stylesheet, or of the file beside one. -/
structure IsOverridesName (name : Text) : Prop where
  begins : overridesStem.isPrefixOf name = true
  ends : overridesEnding.isSuffixOf name = true ∨
    (overridesEnding ++ ".new" : Text).isSuffixOf name = true

theorem IsOverridesName.head?_eq (h : IsOverridesName name) : name.head? = some '_' := by
  obtain ⟨rest, rfl⟩ := List.isPrefixOf_iff_prefix.mp h.begins
  rfl

theorem IsOverridesName.ne_upwards (h : IsOverridesName name) : name ≠ upwards := by
  rintro rfl
  have hhead := h.head?_eq
  cases hhead

theorem isOverridesName_entryName (entry : Path) : IsOverridesName (entryName entry) := by
  constructor
  · rw [List.isPrefixOf_iff_prefix, entryName, List.append_assoc, List.append_assoc]
    exact List.prefix_append _ _
  · left
    rw [List.isSuffixOf_iff_suffix, entryName]
    exact List.suffix_append _ _

theorem isOverridesName_entryName_new (entry : Path) :
    IsOverridesName (entryName entry ++ (".new" : Text)) := by
  constructor
  · rw [List.isPrefixOf_iff_prefix, entryName, List.append_assoc, List.append_assoc,
      List.append_assoc]
    exact List.prefix_append _ _
  · right
    rw [List.isSuffixOf_iff_suffix, entryName, List.append_assoc]
    exact List.suffix_append _ _

/-- The places next to the sources that stylesheets of entries may take. -/
def Config.StylesheetAt (c : Config) (place : Place) : Prop :=
  ∃ dir name, c.sourceDir = .ok dir ∧ IsOverridesName name ∧ place = (dir.child name).place

/-- The directory of the sources is told from the root. -/
theorem Config.resolve_sourceDir (hroot : c.root.isAbsolute = true) (h : c.sourceDir = .ok dir) :
    c.resolve dir = dir := by
  rw [sourceDir, resolveJson] at h
  rcases hp : Path.ofJson c.sourceSetting with e | given
  · rw [hp] at h
    cases h
  · rw [hp] at h
    cases h
    exact c.resolve_resolve hroot given

section Generate

variable (hroot : c.root.isAbsolute = true) (hS : ∀ place, c.StylesheetAt place → S place)
include hroot hS

/-- **The generation of an entry** writes its stylesheet or the file beside
it, and no other. -/
theorem confined_generateEntry (entry : Path) :
    Within (Confined S) (generateEntry c entry none) := by
  refine within_bind_of (asks_entryTarget c entry none).within fun w output w' ho => ?_
  obtain ⟨-, -, ho⟩ := run_entryTarget_iff.mp ho
  obtain ⟨dir, hdir, rfl⟩ := entryOutput_eq_ok_iff.mp ho
  refine within_bind_of (asks_gather _ _ _).within (fun w i w' hi => ?_) w'
  obtain ⟨-, -, hout, -⟩ := run_gather_iff.mp hi
  have hout : i.output = dir.child (entryName (c.resolve entry)) := by
    rw [hout, runOutput, c.resolve_child, Config.resolve_sourceDir hroot hdir]
  refine within_bind (confined_writeSafely (hS _ ?_) (hS _ ?_) _ _)
    (fun plan => within_bind (confined_log _ _) fun _ => within_pure _) w'
  · exact ⟨dir, _, hdir, isOverridesName_entryName _, by rw [hout]⟩
  · refine ⟨dir, _, hdir, isOverridesName_entryName_new (c.resolve entry), ?_⟩
    rw [besidePath, hout, Path.parent_child, Path.name_child]

theorem confined_generateConfigured (entry : Text) :
    Within (Confined S) (generateConfigured c entry) := by
  unfold generateConfigured
  refine within_bind (within_attempt (confined_generateEntry hroot hS _)) fun result => ?_
  split
  · exact within_pure _
  · exact within_pure _
  · exact within_throw _

theorem confined_generateEach (entries : List Text) :
    Within (Confined S) (generateEach c entries) := by
  induction entries with
  | nil => exact within_pure _
  | cons entry entries ih =>
    exact within_bind (confined_generateConfigured hroot hS entry) fun _ =>
      within_bind ih fun _ => within_pure _

theorem confined_generateEntries : Within (Confined S) (generateEntries c) := by
  refine within_bind (within_lift _) fun settings => ?_
  split
  · exact within_throw_bind _ _
  · exact confined_generateEach hroot hS _

end Generate

/-! ### First lines -/

theorem confined_ensureBoilerplate (hp : S path.place) (ns : Text) :
    Within (Confined S) (ensureBoilerplate path ns) := by
  refine within_bind (asks_isFile path).within fun found => ?_
  split
  · refine within_bind (asks_readRaw path).within fun text => ?_
    split
    · exact within_bind (confined_writeText hp _) fun _ => within_pure true
    · exact within_pure false
  · exact within_pure false

theorem confined_registerEntry (hconfig : S (Config.fileIn c.root).place) (entry : Path) :
    Within (Confined S) (registerEntry c entry) := by
  refine within_bind (asks_normalize _).within fun place => ?_
  refine within_bind (within_lift _) fun dir => ?_
  refine within_bind (asks_normalize _).within fun sources => ?_
  split
  · refine within_bind (asks_readText _).within fun text => ?_
    split
    · refine within_bind (within_lift _) fun data => ?_
      split
      · exact within_bind (confined_writeText hconfig _) fun _ => within_pure true
      · exact within_pure false
    · exact within_throw _
    · exact within_throw _
    · exact within_throw _
  · exact within_pure false

/-- Giving an entry its first lines writes the entry and the configuration at
most. -/
theorem confined_bootstrapEntry (hp : S path.place) (hconfig : S (Config.fileIn c.root).place) :
    Within (Confined S) (bootstrapEntry c path) := by
  refine within_bind (within_lift _) fun settings => ?_
  refine within_bind (confined_ensureBoilerplate hp _) fun written => ?_
  split
  · refine within_bind (confined_log _ _) fun _ => ?_
    refine within_bind (confined_registerEntry hconfig path) fun registered => ?_
    split
    · exact within_bind (confined_log _ _) fun _ => (asks_load _).within
    · exact within_pure c
  · exact within_pure c

end FluidScss
