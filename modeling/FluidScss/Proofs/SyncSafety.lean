/-
FluidScss/Proofs/SyncSafety.lean

Syncs of compiled stylesheets, one after the other, and the files of others.
Three things hold however the calls follow each other and whether they succeed
or not (`syncs_are_safe`).

No file outside of the assets is touched, whatever the compiled paths are: an
asset lies below the assets by its normal form, and that is where its path
leads (`place_of_assetTarget`).  Directories are another matter: those around
an asset are made by its path as it is spelled, also where a double dot leads
out of the assets and in again.

No file without the stamp is replaced as long as the compiled paths are plain
names below the compiler's directory.  Without double dots a path to a file is
found to lead there, so a file that is there is read before it is written.

A call that says it has done nothing has done nothing.
-/
import FluidScss.Proofs.Confined
import FluidScss.Proofs.CssSync

namespace FluidScss

open FluidScss.Action
open FluidScss.Workspace

variable {l : SyncLayout} {compiled target file : Path}
variable {w w₁ : Workspace} {bytes : ByteArray}

/-! ### Assets -/

/-- A path below another one begins with its components. -/
theorem Path.parts_of_relativeTo? {p base rest : Path} (h : p.relativeTo? base = some rest) :
    rest.root = .relative ∧ p.parts = base.parts ++ rest.parts := by
  rw [relativeTo?] at h
  split at h
  · obtain ⟨names, hnames, rfl⟩ := Option.map_eq_some_iff.mp h
    exact ⟨rfl, FileTree.eq_of_dropParts? hnames⟩
  · cases h

/-- An asset is told by what is behind the compiler's directory, and its
normal form lies below the assets. -/
theorem of_assetTarget (h : assetTarget l compiled = .ok target) :
    (∃ relative, compiled.relativeTo? l.out = some relative ∧ target = l.assets.join relative) ∧
      target.normalize ≠ l.assets.normalize ∧
      target.normalize.isWithin l.assets.normalize = true := by
  rw [assetTarget, Path.normalize?] at h
  split at h
  · cases h
  · rename_i assetsRoot hroot
    split at hroot
    · cases hroot
    · cases hroot
      split at h
      · cases h
      · rename_i relative hrel
        dsimp only at h
        rw [Path.normalize?] at h
        split at h
        · cases h
        · rename_i resolved hresolved
          split at hresolved
          · cases hresolved
          · cases hresolved
            split at h
            · cases h
            · rename_i hwithin
              cases h
              obtain ⟨hne, hin⟩ := not_or.mp hwithin
              exact ⟨⟨relative, hrel, rfl⟩, hne, by simpa using hin⟩

/-- The path of an asset is that of the assets with the names behind the
compiler's directory. -/
theorem parts_of_assetTarget (h : assetTarget l compiled = .ok target) :
    ∃ names, compiled.parts = l.out.parts ++ names ∧ target.parts = l.assets.parts ++ names := by
  obtain ⟨⟨relative, hrel, rfl⟩, -⟩ := of_assetTarget h
  obtain ⟨hr, hparts⟩ := Path.parts_of_relativeTo? hrel
  refine ⟨relative.parts, hparts, ?_⟩
  rw [Path.join, Path.isAbsolute, hr]
  rfl

/-- A place strictly below the assets. -/
def SyncLayout.AssetAt (l : SyncLayout) (place : Place) : Prop :=
  l.assets.place <+: place ∧ place ≠ l.assets.place

/-- An asset is below the assets, whatever its path looks like. -/
theorem place_of_assetTarget (h : assetTarget l compiled = .ok target) :
    l.AssetAt target.place := by
  obtain ⟨-, hne, hin⟩ := of_assetTarget h
  obtain ⟨rest, hrest⟩ := Option.isSome_iff_exists.mp hin
  obtain ⟨-, hparts⟩ := Path.parts_of_relativeTo? hrest
  exact ⟨⟨rest.parts, hparts.symm⟩, fun he => hne (congrArg (Path.mk .single) he)⟩

theorem foldl_walkPart_names {parts : List Text} (stack : List Text) (hu : upwards ∉ parts) :
    parts.foldl Path.walkPart stack = parts.reverse ++ stack := by
  induction parts generalizing stack with
  | nil => rfl
  | cons part parts ih =>
    rw [List.mem_cons, not_or] at hu
    have hpart : ¬ part = ['.', '.'] := Ne.symm hu.1
    rw [List.foldl_cons, Path.walkPart, if_neg hpart, ih _ hu.2, List.reverse_cons,
      List.append_assoc]
    rfl

/-- A path without double dots spells its place. -/
theorem Path.place_of_names {p : Path} (hu : upwards ∉ p.parts) : p.place = p.parts := by
  rw [place, normalParts, foldl_walkPart_names _ hu, List.append_nil, List.reverse_reverse]

/-! ### One call -/

/-- **A call writes assets only**, whether it fails or not. -/
theorem confined_syncOne (l : SyncLayout) (compiled : Path) :
    Within (Confined l.AssetAt) (syncOne l compiled) := by
  intro w
  have hstore : ∀ {target source : Path} {css : Text}, SyncJob l compiled w target source css →
      ∀ {r : Except Fault Unit} {w' : Workspace} {text : Text},
        run (store target text) w = (r, w') → Confined l.AssetAt w w' := by
    intro target source css job r w' text hr
    have h := confined_store (place_of_assetTarget job.asset) text w
    rwa [hr] at h
  have htree : ∀ {w₁ w' : Workspace}, Confined l.AssetAt w w₁ → w'.tree = w₁.tree →
      Confined l.AssetAt w w' := fun hc ht => Trans.trans hc (Confined.of_tree (S := l.AssetAt) ht)
  have hrun := syncRun l compiled w
  generalize run (syncOne l compiled) w = out at hrun ⊢
  obtain ⟨result, tree, log⟩ := out
  dsimp only at hrun ⊢
  cases hrun with
  | kept => exact .of_tree rfl
  | wrote job missing stored => exact htree (hstore job stored) rfl
  | updated job found managed stored => exact htree (hstore job stored) rfl
  | failed job missing stored => exact htree (hstore job stored) rfl

/-- Bytes that spell no text with the stamp in it. -/
def Foreign (bytes : ByteArray) : Prop :=
  ∀ text, Text.decode? bytes = some text → Text.contains managedStamp text = false

/-- What reads as stamped is stamped. -/
theorem not_foreign_of_read {text : Text} (ht : Text.read? bytes = some text)
    (hs : Text.contains managedStamp text = true) : ¬ Foreign bytes := by
  intro hf
  obtain ⟨raw, hraw, rfl⟩ := Option.map_eq_some_iff.mp ht
  have hc := Text.contains_of_contains_unifyNewlines (by decide) hs
  rw [hf raw hraw] at hc
  cases hc

/-- **A call keeps files without the stamp**, where it comes to its asset by
plain names. -/
theorem foreign_syncOne (hnames : ∀ target, assetTarget l compiled = .ok target →
      upwards ∉ target.parts)
    (hf : Foreign bytes) (h : w.tree.readBytes file = .ok bytes) :
    (run (syncOne l compiled) w).2.tree.readBytes file = .ok bytes := by
  obtain ⟨place, hl, hfile⟩ := FileTree.locate_of_readBytes h
  have hkeep : ∀ {t : FileTree}, w.tree.Grows t → t.find? place = some (.file bytes) →
      t.readBytes file = .ok bytes := fun hg hp =>
    (FileTree.readBytes_eq_ok_iff (FileTree.locate_of_grows hg hl)).mpr hp
  have hrun := syncRun l compiled w
  generalize run (syncOne l compiled) w = out at hrun ⊢
  obtain ⟨result, tree, log⟩ := out
  dsimp only at hrun ⊢
  cases hrun with
  | kept => exact h
  | @wrote target _ _ _ job missing stored =>
    -- a file that is there would have been found
    obtain ⟨here, hs⟩ := stored_of_run_store stored
    have hhere : target.parts = here :=
      (Path.place_of_names (hnames target job.asset)).symm.trans
        (FileTree.place_of_locate hs.leads)
    refine hkeep hs.grows (hs.others place ?_ _ hfile)
    rintro rfl
    have hfound : w.tree.locate target = .ok place := by
      rw [FileTree.locate, hhere]
      exact (FileTree.reachable_of_locate hl).walk
    rw [FileTree.has_iff_locate.mpr ⟨place, hfound⟩] at missing
    cases missing
  | updated job found managed stored =>
    obtain ⟨here, hs⟩ := stored_of_run_store stored
    obtain ⟨-, -, read, hread, hdec⟩ := run_readText_iff.mp found
    obtain ⟨there, hl', hf'⟩ := FileTree.locate_of_readBytes hread
    have hthere : there = here :=
      Except.ok.inj ((FileTree.locate_of_grows hs.grows hl').symm.trans hs.leads)
    refine hkeep hs.grows (hs.others place ?_ _ hfile)
    rintro rfl
    rw [hthere, hfile] at hf'
    cases hf'
    exact not_foreign_of_read hdec managed hf
  | failed job missing stored =>
    rcases run_store _ _ w with ⟨w', place', -, hr⟩ | ⟨-, ha⟩
    · rw [hr] at stored
      cases stored
    · rw [stored] at ha
      exact hkeep ha.grows (ha place _ hfile)

/-- A call that says it did nothing leaves the tree as it is. -/
theorem tree_of_run_syncOne {status : SyncStatus}
    (h : run (syncOne l compiled) w = (.ok status, w₁))
    (hs : status = .blocked ∨ status = .stale ∨ status = .unchanged) : w₁.tree = w.tree := by
  have hrun := syncRun l compiled w
  rw [h] at hrun
  generalize w₁.tree = tree at hrun
  cases hrun with
  | kept => rfl
  | wrote => simp at hs
  | updated => simp at hs

/-! ### One call after the other -/

/-- The workspace after syncs, one after the other; one that fails leaves what
it did before it failed. -/
def syncSession (l : SyncLayout) : List Path → Workspace → Workspace
  | [], w => w
  | compiled :: paths, w => syncSession l paths (run (syncOne l compiled) w).2

theorem confined_syncSession (l : SyncLayout) (paths : List Path) (w : Workspace) :
    Confined l.AssetAt w (syncSession l paths w) := by
  induction paths generalizing w with
  | nil => exact refl w
  | cons compiled paths ih => exact Trans.trans (confined_syncOne l compiled w) (ih _)

/-- A stylesheet as the watcher reports it: plain names below the compiler's
directory. -/
def SyncLayout.Reported (l : SyncLayout) (compiled : Path) : Prop :=
  ∃ names, upwards ∉ names ∧ compiled = ⟨l.out.root, l.out.parts ++ names⟩

theorem SyncLayout.Reported.names (h : l.Reported compiled) (hassets : upwards ∉ l.assets.parts)
    (ha : assetTarget l compiled = .ok target) : upwards ∉ target.parts := by
  obtain ⟨names, hu, rfl⟩ := h
  obtain ⟨names', hcompiled, htarget⟩ := parts_of_assetTarget ha
  obtain rfl := List.append_cancel_left hcompiled
  rw [htarget, List.mem_append, not_or]
  exact ⟨hassets, hu⟩

theorem foreign_syncSession (hassets : upwards ∉ l.assets.parts) {paths : List Path}
    (hpaths : ∀ compiled ∈ paths, l.Reported compiled) (hf : Foreign bytes)
    (h : w.tree.readBytes file = .ok bytes) :
    (syncSession l paths w).tree.readBytes file = .ok bytes := by
  induction paths generalizing w with
  | nil => exact h
  | cons compiled paths ih =>
    rw [List.forall_mem_cons] at hpaths
    exact ih hpaths.2 (foreign_syncOne (fun _ => hpaths.1.names hassets) hf h)

/-- **Syncs are safe.**  However calls follow each other, the files that are
not below the assets are the ones there were, with their bytes; if the
stylesheets are reported by plain names below the compiler's directory, a
file without the stamp keeps its bytes, whatever path it is read by; and each
call that answers that an asset is blocked, stale or unchanged leaves the tree
as it finds it. -/
theorem syncs_are_safe (hassets : upwards ∉ l.assets.parts) (paths : List Path) (w : Workspace) :
    (∀ place, ¬ (l.assets.parts <+: place ∧ place ≠ l.assets.parts) → ∀ bytes,
      (syncSession l paths w).tree.find? place = some (.file bytes) ↔
        w.tree.find? place = some (.file bytes)) ∧
    ((∀ compiled ∈ paths, l.Reported compiled) → ∀ file bytes, Foreign bytes →
      w.tree.readBytes file = .ok bytes →
        (syncSession l paths w).tree.readBytes file = .ok bytes) ∧
    ∀ before compiled after status w', paths = before ++ compiled :: after →
      run (syncOne l compiled) (syncSession l before w) = (.ok status, w') →
      status = .blocked ∨ status = .stale ∨ status = .unchanged →
        w'.tree = (syncSession l before w).tree := by
  refine ⟨fun place hp bytes => ?_, fun hpaths file bytes hf h =>
    foreign_syncSession hassets hpaths hf h, fun _ _ _ _ _ _ hrun hs => tree_of_run_syncOne hrun hs⟩
  have hconfined := confined_syncSession l paths w
  have hplace : ¬ l.AssetAt place := by
    rwa [SyncLayout.AssetAt, Path.place_of_names hassets]
  exact ⟨hconfined.files place hplace bytes, hconfined.others place hplace _⟩

/-- The stylesheet that someone wrote is kept by any number of syncs of the one
with its name. -/
theorem syncs_spare_theme :
    upwards ∉ shopLayout.assets.parts ∧
    (∀ compiled ∈ [shopCompiled "page.css", shopCompiled "theme.css"],
      shopLayout.Reported compiled) ∧
    Foreign (Text.encode "c\x7b\x7d\n") ∧
    (syncSession shopLayout [shopCompiled "page.css", shopCompiled "theme.css"] shop).tree.readBytes
      ⟨.single, ["shop", "assets", "theme.css"]⟩ = .ok (Text.encode "c\x7b\x7d\n") := by
  have hassets : upwards ∉ shopLayout.assets.parts := by decide
  have hreported : ∀ compiled ∈ [shopCompiled "page.css", shopCompiled "theme.css"],
      shopLayout.Reported compiled :=
    List.forall_mem_cons.mpr ⟨⟨["page.css"], by decide, rfl⟩,
      List.forall_mem_singleton.mpr ⟨["theme.css"], by decide, rfl⟩⟩
  have hforeign : Foreign (Text.encode "c\x7b\x7d\n") := by
    intro text ht
    rw [Text.decode_encode] at ht
    cases ht
    rfl
  exact ⟨hassets, hreported, hforeign,
    (syncs_are_safe hassets _ shop).2.1 hreported _ _ hforeign rfl⟩

end FluidScss
