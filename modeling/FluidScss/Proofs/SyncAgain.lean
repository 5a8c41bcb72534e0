/-
FluidScss/Proofs/SyncAgain.lean

A sync that has written is at rest: the next one on the same stylesheet
answers that nothing has changed and changes nothing (`sync_converges`).

What was written is found at the asset and reads as it was written, unless the
name of the source has a carriage return in it, which reading turns into a
newline.  The compiled stylesheet reads as before, or it is the asset itself;
then it reads as what was written, and a stamped text is stamped as it is.
-/
import FluidScss.Proofs.CssSync

namespace FluidScss

open FluidScss.Action
open FluidScss.Workspace

variable {l : SyncLayout} {compiled target source path : Path} {css text : Text}
variable {w w₁ w₂ : Workspace} {place : Place}

/-- What is read from a file has no carriage return. -/
theorem unified_of_run_readText (h : run (readText path) w = (.ok text, w₁)) :
    Text.Unified text := by
  obtain ⟨-, -, bytes, -, hdec⟩ := run_readText_iff.mp h
  obtain ⟨raw, -, rfl⟩ := Option.map_eq_some_iff.mp hdec
  exact Text.cr_not_mem_unifyNewlines raw

/-! ### After storing -/

/-- By a path that leads there, a text without carriage returns reads as it
was stored. -/
theorem Workspace.Stored.reads_at {p : Path} (h : w.Stored path text w₁ place)
    (hu : Text.Unified text) (hl : w₁.tree.locate p = .ok place) (hn : p.hasNul = false)
    (ht : w₂.tree = w₁.tree) : run (readText p) w₂ = (.ok text, w₂) := by
  have hf := h.holds
  rw [← ht] at hl hf
  have hread := run_readText_of_encoded hl hf hn
  rwa [Text.unifyNewlines_eq_self hu] at hread

/-- After a text was stored, a file reads as it did or as that text. -/
theorem Workspace.Stored.reads_or {p : Path} {before : Text} (h : w.Stored path text w₁ place)
    (hu : Text.Unified text) (ht : w₂.tree = w₁.tree)
    (hr : run (readText p) w = (.ok before, w)) :
    run (readText p) w₂ = (.ok before, w₂) ∨ run (readText p) w₂ = (.ok text, w₂) := by
  obtain ⟨-, hn, bytes, hb, hdec⟩ := run_readText_iff.mp hr
  obtain ⟨here, hl, hf⟩ := FileTree.locate_of_readBytes hb
  have hl₁ : w₁.tree.locate p = .ok here := FileTree.locate_of_grows h.grows hl
  by_cases he : here = place
  · exact .inr (h.reads_at hu (he ▸ hl₁) hn ht)
  · left
    have hb₁ : w₁.tree.readBytes p = .ok bytes :=
      (FileTree.readBytes_eq_ok_iff hl₁).mpr (h.others here he _ hf)
    rw [← ht] at hb₁
    exact run_readText_iff.mpr ⟨rfl, hn, bytes, hb₁, hdec⟩

/-- **The next call** finds what was stored. -/
theorem run_syncOne_again (job : SyncJob l compiled w target source css)
    (hname : '\r' ∉ l.relative source)
    (stored : run (store target (l.stamped source css)) w = (.ok (), w₁))
    (ht : w₂.tree = w₁.tree) : run (syncOne l compiled) w₂ = (.ok .unchanged, w₂) := by
  obtain ⟨place, hs⟩ := stored_of_run_store stored
  have hu : Text.Unified (l.stamped source css) :=
    unified_withMarker (unified_of_run_readText job.reads) hname
  have hpresent : w₂.tree.has source = true := by
    obtain ⟨there, hl⟩ := FileTree.has_iff_locate.mp job.present
    rw [ht]
    exact FileTree.has_iff_locate.mpr ⟨there, FileTree.locate_of_grows hs.grows hl⟩
  have hasset : run (readText target) w₂ = (.ok (l.stamped source css), w₂) :=
    hs.reads_at hu hs.leads hs.named ht
  rcases hs.reads_or hu ht job.reads with hread | hread
  · exact run_syncOne_unchanged ⟨job.asset, job.named, hpresent, hread⟩ hasset
  · -- the stylesheet is its own asset, and has its stamp by now
    have hstamped : l.stamped source (l.stamped source css) = l.stamped source css :=
      withMarker_withMarker css (l.relative source)
    rw [← hstamped] at hasset
    exact run_syncOne_unchanged ⟨job.asset, job.named, hpresent, hread⟩ hasset

/-- **Syncs converge.**  Stamping a stylesheet twice is stamping it once, and
what is stamped is known to be managed; so a call that wrote or updated an
asset is followed, when it is repeated, by one that changes nothing. -/
theorem sync_converges :
    (∀ css source : Text, withMarker (withMarker css source) source = withMarker css source ∧
      Text.contains managedStamp (withMarker css source) = true) ∧
    ∀ (l : SyncLayout) (compiled : Path) (w w₁ : Workspace) (status : SyncStatus),
      (∀ source, sourceOf? l compiled = some source → '\r' ∉ l.relative source) →
      run (syncOne l compiled) w = (.ok status, w₁) →
      status = .wrote ∨ status = .updated →
        run (syncOne l compiled) w₁ = (.ok .unchanged, w₁) := by
  refine ⟨fun css source => ⟨withMarker_withMarker css source,
    contains_of_hasStamp (hasStamp_withMarker css source)⟩, ?_⟩
  intro l compiled w w₁ status hname h hs
  have hrun := syncRun l compiled w
  rw [h] at hrun
  dsimp only at hrun
  generalize ht : w₁.tree = tree at hrun
  cases hrun with
  | kept notWrote notUpdated =>
    rcases hs with rfl | rfl
    · exact absurd rfl notWrote
    · exact absurd rfl notUpdated
  | wrote job missing stored => exact run_syncOne_again job (hname _ job.named) stored ht
  | updated job found managed stored => exact run_syncOne_again job (hname _ job.named) stored ht

/-- The directories of the project with the compiler writing among the assets,
so that each compiled stylesheet is its own asset. -/
def mergedLayout : SyncLayout := { shopLayout with assets := shopLayout.out }

/-- A compiled stylesheet that is its own asset, with the stamp in the wrong
place, is updated once. -/
theorem sync_converges_merged :
    ∃ w₁, (∀ source, sourceOf? mergedLayout (shopCompiled "theme.css") = some source →
        '\r' ∉ mergedLayout.relative source) ∧
      run (syncOne mergedLayout (shopCompiled "theme.css")) shop = (.ok .updated, w₁) ∧
      run (syncOne mergedLayout (shopCompiled "theme.css")) w₁ = (.ok .unchanged, w₁) := by
  have hname : ∀ source, sourceOf? mergedLayout (shopCompiled "theme.css") = some source →
      '\r' ∉ mergedLayout.relative source := by
    rintro source ⟨⟩
    decide
  have hread : run (readText (shopCompiled "theme.css")) shop = (.ok shopTheme, shop) := by
    have h : run (readText (shopCompiled "theme.css")) shop
        = (.ok (Text.unifyNewlines shopTheme), shop) :=
      run_readText_of_encoded
        (show _ = Except.ok (["shop", "src", ".sass-out", "theme.css"] : Place) from rfl) rfl rfl
    rwa [Text.unifyNewlines_eq_self (by decide)] at h
  have job : SyncJob mergedLayout (shopCompiled "theme.css") shop (shopCompiled "theme.css")
      ⟨.single, ["shop", "src", "styles", "theme.scss"]⟩ shopTheme :=
    ⟨rfl, rfl, rfl, hread⟩
  obtain ⟨log, h⟩ := run_syncOne_updated job hread (by decide) (by decide)
    (show run _ _ = (.ok (), ⟨_, _⟩) from rfl)
  exact ⟨_, hname, h, sync_converges.2 _ _ _ _ _ hname h (.inr rfl)⟩

end FluidScss
