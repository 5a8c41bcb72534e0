/-
FluidScss/Proofs/CssSync.lean

What one sync of a compiled stylesheet does.  `SyncRun` lists it in full: the
tree is left alone, or the stamped stylesheet is stored at its asset, where
nothing was found or a file with a stamp and another text, or the storing
fails after directories were made.  `syncRun` says that there is nothing else,
for calls that fail too; what is proved of syncs follows from it.

A call that finds the stamped stylesheet at its asset answers that nothing has
changed (`run_syncOne_unchanged`).
-/
import FluidScss.Proofs.ManagedStamp
import FluidScss.Proofs.SafeWrite

namespace FluidScss

open FluidScss.Action

variable {l : SyncLayout} {compiled target source : Path} {css existing : Text}
variable {w w₁ : Workspace}

/-- What a call has read before it writes: its asset, its source, which is
there, and the compiled text. -/
structure SyncJob (l : SyncLayout) (compiled : Path) (w : Workspace) (target source : Path)
    (css : Text) : Prop where
  asset : assetTarget l compiled = .ok target
  named : sourceOf? l compiled = some source
  present : w.tree.has source = true
  reads : run (readText compiled) w = (.ok css, w)

/-- The text that a stylesheet is synced as. -/
def SyncLayout.stamped (l : SyncLayout) (source : Path) (css : Text) : Text :=
  withMarker css (l.relative source)

/-- The result of a call and the tree it leaves. -/
inductive SyncRun (l : SyncLayout) (compiled : Path) (w : Workspace) :
    Except Fault SyncStatus → FileTree → Prop
  | kept {result : Except Fault SyncStatus} (notWrote : result ≠ .ok .wrote)
      (notUpdated : result ≠ .ok .updated) : SyncRun l compiled w result w.tree
  | wrote {target source : Path} {css : Text} {w₁ : Workspace}
      (job : SyncJob l compiled w target source css) (missing : w.tree.has target = false)
      (stored : run (store target (l.stamped source css)) w = (.ok (), w₁)) :
      SyncRun l compiled w (.ok .wrote) w₁.tree
  | updated {target source : Path} {css existing : Text} {w₁ : Workspace}
      (job : SyncJob l compiled w target source css)
      (found : run (readText target) w = (.ok existing, w))
      (managed : Text.contains managedStamp existing = true)
      (stored : run (store target (l.stamped source css)) w = (.ok (), w₁)) :
      SyncRun l compiled w (.ok .updated) w₁.tree
  | failed {target source : Path} {css : Text} {fault : Fault} {w₁ : Workspace}
      (job : SyncJob l compiled w target source css) (missing : w.tree.has target = false)
      (stored : run (store target (l.stamped source css)) w = (.error fault, w₁)) :
      SyncRun l compiled w (.error fault) w₁.tree

/-! ### Writing where a file is -/

/-- Where a path leads to a file no directory has to be made. -/
theorem run_store_of_file {path : Path} {text : Text} {place : Place}
    (hl : w.tree.locate path = .ok place) (hd : w.tree.find? place ≠ some .directory)
    (hn : path.hasNul = false) : run (store path text) w = run (writeText path text) w := by
  have hmade := run_makeDirectories_of_isDirectory (FileTree.isDirectory_parent hl hd)
    (Path.hasNul_parent hn)
  rw [store, run_bind_of_ok hmade]

/-- Writing that fails changes nothing. -/
theorem eq_of_run_writeText_error {path : Path} {text : Text} {fault : Fault}
    (h : run (writeText path text) w = (.error fault, w₁)) : w₁ = w := by
  rw [writeText, run_change] at h
  split at h
  · cases h
    rfl
  · split at h
    · cases h
    · cases h
      rfl

/-! ### One call -/

/-- What is written to the log is all that follows a text that is stored. -/
theorem run_store_log {path : Path} {text message : Text} {status : SyncStatus} :
    run (do
      makeDirectories path.parent
      writeText path text
      Action.log .info message
      return status) w
    = match run (store path text) w with
      | (.ok (), w₁) => (.ok status, { w₁ with log := w₁.log ++ [⟨.info, message⟩] })
      | (.error fault, w₁) => (.error fault, w₁) := by
  rw [← bind_assoc]
  show run (store path text >>= _) w = _
  rw [run_bind]
  rcases run (store path text) w with ⟨e | ⟨⟩, w₁⟩ <;> rfl

/-- Where nothing is found the stylesheet is stored, or the storing fails. -/
theorem run_syncTo_of_missing (missing : w.tree.has target = false) {text name : Text} :
    run (syncTo l target text name) w
      = match run (store target text) w with
        | (.ok (), w₁) =>
          (.ok .wrote, { w₁ with log := w₁.log ++ [⟨.info, "wrote " ++ l.relative target⟩] })
        | (.error fault, w₁) => (.error fault, w₁) := by
  have hexists : run (fileExists target) w = (.ok (w.tree.has target), w) := rfl
  unfold syncTo
  rw [run_bind_of_ok hexists, missing, if_neg Bool.false_ne_true, run_store_log]

/-- What is read at a path is there. -/
theorem run_fileExists_of_read {path : Path} {text : Text}
    (h : run (readText path) w = (.ok text, w)) : run (fileExists path) w = (.ok true, w) := by
  obtain ⟨-, -, bytes, hb, -⟩ := run_readText_iff.mp h
  obtain ⟨place, hl, -⟩ := FileTree.locate_of_readBytes hb
  rw [← FileTree.has_iff_locate.mpr ⟨place, hl⟩]
  rfl

/-- Where a file with a stamp and another text is found it is replaced. -/
theorem run_syncTo_of_managed (found : run (readText target) w = (.ok existing, w))
    (managed : Text.contains managedStamp existing = true) {text name : Text}
    (changed : existing ≠ text) :
    run (syncTo l target text name) w
      = match run (writeText target text) w with
        | (.ok (), w₁) =>
          (.ok .updated, { w₁ with log := w₁.log ++ [⟨.info, "updated " ++ l.relative target⟩] })
        | (.error fault, w₁) => (.error fault, w₁) := by
  unfold syncTo
  rw [run_bind_of_ok (run_fileExists_of_read found), if_pos rfl, run_bind_of_ok found, managed,
    Bool.not_true, if_neg Bool.false_ne_true, if_neg changed, run_bind]
  rcases run (writeText target text) w with ⟨e | ⟨⟩, w₁⟩ <;> rfl

theorem syncRun_syncTo (job : SyncJob l compiled w target source css) :
    SyncRun l compiled w (run (syncTo l target (l.stamped source css) (l.relative source)) w).1
      (run (syncTo l target (l.stamped source css) (l.relative source)) w).2.tree := by
  rcases hh : w.tree.has target with - | -
  · rw [run_syncTo_of_missing hh]
    rcases hs : run (store target (l.stamped source css)) w with ⟨fault | ⟨⟩, w₁⟩
    · exact .failed job hh hs
    · show SyncRun l compiled w (.ok .wrote) w₁.tree
      exact .wrote job hh hs
  · have hexists : run (fileExists target) w = (.ok true, w) := by
      rw [← hh]
      rfl
    have hasks := asks_readText target w
    rcases hr : run (readText target) w with ⟨fault | existing, w'⟩ <;> rw [hr] at hasks <;>
      obtain rfl : w = w' := hasks
    · unfold syncTo
      rw [run_bind_of_ok hexists, if_pos rfl, run_bind_of_error hr]
      exact .kept nofun nofun
    · by_cases hm : Text.contains managedStamp existing = true ∧ existing ≠ l.stamped source css
      · obtain ⟨hm, he⟩ := hm
        obtain ⟨-, hn, bytes, hb, -⟩ := run_readText_iff.mp hr
        obtain ⟨place, hl, hf⟩ := FileTree.locate_of_readBytes hb
        have hstore : run (store target (l.stamped source css)) w
            = run (writeText target (l.stamped source css)) w :=
          run_store_of_file hl (FileTree.ne_directory hf) hn
        rw [run_syncTo_of_managed hr hm he]
        rcases hw : run (writeText target (l.stamped source css)) w with ⟨fault | ⟨⟩, w₁⟩
        · rw [eq_of_run_writeText_error hw]
          exact .kept nofun nofun
        · show SyncRun l compiled w (.ok .updated) w₁.tree
          exact .updated job hr hm (hstore.trans hw)
      · -- someone else's file, or nothing to change
        unfold syncTo
        rw [run_bind_of_ok hexists, if_pos rfl, run_bind_of_ok hr]
        rcases hstamp : Text.contains managedStamp existing with - | -
        · exact .kept nofun nofun
        · rw [Bool.not_true, if_neg Bool.false_ne_true,
            if_pos (not_not.mp fun he => hm ⟨hstamp, he⟩)]
          exact .kept nofun nofun

/-- A call that has what it needs goes on to the asset. -/
theorem run_syncOne_of_job (job : SyncJob l compiled w target source css) :
    run (syncOne l compiled) w
      = run (syncTo l target (l.stamped source css) (l.relative source)) w := by
  have hexists : run (fileExists source) w = (.ok true, w) := by
    rw [← job.present]
    rfl
  rw [syncOne, job.asset]
  dsimp only
  rw [job.named]
  dsimp only
  rw [run_bind_of_ok hexists, if_pos rfl, run_bind_of_ok job.reads]
  rfl

/-- **One call** does one of the things listed. -/
theorem syncRun (l : SyncLayout) (compiled : Path) (w : Workspace) :
    SyncRun l compiled w (run (syncOne l compiled) w).1 (run (syncOne l compiled) w).2.tree := by
  by_cases hjob : ∃ target source css, SyncJob l compiled w target source css
  · obtain ⟨target, source, css, job⟩ := hjob
    rw [run_syncOne_of_job job]
    exact syncRun_syncTo job
  · -- without a job the call ends before it comes to an asset
    unfold syncOne
    rcases ha : assetTarget l compiled with fault | target
    · cases fault <;> exact .kept nofun nofun
    · dsimp only
      rcases hs : sourceOf? l compiled with - | source
      · exact .kept nofun nofun
      · dsimp only
        have hexists : run (fileExists source) w = (.ok (w.tree.has source), w) := rfl
        rw [run_bind_of_ok hexists]
        rcases hp : w.tree.has source with - | -
        · exact .kept nofun nofun
        · rw [if_pos rfl]
          have hasks := asks_readText compiled w
          rcases hr : run (readText compiled) w with ⟨fault | css, w'⟩ <;> rw [hr] at hasks <;>
            obtain rfl : w = w' := hasks
          · rw [run_bind_of_error hr]
            exact .kept nofun nofun
          · exact absurd ⟨target, source, css, ha, hs, hp, hr⟩ hjob

/-- A call that finds a stamped file with another text replaces it. -/
theorem run_syncOne_updated (job : SyncJob l compiled w target source css)
    (found : run (readText target) w = (.ok existing, w))
    (managed : Text.contains managedStamp existing = true)
    (changed : existing ≠ l.stamped source css)
    (written : run (writeText target (l.stamped source css)) w = (.ok (), w₁)) :
    ∃ log, run (syncOne l compiled) w = (.ok .updated, ⟨w₁.tree, log⟩) := by
  rw [run_syncOne_of_job job, run_syncTo_of_managed found managed changed, written]
  exact ⟨_, rfl⟩

/-- A call that finds what it would write answers that nothing has changed. -/
theorem run_syncOne_unchanged (job : SyncJob l compiled w target source css)
    (h : run (readText target) w = (.ok (l.stamped source css), w)) :
    run (syncOne l compiled) w = (.ok .unchanged, w) := by
  have hmanaged : Text.contains managedStamp (l.stamped source css) = true :=
    contains_of_hasStamp (hasStamp_withMarker css (l.relative source))
  rw [run_syncOne_of_job job, syncTo, run_bind_of_ok (run_fileExists_of_read h), if_pos rfl,
    run_bind_of_ok h,
    hmanaged, Bool.not_true, if_neg Bool.false_ne_true, if_pos rfl]
  rfl

/-! ### A project -/

/-- The directories of a project. -/
def shopLayout : SyncLayout :=
  ⟨⟨.single, ["shop"]⟩, ⟨.single, ["shop", "src", "styles"]⟩,
    ⟨.single, ["shop", "src", ".sass-out"]⟩, ⟨.single, ["shop", "assets"]⟩⟩

/-- A compiled text with the stamp below its first rule. -/
def shopTheme : Text := "b\x7b\x7d\n/* scss-kit:managed */\n"

/-- Its sources `page.scss` and `theme.scss`, both compiled, and a stylesheet
`theme.css` among the assets that someone wrote. -/
def shop : Workspace where
  tree := ⟨[(["shop"], .directory), (["shop", "src"], .directory),
    (["shop", "src", "styles"], .directory),
    (["shop", "src", "styles", "page.scss"], .file (Text.encode [])),
    (["shop", "src", "styles", "theme.scss"], .file (Text.encode [])),
    (["shop", "src", ".sass-out"], .directory),
    (["shop", "src", ".sass-out", "page.css"], .file (Text.encode "a\x7b\x7d\n")),
    (["shop", "src", ".sass-out", "theme.css"], .file (Text.encode shopTheme)),
    (["shop", "assets"], .directory),
    (["shop", "assets", "theme.css"], .file (Text.encode "c\x7b\x7d\n"))]⟩

/-- A compiled stylesheet of the project. -/
def shopCompiled (name : Text) : Path := shopLayout.out.child name

end FluidScss
