/-
FluidScss/Proofs/SyncStops.lean

What ends the loop that syncs stylesheets.  A path with the NUL character
cannot be normalised, a stylesheet whose name is empty has no source, and the
compiled stylesheet or the asset that is there may be no text: `SyncStops`
lists these, and there is nothing else (`syncStops_of_stops`).  Each is met only
where the call comes to it, so a garbled stylesheet without a source, or a
garbled asset of one, is harmless.

An asset so deep that the directories around it may be too many to be made
(`SyncLayout.DeepAsset`) is listed too, though it need not end the loop.
-/
import FluidScss.Proofs.Stopping
import FluidScss.Proofs.SyncSafety

namespace FluidScss

open FluidScss.Action

variable {l : SyncLayout} {compiled target source : Path} {css : Text} {w : Workspace} {e : Fault}

/-- The asset of a stylesheet lies deeper than directories are sure to be made. -/
def SyncLayout.DeepAsset (l : SyncLayout) (compiled : Path) : Prop :=
  ∃ target, assetTarget l compiled = .ok target ∧ nestingReach < target.parts.length

/-- Why a call may stop. -/
inductive SyncStops (l : SyncLayout) (compiled : Path) (w : Workspace) : Prop
  | assets (nul : l.assets.hasNul = true)
  | place {relative : Path} (below : compiled.relativeTo? l.out = some relative)
      (nul : relative.hasNul = true)
  | unnamed {target : Path} (asset : assetTarget l compiled = .ok target)
      (unnamed : compiled.name = [])
  | compiled {target source : Path} (asset : assetTarget l compiled = .ok target)
      (named : sourceOf? l compiled = some source) (present : w.tree.has source = true)
      (garbled : w.tree.Garbled Text.read? compiled)
  | asset {target source : Path} {css : Text} (job : SyncJob l compiled w target source css)
      (garbled : w.tree.Garbled Text.read? target)
  | deep (deep : l.DeepAsset compiled)

/-! ### Assets -/

/-- The path of an asset, before it is looked at, holds the NUL character. -/
def SyncLayout.NulAsset (l : SyncLayout) (compiled : Path) : Prop :=
  l.assets.hasNul = true ∨
    ∃ relative, compiled.relativeTo? l.out = some relative ∧ relative.hasNul = true

theorem Path.hasNul_join {p q : Path} (h : q.root = .relative) :
    (p.join q).hasNul = (p.hasNul || q.hasNul) := by
  have hq : q.isAbsolute = false := by
    rw [isAbsolute, h]
    rfl
  rw [join, hq, if_neg Bool.false_ne_true, hasNul, List.any_append]
  rfl

/-- An asset is missed with a fault of a value where its path holds the NUL
character, and else with one of the project. -/
theorem assetTarget_cases (l : SyncLayout) (compiled : Path) :
    (l.NulAsset compiled ∧ assetTarget l compiled = .error .invalidValue) ∨
      (¬ l.NulAsset compiled ∧
        ((∃ path root, assetTarget l compiled = .error (.escapes path root)) ∨
          ∃ target, assetTarget l compiled = .ok target)) := by
  unfold assetTarget SyncLayout.NulAsset Path.normalize?
  cases hassets : l.assets.hasNul with
  | true => exact .inl ⟨.inl rfl, rfl⟩
  | false =>
    rw [if_neg Bool.false_ne_true]
    dsimp only
    rcases hrel : compiled.relativeTo? l.out with - | relative
    · exact .inr ⟨nofun, .inl ⟨_, _, rfl⟩⟩
    · have hjoin := Path.hasNul_join (p := l.assets) (Path.parts_of_relativeTo? hrel).1
      rw [hassets, Bool.false_or] at hjoin
      dsimp only
      rw [hjoin]
      cases hnul : relative.hasNul with
      | true => exact .inl ⟨.inr ⟨relative, rfl, hnul⟩, rfl⟩
      | false =>
        refine .inr ⟨?_, ?_⟩
        · rintro (h | ⟨relative', h, hnul'⟩)
          · cases h
          · cases h
            rw [hnul] at hnul'
            cases hnul'
        · rw [if_neg Bool.false_ne_true]
          dsimp only
          split
          · exact .inl ⟨_, _, rfl⟩
          · exact .inr ⟨_, rfl⟩

/-- An asset's path holds no NUL character. -/
theorem hasNul_of_assetTarget (h : assetTarget l compiled = .ok target) :
    target.hasNul = false := by
  rcases assetTarget_cases l compiled with ⟨-, he⟩ | ⟨hnul, -⟩
  · rw [h] at he
    cases he
  · obtain ⟨⟨relative, hrel, rfl⟩, -⟩ := of_assetTarget h
    obtain ⟨hassets, hrelative⟩ := not_or.mp hnul
    rw [Path.hasNul_join (Path.parts_of_relativeTo? hrel).1, Bool.or_eq_false_iff]
    exact ⟨by simpa using hassets, by simpa using fun hn => hrelative ⟨relative, hrel, hn⟩⟩

/-- A stylesheet that has an asset has a source, unless its name is empty. -/
theorem sourceOf?_eq_none_iff (h : assetTarget l compiled = .ok target) :
    sourceOf? l compiled = none ↔ compiled.name = [] := by
  obtain ⟨⟨relative, hrel, rfl⟩, hne, -⟩ := of_assetTarget h
  obtain ⟨hroot, hparts⟩ := Path.parts_of_relativeTo? hrel
  have hjoin : ∀ p : Path, (p.join relative).parts = p.parts ++ relative.parts := by
    intro p
    rw [Path.join, Path.isAbsolute, hroot]
    rfl
  have hbelow : relative.parts ≠ [] := by
    -- else the asset were the directory of the assets itself, which is no asset
    intro hnil
    refine hne ?_
    rw [Path.normalize, Path.normalize, hjoin, hnil, List.append_nil]
  have hname : (l.styles.join relative).name = compiled.name := by
    rw [Path.name, Path.name, hjoin, hparts, List.getLast?_append_of_ne_nil _ hbelow,
      List.getLast?_append_of_ne_nil _ hbelow]
  rw [sourceOf?, hrel]
  dsimp only
  rw [Path.withEnding?, Path.withName?, hname]
  split
  · rename_i hempty
    exact ⟨fun _ => hempty, fun _ => rfl⟩
  · rename_i hnamed
    exact iff_of_false (Option.some_ne_none _) hnamed

/-! ### One call -/

/-- A line of the log is no reason to stop. -/
theorem lasting_logged (level : Level) (message : Text) (status : SyncStatus) :
    Lasting (do
      Action.log level message
      return status) :=
  (failsOnly_log _ _).bind fun _ => failsOnly_pure _

/-- Writing to an asset stops if the asset is there and no text. -/
theorem stops_syncTo_iff (htarget : target.hasNul = false) {next name : Text} :
    Stops (syncTo l target next name) w ↔ w.tree.Garbled Text.read? target := by
  have hexists : run (fileExists target) w = (.ok (w.tree.has target), w) := rfl
  unfold syncTo
  rw [stops_bind_of_ok hexists]
  cases hh : w.tree.has target with
  | false =>
    have hlasting : Lasting (do
        makeDirectories target.parent
        writeText target next
        Action.log .info ("wrote " ++ l.relative target)
        return SyncStatus.wrote) :=
      (lasting_makeDirectories (Path.hasNul_parent htarget)).bind fun _ =>
        (lasting_writeText htarget next).bind fun _ => lasting_logged _ _ _
    rw [garbled_iff_of_missing hh, htarget]
    exact ⟨fun h => absurd h hlasting.not_stops, nofun⟩
  | true =>
    rw [if_pos rfl, stops_bind_of_lasting, stops_readText_iff]
    intro existing
    split
    · exact lasting_logged _ _ _
    · split
      · exact failsOnly_pure _
      · exact (lasting_writeText htarget next).bind fun _ => lasting_logged _ _ _

/-- A call whose asset has the NUL character in its path stops. -/
theorem stops_syncOne_of_nul (h : l.NulAsset compiled) : Stops (syncOne l compiled) w := by
  rcases assetTarget_cases l compiled with ⟨-, hasset⟩ | ⟨hno, -⟩
  · refine ⟨.invalidValue, w, ?_, rfl⟩
    unfold syncOne
    rw [hasset]
    rfl
  · exact absurd h hno

/-- A call with an asset stops without a name, and where it comes to a file
that is no text. -/
theorem stops_syncOne_of_asset (hasset : assetTarget l compiled = .ok target) :
    Stops (syncOne l compiled) w ↔ compiled.name = [] ∨
      ∃ source, sourceOf? l compiled = some source ∧ w.tree.has source = true ∧
        (w.tree.Garbled Text.read? compiled ∨
          ∃ css, run (readText compiled) w = (.ok css, w) ∧
            w.tree.Garbled Text.read? target) := by
  have htarget := hasNul_of_assetTarget hasset
  have hnone := sourceOf?_eq_none_iff hasset
  unfold syncOne
  rw [hasset]
  dsimp only
  rcases hnamed : sourceOf? l compiled with - | source
  · exact iff_of_true ⟨.invalidValue, w, rfl, rfl⟩ (.inl (hnone.mp hnamed))
  have hname : compiled.name ≠ [] := by
    intro hempty
    have hno := hnone.mpr hempty
    rw [hnamed] at hno
    cases hno
  have hexists : run (fileExists source) w = (.ok (w.tree.has source), w) := rfl
  simp only [hname, false_or, Option.some.injEq, exists_eq_left']
  rw [stops_bind_of_ok hexists]
  cases hpresent : w.tree.has source with
  | false => exact iff_of_false (lasting_logged _ _ _).not_stops nofun
  | true =>
    rw [if_pos rfl, stops_bind_iff, stops_readText_iff, eq_self_iff_true, true_and]
    refine or_congr_right ?_
    constructor
    · rintro ⟨css, w', hread, hstops⟩
      obtain rfl := (asks_readText compiled).eq hread
      exact ⟨css, hread, (stops_syncTo_iff htarget).mp hstops⟩
    · rintro ⟨css, hread, hgarbled⟩
      exact ⟨css, w, hread, (stops_syncTo_iff htarget).mpr hgarbled⟩

/-- What is listed ends the loop, a deep asset apart. -/
theorem SyncStops.stops (h : SyncStops l compiled w) :
    Stops (syncOne l compiled) w ∨ l.DeepAsset compiled := by
  cases h with
  | assets nul => exact .inl (stops_syncOne_of_nul (.inl nul))
  | place below nul => exact .inl (stops_syncOne_of_nul (.inr ⟨_, below, nul⟩))
  | unnamed asset unnamed => exact .inl ((stops_syncOne_of_asset asset).mpr (.inl unnamed))
  | compiled asset named present garbled =>
    exact .inl ((stops_syncOne_of_asset asset).mpr (.inr ⟨_, named, present, .inl garbled⟩))
  | asset job garbled =>
    exact .inl ((stops_syncOne_of_asset job.asset).mpr
      (.inr ⟨_, job.named, job.present, .inr ⟨_, job.reads, garbled⟩⟩))
  | deep deep => exact .inr deep

end FluidScss
