/-
FluidScss/Proofs/Convergence.lean

Changes that have been followed.  Following the change of an entry may write
the entry itself, the configuration and stylesheets next to the sources, and
each of these is a change again.  The changes come to rest at once: after the
first step a second one on the same entry, or on whatever the first one wrote,
leaves the tree as it is (`change_converges`).

Three facts carry this.  An entry that was given its first lines is not blank
any more, so nothing is registered a second time and the configuration stays.
Stylesheets, the files beside them and the configuration are not followed.
And an entry that is no stylesheet reads after its generation as it did
before, so the generation can be repeated, by any path that leads to the entry
(`run_generateEntry_again`).
-/
import FluidScss.Proofs.Change
import Mathlib

namespace FluidScss

open FluidScss.Action
open FluidScss.Workspace

variable {w w₁ w₂ : Workspace} {c c' : Config} {r : GenerateReport}
variable {root p q : Path} {here : Place}

/-! ### Generating again -/

theorem entryName_eq_of_name (h : q.name = p.name) : entryName q = entryName p := by
  rw [entryName, entryName, Config.entryBase, Config.entryBase, Path.stem, Path.stem, h]

/-- **Generating an entry again**, by a path that leads where the first one
led, succeeds and leaves the tree as it is. -/
theorem run_generateEntry_again (hroot : c.root.isAbsolute = true)
    (h : run (generateEntry c p none) w = (.ok r, w₁))
    (hl : w₁.tree.locate (c.resolve p) = .ok here)
    (hq : w₁.tree.locate (c.resolve q) = .ok here) (hn : (c.resolve q).hasNul = false)
    (hfree : ¬ c.StylesheetAt here) :
    ∃ r' w₂, run (generateEntry c q none) w₁ = (.ok r', w₂) ∧ w₂.tree = w₁.tree := by
  obtain ⟨settings, source, g⟩ := entryGenerated hroot h
  obtain ⟨dir, hdir, hout⟩ := g.named
  obtain ⟨w', hp, ht⟩ := g.written
  -- the entry reads as it did, by both paths
  have hconfined := confined_generateEntry (S := c.StylesheetAt) hroot (fun _ hs => hs) p w
  rw [h] at hconfined
  have hplace : (c.resolve p).place = here := FileTree.place_of_locate hl
  have hread : run (readSource (c.resolve p)) w₁ = (.ok source, w₁) :=
    hconfined.reads (by rwa [hplace]) g.read
  obtain ⟨-, -, bytes, hb, hdec⟩ := run_readSource_iff.mp hread
  have hfind := (FileTree.readBytes_eq_ok_iff hl).mp hb
  have hread' : run (readSource (c.resolve q)) w₁ = (.ok source, w₁) :=
    run_readSource_iff.mpr ⟨rfl, hn, bytes, (FileTree.readBytes_eq_ok_iff hq).mpr hfind, hdec⟩
  -- so its stylesheet is the same, and has the same name
  have hname : (c.resolve q).name = (c.resolve p).name :=
    FileTree.name_eq_of_locate hq hl (FileTree.ne_directory hfind)
  obtain ⟨plan', hp', -⟩ := hp.again g.stamped ht
  rw [hout, g.rendered, ← entryName_eq_of_name hname] at hp'
  obtain ⟨r', log, hrun, -⟩ := run_generateEntry_of hroot g.accepted hread' hdir hp'
  exact ⟨r', _, hrun, rfl⟩

/-! ### Convergence -/

/-- The places that following the change of a file may write. -/
inductive ChangePlace (c : Config) (p : Path) : Place → Prop
  | changed : ChangePlace c p (c.resolve p).place
  | configuration : ChangePlace c p (Config.fileIn c.root).place
  | stylesheet {here : Place} (at_ : c.StylesheetAt here) : ChangePlace c p here

/-- A change that is followed, and leaves the tree as it is. -/
def Settled (root p : Path) (w : Workspace) : Prop :=
  ∃ w₁, run (Step.act root (.change p)) w = (.ok (), w₁) ∧ w₁.tree = w.tree

theorem settled_of_unfollowed (hload : run (Config.load root) w = (.ok c, w))
    (h : Unfollowed (root.join p)) : Settled root p w := by
  have hc : c.root = root := root_of_load hload
  have hp : Unfollowed (c.resolve p) := by rwa [Config.resolve, hc]
  refine ⟨w, run_change_iff.mpr ⟨c, .ignored, hload, ?_⟩, rfl⟩
  rw [handleChange_of_unfollowed hp]
  rfl

/-- What the change of an entry has led to: the configuration on disk, under
which the entry, not blank, was generated. -/
structure EntryFollowed (c : Config) (path : Path) (w : Workspace) : Prop where
  loads : run (Config.load c.root) w = (.ok c, w)
  begun : Begun path w
  generated : ∃ w₀ r, run (generateEntry c path none) w₀ = (.ok r, w)

/-- The change of an entry is settled once it was followed, by every path that
leads to the entry. -/
theorem EntryFollowed.settled (h : EntryFollowed c (c.resolve p) w)
    (hroot : c.root.isAbsolute = true) (he : IsEntry (c.resolve p))
    (hl : w.tree.locate (c.resolve p) = .ok here) (hq : w.tree.locate (c.resolve q) = .ok here)
    (hn : (c.resolve q).hasNul = false) : Settled c.root q w := by
  obtain ⟨w₀, r, hgen⟩ := h.generated
  obtain ⟨settings, source, g⟩ := entryGenerated hroot hgen
  obtain ⟨text, hr, ht⟩ := h.begun
  obtain ⟨-, -, bytes, hb, hdec⟩ := run_decoded_iff.mp hr
  have hfind := (FileTree.readBytes_eq_ok_iff hl).mp hb
  have hd := FileTree.ne_directory hfind
  have hbegun : Begun (c.resolve q) w :=
    ⟨text, run_decoded_iff.mpr ⟨rfl, hn, bytes, (FileTree.readBytes_eq_ok_iff hq).mpr hfind, hdec⟩,
      ht⟩
  have heq : IsEntry (c.resolve q) := he.of_name (FileTree.name_eq_of_locate hq hl hd)
  obtain ⟨r', w₁, hagain, htree⟩ := run_generateEntry_again (p := c.resolve p) (q := c.resolve q)
    hroot hgen (by rwa [c.resolve_resolve hroot]) (by rwa [c.resolve_resolve hroot])
    (by rwa [c.resolve_resolve hroot])
    (he.not_stylesheetAt (FileTree.getLast?_of_locate hl hd))
  refine ⟨w₁, run_change_iff.mpr ⟨c, .entry r', h.loads, ?_⟩, htree⟩
  rw [handleChange_of_followed heq.followed, heq.whole, if_neg Bool.false_ne_true,
    run_bind_of_ok (run_bootstrapEntry_of_begun g.accepted hbegun), run_bind_of_ok hagain]
  rfl

/-- Whatever the change of an entry may have written is settled then: the
entry itself, and the files whose changes are not followed. -/
theorem EntryFollowed.settled_of_changePlace (h : EntryFollowed c (c.resolve p) w)
    (hroot : c.root.isAbsolute = true) (he : IsEntry (c.resolve p)) (hplace : ChangePlace c p here)
    (hd : w.tree.find? here ≠ some .directory) (hq : w.tree.locate (c.resolve q) = .ok here)
    (hn : (c.resolve q).hasNul = false) : Settled c.root q w := by
  have hlast := FileTree.getLast?_of_locate hq hd
  cases hplace with
  | changed =>
    obtain ⟨place, bytes, hl, -⟩ := FileTree.isFile_iff.mp h.begun.isFile
    rw [FileTree.place_of_locate hl] at hq
    exact h.settled hroot he hl hq hn
  | configuration =>
    rw [getLast?_place_config] at hlast
    exact settled_of_unfollowed h.loads (unfollowed_of_configName (Option.some.inj hlast).symm)
  | stylesheet hs =>
    obtain ⟨name, hname, hlast'⟩ := hs.exists_name
    rw [hlast'] at hlast
    cases hlast
    exact settled_of_unfollowed h.loads hname.unfollowed

/-- Following the change of an entry writes the entry, the configuration and
its stylesheet at most, and leaves the entry followed. -/
theorem entryFollowed (hroot : c.root.isAbsolute = true) (he : IsEntry (c.resolve p))
    (hload : run (Config.load c.root) w = (.ok c, w))
    (hboot : run (bootstrapEntry c (c.resolve p)) w = (.ok c', w₂))
    (hgen : run (generateEntry c' (c.resolve p) none) w₂ = (.ok r, w₁)) :
    c'.root = c.root ∧ EntryFollowed c' (c.resolve p) w₁ ∧ Confined (ChangePlace c' p) w w₁ := by
  obtain ⟨hfile, -⟩ := run_generateEntry_iff.mp hgen
  rw [Config.resolve_of_isAbsolute (c.isAbsolute_resolve hroot p)] at hfile
  obtain ⟨hload₂, hbegun⟩ := bootstrapped he hload hboot hfile
  have hsame : c'.root = c.root := root_of_load hload₂
  -- the generation writes neither the entry nor the configuration
  have hsheet := confined_generateEntry (S := c'.StylesheetAt) (by rwa [hsame]) (fun _ hs => hs)
    (c.resolve p) w₂
  rw [hgen] at hsheet
  have hfree : ¬ c'.StylesheetAt (c.resolve p).place := by
    obtain ⟨place, bytes, hl, hfind⟩ := FileTree.isFile_iff.mp hfile
    rw [FileTree.place_of_locate hl]
    exact he.not_stylesheetAt (FileTree.getLast?_of_locate hl (FileTree.ne_directory hfind))
  refine ⟨hsame, ⟨?_, hbegun.of_confined hsheet hfree, w₂, r, hgen⟩, ?_⟩
  · rw [hsame]
    exact hsheet.load (not_stylesheetAt_config c' c.root) hload₂
  · have hp : ChangePlace c' p (c.resolve p).place := by
      rw [Config.resolve, ← hsame]
      exact .changed
    have hconfig : ChangePlace c' p (Config.fileIn c.root).place := by
      rw [← hsame]
      exact .configuration
    have hlines := confined_bootstrapEntry hp hconfig w
    rw [hboot] at hlines
    have hsheet' : Confined (ChangePlace c' p) w₂ w₁ := hsheet.mono fun _ hs => .stylesheet hs
    exact Trans.trans hlines hsheet'

/-- **Changes come to rest**: after a change was followed, the files created or
changed are the file itself, the configuration, and stylesheets of entries
next to the sources with the files beside them.  Unless the file is a partial,
changing it again, or any of those files, leaves the tree as it is. -/
theorem change_converges (hroot : root.isAbsolute = true)
    (h : run (Step.act root (.change p)) w = (.ok (), w₁)) :
    ∃ c, run (Config.load root) w₁ = (.ok c, w₁) ∧
      (∀ here, w.Alters w₁ here → ChangePlace c p here) ∧
      (isPartialPath (root.join p) = false →
        Settled root p w₁ ∧
          ∀ q here, w.Alters w₁ here → w₁.tree.locate (root.join q) = .ok here →
            (root.join q).hasNul = false → Settled root q w₁) := by
  obtain ⟨c, report, hload, hrun⟩ := run_change_iff.mp h
  obtain rfl : c.root = root := root_of_load hload
  by_cases hu : Unfollowed (c.resolve p)
  · -- nothing is written
    rw [handleChange_of_unfollowed hu] at hrun
    cases hrun
    have hnone : ∀ here, ¬ w.Alters w here := by
      rintro here ⟨bytes, hb, hne⟩
      exact hne hb
    exact ⟨c, hload, fun here ha => absurd ha (hnone here), fun _ =>
      ⟨settled_of_unfollowed hload hu, fun q here ha => absurd ha (hnone here)⟩⟩
  · rw [handleChange_of_followed hu] at hrun
    rcases hp : isPartialPath (c.resolve p) with - | -
    · rw [hp, if_neg Bool.false_ne_true] at hrun
      obtain ⟨c', w₂, hboot, hrest⟩ := exists_of_run_bind hrun
      obtain ⟨r, w₃, hgen, hdone⟩ := exists_of_run_bind hrest
      cases hdone
      have he : IsEntry (c.resolve p) := ⟨hu, hp⟩
      obtain ⟨hsame, hfollowed, hconfined⟩ := entryFollowed hroot he hload hboot hgen
      -- the root is that of the configuration now in force
      have hresolve : ∀ q, c.root.join q = c'.resolve q := fun q => by rw [Config.resolve, hsame]
      have hp' : c.resolve p = c'.resolve p := hresolve p
      rw [hp'] at he hfollowed
      simp only [hresolve]
      rw [← hsame] at hroot ⊢
      refine ⟨c', hfollowed.loads, fun here ha => hconfined.of_alters ha, fun _ => ⟨?_, ?_⟩⟩
      · obtain ⟨place, bytes, hl, -⟩ := FileTree.isFile_iff.mp hfollowed.begun.isFile
        obtain ⟨text, hr, -⟩ := hfollowed.begun
        obtain ⟨-, hn, -⟩ := run_decoded_iff.mp hr
        exact hfollowed.settled hroot he hl hl hn
      · rintro q here ha hq hn
        have hplace := hconfined.of_alters ha
        obtain ⟨bytes, hfind, -⟩ := ha
        exact hfollowed.settled_of_changePlace hroot he hplace (FileTree.ne_directory hfind) hq hn
    · -- the configured entries are generated, and the configuration stays
      rw [hp, if_pos rfl] at hrun
      obtain ⟨results, w₂, hgen, hdone⟩ := exists_of_run_bind hrun
      cases hdone
      have hconfined := confined_generateEntries (S := c.StylesheetAt) hroot (fun _ hs => hs) w
      rw [hgen] at hconfined
      refine ⟨c, hconfined.load (not_stylesheetAt_config c c.root) hload,
        fun here ha => .stylesheet (hconfined.of_alters ha), fun hwhole => ?_⟩
      have hwhole : isPartialPath (c.resolve p) = false := hwhole
      rw [hp] at hwhole
      cases hwhole

/-! ### A blank entry -/

/-- The root of a project that is watched. -/
def watchedRoot : Path := ⟨.single, ["watched"]⟩

/-- Its configuration, with these entries. -/
def watchedConfig (entries : List Text) : Config :=
  ⟨watchedRoot, [("autofill", .obj [("entries", .arr (entries.map .str))])]⟩

/-- The text of a configuration without entries. -/
def watchedText : Text := "\x7b\"autofill\":\x7b\"entries\":[]\x7d\x7d"

/-- The text of the configuration when the style sheet is registered. -/
def registeredText : Text :=
  (Json.obj (watchedConfig ["src/styles/x.scss"]).data).write .ascii ++ "\n"

/-- The project's style sheet. -/
def watchedEntry : Path := ⟨.single, ["watched", "src", "styles", "x.scss"]⟩

/-- The project, with the texts of its configuration and its style sheet. -/
def watchedProject (config sheet : Text) (log : List LogLine) : Workspace where
  tree := ⟨[(["watched"], .directory), (["watched", configName], .file (Text.encode config)),
    (["watched", "src"], .directory), (["watched", "src", "styles"], .directory),
    (["watched", "src", "styles", "x.scss"], .file (Text.encode sheet))]⟩
  log := log

/-- The first lines of the style sheet. -/
def watchedLines : Text := entryBoilerplate "r" "x" "\n"

theorem read_watchedText : Json.read? watchedText = .ok (.obj (watchedConfig []).data) := by cbv

theorem read_registeredText :
    Json.read? registeredText = .ok (.obj (watchedConfig ["src/styles/x.scss"]).data) := by cbv

/-- Where its stylesheet goes. -/
def watchedSheet : Place := ["watched", "src", "styles", "_responsive-autofill.x.generated.scss"]

theorem run_readConfig_watched {config sheet : Text} (log : List LogLine)
    (hu : Text.unifyNewlines config = config) :
    run (readText (Config.fileIn watchedRoot)) (watchedProject config sheet log)
      = (.ok config, watchedProject config sheet log) := by
  have hread : run (readText (Config.fileIn watchedRoot)) (watchedProject config sheet log)
      = (.ok (Text.unifyNewlines config), watchedProject config sheet log) :=
    run_readText_of_encoded (show _ = Except.ok (["watched", configName] : Place) from rfl) rfl rfl
  rwa [hu] at hread

theorem run_registerEntry_watched (log : List LogLine) :
    run (registerEntry (watchedConfig []) watchedEntry)
        (watchedProject watchedText watchedLines log)
      = (.ok true, watchedProject registeredText watchedLines log) := by
  have hplace : run (normalize ((watchedConfig []).resolve watchedEntry))
      (watchedProject watchedText watchedLines log) = (.ok watchedEntry, _) := rfl
  have hdir : run (liftM (watchedConfig []).sourceDir : Action Path)
      (watchedProject watchedText watchedLines log)
      = (.ok ⟨.single, ["watched", "src", "styles"]⟩, _) := rfl
  have hsources : run (normalize ⟨.single, ["watched", "src", "styles"]⟩)
      (watchedProject watchedText watchedLines log)
      = (.ok ⟨.single, ["watched", "src", "styles"]⟩, _) := rfl
  have hwithin : watchedEntry.isWithin ⟨.single, ["watched", "src", "styles"]⟩ = true := rfl
  have hread : run (readText (Config.fileIn (watchedConfig []).root))
      (watchedProject watchedText watchedLines log) = (.ok watchedText, _) :=
    run_readConfig_watched log rfl
  have hadded : run (liftM <| addEntry? (watchedConfig []).data
        ((watchedConfig []).relative ((watchedConfig []).resolve watchedEntry)) : Action _)
      (watchedProject watchedText watchedLines log)
      = (.ok (some (watchedConfig ["src/styles/x.scss"]).data), _) := rfl
  unfold registerEntry
  rw [run_bind_of_ok hplace, run_bind_of_ok hdir, run_bind_of_ok hsources, if_pos hwithin,
    run_bind_of_ok hread, read_watchedText]
  dsimp only
  rw [run_bind_of_ok hadded]
  rfl

/-- The style sheet is given its first lines and is registered. -/
theorem run_bootstrapEntry_watched :
    run (bootstrapEntry (watchedConfig []) watchedEntry) (watchedProject watchedText [] [])
      = (.ok (watchedConfig ["src/styles/x.scss"]), watchedProject registeredText watchedLines
          [⟨.info, "added boilerplate to src/styles/x.scss"⟩,
            ⟨.info, "registered entry src/styles/x.scss"⟩]) := by
  have hs : run (liftM (watchedConfig []).autofill : Action Autofill)
      (watchedProject watchedText [] [])
      = (.ok ⟨⟨"r", "resp"⟩, 850, [⟨.single, ["watched", "src", "styles"]⟩],
          ⟨.single, ["watched", "src", "styles", "_responsive-autofill.generated.scss"]⟩, []⟩,
        _) := rfl
  have hblank : run (readRaw watchedEntry) (watchedProject watchedText [] []) = (.ok [], _) :=
    run_decoded_iff.mpr ⟨rfl, rfl, _, rfl, Text.decode_encode []⟩
  have hlines : run (ensureBoilerplate watchedEntry "r") (watchedProject watchedText [] [])
      = (.ok true, watchedProject watchedText watchedLines []) := by
    have hfile : run (isFile watchedEntry) (watchedProject watchedText [] []) = (.ok true, _) := rfl
    have hempty : Text.isBlank [] = true := rfl
    rw [ensureBoilerplate, run_bind_of_ok hfile, if_pos rfl, run_bind_of_ok hblank, if_pos hempty]
    rfl
  have hlog : ∀ config sheet log message,
      run (Action.log .info message) (watchedProject config sheet log)
        = (.ok (), watchedProject config sheet (log ++ [⟨.info, message⟩])) :=
    fun _ _ _ _ => rfl
  have hloaded : Config.ofText watchedRoot registeredText
      = .ok (watchedConfig ["src/styles/x.scss"]) := by
    rw [Config.ofText, read_registeredText]
    rfl
  rw [bootstrapEntry, run_bind_of_ok hs, run_bind_of_ok hlines, if_pos rfl,
    run_bind_of_ok (hlog _ _ _ _), run_bind_of_ok (run_registerEntry_watched _), if_pos rfl,
    run_bind_of_ok (hlog _ _ _ _)]
  exact run_load_iff.mpr ⟨rfl, _, run_readConfig_watched _ (by decide +kernel), hloaded⟩

/-- The blank style sheet is given its first lines, registered and generated,
all by one change, and a second one finds nothing left to do. -/
theorem change_converges_example :
    ∃ w₁, run (Step.act watchedRoot (.change watchedEntry)) (watchedProject watchedText [] [])
        = (.ok (), w₁) ∧ Settled watchedRoot watchedEntry w₁ := by
  obtain ⟨r, w₁, hgen⟩ : ∃ r w₁, run (generateEntry (watchedConfig ["src/styles/x.scss"])
      watchedEntry none) (watchedProject registeredText watchedLines
        [⟨.info, "added boilerplate to src/styles/x.scss"⟩,
          ⟨.info, "registered entry src/styles/x.scss"⟩]) = (.ok r, w₁) := by
    have hc : (watchedConfig ["src/styles/x.scss"]).autofill
        = .ok ⟨⟨"r", "resp"⟩, 850, [⟨.single, ["watched", "src", "styles"]⟩],
          ⟨.single, ["watched", "src", "styles", "_responsive-autofill.generated.scss"]⟩,
          ["src/styles/x.scss"]⟩ := rfl
    have hstored : ∀ content log, run (store ⟨.single, watchedSheet⟩ content)
        (watchedProject registeredText watchedLines log)
        = (.ok (), ⟨(watchedProject registeredText watchedLines log).tree.set watchedSheet
            (.file (Text.encode content)), log⟩) := fun content log =>
      run_store_iff.mpr ⟨_, watchedSheet, ⟨rfl, rfl, rfl, nofun⟩, rfl⟩
    obtain ⟨source, hsource⟩ := Text.exists_readSource watchedLines
    have hread : ∀ log, run (readSource ((watchedConfig ["src/styles/x.scss"]).resolve
          watchedEntry)) (watchedProject registeredText watchedLines log)
        = (.ok source, watchedProject registeredText watchedLines log) := fun log =>
      run_readSource_iff.mpr ⟨rfl, rfl, _, rfl, hsource⟩
    obtain ⟨r, log, hgen, -⟩ := run_generateEntry_of rfl hc (hread _) rfl
      (.created rfl (hstored _ _))
    exact ⟨r, _, hgen⟩
  have hload : run (Config.load watchedRoot) (watchedProject watchedText [] [])
      = (.ok (watchedConfig []), watchedProject watchedText [] []) := by
    refine run_load_iff.mpr ⟨rfl, _, run_readConfig_watched _ rfl, ?_⟩
    rw [Config.ofText, read_watchedText]
    rfl
  have hchange : run (Step.act watchedRoot (.change watchedEntry))
      (watchedProject watchedText [] []) = (.ok (), w₁) := by
    have hresolve : (watchedConfig []).resolve watchedEntry = watchedEntry := rfl
    have hfollowed : ¬ Unfollowed ((watchedConfig []).resolve watchedEntry) := by
      rw [Unfollowed, FileTree.IsSourceName]
      decide
    have hwhole : isPartialPath watchedEntry = false := rfl
    refine run_change_iff.mpr ⟨_, .entry r, hload, ?_⟩
    rw [handleChange_of_followed hfollowed, hresolve, hwhole, if_neg Bool.false_ne_true,
      run_bind_of_ok run_bootstrapEntry_watched, run_bind_of_ok hgen]
    rfl
  obtain ⟨c, -, -, hsettled⟩ := change_converges rfl hchange
  exact ⟨w₁, hchange, (hsettled rfl).1⟩

end FluidScss
