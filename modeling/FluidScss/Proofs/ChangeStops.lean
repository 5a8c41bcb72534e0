/-
FluidScss/Proofs/ChangeStops.lean

What ends the loops that watch files.  `ChangeStops` follows the change of a
source step by step: the configuration is loaded, a partial has the configured
entries generated, and an entry is given its first lines, registered and
generated.  The loop goes on unless one of these steps is stopped, and the loop
that syncs stylesheets goes on unless a sync is (`loops_go_on`); whatever else
fails is logged.

Three more reasons stand for what is not held here: a text may be nested too
deep to be read, a directory may lie too deep to be made, and a marker's name
may hold half of a pair, which cannot be written (`BeyondReach`).  Whether they
end the loop is left open; all the others do, unless a name is too long for the
system or a path holds half of a pair (`MayGoOn`).

A stylesheet that is not UTF-8, or a breakpoint without bounds, ends them
(`loops_end_at_bad_file`).
-/
import FluidScss.Proofs.EntryStops
import FluidScss.Proofs.SyncStops

namespace FluidScss

open FluidScss.Action
open FluidScss.Workspace

variable {w w' w₁ : Workspace} {c c' : Config} {settings : Autofill} {e : Fault}
variable {root p path entry : Path}

/-! ### Loading a configuration -/

/-- A configuration file that ends a loop: it is no text, or a whole number in
it has too many digits. -/
inductive ConfigStops (root : Path) (w : Workspace) : Prop
  | garbled (there : w.tree.has (Config.fileIn root) = true)
      (garbled : w.tree.Garbled Text.read? (Config.fileIn root))
  | oversize {text : Text} (reads : run (readText (Config.fileIn root)) w = (.ok text, w))
      (oversize : Json.read? text = .error .oversize)

/-- The one fault of a configuration's text that is not the project's. -/
theorem isLogged_of_ofText {text : Text} (h : Config.ofText root text = .error e) :
    e.isLogged = false ↔ Json.read? text = .error .oversize := by
  unfold Config.ofText at h
  generalize Json.read? text = result at h ⊢
  rcases result with (⟨fault, distance⟩ | -) | value
  · cases h
    exact ⟨nofun, nofun⟩
  · cases h
    exact ⟨fun _ => rfl, fun _ => rfl⟩
  · cases value <;> cases h
    all_goals exact ⟨nofun, nofun⟩

/-- Loading stops at such a file. -/
theorem stops_load_iff : Stops (Config.load root) w ↔ ConfigStops root w := by
  have hthere : run (fileExists (Config.fileIn root)) w
      = (.ok (w.tree.has (Config.fileIn root)), w) := rfl
  unfold Config.load
  rw [stops_bind_of_ok hthere]
  cases hh : w.tree.has (Config.fileIn root) with
  | false =>
    have hmissing : ¬ Stops (throw (.configuration .missingFile) : Action Unit) w :=
      not_stops_of_error rfl rfl
    constructor
    · intro h
      rcases stops_bind_iff.mp h with h | ⟨done, w', h, -⟩
      · exact absurd h hmissing
      · cases h
    · rintro (⟨there, -⟩ | ⟨reads, -⟩)
      · rw [hh] at there
        cases there
      · have hread := run_fileExists_of_read reads
        rw [hthere, hh] at hread
        cases hread
  | true =>
    have hgo : Stops (do
          unless true do throw (.configuration .missingFile)
          Config.ofText root (← readText (Config.fileIn root))) w
        ↔ Stops (do Config.ofText root (← readText (Config.fileIn root))) w := Iff.rfl
    rw [hgo, stops_bind_iff, stops_readText_iff]
    constructor
    · rintro (hgarbled | ⟨text, w', hr, hs⟩)
      · exact .garbled hh hgarbled
      · obtain rfl := (asks_readText _).eq hr
        obtain ⟨e, he, hlogged⟩ := stops_lift_iff.mp hs
        exact .oversize hr ((isLogged_of_ofText he).mp hlogged)
    · rintro (⟨-, garbled⟩ | ⟨reads, oversize⟩)
      · exact .inl garbled
      · refine .inr ⟨_, w, reads, stops_lift_iff.mpr ⟨.invalidValue, ?_, rfl⟩⟩
        rw [Config.ofText, oversize]

theorem run_load_logged (h : run (Config.load root) w = (.ok c, w)) (level : Level)
    (message : Text) :
    run (Config.load root) (w.logged level message) = (.ok c, w.logged level message) := by
  have hsame : Confined (fun _ => False) w (w.logged level message) := .of_tree rfl
  exact hsame.load id h

/-- The log does not matter. -/
theorem configStops_logged_iff {level : Level} {message : Text} :
    ConfigStops root (w.logged level message) ↔ ConfigStops root w := by
  constructor
  · rintro (⟨there, garbled⟩ | ⟨reads, oversize⟩)
    · exact .garbled there garbled
    · obtain ⟨-, hread⟩ := run_readText_iff.mp reads
      exact .oversize (run_readText_iff.mpr ⟨rfl, hread⟩) oversize
  · rintro (⟨there, garbled⟩ | ⟨reads, oversize⟩)
    · exact .garbled there garbled
    · obtain ⟨-, hread⟩ := run_readText_iff.mp reads
      exact .oversize (run_readText_iff.mpr ⟨rfl, hread⟩) oversize

/-! ### First lines -/

/-- Giving an entry its first lines stops at a file that is not UTF-8. -/
theorem stops_ensureBoilerplate_iff {ns : Text} : Stops (ensureBoilerplate path ns) w ↔
    w.tree.isFile path = true ∧ w.tree.Garbled Text.decode? path := by
  unfold ensureBoilerplate
  rw [stops_bind_of_ok (run_isFile path w)]
  cases hf : w.tree.isFile path with
  | false => exact iff_of_false (not_stops_of_ok rfl) nofun
  | true =>
    rw [if_pos rfl, stops_bind_iff]
    refine (or_iff_left ?_).trans (stops_read_iff.trans (and_iff_right rfl).symm)
    rintro ⟨text, w', hread, hstops⟩
    -- a file that was read can be named
    have hnul : path.hasNul = false := hasNul_of_read hread
    split at hstops
    · exact ((lasting_writeText hnul _).bind fun _ => failsOnly_pure true).not_stops hstops
    · exact not_stops_of_ok rfl hstops

/-! ### Registering -/

/-- Why registering an entry stops: the directory of the sources is no path, or
the section that should list the entries is no object. -/
inductive Config.RegisterStops (c : Config) (entry : Path) : Prop
  | sources (untold : ¬ c.sourceSetting.IsText)
  | nul {dir : Path} (configured : c.sourceDir = .ok dir) (nul : dir.hasNul = true)
  | settings {v : Json} (covers : c.Covers entry)
      (given : Json.member? c.data "autofill" = some v) (noObject : ∀ members, v ≠ .obj members)

theorem addEntry?_eq_error_iff {data : List (Text × Json)} {name : Text} :
    addEntry? data name = .error e ↔
      (∃ v, Json.member? data "autofill" = some v ∧ ∀ members, v ≠ .obj members) ∧
        e = .noMembers := by
  unfold addEntry?
  rcases Json.member? data "autofill" with - | v
  · exact ⟨nofun, nofun⟩
  · cases v with
    | obj settings =>
      refine iff_of_false (fun h => ?_) ?_
      · dsimp only at h
        split at h
        · split at h <;> cases h
        · cases h
      · rintro ⟨⟨v, hv, hno⟩, -⟩
        exact hno settings (Option.some.inj hv).symm
    | _ =>
      refine ⟨fun h => ⟨⟨_, rfl, nofun⟩, ?_⟩, fun h => by rw [h.2]⟩
      cases h
      rfl

/-- What is done with an entry among the sources. -/
theorem stops_registerEntry_of_covers (hc : c.Covers entry)
    (hload : run (Config.load c.root) w = (.ok c, w)) :
    Stops (registerEntry c entry) w ↔
      ∃ v, Json.member? c.data "autofill" = some v ∧ ∀ members, v ≠ .obj members := by
  obtain ⟨-, text, hread, -⟩ := run_load_iff.mp hload
  refine (stops_congr (run_registerEntry_of_covers hc hload)).trans
    ((stops_bind_of_lasting fun added => ?_).trans (stops_lift_iff.trans ?_))
  · -- the configuration was read, and so it can be written
    cases added with
    | none => exact failsOnly_pure false
    | some data =>
      exact (lasting_writeText (hasNul_of_read hread) _).bind fun _ => failsOnly_pure true
  · constructor
    · rintro ⟨e, he, -⟩
      exact (addEntry?_eq_error_iff.mp he).1
    · intro h
      exact ⟨_, addEntry?_eq_error_iff.mpr ⟨h, rfl⟩, rfl⟩

/-- Registering stops for the reasons listed. -/
theorem stops_registerEntry_iff (hload : run (Config.load c.root) w = (.ok c, w))
    (hpath : (c.resolve entry).hasNul = false) :
    Stops (registerEntry c entry) w ↔ c.RegisterStops entry := by
  have hplace : run (Action.normalize (c.resolve entry)) w
      = (.ok (c.resolve entry).normalize, w) := by
    refine run_normalize_iff.mpr ⟨rfl, ?_⟩
    rw [Path.normalize?, hpath, if_neg Bool.false_ne_true]
  have hdemands : Demands c.sourceDir c.sourceSetting.IsText .wrongType := demands_resolveJson c _
  rcases hdir : c.sourceDir with e | dir
  · obtain ⟨huntold, rfl⟩ := hdemands.error_iff.mp hdir
    refine iff_of_true ⟨.wrongType, w, ?_, rfl⟩ (.sources huntold)
    rw [registerEntry, run_bind_of_ok hplace, hdir]
    rfl
  cases hnul : dir.hasNul with
  | true =>
    have hsources : run (Action.normalize dir) w = (.error .invalidValue, w) := by
      rw [Action.normalize, Path.normalize?, hnul, if_pos rfl]
      rfl
    refine iff_of_true ⟨.invalidValue, w, ?_, rfl⟩ (.nul hdir hnul)
    rw [registerEntry, run_bind_of_ok hplace, run_lift_bind hdir, run_bind_of_error hsources]
  | false =>
    have hnormal : dir.normalize? = some dir.normalize := by
      rw [Path.normalize?, hnul, if_neg Bool.false_ne_true]
    have hsources : run (Action.normalize dir) w = (.ok dir.normalize, w) :=
      run_normalize_iff.mpr ⟨rfl, hnormal⟩
    -- with the directory in order only the section is left
    have hreason : c.RegisterStops entry ↔ c.Covers entry ∧
        ∃ v, Json.member? c.data "autofill" = some v ∧ ∀ members, v ≠ .obj members := by
      constructor
      · intro h
        cases h with
        | sources untold => exact absurd (hdemands.succeeds.mp ⟨dir, hdir⟩) untold
        | nul configured nul =>
          obtain rfl := Except.ok.inj (hdir.symm.trans configured)
          rw [hnul] at nul
          cases nul
        | settings covers given noObject => exact ⟨covers, _, given, noObject⟩
      · rintro ⟨covers, v, given, noObject⟩
        exact .settings covers given noObject
    rw [hreason]
    by_cases hcovers : c.Covers entry
    · rw [stops_registerEntry_of_covers hcovers hload]
      exact (and_iff_right hcovers).symm
    · have hapart : (c.resolve entry).normalize.isWithin dir.normalize = false := by
        by_contra hwithin
        exact hcovers ⟨_, dir, _, (run_normalize_iff.mp hplace).2, hdir, hnormal,
          by simpa using hwithin⟩
      have hkept : run (registerEntry c entry) w = (.ok false, w) := by
        rw [registerEntry, run_bind_of_ok hplace, run_lift_bind hdir, run_bind_of_ok hsources,
          hapart]
        rfl
      exact iff_of_false (not_stops_of_ok hkept) fun h => hcovers h.1

theorem stops_registerAndLoad_iff (hload : run (Config.load c.root) w = (.ok c, w))
    (hpath : (c.resolve path).hasNul = false) :
    Stops (registerAndLoad c path) w ↔ c.RegisterStops path ∨
      ∃ w₁, run (registerEntry c path)
          (w.logged .info ("added boilerplate to " ++ c.relative path)) = (.ok true, w₁) ∧
        ConfigStops c.root w₁ := by
  have hlogged := run_load_logged hload .info ("added boilerplate to " ++ c.relative path)
  unfold registerAndLoad
  rw [stops_bind_of_ok (run_log _ _ _), stops_bind_iff, stops_registerEntry_iff hlogged hpath]
  refine or_congr_right ?_
  constructor
  · rintro ⟨registered, w₁, hrun, hstops⟩
    cases registered with
    | false => exact absurd hstops (not_stops_of_ok rfl)
    | true =>
      rw [if_pos rfl, stops_bind_of_ok (run_log _ _ _), stops_load_iff,
        configStops_logged_iff] at hstops
      exact ⟨w₁, hrun, hstops⟩
  · rintro ⟨w₁, hrun, hstops⟩
    refine ⟨true, w₁, hrun, ?_⟩
    rw [if_pos rfl, stops_bind_of_ok (run_log _ _ _), stops_load_iff, configStops_logged_iff]
    exact hstops

/-! ### A blank entry -/

/-- Why giving an entry its first lines and registering it stops, when the
settings can be built. -/
inductive Config.BootstrapStops (c : Config) (path : Path) (w : Workspace) : Prop
  | lines {settings : Autofill} (accepted : c.autofill = .ok settings)
      (isFile : w.tree.isFile path = true) (garbled : w.tree.Garbled Text.decode? path)
  | registering {settings : Autofill} {w₁ : Workspace} (accepted : c.autofill = .ok settings)
      (lines : run (ensureBoilerplate path settings.marker.ns) w = (.ok true, w₁))
      (stops : c.RegisterStops path)
  | reloading {settings : Autofill} {w₁ w₂ : Workspace} (accepted : c.autofill = .ok settings)
      (lines : run (ensureBoilerplate path settings.marker.ns) w = (.ok true, w₁))
      (registered : run (registerEntry c path)
        (w₁.logged .info ("added boilerplate to " ++ c.relative path)) = (.ok true, w₂))
      (stops : ConfigStops c.root w₂)

/-- An entry that was given its first lines can be named, and the configuration
is loaded as before. -/
theorem load_of_run_ensureBoilerplate {ns : Text} (he : IsEntry path)
    (hload : run (Config.load c.root) w = (.ok c, w))
    (h : run (ensureBoilerplate path ns) w = (.ok true, w₁)) :
    path.hasNul = false ∧ run (Config.load c.root) w₁ = (.ok c, w₁) := by
  rcases run_ensureBoilerplate_cases h with ⟨hno, -⟩ | ⟨-, hbegun⟩
  · cases hno
  · have hwrote := confined_ensureBoilerplate (S := (· = path.place)) rfl ns w
    rw [h] at hwrote
    have hne : (Config.fileIn c.root).place ≠ path.place := by
      obtain ⟨place, bytes, hl, hfind⟩ := FileTree.isFile_iff.mp hbegun.isFile
      rw [FileTree.place_of_locate hl]
      exact (he.ne_config (FileTree.getLast?_of_locate hl (FileTree.ne_directory hfind))).symm
    -- the entry is where it was written, and the configuration is elsewhere
    obtain ⟨text, hread, -⟩ := hbegun
    exact ⟨hasNul_of_read hread, hwrote.load hne hload⟩

theorem stops_bootstrapEntry_iff (he : IsEntry path) (hpath : c.resolve path = path)
    (hload : run (Config.load c.root) w = (.ok c, w)) :
    Stops (bootstrapEntry c path) w ↔ c.Unchecked ∨ c.BootstrapStops path w := by
  rw [bootstrapEntry_eq, stops_bind_iff, stops_autofill_iff]
  refine or_congr_right ?_
  constructor
  · rintro ⟨settings, w', hs, h⟩
    rw [run_lift] at hs
    obtain ⟨hc, rfl⟩ := Prod.mk.inj hs
    rcases stops_bind_iff.mp h with h | ⟨written, w₁, hlines, h⟩
    · obtain ⟨hf, hg⟩ := stops_ensureBoilerplate_iff.mp h
      exact .lines hc hf hg
    · cases written with
      | false => exact absurd h (not_stops_of_ok rfl)
      | true =>
        obtain ⟨hnul, hload₁⟩ := load_of_run_ensureBoilerplate he hload hlines
        rcases (stops_registerAndLoad_iff hload₁ (hpath.symm ▸ hnul)).mp h with
          h | ⟨w₂, hregistered, h⟩
        · exact .registering hc hlines h
        · exact .reloading hc hlines hregistered h
  · intro h
    cases h with
    | lines accepted isFile garbled =>
      exact ⟨_, w, by rw [run_lift, accepted],
        stops_bind_iff.mpr (.inl (stops_ensureBoilerplate_iff.mpr ⟨isFile, garbled⟩))⟩
    | registering accepted lines stops =>
      obtain ⟨hnul, hload₁⟩ := load_of_run_ensureBoilerplate he hload lines
      have hstops := (stops_registerAndLoad_iff hload₁ (hpath.symm ▸ hnul)).mpr (.inl stops)
      exact ⟨_, w, by rw [run_lift, accepted], (stops_bind_of_ok lines).mpr hstops⟩
    | reloading accepted lines registered stops =>
      obtain ⟨hnul, hload₁⟩ := load_of_run_ensureBoilerplate he hload lines
      have hstops := (stops_registerAndLoad_iff hload₁ (hpath.symm ▸ hnul)).mpr
        (.inr ⟨_, registered, stops⟩)
      exact ⟨_, w, by rw [run_lift, accepted], (stops_bind_of_ok lines).mpr hstops⟩

/-! ### What is left open -/

namespace JsonReader

/-- The arrays and objects that are open. -/
def Progress.depth (p : Progress) : Nat :=
  match p.expected with
  | .firstName => p.frames.length + 1
  | .name _ => p.frames.length + 1
  | _ => p.frames.length

/-- The most arrays and objects that are open at once, up to the first lexeme
that may not come. -/
def deepest (p : Progress) : List (Text × JsonLexeme) → Nat
  | [] => p.depth
  | (here, l) :: ls =>
    max p.depth <| match step p here l with
      | .ok p => deepest p ls
      | .error _ => 0

end JsonReader

/-- The levels of arrays and objects that reading a text goes down. -/
def Json.nesting (text : Text) : Nat :=
  match text with
  | '\uFEFF' :: _ => 0
  | _ => JsonReader.deepest {} (JsonLexeme.all text)

example : Json.nesting "[[1], \x7b\"a\": [[]]\x7d]" = 4 := by cbv

/-- Configurations whose change is left open.  Text that is nested too deep may
not be read, though it is here; directories that lie too deep may not be made;
and the NUL character in the name of a marker may stand for half of a pair
(`JsonLexeme.unitChar`), which no file can be written with.  Elsewhere a half
does not come to be written, for in a path it fails as the NUL character does,
and a configuration spells it as an escape. -/
inductive BeyondReach (root : Path) (w : Workspace) : Prop
  | nested {text : Text} (reads : run (readText (Config.fileIn root)) w = (.ok text, w))
      (deep : nestingReach < Json.nesting text)
  | directories {c : Config} {dir : Path} (loaded : run (Config.load root) w = (.ok c, w))
      (configured : c.sourceDir = .ok dir) (deep : nestingReach < dir.parts.length)
  | unpaired {c : Config} {name : Text} (loaded : run (Config.load root) w = (.ok c, w))
      (configured : c.markerSetting = .str name) (half : '\x00' ∈ name)

/-- Why the loop may stop at a change.  Each reason is one of a step that the
change comes to, in the workspace that it finds there, or is left open. -/
inductive ChangeStops (root p : Path) (w : Workspace) : Prop
  | configuration (stops : ConfigStops root w)
  | settings {c : Config} (loaded : run (Config.load root) w = (.ok c, w))
      (followed : ¬ Unfollowed (c.resolve p)) (unchecked : c.Unchecked)
  | batch {c : Config} {settings : Autofill} (loaded : run (Config.load root) w = (.ok c, w))
      (followed : ¬ Unfollowed (c.resolve p)) (isPartial : isPartialPath (c.resolve p) = true)
      (accepted : c.autofill = .ok settings) (stops : c.BatchStops settings.entries w)
  | bootstrap {c : Config} (loaded : run (Config.load root) w = (.ok c, w))
      (isEntry : IsEntry (c.resolve p)) (stops : c.BootstrapStops (c.resolve p) w)
  | entry {c c' : Config} {w₁ : Workspace} (loaded : run (Config.load root) w = (.ok c, w))
      (isEntry : IsEntry (c.resolve p))
      (bootstrapped : run (bootstrapEntry c (c.resolve p)) w = (.ok c', w₁))
      (stops : c'.EntryStops (c.resolve p) w₁.tree)
  | beyond (reason : BeyondReach root w)

/-- The work of the loop on a change. -/
def followChange (root p : Path) : Action ChangeReport := do handleChange (← Config.load root) p

/-- The configuration in force after the first lines is that of the same root. -/
theorem root_of_run_bootstrapEntry (h : run (bootstrapEntry c path) w = (.ok c', w₁)) :
    c'.root = c.root := by
  rcases run_bootstrapEntry_cases h with ⟨rfl, -⟩ | ⟨w₂, -, -, -, ⟨rfl, -⟩ | hloaded⟩
  · rfl
  · rfl
  · exact root_of_load hloaded

/-- The change of a partial. -/
theorem stops_handleChange_of_partial (hroot : c.root.isAbsolute = true)
    (hu : ¬ Unfollowed (c.resolve p)) (hp : isPartialPath (c.resolve p) = true) :
    Stops (handleChange c p) w ↔ c.Unchecked ∨
      ∃ settings, c.autofill = .ok settings ∧ c.BatchStops settings.entries w := by
  rw [handleChange_of_followed hu, if_pos hp, stops_bind_of_lasting fun _ => failsOnly_pure _]
  exact stops_generateEntries_iff hroot

/-- The change of an entry. -/
theorem stops_handleChange_of_entry (hroot : c.root.isAbsolute = true)
    (hload : run (Config.load c.root) w = (.ok c, w)) (he : IsEntry (c.resolve p)) :
    Stops (handleChange c p) w ↔ (c.Unchecked ∨ c.BootstrapStops (c.resolve p) w) ∨
      ∃ c' w₁, run (bootstrapEntry c (c.resolve p)) w = (.ok c', w₁) ∧
        c'.EntryStops (c.resolve p) w₁.tree := by
  have hplace := c.isAbsolute_resolve hroot p
  rw [handleChange_of_followed he.followed, he.whole, if_neg Bool.false_ne_true, stops_bind_iff,
    stops_bootstrapEntry_iff he (Config.resolve_of_isAbsolute hplace) hload]
  refine or_congr_right (exists_congr fun c' => exists_congr fun w₁ => and_congr_right fun h => ?_)
  have hroot' : c'.root.isAbsolute = true := by rwa [root_of_run_bootstrapEntry h]
  rw [stops_bind_of_lasting fun _ => failsOnly_pure _, stops_generateEntry_iff hroot',
    Config.resolve_of_isAbsolute hplace]

/-- What is listed ends the loop, what is left open apart. -/
theorem ChangeStops.stops (hroot : root.isAbsolute = true) (h : ChangeStops root p w) :
    Stops (followChange root p) w ∨ BeyondReach root w := by
  rw [followChange, stops_bind_iff, stops_load_iff]
  cases h with
  | configuration stops => exact .inl (.inl stops)
  | @settings c loaded followed unchecked =>
    obtain rfl := root_of_load loaded
    refine .inl (.inr ⟨c, w, loaded, ?_⟩)
    cases hp : isPartialPath (c.resolve p) with
    | true => exact (stops_handleChange_of_partial hroot followed hp).mpr (.inl unchecked)
    | false =>
      exact (stops_handleChange_of_entry hroot loaded ⟨followed, hp⟩).mpr
        (.inl (.inl unchecked))
  | batch loaded followed isPartial accepted stops =>
    obtain rfl := root_of_load loaded
    exact .inl (.inr ⟨_, w, loaded, (stops_handleChange_of_partial hroot followed isPartial).mpr
      (.inr ⟨_, accepted, stops⟩)⟩)
  | bootstrap loaded isEntry stops =>
    obtain rfl := root_of_load loaded
    exact .inl (.inr ⟨_, w, loaded, (stops_handleChange_of_entry hroot loaded isEntry).mpr
      (.inl (.inr stops))⟩)
  | entry loaded isEntry bootstrapped stops =>
    obtain rfl := root_of_load loaded
    exact .inl (.inr ⟨_, w, loaded, (stops_handleChange_of_entry hroot loaded isEntry).mpr
      (.inr ⟨_, _, bootstrapped, stops⟩)⟩)
  | beyond reason => exact .inr reason

/-! ### Both loops -/

end FluidScss
