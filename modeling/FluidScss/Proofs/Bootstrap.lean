/-
FluidScss/Proofs/Bootstrap.lean

Blank entries and what is generated for them.  The change of a blank entry
that succeeds leaves it with its first lines (`run_handleChange_of_blank`), and
these use the stylesheet that was generated by the same change for entries
that stand directly in the directory of the sources and have plain names, and
for no others (`bootstrapped_imports_iff`): an entry in a directory below uses
a stylesheet that is not there (`nested_entry_misses_overrides`).
-/
import FluidScss.Proofs.Convergence
import FluidScss.Proofs.FirstLines

namespace FluidScss

open FluidScss.Action
open FluidScss.Workspace

variable {w w₁ : Workspace} {c c' : Config} {settings : Autofill}
variable {p path : Path} {ns raw : Text}

/-! ### The change of a blank entry -/

/-- The namespace of a marker is what stands before a dot. -/
theorem dot_not_mem_of_parseMarker {value : Json} {m : Marker} (h : parseMarker value = .ok m) :
    '.' ∉ m.ns := by
  unfold parseMarker at h
  dsimp only at h
  split at h
  · rename_i first second hparts
    split at h
    · cases h
    · cases h
      cases value with
      | str text =>
        have hfirst : first ∈ Text.splitOn '.' text := by
          rw [show Text.splitOn '.' text = [first, second] from hparts]
          exact List.mem_cons_self ..
        exact Text.not_mem_of_mem_splitOn hfirst
      | _ => cases hparts
  · cases h

theorem dot_not_mem_ns (h : c.autofill = .ok settings) : '.' ∉ settings.marker.ns := by
  unfold Config.autofill at h
  obtain ⟨marker, hmarker, h⟩ := exists_of_except_bind h
  dsimp only at h
  split at h
  all_goals
    obtain ⟨entries, -, h⟩ := exists_of_except_bind h
    obtain ⟨mobileMax, -, h⟩ := exists_of_except_bind h
    obtain ⟨elements, -, h⟩ := exists_of_except_bind h
    obtain ⟨scanDirs, -, h⟩ := exists_of_except_bind h
    obtain ⟨output, -, h⟩ := exists_of_except_bind h
    cases h
    exact dot_not_mem_of_parseMarker hmarker

/-- A blank entry is given its first lines. -/
theorem run_ensureBoilerplate_of_blank {written : Bool}
    (hr : run (readRaw path) w = (.ok raw, w)) (hb : Text.isBlank raw = true)
    (h : run (ensureBoilerplate path ns) w = (.ok written, w₁)) :
    written = true ∧
      run (readRaw path) w₁ = (.ok (entryBoilerplate ns path.stem (lineBreakOf raw)), w₁) := by
  obtain ⟨-, -, bytes, hbytes, -⟩ := run_decoded_iff.mp hr
  obtain ⟨place, hl, hf⟩ := FileTree.locate_of_readBytes hbytes
  have hfile : run (isFile path) w = (.ok true, w) := by
    rw [← FileTree.isFile_of_locate hl hf]
    rfl
  rw [ensureBoilerplate, run_bind_of_ok hfile, if_pos rfl, run_bind_of_ok hr, hb, if_pos rfl] at h
  obtain ⟨done, w', hw, h⟩ := exists_of_run_bind h
  cases h
  exact ⟨rfl, run_readRaw_of_run_writeText hw⟩

/-- What follows the first lines, registering the entry, leaves them. -/
theorem run_bootstrapEntry_of_blank (he : IsEntry path) (hc : c.autofill = .ok settings)
    (hr : run (readRaw path) w = (.ok raw, w)) (hb : Text.isBlank raw = true)
    (h : run (bootstrapEntry c path) w = (.ok c', w₁)) :
    run (readRaw path) w₁
      = (.ok (entryBoilerplate settings.marker.ns path.stem (lineBreakOf raw)), w₁) := by
  unfold bootstrapEntry at h
  obtain ⟨settings', hs, hrun⟩ := exists_of_asks_bind (within_lift _) h
  rw [run_lift, hc] at hs
  cases hs
  obtain ⟨written, w₂, hlines, hrest⟩ := exists_of_run_bind hrun
  obtain ⟨rfl, hread⟩ := run_ensureBoilerplate_of_blank hr hb hlines
  rw [if_pos rfl] at hrest
  have hwithin : Within (Confined (· = (Config.fileIn c.root).place)) (do
      Action.log .info ("added boilerplate to " ++ c.relative path)
      if ← registerEntry c path then
        Action.log .info ("registered entry " ++ c.relative path)
        Config.load c.root
      else return c) := by
    have hregister := confined_registerEntry (S := (· = (Config.fileIn c.root).place)) rfl path
    refine within_bind (confined_log _ _) fun _ => within_bind hregister fun registered => ?_
    split
    · exact within_bind (confined_log _ _) fun _ => (asks_load _).within
    · exact within_pure c
  have hconfined := hwithin w₂
  rw [hrest] at hconfined
  -- the entry is another file than the configuration
  refine hconfined.reads (fun hplace => ?_) hread
  obtain ⟨-, -, bytes, hbytes, -⟩ := run_decoded_iff.mp hread
  obtain ⟨place, hl, hf⟩ := FileTree.locate_of_readBytes hbytes
  rw [FileTree.place_of_locate hl] at hplace
  exact he.ne_config (FileTree.getLast?_of_locate hl (FileTree.ne_directory hf)) hplace

/-- What follows the change of a blank entry that succeeds: the entry has its
first lines and the configuration in force is on disk. -/
theorem run_handleChange_of_blank (hroot : c.root.isAbsolute = true)
    (hload : run (Config.load c.root) w = (.ok c, w)) (he : IsEntry (c.resolve p))
    (hr : run (readRaw (c.resolve p)) w = (.ok raw, w)) (hb : Text.isBlank raw = true)
    {report : ChangeReport} (h : run (handleChange c p) w = (.ok report, w₁)) :
    ∃ settings r c' dir, c.autofill = .ok settings ∧ report = .entry r ∧
      run (Config.load c.root) w₁ = (.ok c', w₁) ∧ c'.sourceDir = .ok dir ∧
      r.output = dir.child (entryName (c.resolve p)) ∧
      run (readText (c.resolve p)) w₁ = (.ok (Text.unifyNewlines
        (entryBoilerplate settings.marker.ns (c.resolve p).stem (lineBreakOf raw))), w₁) := by
  rw [handleChange_of_followed he.followed, he.whole, if_neg Bool.false_ne_true] at h
  obtain ⟨c', w₂, hboot, hrest⟩ := exists_of_run_bind h
  obtain ⟨r, w₃, hgen, hdone⟩ := exists_of_run_bind hrest
  cases hdone
  obtain ⟨hsame, hfollowed, -⟩ := entryFollowed hroot he hload hboot hgen
  obtain ⟨settings, hc⟩ : ∃ settings, c.autofill = .ok settings := by
    rw [bootstrapEntry] at hboot
    obtain ⟨settings, hs, -⟩ := exists_of_asks_bind (within_lift _) hboot
    rw [run_lift] at hs
    exact ⟨settings, (Prod.mk.inj hs).1⟩
  have hread := run_bootstrapEntry_of_blank he hc hr hb hboot
  have hroot' : c'.root.isAbsolute = true := by rwa [hsame]
  obtain ⟨settings', source, g⟩ := entryGenerated hroot' hgen
  obtain ⟨dir, hdir, hout⟩ := g.named
  have hresolve : c'.resolve (c.resolve p) = c.resolve p :=
    Config.resolve_of_isAbsolute (c.isAbsolute_resolve hroot p)
  -- the generation leaves the entry
  have hsheet := confined_generateEntry (S := c'.StylesheetAt) hroot' (fun _ hs => hs)
    (c.resolve p) w₂
  rw [hgen] at hsheet
  have hfree : ¬ c'.StylesheetAt (c.resolve p).place := by
    obtain ⟨-, -, bytes, hbytes, -⟩ := run_decoded_iff.mp hread
    obtain ⟨place, hl, hf⟩ := FileTree.locate_of_readBytes hbytes
    rw [FileTree.place_of_locate hl]
    exact he.not_stylesheetAt (FileTree.getLast?_of_locate hl (FileTree.ne_directory hf))
  refine ⟨settings, r, c', dir, hc, rfl, ?_, hdir, ?_,
    run_readText_of_run_readRaw (hsheet.reads hfree hread)⟩
  · rw [← hsame]
    exact hfollowed.loads
  · rw [hout, hresolve, Config.resolve_sourceDir hroot' hdir]

/-! ### A blank entry -/

/-- A configuration without settings. -/
def bareConfig : Config := ⟨watchedRoot, []⟩

/-- The place of an entry in a directory below the sources. -/
def barePlace (dirs : List Text) : Place :=
  (["watched", "src", "styles"] : List Text) ++ dirs ++ (["x.scss"] : List Text)

/-- The entry. -/
def bareEntry (dirs : List Text) : Path :=
  ⟨.single, barePlace dirs⟩

/-- A project without settings, with the text of its entry. -/
def bareProject (dirs : List Text) (sheet : Text) (log : List LogLine) : Workspace where
  tree := ⟨[(["watched"], .directory), (["watched", configName], .file (Text.encode "\x7b\x7d")),
    (["watched", "src"], .directory), (["watched", "src", "styles"], .directory),
    (["watched", "src", "styles", "sub"], .directory),
    (barePlace dirs, .file (Text.encode sheet))]⟩
  log := log

/-- The settings that are in force then. -/
def bareSettings : Autofill :=
  ⟨⟨"r", "resp"⟩, 850, [⟨.single, ["watched", "src", "styles"]⟩],
    ⟨.single, ["watched", "src", "styles", "_responsive-autofill.generated.scss"]⟩, []⟩

theorem autofill_bareConfig : bareConfig.autofill = .ok bareSettings := rfl

theorem run_readConfig_bare (dirs : List Text) (sheet : Text) (log : List LogLine) :
    run (readText (Config.fileIn watchedRoot)) (bareProject dirs sheet log)
      = (.ok ("\x7b\x7d" : Text), bareProject dirs sheet log) := by
  have hread : run (readText (Config.fileIn watchedRoot)) (bareProject dirs sheet log)
      = (.ok (Text.unifyNewlines "\x7b\x7d"), bareProject dirs sheet log) :=
    run_readText_of_encoded (show _ = Except.ok (["watched", configName] : Place) from rfl) rfl rfl
  exact hread

theorem read_bareText : Json.read? ("\x7b\x7d" : Text) = .ok (.obj []) := by cbv

theorem run_load_bare (dirs : List Text) (sheet : Text) (log : List LogLine) :
    run (Config.load watchedRoot) (bareProject dirs sheet log)
      = (.ok bareConfig, bareProject dirs sheet log) := by
  refine run_load_iff.mpr ⟨rfl, _, run_readConfig_bare dirs sheet log, ?_⟩
  rw [Config.ofText, read_bareText]
  rfl

theorem run_readRaw_bare {dirs : List Text} (hdirs : dirs = [] ∨ dirs = [("sub" : Text)]) :
    run (readRaw (bareEntry dirs)) (bareProject dirs [] []) = (.ok [], bareProject dirs [] []) := by
  rcases hdirs with rfl | rfl <;>
    exact run_decoded_iff.mpr ⟨rfl, rfl, _, rfl, Text.decode_encode []⟩

theorem isEntry_bareEntry {dirs : List Text} (hdirs : dirs = [] ∨ dirs = [("sub" : Text)]) :
    IsEntry (bareConfig.resolve (bareEntry dirs)) := by
  rcases hdirs with rfl | rfl <;> refine ⟨?_, rfl⟩ <;>
    · rw [Unfollowed, FileTree.IsSourceName]
      decide

/-- Without a list of entries nothing is registered. -/
theorem run_registerEntry_bare {dirs : List Text} (hdirs : dirs = [] ∨ dirs = [("sub" : Text)])
    (sheet : Text) (log : List LogLine) :
    run (registerEntry bareConfig (bareEntry dirs)) (bareProject dirs sheet log)
      = (.ok false, bareProject dirs sheet log) := by
  have hplace : run (normalize (bareConfig.resolve (bareEntry dirs))) (bareProject dirs sheet log)
      = (.ok (bareEntry dirs), bareProject dirs sheet log) := by
    rcases hdirs with rfl | rfl <;> rfl
  have hdir : run (liftM bareConfig.sourceDir : Action Path) (bareProject dirs sheet log)
      = (.ok ⟨.single, ["watched", "src", "styles"]⟩, _) := rfl
  have hsources : run (normalize ⟨.single, ["watched", "src", "styles"]⟩)
      (bareProject dirs sheet log) = (.ok ⟨.single, ["watched", "src", "styles"]⟩, _) := rfl
  have hwithin : (bareEntry dirs).isWithin ⟨.single, ["watched", "src", "styles"]⟩ = true := by
    rcases hdirs with rfl | rfl <;> rfl
  have hread : run (readText (Config.fileIn bareConfig.root)) (bareProject dirs sheet log)
      = (.ok ("\x7b\x7d" : Text), _) := run_readConfig_bare dirs sheet log
  unfold registerEntry
  rw [run_bind_of_ok hplace, run_bind_of_ok hdir, run_bind_of_ok hsources, if_pos hwithin,
    run_bind_of_ok hread, read_bareText]
  rfl

/-- The entry is followed, wherever it stands, and the configuration stays. -/
theorem run_handleChange_bare {dirs : List Text} (hdirs : dirs = [] ∨ dirs = [("sub" : Text)]) :
    ∃ r w₁, run (handleChange bareConfig (bareEntry dirs)) (bareProject dirs [] [])
        = (.ok (.entry r), w₁) ∧ run (Config.load watchedRoot) w₁ = (.ok bareConfig, w₁) := by
  have hresolve : bareConfig.resolve (bareEntry dirs) = bareEntry dirs := rfl
  have hs : run (liftM bareConfig.autofill : Action Autofill) (bareProject dirs [] [])
      = (.ok bareSettings, _) := rfl
  have hlines : run (ensureBoilerplate (bareEntry dirs) bareSettings.marker.ns)
      (bareProject dirs [] [])
      = (.ok true, bareProject dirs watchedLines []) := by
    have hfile : run (isFile (bareEntry dirs)) (bareProject dirs [] [])
        = (.ok true, bareProject dirs [] []) := by
      rcases hdirs with rfl | rfl <;> rfl
    have hempty : Text.isBlank [] = true := rfl
    rw [ensureBoilerplate, run_bind_of_ok hfile, if_pos rfl,
      run_bind_of_ok (run_readRaw_bare hdirs), if_pos hempty]
    rcases hdirs with rfl | rfl <;> rfl
  obtain ⟨log, hboot⟩ : ∃ log, run (bootstrapEntry bareConfig (bareEntry dirs))
      (bareProject dirs [] []) = (.ok bareConfig, bareProject dirs watchedLines log) := by
    have hlog : ∀ message, run (Action.log .info message) (bareProject dirs watchedLines [])
        = (.ok (), bareProject dirs watchedLines [⟨.info, message⟩]) := fun _ => rfl
    refine ⟨[⟨.info, "added boilerplate to " ++ bareConfig.relative (bareEntry dirs)⟩], ?_⟩
    rw [bootstrapEntry, run_bind_of_ok hs, run_bind_of_ok hlines, if_pos rfl,
      run_bind_of_ok (hlog _), run_bind_of_ok (run_registerEntry_bare hdirs _ _)]
    rfl
  obtain ⟨source, hsource⟩ := Text.exists_readSource watchedLines
  have hread : run (readSource (bareConfig.resolve (bareEntry dirs)))
      (bareProject dirs watchedLines log) = (.ok source, bareProject dirs watchedLines log) := by
    rcases hdirs with rfl | rfl <;> exact run_readSource_iff.mpr ⟨rfl, rfl, _, rfl, hsource⟩
  have hstored : ∀ content, run (store ⟨.single, watchedSheet⟩ content)
      (bareProject dirs watchedLines log)
      = (.ok (), ⟨(bareProject dirs watchedLines log).tree.set watchedSheet
          (.file (Text.encode content)), log⟩) := by
    intro content
    rcases hdirs with rfl | rfl <;>
      exact run_store_iff.mpr ⟨_, watchedSheet, ⟨rfl, rfl, rfl, fun h => by cases h⟩, rfl⟩
  have hmissing : (bareProject dirs watchedLines log).tree.has ⟨.single, watchedSheet⟩ = false := by
    rcases hdirs with rfl | rfl <;> rfl
  have hdir : bareConfig.sourceDir = .ok ⟨.single, ["watched", "src", "styles"]⟩ := rfl
  have htarget : (bareConfig.resolve ⟨.single, ["watched", "src", "styles"]⟩).child
      (entryName (bareConfig.resolve (bareEntry dirs))) = ⟨.single, watchedSheet⟩ := by
    rcases hdirs with rfl | rfl <;> rfl
  obtain ⟨r, log', hgen, -⟩ := run_generateEntry_of rfl
    autofill_bareConfig hread hdir (by rw [htarget]; exact .created hmissing (hstored _))
  have hconfined := confined_generateEntry (S := bareConfig.StylesheetAt) rfl (fun _ hs => hs)
    (bareEntry dirs) (bareProject dirs watchedLines log)
  rw [hgen] at hconfined
  refine ⟨r, _, ?_, hconfined.load (not_stylesheetAt_config _ _) (run_load_bare dirs _ _)⟩
  have he := isEntry_bareEntry hdirs
  rw [handleChange_of_followed he.followed, he.whole, if_neg Bool.false_ne_true, hresolve,
    run_bind_of_ok hboot, run_bind_of_ok hgen]
  rfl

/-- **A bootstrapped entry imports what is generated for it** if, and only if,
it stands directly in the directory of the sources, has a quotable name that
is more than an ending, and the namespace brings in no module of its own. -/
theorem bootstrapped_imports_iff (hroot : c.root.isAbsolute = true)
    (hload : run (Config.load c.root) w = (.ok c, w)) (he : IsEntry (c.resolve p))
    (hr : run (readRaw (c.resolve p)) w = (.ok raw, w)) (hb : Text.isBlank raw = true)
    {report : ChangeReport} (h : run (handleChange c p) w = (.ok report, w₁)) :
    ∃ settings r c' dir text, c.autofill = .ok settings ∧ report = .entry r ∧
      run (Config.load c.root) w₁ = (.ok c', w₁) ∧ c'.sourceDir = .ok dir ∧
      run (readText (c.resolve p)) w₁ = (.ok text, w₁) ∧
      (ImportsOverrides (c.resolve p) text r.output ↔
        (c.resolve p).parent.place = dir.place ∧ (∀ ch ∈ (c.resolve p).name, Quotable ch) ∧
          (c.resolve p).name ≠ sheetEnding ∧ ¬ BringsUse settings.marker.ns) := by
  obtain ⟨settings, r, c', dir, hc, hreport, hload', hdir, hout, htext⟩ :=
    run_handleChange_of_blank hroot hload he hr hb h
  refine ⟨settings, r, c', dir, _, hc, hreport, hload', hdir, htext, ?_⟩
  rw [hout]
  have hs : FileTree.IsSourceName (c.resolve p).name := not_not.mp (not_or.mp he.followed).2
  exact importsOverrides_iff hs (dot_not_mem_ns hc) (lineBreakOf_cases raw)

/-- An entry next to the sources imports its stylesheet. -/
theorem bootstrapped_imports_beside :
    ∃ r w₁ text, run (handleChange bareConfig (bareEntry [])) (bareProject [] [] [])
        = (.ok (.entry r), w₁) ∧ run (readText (bareEntry [])) w₁ = (.ok text, w₁) ∧
      ImportsOverrides (bareEntry []) text r.output := by
  obtain ⟨r, w₁, h, hbare⟩ := run_handleChange_bare (.inl rfl)
  obtain ⟨settings, r', c', dir, text, hc, hr, hload, hdir, htext, hiff⟩ :=
    bootstrapped_imports_iff (c := bareConfig) rfl (run_load_bare [] [] [])
      (isEntry_bareEntry (.inl rfl)) (run_readRaw_bare (.inl rfl)) rfl h
  cases hr
  obtain rfl : bareSettings = settings := Except.ok.inj (autofill_bareConfig.symm.trans hc)
  obtain rfl : bareConfig = c' := Except.ok.inj (congrArg Prod.fst (hbare.symm.trans hload))
  cases hdir
  refine ⟨r, w₁, text, h, htext, hiff.mpr ⟨rfl, ?_, by decide, ?_⟩⟩
  · show ∀ ch ∈ ("x.scss" : Text), ch ≠ '"' ∧ ch ≠ '/' ∧ ch ≠ '\n' ∧ ch ≠ '\r'
    decide
  · rintro ⟨line, hm, -⟩
    cases hm

/-- An entry in a directory below uses a stylesheet of its own directory,
while its stylesheet stands next to the sources. -/
theorem nested_entry_misses_overrides :
    ∃ r w₁ text, run (handleChange bareConfig (bareEntry ["sub"])) (bareProject ["sub"] [] [])
        = (.ok (.entry r), w₁) ∧
      run (readText (bareEntry ["sub"])) w₁ = (.ok text, w₁) ∧
      ¬ ImportsOverrides (bareEntry ["sub"]) text r.output := by
  obtain ⟨r, w₁, h, hbare⟩ := run_handleChange_bare (.inr rfl)
  obtain ⟨settings, r', c', dir, hc, hr, hload, hdir, hout, htext⟩ :=
    run_handleChange_of_blank (c := bareConfig) rfl (run_load_bare ["sub"] [] [])
      (isEntry_bareEntry (.inr rfl)) (run_readRaw_bare (.inr rfl)) rfl h
  cases hr
  obtain rfl : bareConfig = c' := Except.ok.inj (congrArg Prod.fst (hbare.symm.trans hload))
  cases hdir
  refine ⟨r, w₁, _, h, htext, ?_⟩
  rw [hout]
  intro himports
  have hsource : FileTree.IsSourceName (bareEntry ["sub"]).name := by
    rw [FileTree.IsSourceName]
    decide
  have hplace := ((importsOverrides_iff hsource (dot_not_mem_ns hc) (lineBreakOf_cases [])).mp
    himports).1
  revert hplace
  decide

end FluidScss
