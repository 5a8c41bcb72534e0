/-
FluidScss/Proofs/Respelling.lean

Entries under several spellings.  What registering an entry does depends on the
spelling through two things, the place of the entry, by which it lies among the
sources, and the text that tells its path, which is listed
(`run_registerEntry_congr`).  Where the sources are below the root, spellings of
one place are told by one text, so they are registered alike.

And an entry that has been registered is registered by then, in whichever
configuration: the numbers of the one that is written may be read as others, but
the texts that are listed are read as they are (`run_registerEntry_again`).
-/
import FluidScss.Proofs.Registration
import FluidScss.Proofs.Spelling

namespace FluidScss

open FluidScss.Action

variable {w w₁ : Workspace} {c again : Config} {entry entry' dir sources : Path}
variable {name text text' : Text} {items : List Json} {registered : Bool}

/-! ### Registering again -/

theorem isText_reread (name : Text) (v : Json) : isText name v.reread = isText name v := by
  cases v <;> rfl

/-- An entry that is listed is listed in what the configuration reads as. -/
theorem addEntry?_rereadMembers (slot : EntrySlot) (hlisted : items.any (isText name) = true) :
    addEntry? (Json.rereadMembers (slot.fill items)) name = .ok none := by
  have hsame : isText name ∘ Json.reread = isText name := funext (isText_reread name)
  unfold addEntry?
  rw [Json.member?_rereadMembers, slot.member?_fill items items, if_pos rfl, Option.map_some,
    Json.reread]
  dsimp only
  rw [Json.member?_rereadMembers, slot.member?_settings items items, if_pos rfl, Option.map_some,
    Json.reread]
  dsimp only
  rw [Json.rereadItems_eq_map, List.any_map, hsame, if_pos hlisted]

/-- The configuration on disk is read where an entry is registered. -/
theorem exists_load_of_run_registerEntry (h : run (registerEntry c entry) w = (.ok true, w₁)) :
    ∃ before, run (Config.load c.root) w = (.ok before, w) := by
  unfold registerEntry at h
  obtain ⟨place, -, h⟩ := exists_of_asks_bind (asks_normalize _) h
  obtain ⟨dir, -, h⟩ := exists_of_asks_bind (within_lift _) h
  obtain ⟨sources, -, h⟩ := exists_of_asks_bind (asks_normalize _) h
  split at h
  · obtain ⟨text, hread, h⟩ := exists_of_asks_bind (asks_readText _) h
    split at h
    · rename_i data hjson
      exact ⟨⟨c.root, data⟩, run_load_iff.mpr ⟨rfl, text, hread, ofText_eq_ok_iff.mpr ⟨rfl, hjson⟩⟩⟩
    all_goals cases h
  · cases h

/-- **An entry that has been registered** is not registered again, whatever
numbers the configuration has. -/
theorem run_registerEntry_again (h : run (registerEntry c entry) w = (.ok registered, w₁)) :
    run (registerEntry c entry) w₁ = (.ok false, w₁) := by
  cases registered with
  | false =>
    -- nothing was written, so the same happens once more
    obtain rfl := eq_of_run_registerEntry h
    exact h
  | true =>
    obtain ⟨before, hload⟩ := exists_load_of_run_registerEntry h
    obtain ⟨hcovers, data, hadded, hwrite⟩ := (run_registerEntry_iff hload).mp h
    obtain ⟨slot, items, hbefore, rfl⟩ := exists_of_addEntry? hadded
    have hreadable : (Json.obj before.data).Readable := by
      obtain ⟨-, text, -, htext⟩ := run_load_iff.mp hload
      exact Json.readable_of_read? (ofText_eq_ok_iff.mp htext).2
    rw [hbefore] at hreadable
    refine run_registerEntry_of_listed hcovers
      (run_load_of_written_reread (EntrySlot.readable_fill_append hreadable _) hwrite)
      (addEntry?_rereadMembers slot ?_)
    -- by now the list ends with the entry
    rw [List.any_append, List.any_cons, isText_self, Bool.true_or, Bool.or_true]

/-! ### Registering under another spelling -/

/-- Registering depends on the place of an entry and on the text that tells it
where it lies among the sources. -/
theorem run_registerEntry_congr (hroot : again.root = c.root) (hdir : again.sourceDir = c.sourceDir)
    (hplace : (again.resolve entry').normalize? = (c.resolve entry).normalize?)
    (hrelative : c.Covers entry →
      again.relative (again.resolve entry') = c.relative (c.resolve entry))
    (h : run (registerEntry c entry) w = (.ok registered, w₁)) :
    run (registerEntry again entry') w = (.ok registered, w₁) := by
  unfold registerEntry at h ⊢
  obtain ⟨place, hnormal, h⟩ := exists_of_asks_bind (asks_normalize _) h
  obtain ⟨dir, hsource, h⟩ := exists_of_asks_bind (within_lift _) h
  obtain ⟨sources, hsources, h⟩ := exists_of_asks_bind (asks_normalize _) h
  have hnormal := (run_normalize_iff.mp hnormal).2
  have hsource : c.sourceDir = .ok dir := by
    rw [run_lift] at hsource
    exact (Prod.mk.inj hsource).1
  rw [run_bind_of_ok (run_normalize_iff.mpr ⟨rfl, hplace.trans hnormal⟩),
    run_lift_bind (hdir.trans hsource), run_bind_of_ok hsources]
  split at h
  · rename_i hwithin
    rw [if_pos hwithin, hroot, hrelative ⟨place, dir, sources, hnormal, hsource,
      (run_normalize_iff.mp hsources).2, hwithin⟩]
    exact h
  · rename_i hwithin
    rw [if_neg hwithin]
    exact h

/-- An entry among sources below the root that has been registered is not
registered again under another spelling. -/
theorem run_registerEntry_respelled (hroot : c.root.IsResolved) (hn : '\x00' ∉ text)
    (hn' : '\x00' ∉ text') (hb : '\\' ∉ text) (hb' : '\\' ∉ text')
    (hdir : c.sourceDir = .ok dir) (hsources : dir.normalize? = some sources)
    (hbelow : sources.isWithin c.root = true)
    (hsame : (c.pathOf text).normalize? = (c.pathOf text').normalize?)
    (h : run (registerEntry c (.ofText text)) w = (.ok registered, w₁))
    (hagain : again.root = c.root) (hagainDir : again.sourceDir = c.sourceDir) :
    run (registerEntry again (.ofText text')) w₁ = (.ok false, w₁) := by
  have hresolve : again.resolve (.ofText text') = c.pathOf text' := by
    rw [Config.pathOf, Config.resolve, hagain]
    rfl
  have hrelative : again.relative (again.resolve (.ofText text'))
      = c.relative (c.pathOf text') := by
    rw [hresolve, Config.relative, hagain]
    rfl
  refine run_registerEntry_congr hagain hagainDir (by rw [hresolve]; exact hsame.symm)
    (fun hcovers => ?_) (run_registerEntry_again h)
  rw [hrelative]
  -- the place lies among the sources, so below the root
  rw [Config.normalize?_pathOf hroot hn, Config.normalize?_pathOf hroot hn'] at hsame
  obtain ⟨place, dir', sources', hplace, hdir', hsources', hwithin⟩ := hcovers
  obtain rfl : dir' = dir := Except.ok.inj (hdir'.symm.trans hdir)
  obtain rfl : sources' = sources := Option.some.inj (hsources'.symm.trans hsources)
  obtain rfl : (c.pathOf text).normalize = place :=
    Option.some.inj ((Config.normalize?_pathOf hroot hn).symm.trans hplace)
  have hin := Path.isWithin_trans hwithin hbelow
  have hnormal := Option.some.inj hsame
  exact ((Config.relative_eq_iff hroot hn hn' hb hb' hin (hnormal ▸ hin)).mpr hnormal).symm

/-! ### Names from the root -/

/-- **Names from the root** are canonical.  Every text without backslashes names
a place, and the text that tells its path names the same place: below the root,
and elsewhere if the root has no backslashes or is no part of the path.  Below
the root two texts name one place if and only if their paths are told by one
text.  So an entry among sources below the root that has been registered is not
registered again, by whatever text its place is named. -/
theorem relative_canonical (c : Config) (text text' : Text) (hroot : c.root.IsResolved)
    (hn : '\x00' ∉ text) (hn' : '\x00' ∉ text') (hb : '\\' ∉ text) (hb' : '\\' ∉ text') :
    ∃ place place', (c.pathOf text).normalize? = some place ∧
      (c.pathOf text').normalize? = some place' ∧
      (place.isWithin c.root = true ∨ (∀ part ∈ c.root.parts, '\\' ∉ part) ∨
          (Path.ofText text).isAbsolute = true →
        (c.pathOf (c.relative (c.pathOf text))).normalize? = some place) ∧
      (place.isWithin c.root = true → place'.isWithin c.root = true →
        (c.relative (c.pathOf text) = c.relative (c.pathOf text') ↔ place = place')) ∧
      ∀ dir sources registered w w₁, c.sourceDir = .ok dir → dir.normalize? = some sources →
        sources.isWithin c.root = true → place = place' →
        run (registerEntry c (.ofText text)) w = (.ok registered, w₁) →
        ∀ again : Config, again.root = c.root → again.sourceDir = c.sourceDir →
          run (registerEntry again (.ofText text')) w₁ = (.ok false, w₁) := by
  have hplace := Config.normalize?_pathOf (c := c) hroot hn
  have hplace' := Config.normalize?_pathOf (c := c) hroot hn'
  refine ⟨_, _, hplace, hplace', Config.normalize?_pathOf_relative hroot hn hb,
    Config.relative_eq_iff hroot hn hn' hb hb', ?_⟩
  intro dir sources registered w w₁ hdir hsources hbelow hsame h again hagain hagainDir
  exact run_registerEntry_respelled hroot hn hn' hb hb' hdir hsources hbelow
    (by rw [hplace, hplace', hsame]) h hagain hagainDir

/-- A configuration whose breakpoint has a point. -/
def pointedText : Text := "\x7b\"autofill\": \x7b\"mobileMax\": 0.0, \"entries\": []\x7d\x7d"

/-- Its members, with these entries. -/
def pointedConfig (entries : List Text) : Config :=
  ⟨watchedRoot, [("autofill", .obj [("mobileMax", .num (.zero false)),
    ("entries", .arr (entries.map .str))])]⟩

/-- An entry that was registered by a detour from the root is told by an
absolute path with a slash too many. -/
theorem relative_canonical_detour :
    ∃ w₁, watchedRoot.IsResolved ∧
      ((pointedConfig []).pathOf "src/../../watched/src/./styles/x.scss").normalize?
        = some watchedEntry ∧
      ((pointedConfig []).pathOf "//watched/src/styles/x.scss").normalize? = some watchedEntry ∧
      (pointedConfig []).relative
          ((pointedConfig []).pathOf "src/../../watched/src/./styles/x.scss")
        = (pointedConfig []).relative ((pointedConfig []).pathOf "//watched/src/styles/x.scss") ∧
      run (registerEntry (pointedConfig []) (.ofText "src/../../watched/src/./styles/x.scss"))
        (watchedProject pointedText [] []) = (.ok true, w₁) ∧
      run (registerEntry (pointedConfig []) (.ofText "//watched/src/styles/x.scss")) w₁
        = (.ok false, w₁) := by
  have hroot : watchedRoot.IsResolved := ⟨rfl, by decide⟩
  have hread : Json.read? pointedText = .ok (.obj (pointedConfig []).data) := by cbv
  have hload : run (Config.load (pointedConfig []).root) (watchedProject pointedText [] [])
      = (.ok (pointedConfig []), watchedProject pointedText [] []) :=
    run_load_iff.mpr ⟨rfl, _, run_readConfig_watched [] (by decide +kernel),
      ofText_eq_ok_iff.mpr ⟨rfl, hread⟩⟩
  have hcovers : (pointedConfig []).Covers (.ofText "src/../../watched/src/./styles/x.scss") :=
    ⟨watchedEntry, ⟨.single, ["watched", "src", "styles"]⟩, ⟨.single, ["watched", "src", "styles"]⟩,
      rfl, rfl, rfl, rfl⟩
  have hname : (pointedConfig []).relative ((pointedConfig []).resolve
      (.ofText "src/../../watched/src/./styles/x.scss")) = "src/styles/x.scss" := rfl
  have hadded : addEntry? (pointedConfig []).data "src/styles/x.scss"
      = .ok (some (pointedConfig ["src/styles/x.scss"]).data) := rfl
  have hwrite : ∀ text, run (writeText (Config.fileIn watchedRoot) text)
      (watchedProject pointedText [] []) = (.ok (), watchedProject text [] []) := fun _ => rfl
  have hregister : run (registerEntry (pointedConfig [])
        (.ofText "src/../../watched/src/./styles/x.scss")) (watchedProject pointedText [] [])
      = (.ok true, watchedProject (Config.text (pointedConfig ["src/styles/x.scss"])) [] []) := by
    rw [run_registerEntry_iff hload, hname, hadded]
    exact ⟨hcovers, _, rfl, hwrite _⟩
  obtain ⟨place, place', hplace, hplace', -, htold, hagain⟩ :=
    relative_canonical (pointedConfig []) "src/../../watched/src/./styles/x.scss"
      "//watched/src/styles/x.scss" hroot (by decide) (by decide) (by decide) (by decide)
  obtain rfl : place = watchedEntry := Option.some.inj (hplace.symm.trans rfl)
  obtain rfl : place' = watchedEntry := Option.some.inj (hplace'.symm.trans rfl)
  exact ⟨_, hroot, hplace, hplace', (htold rfl rfl).mpr rfl, hregister,
    hagain _ _ _ _ _ rfl rfl rfl rfl hregister _ rfl rfl⟩

/-- A configuration whose root has a backslash. -/
def backslashConfig : Config := ⟨⟨.single, ["we\\ird"]⟩, []⟩

/-- Elsewhere a backslash of the root is told as a slash, and the text names
another place. -/
theorem backslash_of_root_is_lost :
    backslashConfig.root.IsResolved ∧ '\x00' ∉ ("../x" : Text) ∧ '\\' ∉ ("../x" : Text) ∧
      (backslashConfig.pathOf "../x").normalize? = some ⟨.single, ["x"]⟩ ∧
      backslashConfig.relative (backslashConfig.pathOf "../x") = "/we/ird/../x" ∧
      (backslashConfig.pathOf (backslashConfig.relative (backslashConfig.pathOf "../x"))).normalize?
        = some ⟨.single, ["we", "x"]⟩ :=
  ⟨⟨rfl, by decide⟩, by decide, by decide, rfl, rfl, rfl⟩

end FluidScss
