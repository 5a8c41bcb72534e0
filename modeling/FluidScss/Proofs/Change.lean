/-
FluidScss/Proofs/Change.lean

Following the change of one file, part by part.  A change of a stylesheet, or
of a file that is no source, is not followed (`Unfollowed`); a followed one is
that of a partial or of an entry (`IsEntry`).

An entry is given its first lines only if it is blank, and is not blank any
more then (`Begun`); `run_bootstrapEntry_cases` lists all that this part can
do.  In the end the configuration in force is the one on disk
(`bootstrapped`).
-/
import FluidScss.Proofs.Confined

namespace FluidScss

open FluidScss.Action
open FluidScss.Workspace

variable {w w' w₁ w₂ : Workspace} {c c' : Config} {S : Place → Prop}
variable {root p q path : Path} {here : Place} {settings : Autofill} {text : Text}

/-! ### The configuration on disk -/

theorem run_load_iff : run (Config.load root) w = (.ok c, w') ↔
    w' = w ∧ ∃ text, run (readText (Config.fileIn root)) w = (.ok text, w) ∧
      Config.ofText root text = .ok c := by
  rw [run_load]
  constructor
  · intro h
    split at h
    · obtain ⟨text, hr, h⟩ := exists_of_asks_bind (asks_readText _) h
      rw [run_lift] at h
      obtain ⟨hc, rfl⟩ := Prod.mk.inj h
      exact ⟨rfl, text, hr, hc⟩
    · cases h
  · rintro ⟨rfl, text, hr, hc⟩
    obtain ⟨-, -, bytes, hb, -⟩ := run_readText_iff.mp hr
    obtain ⟨place, hl, -⟩ := FileTree.locate_of_readBytes hb
    rw [if_pos (FileTree.has_iff_locate.mpr ⟨place, hl⟩), run_bind_of_ok hr, run_lift, hc]

/-- The configuration is the same if its file was not written. -/
theorem Workspace.Confined.load (h : Confined S w w₁) (hS : ¬ S (Config.fileIn root).place)
    (hl : run (Config.load root) w = (.ok c, w')) : run (Config.load root) w₁ = (.ok c, w₁) := by
  obtain ⟨-, text, hr, hc⟩ := run_load_iff.mp hl
  exact run_load_iff.mpr ⟨rfl, text, h.reads hS hr, hc⟩

/-! ### Names -/

/-- A stylesheet's place ends with a stylesheet's name. -/
theorem Config.StylesheetAt.exists_name (h : c.StylesheetAt here) :
    ∃ name, IsOverridesName name ∧ here.getLast? = some name := by
  obtain ⟨dir, name, -, hname, rfl⟩ := h
  refine ⟨name, hname, ?_⟩
  rw [Path.place_child hname.ne_upwards]
  exact List.getLast?_concat

theorem getLast?_place_config (root : Path) :
    (Config.fileIn root).place.getLast? = some configName := by
  rw [Config.fileIn, Path.place_child (by decide)]
  exact List.getLast?_concat

/-- The configuration is no stylesheet. -/
theorem not_stylesheetAt_config (c : Config) (root : Path) :
    ¬ c.StylesheetAt (Config.fileIn root).place := by
  intro h
  obtain ⟨name, hname, hlast⟩ := h.exists_name
  rw [getLast?_place_config] at hlast
  cases hlast
  exact absurd hname.begins (by decide)

/-- A change that is not followed: of a stylesheet, or of a file that is no
source. -/
def Unfollowed (p : Path) : Prop := isGeneratedPath p = true ∨ ¬ FileTree.IsSourceName p.name

/-- Stylesheets of entries and the files beside them are not followed. -/
theorem IsOverridesName.unfollowed (h : IsOverridesName p.name) : Unfollowed p := by
  rcases h.ends with hends | hends
  · left
    rw [isGeneratedPath, h.begins, hends]
    rfl
  · right
    obtain ⟨front, hfront⟩ := List.isSuffixOf_iff_suffix.mp hends
    rw [← hfront, ← List.append_assoc]
    exact not_isSourceName_new _

theorem unfollowed_of_configName (h : p.name = configName) : Unfollowed p := by
  right
  rw [h, FileTree.IsSourceName]
  decide

/-- An entry that is followed: a source that is neither a stylesheet nor a
partial. -/
structure IsEntry (p : Path) : Prop where
  followed : ¬ Unfollowed p
  whole : isPartialPath p = false

namespace IsEntry

theorem of_name (h : IsEntry p) (he : q.name = p.name) : IsEntry q := by
  obtain ⟨hf, hw⟩ := h
  constructor
  · rw [Unfollowed, isGeneratedPath, he]
    exact hf
  · rw [isPartialPath, he]
    exact hw

/-- An entry lies at no stylesheet's place. -/
theorem not_stylesheetAt (h : IsEntry p) (hlast : here.getLast? = some p.name) :
    ¬ c.StylesheetAt here := by
  intro hs
  obtain ⟨name, hname, hlast'⟩ := hs.exists_name
  rw [hlast] at hlast'
  cases hlast'
  exact h.followed hname.unfollowed

/-- Nor at the configuration's. -/
theorem ne_config (h : IsEntry p) (hlast : here.getLast? = some p.name) :
    here ≠ (Config.fileIn root).place := by
  rintro rfl
  rw [getLast?_place_config] at hlast
  exact h.followed (unfollowed_of_configName (Option.some.inj hlast).symm)

end IsEntry

/-! ### Following a change -/

theorem handleChange_of_unfollowed (h : Unfollowed (c.resolve p)) :
    handleChange c p = pure .ignored := by
  have hcond : (isGeneratedPath (c.resolve p) || !sheetEnding.isSuffixOf (c.resolve p).name)
      = true := by
    rcases h with hg | hs
    · rw [hg]
      rfl
    · rw [FileTree.IsSourceName, Bool.not_eq_true] at hs
      rw [hs, Bool.or_eq_true]
      exact .inr rfl
  rw [handleChange, if_pos hcond]

theorem handleChange_of_followed (h : ¬ Unfollowed (c.resolve p)) :
    handleChange c p = (if isPartialPath (c.resolve p) then
        return .entries (← generateEntries c)
      else do
        let c' ← bootstrapEntry c (c.resolve p)
        return .entry (← generateEntry c' (c.resolve p) none)) := by
  have hcond : (isGeneratedPath (c.resolve p) || !sheetEnding.isSuffixOf (c.resolve p).name)
      = false := by
    obtain ⟨hg, hs⟩ := not_or.mp h
    rw [not_not, FileTree.IsSourceName] at hs
    rw [Bool.not_eq_true] at hg
    rw [hg, hs]
    rfl
  rw [handleChange, if_neg (by rw [hcond]; exact Bool.false_ne_true)]

theorem run_change_iff : run (Step.act root (.change p)) w = (.ok (), w₁) ↔
    ∃ c report, run (Config.load root) w = (.ok c, w) ∧
      run (handleChange c p) w = (.ok report, w₁) := by
  have hwork : ∀ c, (Step.change p).work c = handleChange c p >>= fun _ => pure () := by
    intro c
    rw [bind_pure_comp]
    rfl
  constructor
  · intro h
    obtain ⟨c, hc, h⟩ := exists_of_asks_bind (asks_load root) h
    rw [hwork] at h
    obtain ⟨report, w', h, hpure⟩ := exists_of_run_bind h
    cases hpure
    exact ⟨c, report, hc, h⟩
  · rintro ⟨c, report, hc, h⟩
    rw [Step.act, run_bind_of_ok hc, hwork, run_bind_of_ok h]
    rfl

/-! ### First lines -/

/-- An entry that is not blank, so that it keeps its text. -/
def Begun (path : Path) (w : Workspace) : Prop :=
  ∃ text, run (readRaw path) w = (.ok text, w) ∧ Text.isBlank text = false

theorem Begun.of_confined (hb : Begun path w) (h : Confined S w w₁) (hS : ¬ S path.place) :
    Begun path w₁ := by
  obtain ⟨text, hr, ht⟩ := hb
  exact ⟨text, h.reads hS hr, ht⟩

theorem Begun.isFile (hb : Begun path w) : w.tree.isFile path = true := by
  obtain ⟨text, hr, -⟩ := hb
  obtain ⟨-, -, bytes, hread, -⟩ := run_decoded_iff.mp hr
  obtain ⟨place, hl, hf⟩ := FileTree.locate_of_readBytes hread
  exact FileTree.isFile_of_locate hl hf

/-- First lines are not blank. -/
theorem not_isBlank_entryBoilerplate (ns base eol : Text) :
    Text.isBlank (entryBoilerplate ns base eol) = false := rfl

/-- An entry that has begun is left as it is. -/
theorem run_bootstrapEntry_of_begun (hc : c.autofill = .ok settings) (hb : Begun path w) :
    run (bootstrapEntry c path) w = (.ok c, w) := by
  have hs : run (liftM c.autofill : Action Autofill) w = (.ok settings, w) := by
    rw [run_lift, hc]
  have hfile : run (isFile path) w = (.ok true, w) := by
    rw [← hb.isFile]
    rfl
  obtain ⟨text, hr, ht⟩ := hb
  have hkept : run (ensureBoilerplate path settings.marker.ns) w = (.ok false, w) := by
    rw [ensureBoilerplate, run_bind_of_ok hfile, if_pos rfl, run_bind_of_ok hr, ht]
    rfl
  rw [bootstrapEntry, run_bind_of_ok hs, run_bind_of_ok hkept]
  rfl

/-- What was written is read, as it was written. -/
theorem run_readRaw_of_run_writeText (h : run (writeText path text) w = (.ok (), w₁)) :
    run (readRaw path) w₁ = (.ok text, w₁) := by
  rw [writeText, run_change] at h
  split at h
  · cases h
  · rename_i hn
    rcases hw : w.tree.writeBytes path (Text.encode text) with e | t
    · rw [hw] at h
      cases h
    · rw [hw] at h
      cases h
      obtain ⟨place, hs, hd, rfl⟩ := FileTree.eq_of_writeBytes hw
      have hl := FileTree.locate_set_of_slot hs hd (Text.encode text)
      have hf : (w.tree.set place (.file (Text.encode text))).find? place
          = some (.file (Text.encode text)) := by
        rw [FileTree.find?_set _ (FileTree.ne_nil_of_find? hd), if_pos rfl]
      exact run_decoded_iff.mpr ⟨rfl, by simpa using hn, _,
        (FileTree.readBytes_eq_ok_iff hl).mpr hf, Text.decode_encode text⟩

/-- What a file reads as is what it holds with its newlines unified. -/
theorem run_readText_of_run_readRaw (h : run (readRaw path) w = (.ok text, w)) :
    run (readText path) w = (.ok (Text.unifyNewlines text), w) := by
  obtain ⟨-, hn, bytes, hb, hdec⟩ := run_decoded_iff.mp h
  refine run_readText_iff.mpr ⟨rfl, hn, bytes, hb, ?_⟩
  rw [Text.read?, hdec, Option.map_some]

/-- A file is blank and is given its first lines, or is left as it is. -/
theorem run_ensureBoilerplate_cases {ns : Text} {written : Bool}
    (h : run (ensureBoilerplate path ns) w = (.ok written, w₁)) :
    (written = false ∧ w₁ = w ∧ (w.tree.isFile path = true → Begun path w)) ∨
      (written = true ∧ Begun path w₁) := by
  obtain ⟨found, hfound, h⟩ := exists_of_asks_bind (asks_isFile path) h
  have hfound : w.tree.isFile path = found := Except.ok.inj (Prod.mk.inj hfound).1
  cases found with
  | false =>
    cases h
    refine .inl ⟨rfl, rfl, fun hf => ?_⟩
    rw [hfound] at hf
    cases hf
  | true =>
    rw [if_pos rfl] at h
    obtain ⟨text, hr, h⟩ := exists_of_asks_bind (asks_readRaw path) h
    by_cases hb : Text.isBlank text = true
    · -- the first lines are what is read afterwards
      rw [if_pos hb] at h
      obtain ⟨done, w', hw, h⟩ := exists_of_run_bind h
      cases h
      exact .inr ⟨rfl, _, run_readRaw_of_run_writeText hw, not_isBlank_entryBoilerplate _ _ _⟩
    · rw [if_neg hb] at h
      rw [Bool.not_eq_true] at hb
      cases h
      exact .inl ⟨rfl, rfl, fun _ => ⟨text, hr, hb⟩⟩

/-- An entry that is not registered leaves the configuration alone. -/
theorem eq_of_run_registerEntry (h : run (registerEntry c path) w = (.ok false, w₁)) :
    w₁ = w := by
  obtain ⟨place, -, h⟩ := exists_of_asks_bind (asks_normalize _) h
  obtain ⟨dir, -, h⟩ := exists_of_asks_bind (within_lift _) h
  obtain ⟨sources, -, h⟩ := exists_of_asks_bind (asks_normalize _) h
  split at h
  · obtain ⟨text, -, h⟩ := exists_of_asks_bind (asks_readText _) h
    split at h
    · obtain ⟨data, -, h⟩ := exists_of_asks_bind (within_lift _) h
      split at h
      · obtain ⟨done, w', -, h⟩ := exists_of_run_bind h
        cases h
      · cases h
        rfl
    · cases h
    · cases h
    · cases h
  · cases h
    rfl

/-- What giving an entry its first lines can do: nothing, if the entry is no
file or has begun; else the entry has begun, and the configuration is as it
was or another one that was written and loaded again. -/
theorem run_bootstrapEntry_cases (h : run (bootstrapEntry c path) w = (.ok c', w₁)) :
    (c' = c ∧ w₁ = w ∧ (w.tree.isFile path = true → Begun path w)) ∨
      ∃ w₂, Confined (· = path.place) w w₂ ∧ Begun path w₂ ∧
        Confined (· = (Config.fileIn c.root).place) w₂ w₁ ∧
        ((c' = c ∧ w₁.tree = w₂.tree) ∨ run (Config.load c.root) w₁ = (.ok c', w₁)) := by
  unfold bootstrapEntry at h
  obtain ⟨settings, -, hrun⟩ := exists_of_asks_bind (within_lift _) h
  obtain ⟨written, w₂, hlines, hrest⟩ := exists_of_run_bind hrun
  have hwrote := confined_ensureBoilerplate (S := (· = path.place)) rfl settings.marker.ns w
  rw [hlines] at hwrote
  cases written with
  | false =>
    rcases run_ensureBoilerplate_cases hlines with ⟨-, heq, hbegun⟩ | ⟨hw, -⟩
    · cases hrest
      exact .inl ⟨rfl, heq, hbegun⟩
    · cases hw
  | true =>
    rcases run_ensureBoilerplate_cases hlines with ⟨hw, -⟩ | ⟨-, hbegun⟩
    · cases hw
    · rw [if_pos rfl] at hrest
      obtain ⟨logged, w₃, hlog, hregistering⟩ := exists_of_run_bind hrest
      obtain ⟨registered, w₄, hregister, hloading⟩ := exists_of_run_bind hregistering
      have hconfig := within_bind (confined_log .info ("added boilerplate to " ++ c.relative path))
        (fun _ => confined_registerEntry (S := (· = (Config.fileIn c.root).place)) rfl path) w₂
      rw [run_bind_of_ok hlog, hregister] at hconfig
      refine .inr ⟨w₂, hwrote, hbegun, ?_⟩
      cases registered with
      | false =>
        have hkept := eq_of_run_registerEntry hregister
        cases hlog
        cases hloading
        exact ⟨hconfig, .inl ⟨rfl, by rw [hkept]⟩⟩
      | true =>
        rw [if_pos rfl] at hloading
        obtain ⟨logged, w₅, hlog', hload⟩ := exists_of_run_bind hloading
        cases hlog'
        have hasked := (asks_load c.root).eq hload
        rw [← hasked] at hload
        have hlogged : Confined (· = (Config.fileIn c.root).place) w₄ w₁ :=
          .of_tree (by rw [hasked])
        exact ⟨Trans.trans hconfig hlogged, .inr hload⟩

/-- **A bootstrapped entry**: the configuration in force is the one on disk,
and an entry that is a file is not blank. -/
theorem bootstrapped (he : IsEntry path) (hload : run (Config.load c.root) w = (.ok c, w))
    (h : run (bootstrapEntry c path) w = (.ok c', w₁)) (hf : w₁.tree.isFile path = true) :
    run (Config.load c.root) w₁ = (.ok c', w₁) ∧ Begun path w₁ := by
  rcases run_bootstrapEntry_cases h with ⟨rfl, rfl, hbegun⟩ | ⟨w₂, hwrote, hbegun, hconfig, hc⟩
  · exact ⟨hload, hbegun hf⟩
  · -- the entry was written, and the configuration is another file
    have hne : path.place ≠ (Config.fileIn c.root).place := by
      obtain ⟨place, bytes, hl, hfind⟩ := FileTree.isFile_iff.mp hbegun.isFile
      rw [FileTree.place_of_locate hl]
      exact he.ne_config (FileTree.getLast?_of_locate hl (FileTree.ne_directory hfind))
    refine ⟨?_, hbegun.of_confined hconfig hne⟩
    rcases hc with ⟨rfl, ht⟩ | hloaded
    · have hload₂ : run (Config.load c'.root) w₂ = (.ok c', w₂) := hwrote.load (Ne.symm hne) hload
      exact (Confined.of_tree (S := fun _ => False) ht).load id hload₂
    · exact hloaded

end FluidScss
