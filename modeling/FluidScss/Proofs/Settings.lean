/-
FluidScss/Proofs/Settings.lean

The settings of generation runs, and when they cannot be built.  Each setting
is told as it is configured, with its default where it counts as left out, and
is read by one step of `Config.autofill` (`autofill_eq`).  Marker, entries and
breakpoint are checked, and what is wrong with them is a fault of the project.
The checks do not see a breakpoint that is infinite, nor directories and
outputs that are no texts: such settings are `Config.Unchecked`, and they are
the ones that fail with a fault of a value (`unchecked_iff`).

`doctor` tells faults of the project and lets others through, and the system
may refuse to look for a file with a name that is too long.  So it reports on a
project if and only if its settings are not unchecked, the directory of the
sources is a text, and no file that it looks for is refused (`doctor_reports`);
some files with long names are left out of this (`Config.Unsettled`).
-/
import FluidScss.Proofs.KitFault
import FluidScss.Proofs.Text
import FluidScss.Project

namespace FluidScss

open FluidScss.Action

variable {α β : Type}

/-! ### Kinds of values -/

namespace Json

/-- A text. -/
def IsText (v : Json) : Prop := ∃ text, v = .str text

/-- An array. -/
def IsArray (v : Json) : Prop := ∃ items, v = .arr items

/-- The name of a marker: two parts with a dot between and none elsewhere. -/
def NamesMarker (v : Json) : Prop :=
  ∃ ns fn, v = .str (ns ++ '.' :: fn) ∧ ns ≠ [] ∧ fn ≠ [] ∧ '.' ∉ ns ∧ '.' ∉ fn

/-- A number beyond all whole ones. -/
def IsInfinite (v : Json) : Prop := ∃ negative, v = .num (.infinite negative)

/-- A whole number, a finite one, or a text that spells a whole number. -/
inductive TellsNumber : Json → Prop
  | int (n : Int) : TellsNumber (.int n)
  | num (negative : Bool) (m : Nat) (e : Int) : TellsNumber (.num (.finite negative m e))
  | str {text : Text} {n : Int} (spelled : Text.readInt? text = some n) : TellsNumber (.str text)

/-- A text or an object, which stand for texts, or an array of texts. -/
inductive ListsTexts : Json → Prop
  | str (text : Text) : ListsTexts (.str text)
  | obj (members : List (Text × Json)) : ListsTexts (.obj members)
  | arr {items : List Json} (texts : ∀ item ∈ items, item.IsText) : ListsTexts (.arr items)

end Json

/-! ### Settings as they are configured -/

/-- The items of a list of entries. -/
def entryItems : Json → Except Fault (List Json)
  | .arr items => .ok items
  | _ => .error (.configuration .entries)

namespace Config

/-- A generation setting, or its default if it is left out. -/
def autofillSetting (c : Config) (name : Text) (default : Json) : Json :=
  (Json.given? (Json.member? (c.sectionOf "autofill") name)).getD default

/-- The name of the marker; only null counts as left out. -/
def markerSetting (c : Config) : Json :=
  match Json.member? (c.sectionOf "autofill") "function" with
  | none => .str defaultFunction
  | some .null => .str defaultFunction
  | some value => value

/-- The breakpoint; nothing that is given counts as left out. -/
def mobileMaxSetting (c : Config) : Json :=
  (Json.member? (c.sectionOf "autofill") "mobileMax").getD (.int defaultMobileMax)

/-- The entries. -/
def entriesSetting (c : Config) : Json := c.autofillSetting "entries" (.arr [])

/-- The directories to scan. -/
def scanDirsSetting (c : Config) : Json := c.autofillSetting "scanDirs" (.arr [c.sourceSetting])

/-- The override stylesheet. -/
def outputSetting (c : Config) : Json := c.autofillSetting "output" (.str defaultOutput)

/-- The settings are read one after the other. -/
theorem autofill_eq (c : Config) : c.autofill = (do
    let marker ← parseMarker c.markerSetting
    let entries ← entryItems c.entriesSetting
    let mobileMax ← parseMobileMax c.mobileMaxSetting
    let scanDirs ← (← c.scanDirsSetting.elements).mapM c.resolveJson
    let output ← c.resolveJson c.outputSetting
    return { marker, mobileMax, scanDirs, output, entries := entryTexts entries }) := by
  unfold autofill
  rw [entriesSetting, autofillSetting]
  refine congrArg (parseMarker c.markerSetting >>= ·) (funext fun marker => ?_)
  rcases Json.given? (Json.member? (c.sectionOf "autofill") "entries") with - | entries
  · rfl
  · cases entries <;> rfl

end Config

/-! ### Steps with one fault -/

variable {P Q : Prop} {e fault : Fault}

/-- Two steps fail where the first does, or where the second does behind it. -/
theorem except_bind_eq_error_iff {a : Except Fault α} {f : α → Except Fault β}
    (hf : ∀ x, f x = .error e ↔ Q) :
    (a >>= f) = .error e ↔ a = .error e ∨ (∃ x, a = .ok x) ∧ Q := by
  rcases a with e' | x
  · refine ⟨fun h => ?_, ?_⟩
    · cases h
      exact .inl rfl
    · rintro (h | ⟨⟨x, hx⟩, -⟩)
      · cases h
        rfl
      · cases hx
  · refine ⟨fun h => .inr ⟨⟨x, rfl⟩, (hf x).mp h⟩, ?_⟩
    rintro (h | ⟨-, hq⟩)
    · cases h
    · exact (hf x).mpr hq

/-- A step that succeeds where `P` holds, and elsewhere fails with one fault. -/
structure Demands (r : Except Fault α) (P : Prop) (fault : Fault) : Prop where
  succeeds : (∃ x, r = .ok x) ↔ P
  fails : ∀ e, r = .error e → e = fault

namespace Demands

theorem of_ok (x : α) (h : P) : Demands (.ok x) P fault :=
  ⟨⟨fun _ => h, fun _ => ⟨x, rfl⟩⟩, nofun⟩

theorem of_error (h : ¬ P) : Demands (.error fault : Except Fault α) P fault := by
  refine ⟨⟨nofun, fun hp => absurd hp h⟩, fun e he => ?_⟩
  cases he
  rfl

theorem error_iff {r : Except Fault α} (h : Demands r P fault) :
    r = .error e ↔ ¬ P ∧ e = fault := by
  rw [← h.succeeds]
  rcases hr : r with e' | x
  · obtain rfl := h.fails e' hr
    refine ⟨fun he => ⟨nofun, ?_⟩, fun he => by rw [he.2]⟩
    cases he
    rfl
  · exact ⟨nofun, fun he => absurd ⟨x, rfl⟩ he.1⟩

/-- Two steps with one fault between them. -/
theorem bind {a : Except Fault α} {f : α → Except Fault β} (ha : Demands a P fault)
    (hf : ∀ x, a = .ok x → Demands (f x) Q fault) : Demands (a >>= f) (P ∧ Q) fault := by
  rcases h : a with e' | x
  · obtain rfl := ha.fails e' h
    exact of_error fun hpq => (ha.error_iff.mp h).1 hpq.1
  · have hp : P := ha.succeeds.mp ⟨x, h⟩
    have hx := hf x h
    exact ⟨hx.succeeds.trans ⟨fun hq => ⟨hp, hq⟩, And.right⟩, hx.fails⟩

theorem congr {r : Except Fault α} (h : Demands r P fault) (hpq : P ↔ Q) : Demands r Q fault :=
  ⟨h.succeeds.trans hpq, h.fails⟩

theorem map {r : Except Fault α} (h : Demands r P fault) (f : α → β) :
    Demands (r.map f) P fault := by
  rcases hr : r with e' | x
  · obtain ⟨hno, rfl⟩ := h.error_iff.mp hr
    exact of_error hno
  · exact of_ok (f x) (h.succeeds.mp ⟨x, hr⟩)

/-- A list of steps. -/
theorem mapM {f : β → Except Fault α} {P : β → Prop} (items : List β)
    (h : ∀ item, Demands (f item) (P item) fault) :
    Demands (items.mapM f) (∀ item ∈ items, P item) fault := by
  induction items with
  | nil => exact of_ok [] nofun
  | cons item items ih =>
    rw [List.mapM_cons]
    have hlast : ∀ x, Demands (do return x :: (← items.mapM f)) (∀ item ∈ items, P item) fault :=
      fun x => (ih.bind fun xs _ => of_ok (x :: xs) trivial).congr (iff_of_eq (and_true _))
    exact ((h item).bind fun x _ => hlast x).congr (List.forall_mem_cons).symm

end Demands

/-! ### One setting -/

variable {c : Config} {v : Json}

theorem demands_parseMarker (v : Json) :
    Demands (parseMarker v) v.NamesMarker (.configuration (.function v)) := by
  refine ⟨⟨?_, ?_⟩, fun e h => ?_⟩
  · rintro ⟨m, h⟩
    unfold parseMarker at h
    dsimp only at h
    split at h
    · rename_i ns fn hparts
      split at h
      · cases h
      · rename_i hne
        cases v with
        | str text =>
          -- the two parts, joined again, are the text, and neither has a dot
          dsimp only at hparts
          have htext : text = ns ++ '.' :: fn := by
            rw [← Text.join_splitOn '.' text, hparts, Text.join_cons_cons, Text.join_singleton,
              List.singleton_append]
          have hlacks : ∀ part ∈ [ns, fn], '.' ∉ part := fun part hpart =>
            Text.not_mem_of_mem_splitOn (hparts ▸ hpart)
          exact ⟨ns, fn, congrArg Json.str htext, fun hns => hne (.inl hns),
            fun hfn => hne (.inr hfn), hlacks ns (.head _), hlacks fn (.tail _ (.head _))⟩
        | _ => cases hparts
    · cases h
  · rintro ⟨ns, fn, rfl, hns, hfn, hdots, hdots'⟩
    have hparts : Text.splitOn '.' (ns ++ '.' :: fn) = [ns, fn] := by
      rw [Text.splitOn_append_cons hdots, Text.splitOn_eq_singleton hdots']
    have hne : ¬ (ns = [] ∨ fn = []) := not_or.mpr ⟨hns, hfn⟩
    refine ⟨⟨ns, fn⟩, ?_⟩
    unfold parseMarker
    dsimp only
    rw [hparts]
    dsimp only
    rw [if_neg hne]
  · unfold parseMarker at h
    dsimp only at h
    split at h
    · split at h <;> cases h
      rfl
    · cases h
      rfl

theorem demands_entryItems (v : Json) :
    Demands (entryItems v) v.IsArray (.configuration .entries) := by
  cases v with
  | arr items => exact .of_ok items ⟨items, rfl⟩
  | _ => exact .of_error nofun

theorem demands_resolveJson (c : Config) (v : Json) :
    Demands (c.resolveJson v) v.IsText .wrongType := by
  cases v with
  | str text => exact .of_ok _ ⟨text, rfl⟩
  | _ => exact .of_error nofun

theorem demands_helperPath (c : Config) :
    Demands c.helperPath c.sourceSetting.IsText .wrongType :=
  (demands_resolveJson c c.sourceSetting).map _

theorem demands_entryOutput (c : Config) (entry : Path) :
    Demands (c.entryOutput entry) c.sourceSetting.IsText .wrongType :=
  (demands_resolveJson c c.sourceSetting).map _

/-- The characters of a text and the keys of an object are texts. -/
theorem demands_directories (c : Config) (v : Json) :
    Demands (do (← v.elements).mapM c.resolveJson) v.ListsTexts .wrongType := by
  have hmapM := fun items : List Json => Demands.mapM items (demands_resolveJson c)
  cases v with
  | str text =>
    refine (hmapM (text.map fun c => .str [c])).congr
      ⟨fun _ => Json.ListsTexts.str text, fun _ item h => ?_⟩
    obtain ⟨char, -, rfl⟩ := List.mem_map.mp h
    exact ⟨[char], rfl⟩
  | obj members =>
    refine (hmapM (members.map fun m => .str m.1)).congr
      ⟨fun _ => Json.ListsTexts.obj members, fun _ item h => ?_⟩
    obtain ⟨m, -, rfl⟩ := List.mem_map.mp h
    exact ⟨m.1, rfl⟩
  | arr items =>
    refine (hmapM items).congr ⟨.arr, ?_⟩
    rintro (_ | _ | h)
    exact h
  | _ => exact .of_error nofun

theorem parseMobileMax_eq_ok_iff : (∃ n, parseMobileMax v = .ok n) ↔ v.TellsNumber := by
  constructor
  · rintro ⟨n, h⟩
    cases v with
    | int n => exact .int n
    | num x =>
      cases x with
      | finite negative m e => exact .num negative m e
      | _ => cases h
    | str text =>
      rcases hread : Text.readInt? text with - | n'
      · rw [parseMobileMax, hread] at h
        cases h
      · exact .str hread
    | _ => cases h
  · rintro (n | ⟨negative, m, e⟩ | hread)
    · exact ⟨n, rfl⟩
    · exact ⟨_, rfl⟩
    · rw [parseMobileMax, hread]
      exact ⟨_, rfl⟩

/-- Of the values that tell no number the infinite ones escape the check. -/
theorem parseMobileMax_eq_error_iff : parseMobileMax v = .error e ↔
    v.IsInfinite ∧ e = .overflow ∨
      ¬ v.IsInfinite ∧ ¬ v.TellsNumber ∧ e = .configuration (.mobileMax v) := by
  by_cases hv : v.IsInfinite
  · have hone : parseMobileMax v = .error .overflow := by
      obtain ⟨negative, rfl⟩ := hv
      rfl
    simp only [hone, hv, not_true, true_and, false_and, or_false, Except.error.injEq, eq_comm]
  · have hone : Demands (parseMobileMax v) v.TellsNumber (.configuration (.mobileMax v)) := by
      refine ⟨parseMobileMax_eq_ok_iff, fun e h => ?_⟩
      cases v with
      | num x =>
        cases x with
        | infinite negative => exact absurd ⟨negative, rfl⟩ hv
        | _ =>
          cases h
          try rfl
      | str text =>
        rcases hread : Text.readInt? text with - | n <;> rw [parseMobileMax, hread] at h <;> cases h
        rfl
      | _ =>
        cases h
        try rfl
    simp only [hv, hone.error_iff, false_and, not_false_iff, true_and, false_or]

/-! ### All settings -/

/-- What is wrong with the settings of a configuration.  Each fault tells that
the settings read before it are in order. -/
inductive SettingsFault (c : Config) : Fault → Prop
  | marker (unnamed : ¬ c.markerSetting.NamesMarker) :
      SettingsFault c (.configuration (.function c.markerSetting))
  | entries (marker : c.markerSetting.NamesMarker) (unlisted : ¬ c.entriesSetting.IsArray) :
      SettingsFault c (.configuration .entries)
  | infinite (marker : c.markerSetting.NamesMarker) (entries : c.entriesSetting.IsArray)
      (infinite : c.mobileMaxSetting.IsInfinite) : SettingsFault c .overflow
  | breakpoint (marker : c.markerSetting.NamesMarker) (entries : c.entriesSetting.IsArray)
      (finite : ¬ c.mobileMaxSetting.IsInfinite) (untold : ¬ c.mobileMaxSetting.TellsNumber) :
      SettingsFault c (.configuration (.mobileMax c.mobileMaxSetting))
  | paths (marker : c.markerSetting.NamesMarker) (entries : c.entriesSetting.IsArray)
      (breakpoint : c.mobileMaxSetting.TellsNumber)
      (untold : ¬ (c.scanDirsSetting.ListsTexts ∧ c.outputSetting.IsText)) :
      SettingsFault c .wrongType

/-- Settings that pass all checks and yet cannot be built: the breakpoint is
infinite, or a path is no text. -/
structure Config.Unchecked (c : Config) : Prop where
  marker : c.markerSetting.NamesMarker
  entries : c.entriesSetting.IsArray
  amiss : c.mobileMaxSetting.IsInfinite ∨
    c.mobileMaxSetting.TellsNumber ∧ ¬ (c.scanDirsSetting.ListsTexts ∧ c.outputSetting.IsText)

/-- **When the settings cannot be built.** -/
theorem autofill_eq_error_iff : c.autofill = .error e ↔ SettingsFault c e := by
  -- directories and output have one fault between them; the checks before have one each
  have hpaths : ∀ build : List Path → Path → Autofill,
      Demands (do
        let scanDirs ← (← c.scanDirsSetting.elements).mapM c.resolveJson
        let output ← c.resolveJson c.outputSetting
        return build scanDirs output)
        (c.scanDirsSetting.ListsTexts ∧ c.outputSetting.IsText) .wrongType := by
    intro build
    have hlast : ∀ dirs, Demands (do return build dirs (← c.resolveJson c.outputSetting))
        c.outputSetting.IsText .wrongType := fun dirs =>
      ((demands_resolveJson c _).bind fun output _ => .of_ok (build dirs output) trivial).congr
        (iff_of_eq (and_true _))
    have hbind := (demands_directories c c.scanDirsSetting).bind fun dirs _ => hlast dirs
    rwa [bind_assoc] at hbind
  rw [Config.autofill_eq, except_bind_eq_error_iff fun marker =>
    except_bind_eq_error_iff fun entries => except_bind_eq_error_iff fun mobileMax =>
      (hpaths fun scanDirs output =>
        { marker, mobileMax, scanDirs, output, entries := entryTexts entries }).error_iff,
    (demands_parseMarker _).error_iff, (demands_parseMarker _).succeeds,
    (demands_entryItems _).error_iff, (demands_entryItems _).succeeds,
    parseMobileMax_eq_error_iff, parseMobileMax_eq_ok_iff]
  constructor
  · rintro (⟨h, rfl⟩ | ⟨hm, ⟨h, rfl⟩ | ⟨he, (⟨h, rfl⟩ | ⟨hf, h, rfl⟩) | ⟨hb, h, rfl⟩⟩⟩)
    · exact .marker h
    · exact .entries hm h
    · exact .infinite hm he h
    · exact .breakpoint hm he hf h
    · exact .paths hm he hb h
  · intro h
    cases h with
    | marker unnamed => exact .inl ⟨unnamed, rfl⟩
    | entries marker unlisted => exact .inr ⟨marker, .inl ⟨unlisted, rfl⟩⟩
    | infinite marker entries infinite =>
      exact .inr ⟨marker, .inr ⟨entries, .inl (.inl ⟨infinite, rfl⟩)⟩⟩
    | breakpoint marker entries finite untold =>
      exact .inr ⟨marker, .inr ⟨entries, .inl (.inr ⟨finite, untold, rfl⟩)⟩⟩
    | paths marker entries breakpoint untold =>
      exact .inr ⟨marker, .inr ⟨entries, .inr ⟨breakpoint, untold, rfl⟩⟩⟩

/-- Settings fail with a fault of a value if they are unchecked, and with one
of the project if a check fails. -/
theorem unchecked_iff (h : c.autofill = .error e) : c.Unchecked ↔ e.isKitFault = false := by
  cases autofill_eq_error_iff.mp h with
  | marker unnamed => exact ⟨fun hc => absurd hc.marker unnamed, nofun⟩
  | entries marker unlisted => exact ⟨fun hc => absurd hc.entries unlisted, nofun⟩
  | infinite marker entries infinite =>
    exact ⟨fun _ => rfl, fun _ => ⟨marker, entries, .inl infinite⟩⟩
  | breakpoint marker entries finite untold =>
    refine ⟨fun hc => ?_, nofun⟩
    rcases hc.amiss with hinf | ⟨hnum, -⟩
    · exact absurd hinf finite
    · exact absurd hnum untold
  | paths marker entries breakpoint untold =>
    exact ⟨fun _ => rfl, fun _ => ⟨marker, entries, .inr ⟨breakpoint, untold⟩⟩⟩

/-- Unchecked settings fail, and with a fault that lies neither in the project
nor in the file system. -/
theorem Config.Unchecked.autofill (h : c.Unchecked) :
    ∃ e, c.autofill = .error e ∧ e.isKitFault = false ∧ e.isSystemFault = false := by
  rcases h.amiss with hinf | ⟨hnum, hpaths⟩
  · exact ⟨_, autofill_eq_error_iff.mpr (.infinite h.marker h.entries hinf), rfl, rfl⟩
  · exact ⟨_, autofill_eq_error_iff.mpr (.paths h.marker h.entries hnum hpaths), rfl, rfl⟩

/-! ### Checking a project -/

/-- What is told of a file that the system does not refuse. -/
def Config.missing (c : Config) (t : FileTree) (path : Path) : List Text :=
  if t.has path then [] else ["missing " ++ c.relative path]

theorem run_missingIssue (c : Config) (path : Path) (w : Workspace) :
    run (missingIssue c path) w = (if w.tree.refuses path then .error (.system .nameTooLong path)
      else .ok (c.missing w.tree path), w) := by
  unfold missingIssue lookUp Config.missing
  rw [bind_assoc, run_bind_of_ok (run_tree w)]
  cases w.tree.refuses path with
  | true => rfl
  | false => cases w.tree.has path <;> rfl

theorem run_missingIssue_iff {path : Path} {issues : List Text} {w w' : Workspace} :
    run (missingIssue c path) w = (.ok issues, w') ↔
      w' = w ∧ w.tree.refuses path = false ∧ issues = c.missing w.tree path := by
  rw [run_missingIssue]
  cases w.tree.refuses path with
  | true => exact ⟨nofun, nofun⟩
  | false =>
    refine ⟨fun h => ?_, ?_⟩
    · cases h
      exact ⟨rfl, rfl, rfl⟩
    · rintro ⟨rfl, -, rfl⟩
      rfl

/-- What checking has come to: the helper module was looked for, and the
settings were refused or the override stylesheet was looked for. -/
inductive Config.Checked (c : Config) (t : FileTree) : List Text → Prop
  | refused {helper : Path} {fault : Fault} (configured : c.helperPath = .ok helper)
      (asked : t.refuses helper = false) (faulty : c.autofill = .error fault)
      (told : fault.isKitFault = true) : Checked c t (c.missing t helper ++ [fault.message])
  | complete {helper : Path} {settings : Autofill} (configured : c.helperPath = .ok helper)
      (asked : t.refuses helper = false) (valid : c.autofill = .ok settings)
      (looked : t.refuses settings.output = false) :
      Checked c t (c.missing t helper ++ c.missing t settings.output)

/-- Checking, told by what it has come to. -/
theorem run_doctor_iff {issues : List Text} {w w' : Workspace} :
    run (doctor c) w = (.ok issues, w') ↔ w' = w ∧ c.Checked w.tree issues := by
  unfold doctor
  constructor
  · intro h
    obtain ⟨helper, w₁, hhelper, h⟩ := exists_of_run_bind h
    rw [run_lift] at hhelper
    obtain ⟨configured, rfl⟩ := Prod.mk.inj hhelper
    obtain ⟨found, w₂, hfound, h⟩ := exists_of_run_bind h
    obtain ⟨rfl, asked, rfl⟩ := run_missingIssue_iff.mp hfound
    rcases hc : c.autofill with fault | settings <;> rw [hc] at h <;> dsimp only at h
    · split at h
      · rename_i told
        cases h
        exact ⟨rfl, .refused configured asked hc told⟩
      · cases h
    · obtain ⟨lacking, w₃, hlacking, h⟩ := exists_of_run_bind h
      obtain ⟨rfl, looked, rfl⟩ := run_missingIssue_iff.mp hlacking
      cases h
      exact ⟨rfl, .complete configured asked hc looked⟩
  · rintro ⟨rfl, h⟩
    cases h with
    | refused configured asked faulty told =>
      rw [run_lift_bind configured, run_bind_of_ok (run_missingIssue_iff.mpr ⟨rfl, asked, rfl⟩),
        faulty]
      dsimp only
      rw [if_pos told]
      rfl
    | complete configured asked valid looked =>
      rw [run_lift_bind configured, run_bind_of_ok (run_missingIssue_iff.mpr ⟨rfl, asked, rfl⟩),
        valid]
      dsimp only
      rw [run_bind_of_ok (run_missingIssue_iff.mpr ⟨rfl, looked, rfl⟩)]
      rfl

/-- Checking changes nothing, whether it ends well or not. -/
theorem asks_doctor (c : Config) : Asks (doctor c) := by
  have hlook : ∀ path, Asks (missingIssue c path) := by
    intro path w
    rw [run_missingIssue]
  unfold doctor
  refine within_bind (within_lift _) fun helper => within_bind (hlook helper) fun found => ?_
  split
  · split
    · exact within_pure _
    · exact within_throw _
  · exact within_bind (hlook _) fun _ => within_pure _

/-- A file that checking looks for and the system refuses. -/
inductive Config.Refused (c : Config) (t : FileTree) : Prop
  | helper {path : Path} (configured : c.helperPath = .ok path) (overlong : t.Overlong path)
  | output {settings : Autofill} (accepted : c.autofill = .ok settings)
      (overlong : t.Overlong settings.output)

/-- A file that checking looks for and of which nothing is said. -/
inductive Config.Unsettled (c : Config) (t : FileTree) : Prop
  | helper {path : Path} (configured : c.helperPath = .ok path) (unsettled : t.Unsettled path)
  | output {settings : Autofill} (accepted : c.autofill = .ok settings)
      (unsettled : t.Unsettled settings.output)

/-- When checking comes to an end. -/
theorem exists_checked_iff {t : FileTree} : (∃ issues, c.Checked t issues) ↔
    c.sourceSetting.IsText ∧ ¬ c.Unchecked ∧ ¬ c.Refused t := by
  have hhelper := demands_helperPath c
  constructor
  · rintro ⟨issues, h⟩
    cases h with
    | refused configured asked faulty told =>
      refine ⟨hhelper.succeeds.mp ⟨_, configured⟩, fun hu => ?_, ?_⟩
      · rw [(unchecked_iff faulty).mp hu] at told
        cases told
      · rintro (⟨configured', overlong⟩ | ⟨accepted, -⟩)
        · obtain rfl := Except.ok.inj (configured.symm.trans configured')
          exact FileTree.refuses_eq_false_iff.mp asked overlong
        · rw [faulty] at accepted
          cases accepted
    | complete configured asked valid looked =>
      refine ⟨hhelper.succeeds.mp ⟨_, configured⟩, fun hu => ?_, ?_⟩
      · obtain ⟨e, he, -⟩ := hu.autofill
        rw [valid] at he
        cases he
      · rintro (⟨configured', overlong⟩ | ⟨accepted, overlong⟩)
        · obtain rfl := Except.ok.inj (configured.symm.trans configured')
          exact FileTree.refuses_eq_false_iff.mp asked overlong
        · obtain rfl := Except.ok.inj (valid.symm.trans accepted)
          exact FileTree.refuses_eq_false_iff.mp looked overlong
  · rintro ⟨htext, hchecked, hasked⟩
    obtain ⟨helper, configured⟩ := hhelper.succeeds.mpr htext
    have asked := FileTree.refuses_eq_false_iff.mpr fun h => hasked (.helper configured h)
    rcases hc : c.autofill with fault | settings
    · have told : fault.isKitFault = true := by
        by_contra h
        exact hchecked ((unchecked_iff hc).mpr (by simpa using h))
      exact ⟨_, .refused configured asked hc told⟩
    · have looked := FileTree.refuses_eq_false_iff.mpr fun h => hasked (.output hc h)
      exact ⟨_, .complete configured asked hc looked⟩

/-- **Checking reports** on a project, whatever its files are, only if the
directory of the sources is a text, the settings are not unchecked, and the
system refuses none of the files; and it does report then, unless one of the
files is unsettled.  Checking changes nothing, and what is wrong with the
settings is among the issues. -/
theorem doctor_reports (c : Config) (w : Workspace) :
    ((∃ issues, run (doctor c) w = (.ok issues, w)) →
        c.sourceSetting.IsText ∧ ¬ c.Unchecked ∧ ¬ c.Refused w.tree) ∧
      (c.sourceSetting.IsText ∧ ¬ c.Unchecked ∧ ¬ c.Refused w.tree →
        (∃ issues, run (doctor c) w = (.ok issues, w)) ∨ c.Unsettled w.tree) ∧
      ∀ r w', run (doctor c) w = (r, w') → w' = w ∧
        ∀ issues fault, r = .ok issues → c.autofill = .error fault → fault.message ∈ issues := by
  have hreports : (∃ issues, run (doctor c) w = (.ok issues, w)) ↔
      ∃ issues, c.Checked w.tree issues :=
    exists_congr fun issues => run_doctor_iff.trans (and_iff_right rfl)
  refine ⟨fun h => exists_checked_iff.mp (hreports.mp h),
    fun h => .inl (hreports.mpr (exists_checked_iff.mpr h)),
    fun r w' hr => ⟨(asks_doctor c).eq hr, fun issues fault hissues hfault => ?_⟩⟩
  rw [hissues] at hr
  cases (run_doctor_iff.mp hr).2 with
  | refused configured asked faulty told =>
    rw [hfault] at faulty
    cases faulty
    exact List.mem_append_right _ (.head _)
  | complete configured asked valid looked =>
    rw [hfault] at valid
    cases valid

/-! ### Two configurations -/

/-- A configuration whose marker has no dot. -/
def dotlessText : Text := "\x7b\"autofill\": \x7b\"function\": \"resp\"\x7d\x7d"

/-- A configuration whose breakpoint is beyond all numbers. -/
def boundlessText : Text := "\x7b\"autofill\": \x7b\"mobileMax\": 1e400\x7d\x7d"

/-- The configuration of the watched root with these settings. -/
def settingsConfig (settings : List (Text × Json)) : Config :=
  ⟨watchedRoot, [("autofill", .obj settings)]⟩

theorem read_dotlessText :
    Json.read? dotlessText = .ok (.obj (settingsConfig [("function", .str "resp")]).data) := by
  cbv

theorem read_boundlessText : Json.read? boundlessText
    = .ok (.obj (settingsConfig [("mobileMax", .num (.infinite false))]).data) := by
  cbv

theorem run_load_watched {config : Text} {settings : List (Text × Json)} (sheet : Text)
    (log : List LogLine) (hu : Text.unifyNewlines config = config)
    (hread : Json.read? config = .ok (.obj (settingsConfig settings).data)) :
    run (Config.load watchedRoot) (watchedProject config sheet log)
      = (.ok (settingsConfig settings), watchedProject config sheet log) :=
  run_load_iff.mpr ⟨rfl, _, run_readConfig_watched log hu, ofText_eq_ok_iff.mpr ⟨rfl, hread⟩⟩

/-- A marker without a dot is told. -/
theorem doctor_reports_dotless :
    ∃ c issues, run (Config.load watchedRoot) (watchedProject dotlessText [] [])
        = (.ok c, watchedProject dotlessText [] []) ∧
      run (doctor c) (watchedProject dotlessText [] [])
        = (.ok issues, watchedProject dotlessText [] []) ∧
      Fault.message (.configuration (.function (.str "resp"))) ∈ issues := by
  have hunnamed : ¬ (settingsConfig [("function", .str "resp")]).markerSetting.NamesMarker := by
    rintro ⟨ns, fn, h, -⟩
    have hdot : '.' ∈ ("resp" : Text) := by
      have htext : ("resp" : Text) = ns ++ '.' :: fn := Json.str.inj h
      rw [htext]
      exact List.mem_append_right _ (.head _)
    revert hdot
    decide
  have hfault := autofill_eq_error_iff.mpr (.marker hunnamed)
  obtain ⟨-, hreports, htold⟩ := doctor_reports (settingsConfig [("function", .str "resp")])
    (watchedProject dotlessText [] [])
  have hasked : ¬ (settingsConfig [("function", .str "resp")]).Refused
      (watchedProject dotlessText [] []).tree := by
    rintro (⟨hpath, hlong⟩ | ⟨hs, -⟩)
    · cases hpath
      exact FileTree.refuses_eq_false_iff.mp (by decide +kernel) hlong
    · rw [hfault] at hs
      cases hs
  have hsettled : ¬ (settingsConfig [("function", .str "resp")]).Unsettled
      (watchedProject dotlessText [] []).tree := by
    rintro (⟨hpath, hlong, -⟩ | ⟨hs, -⟩)
    · cases hpath
      exact absurd hlong (by decide +kernel)
    · rw [hfault] at hs
      cases hs
  obtain ⟨issues, hrun⟩ :=
    (hreports ⟨⟨_, rfl⟩, fun hu => hunnamed hu.marker, hasked⟩).resolve_right hsettled
  exact ⟨_, issues, run_load_watched [] [] (by decide +kernel) read_dotlessText, hrun,
    (htold _ _ hrun).2 issues _ rfl hfault⟩

/-- An infinite breakpoint ends the check, and no issue is told. -/
theorem doctor_ends_at_boundless :
    ∃ c, run (Config.load watchedRoot) (watchedProject boundlessText [] [])
        = (.ok c, watchedProject boundlessText [] []) ∧
      run (doctor c) (watchedProject boundlessText [] [])
        = (.error .overflow, watchedProject boundlessText [] []) := by
  refine ⟨_, run_load_watched [] [] (by decide +kernel) read_boundlessText, ?_⟩
  have hhelper : (settingsConfig [("mobileMax", .num (.infinite false))]).helperPath = .ok _ := rfl
  unfold doctor
  rw [run_lift_bind hhelper, run_bind_of_ok (run_missingIssue_iff.mpr ⟨rfl, ?_, rfl⟩)]
  · rfl
  · decide +kernel

end FluidScss
