/-
FluidScss/Proofs/EntryList.lean

The list of configured entries and what stands around it.  An `EntrySlot` is a
configuration's members without that list: those in front of the section and
behind it, and likewise the settings of the section.  `slot.fill items` are the
members with a list in its place, so two configurations that fill one slot
differ in their entries and in nothing else.

Accordingly the settings of generation runs differ in the entries alone
(`autofill_fill`), and the directory of the sources is the same
(`sourceDir_fill`).
-/
import FluidScss.Proofs.JsonReading
import FluidScss.Watch.Entry

namespace FluidScss

/-- The members of a configuration around its list of entries. -/
structure EntrySlot where
  front : List (Text × Json)
  before : List (Text × Json)
  after : List (Text × Json)
  back : List (Text × Json)
  first : ("autofill" : Text) ∉ front.map Prod.fst
  firstSetting : ("entries" : Text) ∉ before.map Prod.fst

namespace EntrySlot

variable (slot : EntrySlot)

/-- The settings of the section, with a list of entries. -/
def settings (items : List Json) : List (Text × Json) :=
  slot.before ++ (("entries" : Text), Json.arr items) :: slot.after

/-- The members, with a list of entries. -/
def fill (items : List Json) : List (Text × Json) :=
  slot.front ++ (("autofill" : Text), Json.obj (slot.settings items)) :: slot.back

/-- The configuration of a root with a list of entries. -/
def config (root : Path) (items : List Json) : Config := ⟨root, slot.fill items⟩

/-! ### Looking up -/

theorem settings_eq_setMember (items items' : List Json) :
    slot.settings items = Json.setMember (slot.settings items') "entries" (.arr items) :=
  (Json.setMember_append_cons slot.firstSetting _ _ _).symm

theorem fill_eq_setMember (items items' : List Json) :
    slot.fill items = Json.setMember (slot.fill items') "autofill" (.obj (slot.settings items)) :=
  (Json.setMember_append_cons slot.first _ _ _).symm

theorem member?_settings (items items' : List Json) (key : Text) :
    Json.member? (slot.settings items) key
      = if key = ("entries" : Text) then some (.arr items)
        else Json.member? (slot.settings items') key := by
  rw [slot.settings_eq_setMember items items', Json.member?_setMember]

theorem member?_fill (items items' : List Json) (key : Text) :
    Json.member? (slot.fill items) key
      = if key = ("autofill" : Text) then some (.obj (slot.settings items))
        else Json.member? (slot.fill items') key := by
  rw [slot.fill_eq_setMember items items', Json.member?_setMember]

/-- Where a section of settings lists entries, there is a slot for them. -/
theorem exists_of_member? {data settings : List (Text × Json)} {items : List Json}
    (hsection : Json.member? data "autofill" = some (.obj settings))
    (hitems : Json.member? settings "entries" = some (.arr items)) :
    ∃ slot : EntrySlot, data = slot.fill items ∧ settings = slot.settings items := by
  obtain ⟨front, back, hdata, hfront⟩ := Json.exists_of_member? hsection
  obtain ⟨before, after, hsettings, hbefore⟩ := Json.exists_of_member? hitems
  refine ⟨⟨front, before, after, back, hfront, hbefore⟩, ?_, hsettings⟩
  rw [hdata, hsettings]
  rfl

/-! ### Settings -/

variable (root : Path)

theorem sectionOf_autofill (items : List Json) :
    (slot.config root items).sectionOf "autofill" = slot.settings items := by
  rw [Config.sectionOf, config, slot.member?_fill items items, if_pos rfl]

/-- The other sections are the same, whatever the list is. -/
theorem sectionOf_fill (items items' : List Json) {name : Text} (hname : name ≠ "autofill") :
    (slot.config root items).sectionOf name = (slot.config root items').sectionOf name := by
  rw [Config.sectionOf, Config.sectionOf, config, slot.member?_fill items items', if_neg hname]
  rfl

theorem sourceSetting_fill (items items' : List Json) :
    (slot.config root items).sourceSetting = (slot.config root items').sourceSetting := by
  rw [Config.sourceSetting, Config.pathSetting, slot.sectionOf_fill root items items' (by decide)]
  rfl

theorem sourceDir_fill (items items' : List Json) :
    (slot.config root items).sourceDir = (slot.config root items').sourceDir := by
  rw [Config.sourceDir, slot.sourceSetting_fill root items items']
  rfl

/-- **The settings of runs** differ in the entries alone. -/
theorem autofill_fill (items items' : List Json) :
    (slot.config root items).autofill
      = (slot.config root items').autofill.map fun s => { s with entries := entryTexts items } := by
  have hother : ∀ key : Text, key ≠ "entries" →
      Json.member? (slot.settings items) key = Json.member? (slot.settings items') key :=
    fun key hkey => by rw [slot.member?_settings items items', if_neg hkey]
  have hentries : ∀ items, Json.member? (slot.settings items) "entries" = some (.arr items) :=
    fun items => by rw [slot.member?_settings items items, if_pos rfl]
  have hresolve :
      (slot.config root items).resolveJson = (slot.config root items').resolveJson := rfl
  unfold Config.autofill
  dsimp only
  rw [slot.sectionOf_autofill, slot.sectionOf_autofill, slot.sourceSetting_fill root items items',
    hresolve, hother "function" (by decide), hother "mobileMax" (by decide),
    hother "scanDirs" (by decide), hother "output" (by decide), hentries, hentries]
  -- an empty list counts as left out, and is the same list
  have hgiven : ∀ items, Json.given? (some (.arr items)) = none ∧ items = [] ∨
      Json.given? (some (.arr items)) = some (.arr items) := by
    intro items
    cases items
    · exact .inl ⟨rfl, rfl⟩
    · exact .inr rfl
  generalize parseMarker _ = marker
  generalize parseMobileMax _ = mobileMax
  generalize Json.elements _ = dirs
  generalize Config.resolveJson _ = resolved
  generalize Option.getD _ (Json.str defaultOutput) = output
  rcases hgiven items with ⟨h, rfl⟩ | h <;> rcases hgiven items' with ⟨h', rfl⟩ | h' <;>
    simp only [h, h', pure_bind]
  all_goals
    rcases marker with e | marker
    · rfl
    rcases mobileMax with e | mobileMax
    · rfl
    rcases dirs with e | dirs
    · rfl
    simp only [bind, Except.bind]
    rcases dirs.mapM resolved with e | scanDirs
    · rfl
    dsimp only
    rcases resolved output with e | output <;> rfl

end EntrySlot

end FluidScss
