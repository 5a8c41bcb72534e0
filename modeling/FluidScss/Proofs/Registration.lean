/-
FluidScss/Proofs/Registration.lean

Registering an entry.  The configuration is read, changed as a value and
written anew, so nothing of it may get lost on the way: what is written is the
configuration that was read, with one entry more at the end of the list
(`OneEntryMore`), and it reads back as such by the round trip of values whose
numbers are whole.

`run_registerEntry_iff` says when an entry is registered and what is written
then.  After that the entry is in the list, so registering it again finds it
there and leaves the configuration alone (`registerEntry_adds`).
-/
import FluidScss.Proofs.Convergence
import FluidScss.Proofs.EntryList
import FluidScss.Proofs.JsonRoundTrip

namespace FluidScss

open FluidScss.Action

variable {w w' w₁ : Workspace} {c before after again : Config} {root entry p q : Path} {name : Text}
variable {data data' : List (Text × Json)} {items : List Json} {registered : Bool}

/-! ### One entry more -/

/-- Members that differ in the list of entries alone, which has one entry more,
at its end. -/
def OneEntryMore (name : Text) (data data' : List (Text × Json)) : Prop :=
  ∃ (slot : EntrySlot) (items : List Json),
    data = slot.fill items ∧ data' = slot.fill (items ++ [.str name])

theorem isText_self (name : Text) : isText name (.str name) = true := decide_eq_true rfl

/-- Where entries are listed, an entry that is not among them comes last. -/
theorem addEntry?_fill (slot : EntrySlot) (items : List Json) (name : Text) :
    addEntry? (slot.fill items) name = .ok (if items.any (isText name) then none
      else some (slot.fill (items ++ [.str name]))) := by
  unfold addEntry?
  rw [slot.member?_fill items items, if_pos rfl]
  dsimp only
  rw [slot.member?_settings items items, if_pos rfl]
  dsimp only
  rw [← slot.settings_eq_setMember, ← slot.fill_eq_setMember]
  split <;> rfl

/-- Entries are added to such a list only. -/
theorem exists_of_addEntry? (h : addEntry? data name = .ok (some data')) :
    ∃ (slot : EntrySlot) (items : List Json),
      data = slot.fill items ∧ data' = slot.fill (items ++ [.str name]) := by
  have hslot : ∃ (slot : EntrySlot) (items : List Json), data = slot.fill items := by
    unfold addEntry? at h
    split at h
    · cases h
    · rename_i hsection
      split at h
      · rename_i hitems
        obtain ⟨slot, hdata, -⟩ := EntrySlot.exists_of_member? hsection hitems
        exact ⟨slot, _, hdata⟩
      · cases h
    · cases h
  obtain ⟨slot, items, rfl⟩ := hslot
  rw [addEntry?_fill] at h
  split at h
  · cases h
  · cases h
    exact ⟨slot, items, rfl, rfl⟩

/-! ### What is written -/

namespace EntrySlot

variable {slot : EntrySlot}

/-- What holds of a configuration part by part holds of it with a text more
among its entries. -/
theorem fill_append_of {P : Json → Prop} (hstr : ∀ text, P (.str text))
    (hitem : ∀ {items}, P (.arr items) → ∀ v ∈ items, P v)
    (hitems : ∀ {items}, (∀ v ∈ items, P v) → P (.arr items))
    (hmember : ∀ {members}, P (.obj members) → ∀ m ∈ members, P m.2)
    (hset : ∀ {members}, P (.obj members) → ∀ key {value}, P value →
      P (.obj (Json.setMember members key value)))
    (h : P (.obj (slot.fill items))) (name : Text) :
    P (.obj (slot.fill (items ++ [.str name]))) := by
  have hsettings : P (.obj (slot.settings items)) :=
    hmember h _ (List.mem_append_right _ (List.mem_cons_self ..))
  have hlist : P (.arr items) :=
    hmember hsettings _ (List.mem_append_right _ (List.mem_cons_self ..))
  have hmore : P (.arr (items ++ [.str name])) :=
    hitems (List.forall_mem_append.mpr ⟨hitem hlist, List.forall_mem_singleton.mpr (hstr name)⟩)
  rw [slot.fill_eq_setMember _ items]
  refine hset h _ ?_
  rw [slot.settings_eq_setMember _ items]
  exact hset hsettings _ hmore

theorem readable_fill_append (h : (Json.obj (slot.fill items)).Readable) (name : Text) :
    (Json.obj (slot.fill (items ++ [.str name]))).Readable :=
  fill_append_of .str Json.Readable.item .arr Json.Readable.member Json.readable_setMember h name

theorem whole_fill_append (h : (Json.obj (slot.fill items)).Whole) (name : Text) :
    (Json.obj (slot.fill (items ++ [.str name]))).Whole :=
  fill_append_of .str Json.Whole.item .arr Json.Whole.member Json.whole_setMember h name

end EntrySlot

theorem ofText_eq_ok_iff {text : Text} : Config.ofText root text = .ok c ↔
    c.root = root ∧ Json.read? text = .ok (.obj c.data) := by
  obtain ⟨r, d⟩ := c
  rw [Config.ofText]
  constructor
  · intro h
    split at h
    · rename_i members hread
      cases h
      exact ⟨rfl, hread⟩
    all_goals cases h
  · rintro ⟨rfl, hread⟩
    rw [hread]

/-- The text of a configuration. -/
def Config.text (c : Config) : Text := (Json.obj c.data).write .ascii ++ "\n"

/-- A configuration that is written is loaded again. -/
theorem run_load_of_written_reread (hr : (Json.obj data).Readable)
    (h : run (writeText (Config.fileIn root) (Config.text ⟨root, data⟩)) w = (.ok (), w₁)) :
    run (Config.load root) w₁ = (.ok ⟨root, Json.rereadMembers data⟩, w₁) := by
  -- no carriage return is written, so reading unifies nothing
  have hu : Text.unifyNewlines (Config.text ⟨root, data⟩) = Config.text ⟨root, data⟩ :=
    Text.unifyNewlines_eq_self (Text.unified_append.mpr ⟨Json.unified_writeAt hr _ _, by decide⟩)
  have hread := run_readText_of_run_readRaw (run_readRaw_of_run_writeText h)
  rw [hu] at hread
  exact run_load_iff.mpr ⟨rfl, _, hread,
    ofText_eq_ok_iff.mpr ⟨rfl, Json.read?_write_reread hr .ascii (.inr rfl)⟩⟩

/-- **A configuration that is written** is loaded as it was, if all its numbers
are whole. -/
theorem run_load_of_written (hr : (Json.obj data).Readable) (hw : (Json.obj data).Whole)
    (h : run (writeText (Config.fileIn root) (Config.text ⟨root, data⟩)) w = (.ok (), w₁)) :
    run (Config.load root) w₁ = (.ok ⟨root, data⟩, w₁) := by
  have hsame : Json.rereadMembers data = data := Json.obj.inj (Json.reread_of_whole hw)
  have hload := run_load_of_written_reread hr h
  rwa [hsame] at hload

/-! ### Registering -/

/-- An entry lies among the sources of a configuration. -/
def Config.Covers (c : Config) (entry : Path) : Prop :=
  ∃ place dir sources, (c.resolve entry).normalize? = some place ∧ c.sourceDir = .ok dir ∧
    dir.normalize? = some sources ∧ place.isWithin sources = true

theorem run_normalize_iff :
    run (Action.normalize p) w = (.ok q, w') ↔ w' = w ∧ p.normalize? = some q := by
  unfold Action.normalize
  split
  · rename_i found hp
    rw [hp]
    constructor
    · intro h
      cases h
      exact ⟨rfl, rfl⟩
    · rintro ⟨rfl, h⟩
      cases h
      rfl
  · rename_i hp
    rw [hp]
    constructor
    · intro h
      cases h
    · rintro ⟨-, h⟩
      cases h

theorem covers_of_run_registerEntry (h : run (registerEntry c entry) w = (.ok true, w₁)) :
    c.Covers entry := by
  unfold registerEntry at h
  obtain ⟨place, hplace, h⟩ := exists_of_asks_bind (asks_normalize _) h
  obtain ⟨dir, hdir, h⟩ := exists_of_asks_bind (within_lift _) h
  obtain ⟨sources, hsources, h⟩ := exists_of_asks_bind (asks_normalize _) h
  rw [run_lift] at hdir
  split at h
  · exact ⟨place, dir, sources, (run_normalize_iff.mp hplace).2, (Prod.mk.inj hdir).1,
      (run_normalize_iff.mp hsources).2, by assumption⟩
  · cases h

/-- An entry among the sources is added to what the configuration on disk
lists. -/
theorem run_registerEntry_of_covers (hc : c.Covers entry)
    (hload : run (Config.load c.root) w = (.ok before, w)) :
    run (registerEntry c entry) w = run (do
      match ← addEntry? before.data (c.relative (c.resolve entry)) with
      | some data =>
        writeText (Config.fileIn c.root) (Config.text ⟨c.root, data⟩)
        return true
      | none => return false) w := by
  obtain ⟨place, dir, sources, hplace, hdir, hsources, hwithin⟩ := hc
  obtain ⟨-, text, hread, hbefore⟩ := run_load_iff.mp hload
  obtain ⟨-, hjson⟩ := ofText_eq_ok_iff.mp hbefore
  unfold registerEntry
  rw [run_bind_of_ok (run_normalize_iff.mpr ⟨rfl, hplace⟩), run_lift_bind hdir,
    run_bind_of_ok (run_normalize_iff.mpr ⟨rfl, hsources⟩), if_pos hwithin, run_bind_of_ok hread,
    hjson]
  rfl

/-- An entry is registered if it lies among the sources and is none of those
that the configuration on disk lists. -/
theorem run_registerEntry_iff (hload : run (Config.load c.root) w = (.ok before, w)) :
    run (registerEntry c entry) w = (.ok true, w₁) ↔
      c.Covers entry ∧
        ∃ data, addEntry? before.data (c.relative (c.resolve entry)) = .ok (some data) ∧
          run (writeText (Config.fileIn c.root) (Config.text ⟨c.root, data⟩)) w = (.ok (), w₁) := by
  constructor
  · intro h
    have hc := covers_of_run_registerEntry h
    rw [run_registerEntry_of_covers hc hload] at h
    obtain ⟨added, hadded, h⟩ := exists_of_asks_bind (within_lift _) h
    rw [run_lift] at hadded
    cases added with
    | none => cases h
    | some data =>
      obtain ⟨done, w', hwrite, h⟩ := exists_of_run_bind h
      cases h
      exact ⟨hc, data, (Prod.mk.inj hadded).1, hwrite⟩
  · rintro ⟨hc, data, hadded, hwrite⟩
    rw [run_registerEntry_of_covers hc hload, run_lift_bind hadded]
    dsimp only
    rw [run_bind_of_ok hwrite]
    rfl

/-- An entry that is listed is not registered again. -/
theorem run_registerEntry_of_listed (hc : c.Covers entry)
    (hload : run (Config.load c.root) w = (.ok before, w))
    (hlisted : addEntry? before.data (c.relative (c.resolve entry)) = .ok none) :
    run (registerEntry c entry) w = (.ok false, w) := by
  rw [run_registerEntry_of_covers hc hload, run_lift_bind hlisted]
  rfl

/-- Where an entry is registered, the configuration loaded afterwards is the one
before with one entry more, at the end of the list. -/
theorem run_load_of_registerEntry (hload : run (Config.load c.root) w = (.ok before, w))
    (hwhole : (Json.obj before.data).Whole)
    (h : run (registerEntry c entry) w = (.ok true, w₁)) :
    ∃ (slot : EntrySlot) (items : List Json), before.data = slot.fill items ∧
      run (Config.load c.root) w₁
        = (.ok (slot.config c.root (items ++ [.str (c.relative (c.resolve entry))])), w₁) := by
  obtain ⟨-, data, hadded, hwrite⟩ := (run_registerEntry_iff hload).mp h
  obtain ⟨slot, items, hbefore, rfl⟩ := exists_of_addEntry? hadded
  have hreadable : (Json.obj before.data).Readable := by
    obtain ⟨-, text, -, htext⟩ := run_load_iff.mp hload
    exact Json.readable_of_read? (ofText_eq_ok_iff.mp htext).2
  rw [hbefore] at hreadable hwhole
  exact ⟨slot, items, hbefore, run_load_of_written (EntrySlot.readable_fill_append hreadable _)
    (EntrySlot.whole_fill_append hwhole _) hwrite⟩

/-- **Registering an entry** changes nothing else in the configuration: where it
is registered, the configuration loaded afterwards is the one before with one
entry more, at the end of the list, and the same entry is not registered again;
where it is not, nothing is written. -/
theorem registerEntry_adds (hload : run (Config.load c.root) w = (.ok before, w))
    (hwhole : (Json.obj before.data).Whole)
    (h : run (registerEntry c entry) w = (.ok registered, w₁)) :
    (registered = true →
      (∃ after, run (Config.load c.root) w₁ = (.ok after, w₁) ∧
        OneEntryMore (c.relative (c.resolve entry)) before.data after.data) ∧
      ∀ again : Config, again.root = c.root → again.sourceDir = c.sourceDir →
        run (registerEntry again entry) w₁ = (.ok false, w₁)) ∧
    (registered = false → w₁ = w) := by
  refine ⟨?_, ?_⟩
  · rintro rfl
    obtain ⟨slot, items, hbefore, hafter⟩ := run_load_of_registerEntry hload hwhole h
    refine ⟨⟨_, hafter, slot, items, hbefore, rfl⟩, fun again hroot hdir => ?_⟩
    have hresolve : again.resolve entry = c.resolve entry := by rw [Config.resolve, hroot]; rfl
    have hrelative : again.relative (again.resolve entry) = c.relative (c.resolve entry) := by
      rw [Config.relative, hresolve, hroot]
      rfl
    rw [← hroot] at hafter
    refine run_registerEntry_of_listed ?_ hafter ?_
    · rw [Config.Covers, hresolve, hdir]
      exact ((run_registerEntry_iff hload).mp h).1
    · -- by now the list ends with the entry
      rw [EntrySlot.config, addEntry?_fill, hrelative, List.any_append, List.any_cons, isText_self,
        Bool.true_or, Bool.or_true, if_pos rfl]
  · rintro rfl
    exact eq_of_run_registerEntry h

/-! ### A configuration with values of all kinds -/

/-- A configuration with an entry and values of all kinds but fractions. -/
def motleyText : Text :=
  "\x7b\"autofill\": \x7b\"mobileMax\": -850, \"entries\": [\"a.scss\"]\x7d,
    \"\\u00e9\": [[], \x7b\x7d, null, \"\\ud83d\\ude00\\n\", true, 100000000000000000000]\x7d"

/-- Its members, with these entries. -/
def motleyConfig (entries : List Text) : Config :=
  ⟨watchedRoot, [("autofill", .obj [("mobileMax", .int (-850)),
      ("entries", .arr (entries.map .str))]),
    ("é", .arr [.arr [], .obj [], .null, .str "😀\n", .bool true, .int 100000000000000000000])]⟩

theorem read_motleyText : Json.read? motleyText = .ok (.obj (motleyConfig ["a.scss"]).data) := by
  cbv

theorem whole_motleyConfig : (Json.obj (motleyConfig ["a.scss"]).data).Whole := by
  have hsettings :
      (Json.obj [("mobileMax", .int (-850)), ("entries", .arr [.str "a.scss"])]).Whole :=
    .obj (List.forall_mem_cons.mpr ⟨.int _, List.forall_mem_singleton.mpr
      (.arr (List.forall_mem_singleton.mpr (.str _)))⟩)
  refine .obj (List.forall_mem_cons.mpr ⟨hsettings, List.forall_mem_singleton.mpr (.arr ?_)⟩)
  simp only [List.forall_mem_cons]
  exact ⟨.arr nofun, .obj nofun, .null, .str _, .bool _, .int _, nofun⟩

/-- An entry that is told by a detour is registered under its path from the
root. -/
theorem registerEntry_adds_motley :
    ∃ w₁ after, run (Config.load watchedRoot) (watchedProject motleyText [] [])
        = (.ok (motleyConfig ["a.scss"]), watchedProject motleyText [] []) ∧
      (Json.obj (motleyConfig ["a.scss"]).data).Whole ∧
      run (registerEntry (motleyConfig ["a.scss"]) (.ofText "src/./styles/../styles/x.scss"))
        (watchedProject motleyText [] []) = (.ok true, w₁) ∧
      run (Config.load watchedRoot) w₁ = (.ok after, w₁) ∧
      OneEntryMore "src/styles/x.scss" (motleyConfig ["a.scss"]).data after.data ∧
      run (registerEntry (motleyConfig ["a.scss"]) (.ofText "src/./styles/../styles/x.scss")) w₁
        = (.ok false, w₁) := by
  have hload : run (Config.load watchedRoot) (watchedProject motleyText [] [])
      = (.ok (motleyConfig ["a.scss"]), watchedProject motleyText [] []) :=
    run_load_iff.mpr ⟨rfl, _, run_readConfig_watched [] (by decide +kernel),
      ofText_eq_ok_iff.mpr ⟨rfl, read_motleyText⟩⟩
  have hcovers : (motleyConfig ["a.scss"]).Covers (.ofText "src/./styles/../styles/x.scss") :=
    ⟨watchedEntry, ⟨.single, ["watched", "src", "styles"]⟩, ⟨.single, ["watched", "src", "styles"]⟩,
      rfl, rfl, rfl, rfl⟩
  have hname : (motleyConfig ["a.scss"]).relative ((motleyConfig ["a.scss"]).resolve
      (.ofText "src/./styles/../styles/x.scss")) = "src/styles/x.scss" := rfl
  have hadded : addEntry? (motleyConfig ["a.scss"]).data "src/styles/x.scss"
      = .ok (some (motleyConfig ["a.scss", "src/styles/x.scss"]).data) := rfl
  have hwrite : ∀ text, run (writeText (Config.fileIn watchedRoot) text)
      (watchedProject motleyText [] []) = (.ok (), watchedProject text [] []) := fun _ => rfl
  have hregister : run (registerEntry (motleyConfig ["a.scss"])
        (.ofText "src/./styles/../styles/x.scss")) (watchedProject motleyText [] [])
      = (.ok true, watchedProject
          (Config.text (motleyConfig ["a.scss", "src/styles/x.scss"])) [] []) := by
    rw [run_registerEntry_iff (c := motleyConfig ["a.scss"]) hload, hname, hadded]
    exact ⟨hcovers, _, rfl, hwrite _⟩
  obtain ⟨hadds, -⟩ := registerEntry_adds (c := motleyConfig ["a.scss"]) hload
    whole_motleyConfig hregister
  rw [hname] at hadds
  obtain ⟨⟨after, hafter, hmore⟩, hagain⟩ := hadds rfl
  exact ⟨_, after, hload, whole_motleyConfig, hregister, hafter, hmore,
    hagain (motleyConfig ["a.scss"]) rfl rfl⟩

end FluidScss
