/-
FluidScss/Proofs/Setup.lean

Setting a project up, checking it, and setting it up again.  Initialising
writes two files one after the other, the helper module and the override
stylesheet, and nothing keeps the configuration from naming one place for
both, or the place beside the other.

Still the second time ends where the first one did (`init_settles`).  Of the
two writes the first finds its own work, or what the later write put in its
place; then it writes there once more (`SafelyWritten.writes_over`), and the later
write, which finds that text and not its own, puts its own back
(`SafelyWritten.back`).  All that this takes is that both texts are stamped and
that they differ, and they differ in their first lines.

A safe write leaves a file at its target, be it someone else's, so checking
finds both files.
-/
import FluidScss.Proofs.EntryOutput
import FluidScss.Proofs.Settings

namespace FluidScss

open FluidScss.Action

variable {w w₁ w₂ : Workspace} {target path : Path} {content other text : Text}
variable {plan : WritePlan} {place : Place} {bytes : ByteArray} {c : Config}

/-! ### Writing where a file stands -/

/-- The workspace with a text written at a place. -/
def Workspace.put (w : Workspace) (place : Place) (text : Text) : Workspace :=
  { w with tree := w.tree.set place (.file (Text.encode text)) }

/-- Of two texts written at a place the later one stays. -/
theorem Workspace.put_put (w : Workspace) (place : Place) (text other : Text) :
    (w.put place text).put place other = w.put place other := by
  rw [put, put, put, FileTree.set_set]

/-- A text that stands at a place is not changed by writing it there. -/
theorem Workspace.put_eq_self (h : w.tree.find? place = some (.file (Text.encode text))) :
    w.put place text = w := by
  rw [put, FileTree.set_eq_self h]

/-- Paths lead where they led when a text is written where a file stood. -/
theorem Workspace.locate_put (hf : w.tree.find? place = some (.file bytes)) (text : Text)
    (p : Path) : (w.put place text).tree.locate p = w.tree.locate p :=
  FileTree.locate_set_file hf _ p

theorem Workspace.find?_put (hf : w.tree.find? place = some (.file bytes)) (text : Text)
    (q : Place) : (w.put place text).tree.find? q
      = if q = place then some (.file (Text.encode text)) else w.tree.find? q :=
  FileTree.find?_set _ (FileTree.ne_nil_of_find? (FileTree.ne_directory hf)) _ q

namespace SafelyWritten

/-- **What a safe write leaves**: its target leads to a file. -/
theorem leads (h : SafelyWritten target content w plan w₁) :
    target.hasNul = false ∧ ∃ place bytes, w₁.tree.locate target = .ok place ∧
      w₁.tree.find? place = some (.file bytes) := by
  cases h with
  | created missing stored =>
    obtain ⟨place, hst⟩ := stored_of_run_store stored
    exact ⟨hst.named, place, _, hst.leads, hst.holds⟩
  | unchanged there reads stamped =>
    obtain ⟨-, hn, bytes, hb, -⟩ := run_readText_iff.mp reads
    obtain ⟨place, hl, hf⟩ := FileTree.locate_of_readBytes hb
    exact ⟨hn, place, bytes, hl, hf⟩
  | overwritten there reads stamped differs stored =>
    obtain ⟨place, hst⟩ := stored_of_run_store stored
    exact ⟨hst.named, place, _, hst.leads, hst.holds⟩
  | conflict there reads foreign hasName stored =>
    obtain ⟨beside, hst⟩ := stored_of_run_store stored
    obtain ⟨-, hn, bytes, hb, -⟩ := run_readText_iff.mp reads
    obtain ⟨place, hl, hf⟩ := FileTree.locate_of_readBytes hb
    have hne := ne_beside hl (FileTree.ne_directory hf) (FileTree.slot_of_locate hst.leads)
    exact ⟨hn, place, bytes, FileTree.locate_of_grows hst.grows hl, hst.others place hne _ hf⟩

/-- A safe write leaves all alone, or stores its content by the path of its
plan. -/
theorem eq_or_stored (h : SafelyWritten target content w plan w₁) :
    w₁ = w ∨ ∃ place, w.Stored plan.path content w₁ place := by
  cases h with
  | unchanged => exact .inl rfl
  | created _ stored => exact .inr (stored_of_run_store stored)
  | overwritten _ _ _ _ stored => exact .inr (stored_of_run_store stored)
  | conflict _ _ _ _ stored => exact .inr (stored_of_run_store stored)

theorem grows (h : SafelyWritten target content w plan w₁) : w.Grows w₁ := by
  rcases h.eq_or_stored with rfl | ⟨place, hst⟩
  · exact refl w₁
  · exact hst.grows

/-- Where the target leads to a stamped file, the content is written there
unless it is what the file reads as. -/
theorem of_stamped (hl : w.tree.locate target = .ok place)
    (hf : w.tree.find? place = some (.file bytes)) (hn : target.hasNul = false)
    (hr : run (readText target) w = (.ok text, w))
    (hs : Text.contains generatedStamp text = true) (content : Text) :
    ∃ plan w₁, SafelyWritten target content w plan w₁ ∧
      (w₁ = w ∧ text = content ∨ w₁ = w.put place content) := by
  have hthere : w.tree.has target = true := FileTree.has_iff_locate.mpr ⟨place, hl⟩
  by_cases hc : text = content
  · subst hc
    exact ⟨_, w, .unchanged hthere hr hs, .inl ⟨rfl, rfl⟩⟩
  · exact ⟨_, _, .overwritten hthere hr hs hc (run_store_of_leads hl hf hn content), .inr rfl⟩

/-- Where the target leads to someone else's file and there is a file beside
it, the content is written to the latter. -/
theorem of_foreign {beside : Place} {before : ByteArray} (hl : w.tree.locate target = .ok place)
    (hr : run (readText target) w = (.ok text, w))
    (hs : Text.contains generatedStamp text = false) (hname : target.name ≠ [])
    (hlb : w.tree.locate (besidePath target) = .ok beside)
    (hfb : w.tree.find? beside = some (.file before)) (hnb : (besidePath target).hasNul = false)
    (content : Text) :
    SafelyWritten target content w ⟨target, besidePath target, content, .conflict⟩
      (w.put beside content) :=
  .conflict (FileTree.has_iff_locate.mpr ⟨place, hl⟩) hr hs hname
    (run_store_of_leads hlb hfb hnb content)

end SafelyWritten

/-! ### Two writes, twice -/

/-- A file that is told to stand elsewhere reads as before after a text was
stored. -/
theorem Workspace.Stored.reads_elsewhere {p : Path} {here : Place} (h : w.Stored path other w₁ place)
    (hr : run (readText p) w = (.ok text, w)) (hl : w.tree.locate p = .ok here)
    (hne : here ≠ place) : run (readText p) w₁ = (.ok text, w₁) := by
  obtain ⟨-, hn, bytes, hb, hdec⟩ := run_readText_iff.mp hr
  have hf := (FileTree.readBytes_eq_ok_iff hl).mp hb
  exact run_readText_iff.mpr ⟨rfl, hn, bytes,
    (FileTree.readBytes_eq_ok_iff (FileTree.locate_of_grows h.grows hl)).mpr
      (h.others here hne _ hf), hdec⟩

namespace SafelyWritten

/-- **Writing over**: a write that has nothing to do, done again after a stamped
text was stored, has nothing to do still or writes in that text's place. -/
theorem writes_over (h : SafelyWritten target content w plan w)
    (hst : w.Stored path other w₁ place)
    (hother : Text.contains generatedStamp (Text.unifyNewlines other) = true) :
    ∃ plan' w₂, SafelyWritten target content w₁ plan' w₂ ∧
      (w₂ = w₁ ∨ w₂ = w₁.put place content) := by
  obtain ⟨hn, here, bytes, hl, hf⟩ := h.leads
  have hl₁ : w₁.tree.locate target = .ok here := FileTree.locate_of_grows hst.grows hl
  by_cases hhere : here = place
  · -- the target itself has got the other text, which is stamped
    subst hhere
    obtain ⟨plan', w₂, hp, hw⟩ := of_stamped hl₁ hst.holds hn
      (run_readText_of_encoded hl₁ hst.holds hn) hother content
    exact ⟨plan', w₂, hp, hw.imp_left And.left⟩
  · have hf₁ := hst.others here hhere _ hf
    have hread : ∀ {text}, run (readText target) w = (.ok text, w) →
        run (readText target) w₁ = (.ok text, w₁) := fun hr => hst.reads_elsewhere hr hl hhere
    cases h with
    | created missing stored =>
      rw [FileTree.has_iff_locate.mpr ⟨here, hl⟩] at missing
      cases missing
    | unchanged there reads stamped =>
      have hthere : w₁.tree.has target = true := FileTree.has_iff_locate.mpr ⟨here, hl₁⟩
      exact ⟨_, w₁, .unchanged hthere (hread reads) stamped, .inl rfl⟩
    | overwritten there reads stamped differs stored =>
      obtain ⟨plan', w₂, hp, hw⟩ := of_stamped hl₁ hf₁ hn (hread reads) stamped content
      refine ⟨plan', w₂, hp, .inl ?_⟩
      rcases hw with ⟨rfl, -⟩ | rfl
      · rfl
      · -- what is written stands there already
        obtain ⟨here', hst'⟩ := stored_of_run_store stored
        obtain rfl : here = here' := Except.ok.inj (hl.symm.trans hst'.leads)
        exact Workspace.put_eq_self (hst.others here hhere _ hst'.holds)
    | conflict there reads foreign hasName stored =>
      obtain ⟨beside, hst'⟩ := stored_of_run_store stored
      have hlb := FileTree.locate_of_grows hst.grows hst'.leads
      by_cases hbeside : beside = place
      · subst hbeside
        exact ⟨_, _, of_foreign hl₁ (hread reads) foreign hasName hlb hst.holds hst'.named content,
          .inr rfl⟩
      · have hfb := hst.others beside hbeside _ hst'.holds
        refine ⟨_, _, of_foreign hl₁ (hread reads) foreign hasName hlb hfb hst'.named content,
          .inl ?_⟩
        exact Workspace.put_eq_self hfb

/-- **Writing back**: what a write has stored it stores again over another
stamped text, and all is as it left it. -/
theorem back (h : SafelyWritten target content w plan w₁)
    (hst : w.Stored plan.path content w₁ place)
    (hother : Text.contains generatedStamp (Text.unifyNewlines other) = true)
    (hdiffers : Text.unifyNewlines other ≠ content) :
    ∃ plan', SafelyWritten target content (w₁.put place other) plan' w₁ := by
  have hf : (w₁.put place other).tree.find? place = some (.file (Text.encode other)) :=
    (Workspace.find?_put hst.holds other place).trans (if_pos rfl)
  have hback : (w₁.put place other).put place content = w₁ := by
    rw [Workspace.put_put, Workspace.put_eq_self hst.holds]
  -- the target reads as the other text, unless it is someone else's
  have hstored : plan.path = target →
      ∃ plan', SafelyWritten target content (w₁.put place other) plan' w₁ := by
    intro hpath
    have hn := hst.named
    have hl := hst.leads
    rw [hpath] at hn hl
    rw [← Workspace.locate_put hst.holds other target] at hl
    obtain ⟨plan', w₂, hp, ⟨-, hsame⟩ | rfl⟩ := of_stamped hl hf hn
      (run_readText_of_encoded hl hf hn) hother content
    · exact absurd hsame hdiffers
    · rw [hback] at hp
      exact ⟨plan', hp⟩
  cases h with
  | created missing stored => exact hstored rfl
  | unchanged there reads stamped => exact hstored rfl
  | overwritten there reads stamped differs stored => exact hstored rfl
  | conflict there reads foreign hasName stored =>
    obtain ⟨-, hn, bytes, hb, hdec⟩ := run_readText_iff.mp reads
    obtain ⟨here, hl, hfhere⟩ := FileTree.locate_of_readBytes hb
    have hne := ne_beside hl (FileTree.ne_directory hfhere) (FileTree.slot_of_locate hst.leads)
    have hl₁ := FileTree.locate_of_grows hst.grows hl
    rw [← Workspace.locate_put hst.holds other target] at hl₁
    have hfhere' : (w₁.put place other).tree.find? here = some (.file bytes) :=
      ((Workspace.find?_put hst.holds other here).trans (if_neg hne)).trans
        (hst.others here hne _ hfhere)
    have hreads : run (readText target) (w₁.put place other) = (.ok _, w₁.put place other) :=
      run_readText_iff.mpr ⟨rfl, hn, bytes, (FileTree.readBytes_eq_ok_iff hl₁).mpr hfhere', hdec⟩
    have hlb := hst.leads
    rw [← Workspace.locate_put hst.holds other _] at hlb
    have hp := of_foreign hl₁ hreads foreign hasName hlb hf hst.named content
    rw [hback] at hp
    exact ⟨_, hp⟩

/-- **Two writes, twice**: after one safe write and another both can be done
again, and the workspace is left as it was found. -/
theorem pair_again {first second : Path} {text text' : Text} {plan plan' : WritePlan}
    (h : SafelyWritten first text w plan w₁) (h' : SafelyWritten second text' w₁ plan' w₂)
    (hs : Text.contains generatedStamp (Text.unifyNewlines text) = true)
    (hs' : Text.contains generatedStamp (Text.unifyNewlines text') = true)
    (hdiffers : Text.unifyNewlines text ≠ text') :
    ∃ again w₃ again', SafelyWritten first text w₂ again w₃ ∧
      SafelyWritten second text' w₃ again' w₂ := by
  obtain ⟨rests, hrests, -⟩ := h.again hs (rfl : w₁.tree = w₁.tree)
  obtain ⟨rests', hrests', -⟩ := h'.again hs' (rfl : w₂.tree = w₂.tree)
  rcases h'.eq_or_stored with rfl | ⟨place, hst⟩
  · exact ⟨rests, w₂, rests', hrests, hrests'⟩
  · obtain ⟨again, w₃, hagain, rfl | rfl⟩ := hrests.writes_over hst hs'
    · exact ⟨again, w₃, rests', hagain, hrests'⟩
    · obtain ⟨again', hback⟩ := h'.back hst hs hdiffers
      exact ⟨again, _, again', hagain, hback⟩

end SafelyWritten

/-! ### The two texts -/

theorem isPrefix_renderHelper (h : renderHelper c = .ok text) : ("@use \"s" : Text) <+: text := by
  rw [renderHelper] at h
  rcases hc : c.coefficients with _ | ⟨mobile, desktop⟩ <;> rw [hc] at h
  · cases h
  cases h
  refine List.IsPrefix.trans ?_ (List.prefix_append _ _)
  simp only [helperHead, List.cons_append]
  rw [Text.join_cons_cons, List.append_assoc]
  have hfirst : ("@use \"s" : Text) <+: "@use \"sass:map\";" := by decide
  exact hfirst.trans (List.prefix_append _ _)

theorem isPrefix_renderOverrides (m : Marker) (mobileMax : Int) (overrides : List Override) :
    ("@use \"." : Text) <+: renderOverrides m mobileMax overrides := by
  unfold renderOverrides renderRules overridesHeader
  simp only [List.append_assoc]
  have hfirst : ("@use \"." : Text) <+: "@use \"./responsive\" as " := by decide
  exact hfirst.trans (List.prefix_append _ _)

/-- The helper module and an override stylesheet differ in their first lines,
however their newlines are read. -/
theorem renderHelper_ne_renderOverrides (h : renderHelper c = .ok text) (m : Marker)
    (mobileMax : Int) (overrides : List Override) :
    Text.unifyNewlines text ≠ renderOverrides m mobileMax overrides := by
  intro heq
  have hsheet := isPrefix_renderOverrides m mobileMax overrides
  have hhelper := Text.isPrefix_unifyNewlines (by decide) (by decide) (isPrefix_renderHelper h)
  rw [← heq] at hsheet
  have hsame := (List.prefix_of_prefix_length_le hhelper hsheet (by decide)).eq_of_length rfl
  exact absurd hsame (by decide)

/-! ### Initialising -/

/-- What initialising that succeeded did: the directory of the sources was
made, the helper module written, and then the override stylesheet, if the
settings are in order. -/
inductive Initialised (c : Config) (w : Workspace) : InitReport → Workspace → Prop
  | refused {dir : Path} {text : Text} {helper : WritePlan} {fault : Fault} {w' w₁ : Workspace}
      (sources : c.sourceDir = .ok dir) (made : run (makeDirectories dir) w = (.ok (), w'))
      (rendered : renderHelper c = .ok text)
      (written : SafelyWritten (dir.child "_responsive.scss") text w' helper w₁)
      (faulty : c.autofill = .error fault) (told : fault.isKitFault = true) :
      Initialised c w ⟨helper, .error fault⟩ w₁
  | complete {dir : Path} {text : Text} {helper plan : WritePlan} {settings : Autofill}
      {w' w'' w₁ : Workspace}
      (sources : c.sourceDir = .ok dir) (made : run (makeDirectories dir) w = (.ok (), w'))
      (rendered : renderHelper c = .ok text)
      (written : SafelyWritten (dir.child "_responsive.scss") text w' helper w'')
      (valid : c.autofill = .ok settings)
      (placed : SafelyWritten settings.output
        (renderOverrides settings.marker settings.mobileMax []) w'' plan w₁) :
      Initialised c w ⟨helper, .ok plan⟩ w₁

theorem helperPath_eq {dir : Path} (h : c.sourceDir = .ok dir) :
    c.helperPath = .ok (dir.child "_responsive.scss") := by
  rw [Config.helperPath, h]
  rfl

theorem run_writeHelper_iff {dir : Path} (hdir : c.sourceDir = .ok dir) :
    run (writeHelper c) w = (.ok plan, w₁) ↔ ∃ text, renderHelper c = .ok text ∧
      SafelyWritten (dir.child "_responsive.scss") text w plan w₁ := by
  unfold writeHelper
  rw [run_lift_bind (helperPath_eq hdir)]
  constructor
  · intro h
    obtain ⟨text, hr, h⟩ := exists_of_asks_bind (within_lift _) h
    rw [run_lift] at hr
    exact ⟨text, (Prod.mk.inj hr).1, run_writeSafely_iff.mp h⟩
  · rintro ⟨text, hr, h⟩
    rw [run_lift_bind hr]
    exact run_writeSafely_iff.mpr h

/-- Initialising succeeds in the two ways listed, and in no other. -/
theorem run_initProject_iff {report : InitReport} :
    run (initProject c) w = (.ok report, w₁) ↔ Initialised c w report w₁ := by
  unfold initProject
  constructor
  · intro h
    obtain ⟨dir, hdir, h⟩ := exists_of_asks_bind (within_lift _) h
    rw [run_lift] at hdir
    have hsources := (Prod.mk.inj hdir).1
    obtain ⟨⟨⟩, w', hmade, h⟩ := exists_of_run_bind h
    obtain ⟨helper, w'', hhelper, h⟩ := exists_of_run_bind h
    obtain ⟨text, hr, hwritten⟩ := (run_writeHelper_iff hsources).mp hhelper
    rcases hc : c.autofill with fault | settings <;> rw [hc] at h <;> dsimp only at h
    · split at h
      · rename_i htold
        cases h
        exact .refused hsources hmade hr hwritten hc htold
      · cases h
    · obtain ⟨plan, w₃, hplan, h⟩ := exists_of_run_bind h
      cases h
      exact .complete hsources hmade hr hwritten hc (run_writeSafely_iff.mp hplan)
  · intro h
    cases h with
    | refused sources made rendered written faulty told =>
      rw [run_lift_bind sources, run_bind_of_ok made,
        run_bind_of_ok ((run_writeHelper_iff sources).mpr ⟨_, rendered, written⟩), faulty]
      dsimp only
      rw [if_pos told]
      rfl
    | complete sources made rendered written valid placed =>
      rw [run_lift_bind sources, run_bind_of_ok made,
        run_bind_of_ok ((run_writeHelper_iff sources).mpr ⟨_, rendered, written⟩), valid]
      dsimp only
      rw [run_bind_of_ok (run_writeSafely_iff.mpr placed)]
      rfl

/-- A file in a directory tells that the directory is there, so making it does
nothing. -/
theorem run_makeDirectories_around {dir : Path} {name : Text}
    (h : SafelyWritten (dir.child name) content w plan w₁) (hg : w₁.Grows w₂) :
    run (makeDirectories dir) w₂ = (.ok (), w₂) := by
  obtain ⟨hn, place, bytes, hl, hf⟩ := h.leads
  have hdir := FileTree.isDirectory_parent hl (FileTree.ne_directory hf)
  rw [Path.parent_child] at hdir
  obtain ⟨here, hh, hd⟩ := FileTree.isDirectory_iff.mp hdir
  have hnul := Path.hasNul_parent hn
  rw [Path.parent_child] at hnul
  exact run_makeDirectories_of_isDirectory
    (FileTree.isDirectory_iff.mpr ⟨here, FileTree.locate_of_grows hg hh, hg.directory hd⟩) hnul

/-- After a safe write its target is found, and there is nothing to tell of it. -/
theorem looked_of_written (h : SafelyWritten target content w plan w₁) (hg : w₁.Grows w₂) :
    w₂.tree.refuses target = false ∧ c.missing w₂.tree target = [] := by
  obtain ⟨-, place, bytes, hl, -⟩ := h.leads
  have hhas := FileTree.has_iff_locate.mpr ⟨place, FileTree.locate_of_grows hg hl⟩
  refine ⟨?_, if_pos hhas⟩
  rw [FileTree.refuses, hhas, Bool.not_true, Bool.and_false, Bool.false_and]

/-- **Initialising establishes what is checked.**  When a project has been
initialised, whatever its files were, checking it tells nothing if the override
stylesheet was written, and the one reason that was reported if the settings
were refused; and initialising it again succeeds and leaves the workspace as it
is. -/
theorem init_settles (c : Config) (w w₁ : Workspace) (report : InitReport)
    (h : run (initProject c) w = (.ok report, w₁)) :
    (∀ plan, report.overrides = .ok plan → run (doctor c) w₁ = (.ok [], w₁)) ∧
    (∀ fault, report.overrides = .error fault → run (doctor c) w₁ = (.ok [fault.message], w₁)) ∧
    ∃ again, run (initProject c) w₁ = (.ok again, w₁) := by
  cases run_initProject_iff.mp h with
  | @refused dir text helper fault w' _ sources made rendered written faulty told =>
    have hs := Text.contains_unifyNewlines (by decide) (by decide) (stamp_renderHelper rendered)
    refine ⟨nofun, ?_, ?_⟩
    · rintro fault' ⟨⟩
      obtain ⟨asked, hnone⟩ := looked_of_written (c := c) written (refl w₁)
      have hchecked := Config.Checked.refused (helperPath_eq sources) asked faulty told
      rw [hnone, List.nil_append] at hchecked
      exact run_doctor_iff.mpr ⟨rfl, hchecked⟩
    · obtain ⟨again, hagain, -⟩ := written.again hs (rfl : w₁.tree = w₁.tree)
      exact ⟨_, run_initProject_iff.mpr (.refused sources
        (run_makeDirectories_around written (refl w₁)) rendered hagain faulty told)⟩
  | @complete dir text helper plan settings w' w'' _ sources made rendered written valid placed =>
    have hs := Text.contains_unifyNewlines (by decide) (by decide) (stamp_renderHelper rendered)
    have hs' := Text.contains_unifyNewlines (by decide) (by decide)
      (stamp_renderOverrides settings.marker settings.mobileMax [])
    refine ⟨fun _ _ => ?_, nofun, ?_⟩
    · obtain ⟨asked, hnone⟩ := looked_of_written (c := c) written placed.grows
      obtain ⟨looked, hnone'⟩ := looked_of_written (c := c) placed (refl w₁)
      have hchecked := Config.Checked.complete (helperPath_eq sources) asked valid looked
      rw [hnone, hnone'] at hchecked
      exact run_doctor_iff.mpr ⟨rfl, hchecked⟩
    · obtain ⟨again, w₃, again', hhelper, hsheet⟩ := written.pair_again placed hs hs'
        (renderHelper_ne_renderOverrides rendered _ _ _)
      exact ⟨_, run_initProject_iff.mpr (.complete sources
        (run_makeDirectories_around written placed.grows) rendered hhelper valid hsheet)⟩

/-- A configuration that names the helper module's place for the overrides. -/
def sharedConfig : Config :=
  ⟨watchedRoot, [("coefficients", .obj [("mobile", .obj []), ("desktop", .obj [])]),
    ("autofill", .obj [("output", .str "src/styles/_responsive.scss")])]⟩

/-- The directory of its sources. -/
def sharedSources : Path := ⟨.single, ["watched", "src", "styles"]⟩

/-- The place that it names twice. -/
def sharedPath : Path := sharedSources.child "_responsive.scss"

/-- A project with no files in it. -/
def emptyProject : Workspace where
  tree := ⟨[(["watched"], .directory), (["watched", "src"], .directory),
    (["watched", "src", "styles"], .directory)]⟩
  log := []

/-- Where the override stylesheet takes the helper module's place, nothing is
left to do either. -/
theorem init_settles_shared :
    ∃ report plan w₁, run (initProject sharedConfig) emptyProject = (.ok report, w₁) ∧
      report.overrides = .ok plan ∧ run (doctor sharedConfig) w₁ = (.ok [], w₁) ∧
      ∃ again, run (initProject sharedConfig) w₁ = (.ok again, w₁) := by
  obtain ⟨helper, hhelper⟩ : ∃ text, renderHelper sharedConfig = .ok text := ⟨_, rfl⟩
  obtain ⟨settings, hsettings, hout⟩ : ∃ settings, sharedConfig.autofill = .ok settings ∧
      settings.output = sharedPath := ⟨_, rfl, rfl⟩
  have hsources : sharedConfig.sourceDir = .ok sharedSources := rfl
  have hmade : run (makeDirectories sharedSources) emptyProject = (.ok (), emptyProject) := rfl
  -- the helper module is created, and the overrides are written in its place
  have hstored : run (store sharedPath helper) emptyProject = (.ok (), _) :=
    run_store_iff.mpr ⟨emptyProject, sharedPath.parts, ⟨rfl, rfl, rfl, nofun⟩, rfl⟩
  have hcreated : SafelyWritten sharedPath helper emptyProject _ _ := .created rfl hstored
  obtain ⟨place, hst⟩ := stored_of_run_store hstored
  obtain ⟨plan, w₁, hplaced⟩ : ∃ plan w₁, SafelyWritten settings.output
      (renderOverrides settings.marker settings.mobileMax []) _ plan w₁ := by
    rw [hout]
    exact ⟨_, _, .overwritten (FileTree.has_iff_locate.mpr ⟨place, hst.leads⟩)
      (run_readText_of_encoded hst.leads hst.holds hst.named)
      (Text.contains_unifyNewlines (by decide) (by decide) (stamp_renderHelper hhelper))
      (renderHelper_ne_renderOverrides hhelper _ _ _)
      (run_store_of_leads hst.leads hst.holds hst.named _)⟩
  have hrun := run_initProject_iff.mpr (.complete hsources hmade hhelper hcreated hsettings hplaced)
  obtain ⟨hdone, -, hagain⟩ := init_settles _ _ _ _ hrun
  exact ⟨_, _, _, hrun, rfl, hdone _ rfl, hagain⟩

end FluidScss
