/-
FluidScss/Proofs/WatchFilter.lean

What a handler hears of.  A filter admits a path that matches one of its
patterns and none to ignore (`ChangeFilter.Admits`), and an event passes if
one of its two paths is admitted.  It is reported by one of them, so a report
may be of the other path: the event then *strays* (`ChangeFilter.Strays`), as a
file does that is moved to a name the handler does not watch.  All other
reports are of admitted paths (`reported_admitted_iff`).

A glob that is a text around one star spells the texts that begin and end with
its parts, which gives the filters in use their meaning: compiled stylesheets
end with `.css`, and a source that is watched is no override stylesheet.
-/
import FluidScss.Proofs.Action
import FluidScss.Proofs.Text
import FluidScss.Watch.Event
import Mathlib

namespace FluidScss

/-! ### Globs -/

namespace Glob

variable {parts : List Glob} {front back text rest : Text} {c : Char}

/-- A character that stands for itself in a glob. -/
def Plain (c : Char) : Prop := c ≠ '*' ∧ c ≠ '?' ∧ c ≠ '['

instance : DecidablePred Plain := fun c => inferInstanceAs (Decidable (c ≠ '*' ∧ c ≠ '?' ∧ c ≠ '['))

theorem parse_cons_of_plain (hc : Plain c) : parse (c :: rest) = .literal c :: parse rest := by
  obtain ⟨hstar, hquestion, hbracket⟩ := hc
  rw [parse] <;> simp_all

theorem parse_append_of_plain (h : ∀ c ∈ front, Plain c) :
    parse (front ++ rest) = front.map .literal ++ parse rest := by
  induction front with
  | nil => rfl
  | cons c front ih =>
    obtain ⟨hc, hfront⟩ := List.forall_mem_cons.mp h
    rw [List.cons_append, parse_cons_of_plain hc, ih hfront]
    rfl

theorem parse_star (rest : Text) : parse ('*' :: rest) = .many :: parse rest := by rw [parse]

/-- Characters that stand for themselves spell themselves. -/
theorem spells_literals_append :
    Spells (front.map .literal ++ parts) text ↔
      ∃ rest, text = front ++ rest ∧ Spells parts rest := by
  induction front generalizing text with
  | nil => simp
  | cons c front ih =>
    constructor
    · intro h
      cases h with
      | one hc hrest =>
        obtain ⟨rest, rfl, hspells⟩ := ih.mp hrest
        obtain rfl := of_decide_eq_true hc
        exact ⟨rest, rfl, hspells⟩
    · rintro ⟨rest, rfl, hspells⟩
      exact .one (decide_eq_true rfl) (ih.mpr ⟨rest, rfl, hspells⟩)

/-- A star spells any text. -/
theorem spells_many_cons_iff :
    Spells (.many :: parts) text ↔ ∃ front rest, text = front ++ rest ∧ Spells parts rest := by
  constructor
  · intro h
    induction text with
    | nil =>
      cases h with
      | skip h => exact ⟨[], [], rfl, h⟩
    | cons c text ih =>
      cases h with
      | skip h => exact ⟨[], c :: text, rfl, h⟩
      | more h =>
        obtain ⟨front, rest, rfl, hrest⟩ := ih h
        exact ⟨c :: front, rest, rfl, hrest⟩
      | one hc _ => cases hc
  · rintro ⟨front, rest, rfl, hrest⟩
    induction front with
    | nil => exact .skip hrest
    | cons c front ih => exact .more ih

theorem spells_nil_iff : Spells [] text ↔ text = [] := by
  constructor
  · intro h
    cases h
    rfl
  · rintro rfl
    exact .nil

/-- **A glob with one star** matches the texts that begin and end as it does. -/
theorem covers_star_iff (hfront : ∀ c ∈ front, Plain c) (hback : ∀ c ∈ back, Plain c) :
    covers (front ++ '*' :: back) text = true ↔ ∃ middle, text = front ++ middle ++ back := by
  have hliterals : parse back = back.map .literal ++ [] := by
    conv_lhs => rw [← List.append_nil back]
    rw [parse_append_of_plain hback, parse]
  rw [covers, spells_iff, parse_append_of_plain hfront, parse_star, hliterals,
    spells_literals_append]
  simp only [spells_many_cons_iff, spells_literals_append, spells_nil_iff]
  constructor
  · rintro ⟨_, rfl, middle, _, rfl, _, rfl, rfl⟩
    exact ⟨middle, by simp⟩
  · rintro ⟨middle, rfl⟩
    exact ⟨middle ++ back, by simp, middle, back, rfl, [], by simp, rfl⟩

end Glob

/-! ### Lower case -/

namespace Text

variable {front back text rest : Text}

/-- A text that is its own lower case, wherever it stands. -/
def IsLower (text : Text) : Prop := ∀ c ∈ text, c ≠ 'Σ' ∧ lowerChar c = [c]

instance (text : Text) : Decidable text.IsLower :=
  inferInstanceAs (Decidable (∀ c ∈ text, c ≠ 'Σ' ∧ lowerChar c = [c]))

theorem lowerFrom_append_of_isLower (h : front.IsLower) (before rest : Text) :
    lowerFrom before (front ++ rest) = front ++ lowerFrom (front.reverse ++ before) rest := by
  induction front generalizing before with
  | nil => rfl
  | cons c front ih =>
    obtain ⟨⟨hc, hlower⟩, hfront⟩ := List.forall_mem_cons.mp h
    rw [List.cons_append, lowerFrom, if_neg hc, hlower, ih hfront, List.reverse_cons,
      List.append_assoc]
    rfl

theorem lowerFrom_of_isLower (h : text.IsLower) (before : Text) : lowerFrom before text = text := by
  have happend := lowerFrom_append_of_isLower h before []
  rwa [List.append_nil, lowerFrom, List.append_nil] at happend

theorem exists_lowerFrom_append (before text rest : Text) :
    ∃ lowered before', lowerFrom before (text ++ rest) = lowered ++ lowerFrom before' rest := by
  induction text generalizing before with
  | nil => exact ⟨[], before, rfl⟩
  | cons c text ih =>
    obtain ⟨lowered, before', hlowered⟩ := ih (c :: before)
    rw [List.cons_append, lowerFrom, hlowered, ← List.append_assoc]
    exact ⟨_, before', rfl⟩

/-- What a text begins and ends with stays if it is in lower case. -/
theorem exists_lower_append (hfront : front.IsLower) (hback : back.IsLower) (middle : Text) :
    ∃ middle', lower (front ++ middle ++ back) = front ++ middle' ++ back := by
  obtain ⟨middle', before', hmiddle⟩ := exists_lowerFrom_append (front.reverse ++ []) middle back
  refine ⟨middle', ?_⟩
  rw [lower, List.append_assoc, lowerFrom_append_of_isLower hfront, hmiddle,
    lowerFrom_of_isLower hback, List.append_assoc]

end Text

/-! ### Patterns -/

/-- The last component of a path, as patterns see it. -/
def lastComponent? (path : Text) : Option Text := (AnchoredPath.ofText path).parts.getLast?

/-- A pattern matches a path, case aside. -/
def Matches (pattern path : Text) : Prop := matchesPattern? (Text.lower pattern) path = some true

variable {pattern path glob : Text}

/-- A pattern of one component is compared with the last one. -/
theorem matches_iff_lastComponent
    (hp : AnchoredPath.ofText (Text.lower pattern) = ⟨[], [], [glob]⟩) :
    Matches pattern path ↔
      ∃ name, lastComponent? path = some name ∧ Glob.covers glob (Text.lower name) = true := by
  rw [Matches, matchesPattern?, hp, lastComponent?]
  rcases List.eq_nil_or_concat (AnchoredPath.ofText path).parts with hparts | ⟨dirs, name, hparts⟩
  · simp [hparts]
  · simp [hparts, endsMatch]

/-- A pattern of one component with one star, which is in lower case, matches
the paths whose last component begins and ends as it does. -/
theorem matches_star_iff {front back : Text} (hfront : ∀ c ∈ front, Glob.Plain c)
    (hback : ∀ c ∈ back, Glob.Plain c)
    (hp : AnchoredPath.ofText (Text.lower pattern) = ⟨[], [], [front ++ '*' :: back]⟩) :
    Matches pattern path ↔
      ∃ name middle, lastComponent? path = some name ∧
        Text.lower name = front ++ middle ++ back := by
  rw [matches_iff_lastComponent hp]
  simp only [Glob.covers_star_iff hfront hback, exists_and_left]

/-- No pattern matches the empty path. -/
theorem not_matches_nil (pattern : Text) : ¬ Matches pattern [] := by
  have hnil : AnchoredPath.ofText [] = ⟨[], [], []⟩ := rfl
  rw [Matches, matchesPattern?, hnil]
  dsimp only
  rcases (AnchoredPath.ofText (Text.lower pattern)).parts with - | ⟨first, rest⟩
  · simp
  · split_ifs <;> simp

/-! ### Absolute paths -/

/-- An absolute path, with one slash in front and no backslash. -/
def Rooted (path : Text) : Prop :=
  ∃ rest, path = '/' :: rest ∧ rest.head? ≠ some '/' ∧ '\\' ∉ rest

theorem splitOn_slashes {text : Text} (h : '\\' ∉ text) :
    Text.splitOn '\\' (text.map fun c => if c = '/' then '\\' else c) = Text.splitOn '/' text := by
  induction text with
  | nil => rfl
  | cons c text ih =>
    rw [List.mem_cons, not_or] at h
    rw [List.map_cons, Text.splitOn, Text.splitOn, ih h.2]
    by_cases hc : c = '/'
    · rw [if_pos hc, if_pos hc, if_pos rfl]
    · rw [if_neg hc, if_neg hc, if_neg (Ne.symm h.1)]

/-- One separator in front is the root, and there is no drive or share. -/
theorem splitAnchor_of_single {text : Text} (h : text.head? ≠ some '\\') :
    AnchoredPath.splitAnchor ('\\' :: text) = ([], ['\\'], text) := by
  rcases text with - | ⟨c, text⟩
  · rfl
  have hc : c ≠ '\\' := fun hc => h (congrArg some hc)
  have hlong : AnchoredPath.splitLong ('\\' :: c :: text) = ([], '\\' :: c :: text) := by
    rw [AnchoredPath.splitLong, if_neg]
    simp [List.isPrefixOf, Ne.symm hc]
  have hshare : AnchoredPath.splitShare? ('\\' :: c :: text) = none := by
    rw [AnchoredPath.splitShare?]
    simp_all
  have hdrive : AnchoredPath.splitDrive ('\\' :: c :: text) = ([], '\\' :: c :: text) := by
    unfold AnchoredPath.splitDrive
    split
    · rename_i heq
      cases heq
      rfl
    · rfl
  rw [AnchoredPath.splitAnchor, hlong]
  dsimp only
  rw [hshare]
  dsimp only
  rw [hdrive]
  simp [hc]

/-- Such a path has the components that it has for the file system, behind an
anchor. -/
theorem anchoredPath_of_rooted (h : Rooted path) :
    AnchoredPath.ofText path = ⟨[], ['\\'], ['\\'] :: (Path.ofText path).parts⟩ := by
  obtain ⟨rest, rfl, hhead, hback⟩ := h
  have hroot : Path.rootOf ('/' :: rest) = (.single, rest) := by
    unfold Path.rootOf
    split <;> simp_all
  have hfirst : (rest.map fun c => if c = '/' then '\\' else c).head? ≠ some '\\' := by
    rcases rest with - | ⟨c, rest⟩
    · exact nofun
    · have hslash : c ≠ '/' := fun hc => hhead (congrArg some hc)
      have hbackslash : c ≠ '\\' := fun hc => hback (hc ▸ List.mem_cons_self ..)
      simp [hslash, hbackslash]
  rw [AnchoredPath.ofText, List.map_cons, if_pos rfl, splitAnchor_of_single hfirst]
  dsimp only
  rw [splitOn_slashes hback, Path.ofText, hroot, if_neg (by simp)]
  rfl

theorem lastComponent?_of_rooted (h : Rooted path) {name : Text}
    (hname : lastComponent? path = some name) (hne : name ≠ ['\\']) :
    (Path.ofText path).name = name := by
  rw [lastComponent?, anchoredPath_of_rooted h] at hname
  dsimp only at hname
  rcases hparts : (Path.ofText path).parts with - | ⟨first, rest⟩ <;> rw [hparts] at hname
  · cases hname
    exact absurd rfl hne
  · rw [List.getLast?_cons_cons] at hname
    rw [Path.name, hparts, hname]
    rfl

/-! ### What is admitted -/

namespace ChangeFilter

variable {f : ChangeFilter} {e : FileEvent} {patterns : List Text} {paths : List Path} {b : Bool}

/-- The filter hears of a path: one of its patterns matches it, and none to
ignore. -/
def Admits (f : ChangeFilter) (path : Text) : Prop :=
  (∃ pattern ∈ f.patterns, Matches pattern path) ∧ ∀ pattern ∈ f.ignored, ¬ Matches pattern path

theorem anyMatches_iff (h : anyMatches path patterns = .ok b) :
    b = true ↔ ∃ pattern ∈ patterns, Matches pattern path := by
  induction patterns with
  | nil =>
    cases h
    simp
  | cons pattern patterns ih =>
    rw [anyMatches] at h
    rw [List.exists_mem_cons_iff]
    split at h
    · cases h
    · rename_i hm
      cases h
      simp [Matches, hm]
    · rename_i hm
      rw [ih h]
      simp [Matches, hm]

theorem admits_iff (h : f.admits path = .ok b) : b = true ↔ f.Admits path := by
  unfold admits at h
  split at h
  · cases h
  obtain ⟨found, hfound, h⟩ := exists_of_except_bind h
  have hincluded := anyMatches_iff hfound
  cases found with
  | false =>
    cases h
    simp only [Bool.false_eq_true, false_iff] at hincluded ⊢
    exact fun hadmits => hincluded hadmits.1
  | true =>
    obtain ⟨ignored, hignored, h⟩ := exists_of_except_bind h
    have hexcluded := anyMatches_iff hignored
    cases h
    rw [Admits, ← hincluded, Bool.not_eq_true', ← Bool.not_eq_true, hexcluded]
    simp

theorem not_admits_nil (f : ChangeFilter) : ¬ f.Admits [] := by
  rintro ⟨⟨pattern, -, hm⟩, -⟩
  exact not_matches_nil pattern hm

theorem passes_iff (h : f.passes e = .ok b) :
    b = true ↔ e.isDirectory = false ∧ (f.Admits e.destination ∨ f.Admits e.source) := by
  unfold passes at h
  split at h
  · rename_i hdir
    cases h
    simp [hdir]
  rename_i hdir
  obtain ⟨there, hthere, h⟩ := exists_of_except_bind h
  rw [← admits_iff hthere]
  split at h
  · rename_i hyes
    cases h
    simp [hdir, hyes]
  · rename_i hno
    split at h
    · -- without a source the event has one path only
      rename_i hempty
      cases h
      simp [hno, hempty, not_admits_nil]
    · rw [← admits_iff h]
      simp [hdir, hno]

/-! ### What is reported -/

/-- An event that passes by one of its paths and is reported by the other. -/
def Strays (f : ChangeFilter) (e : FileEvent) : Prop :=
  e.isDirectory = false ∧ match e.kind with
    | .created => f.Admits e.destination ∧ ¬ f.Admits e.source
    | .modified => f.Admits e.destination ∧ ¬ f.Admits e.source
    | .moved => f.Admits e.source ∧ ¬ f.Admits e.destination
    | _ => False

theorem strays_iff_reported : f.Strays e ↔ e.isDirectory = false ∧
    (f.Admits e.destination ∨ f.Admits e.source) ∧
      ∃ text, reportedPath? e = some text ∧ ¬ f.Admits text := by
  obtain ⟨kind, source, destination, isDirectory⟩ := e
  cases kind <;> simp only [Strays, reportedPath?] <;> grind

/-- Where only moves have a destination, the events that stray are the moves out
of what is watched. -/
theorem strays_iff_moved (hd : e.kind ≠ .moved → e.destination = []) :
    f.Strays e ↔ e.isDirectory = false ∧ e.kind = .moved ∧
      f.Admits e.source ∧ ¬ f.Admits e.destination := by
  obtain ⟨kind, source, destination, isDirectory⟩ := e
  cases kind <;> simp_all [Strays, not_admits_nil]

theorem dispatch_eq (h : f.dispatch e = .ok paths) :
    ∃ b, f.passes e = .ok b ∧
      paths = if b then ((reportedPath? e).map Path.ofText).toList else [] := by
  unfold dispatch at h
  obtain ⟨b, hb, h⟩ := exists_of_except_bind h
  refine ⟨b, hb, ?_⟩
  cases b <;> cases h <;> rfl

/-- A path is reported under this text, which the filter admits. -/
def Reports (f : ChangeFilter) (e : FileEvent) (path : Path) : Prop :=
  ∃ text, reportedPath? e = some text ∧ path = Path.ofText text ∧ f.Admits text

theorem reports_iff_not_strays (h : f.dispatch e = .ok paths) :
    (∀ path ∈ paths, f.Reports e path) ↔ ¬ f.Strays e := by
  obtain ⟨b, hb, rfl⟩ := dispatch_eq h
  rw [strays_iff_reported, ← and_assoc, ← passes_iff hb]
  cases b with
  | false => simp
  | true =>
    rcases hr : reportedPath? e with - | text
    · simp
    · simp [Reports, hr]

/-! ### The filters in use -/

/-- What begins with the stem of override stylesheets and ends with their ending
has a middle: the two do not overlap. -/
theorem exists_middle {name : Text} (hbegins : overridesStem.isPrefixOf name = true)
    (hends : overridesEnding.isSuffixOf name = true) :
    ∃ middle, name = overridesStem ++ middle ++ overridesEnding := by
  obtain ⟨rest, hrest⟩ := List.isPrefixOf_iff_prefix.mp hbegins
  obtain ⟨front, hfront⟩ := List.isSuffixOf_iff_suffix.mp hends
  rcases List.append_eq_append_iff.mp (hrest.trans hfront.symm) with
    ⟨middle, rfl, -⟩ | ⟨shared, hstem, hending⟩
  · exact ⟨middle, hfront.symm⟩
  · rcases shared with - | ⟨c, shared⟩
    · rw [List.append_nil] at hstem
      exact ⟨[], by rw [← hfront, hstem, List.append_nil]⟩
    · -- the ending begins with a dot, and the stem has none
      have hdot : '.' = c := (List.cons.inj hending).1
      have hmem : '.' ∈ overridesStem := by
        rw [hstem, hdot]
        exact List.mem_append_right _ (List.mem_cons_self ..)
      exact absurd hmem (by decide)

theorem admits_singleton : (⟨[pattern], []⟩ : ChangeFilter).Admits path ↔ Matches pattern path := by
  simp [Admits]

theorem admits_but_one {other : Text} :
    (⟨[pattern], [other]⟩ : ChangeFilter).Admits path ↔
      Matches pattern path ∧ ¬ Matches other path := by
  simp [Admits]

/-- A pattern that is a star and an ending, in lower case. -/
theorem matches_ending_iff {ending : Text} (hending : ∀ c ∈ ending, Glob.Plain c)
    (hp : AnchoredPath.ofText (Text.lower pattern) = ⟨[], [], ['*' :: ending]⟩) :
    Matches pattern path ↔
      ∃ name, lastComponent? path = some name ∧ ending <:+ Text.lower name := by
  have hfront : ∀ c ∈ ([] : Text), Glob.Plain c := by simp
  rw [matches_star_iff hfront hending hp]
  simp only [List.nil_append, List.IsSuffix, exists_and_left, eq_comm]

/-- Compiled stylesheets, case aside. -/
theorem css_admits_iff : css.Admits path ↔
    ∃ name, lastComponent? path = some name ∧ (".css" : Text) <:+ Text.lower name := by
  rw [css, admits_singleton]
  exact matches_ending_iff (by decide) (by decide)

/-- Sources that are no override stylesheets, case aside. -/
theorem responsive_admits_iff : responsive.Admits path ↔
    ∃ name, lastComponent? path = some name ∧ sheetEnding <:+ Text.lower name ∧
      ∀ middle, Text.lower name ≠ overridesStem ++ middle ++ overridesEnding := by
  have hsheet : Matches "*.scss" path ↔
      ∃ name, lastComponent? path = some name ∧ sheetEnding <:+ Text.lower name :=
    matches_ending_iff (by decide) (by decide)
  have hoverrides : Matches (overridesStem ++ "*" ++ overridesEnding) path ↔
      ∃ name middle, lastComponent? path = some name ∧
        Text.lower name = overridesStem ++ middle ++ overridesEnding :=
    matches_star_iff (by decide) (by decide) (by decide)
  rw [responsive, admits_but_one, hsheet, hoverrides]
  constructor
  · rintro ⟨⟨name, hname, hends⟩, hno⟩
    exact ⟨name, hname, hends, fun middle hm => hno ⟨name, middle, hname, hm⟩⟩
  · rintro ⟨name, hname, hends, hno⟩
    refine ⟨⟨name, hname, hends⟩, ?_⟩
    rintro ⟨name', middle, hname', hm⟩
    cases hname.symm.trans hname'
    exact hno middle hm

theorem css_of_admits (hrooted : Rooted path) (h : css.Admits path) :
    (".css" : Text) <:+ Text.lower (Path.ofText path).name := by
  obtain ⟨name, hname, hends⟩ := css_admits_iff.mp h
  have hne : name ≠ ['\\'] := by
    rintro rfl
    revert hends
    decide
  rwa [lastComponent?_of_rooted hrooted hname hne]

theorem not_isGenerated_of_admits (hrooted : Rooted path) (h : responsive.Admits path) :
    isGeneratedPath (Path.ofText path) = false := by
  obtain ⟨name, hname, hends, hno⟩ := responsive_admits_iff.mp h
  have hne : name ≠ ['\\'] := by
    rintro rfl
    revert hends
    decide
  rw [← Bool.not_eq_true, isGeneratedPath, Bool.and_eq_true,
    lastComponent?_of_rooted hrooted hname hne]
  rintro ⟨hbegins, hends'⟩
  obtain ⟨middle, hmiddle⟩ := exists_middle hbegins hends'
  obtain ⟨middle', hlower⟩ := Text.exists_lower_append (by decide : overridesStem.IsLower)
    (by decide : overridesEnding.IsLower) middle
  exact hno middle' (by rw [hmiddle, hlower])

/-- **Reports are of admitted paths** unless the event strays, and a file that is
moved out of what is watched is all that strays.  So what is synced is a
compiled stylesheet, and no source that is followed is an override stylesheet,
but for such moves. -/
theorem reported_admitted_iff (h : f.dispatch e = .ok paths) :
    ((∀ path ∈ paths, f.Reports e path) ↔ ¬ f.Strays e) ∧
    ((e.kind ≠ .moved → e.destination = []) →
      (f.Strays e ↔ e.isDirectory = false ∧ e.kind = .moved ∧
        f.Admits e.source ∧ ¬ f.Admits e.destination)) ∧
    ∀ text, reportedPath? e = some text → Rooted text → ¬ f.Strays e →
      (f = css → ∀ path ∈ paths, (".css" : Text) <:+ Text.lower path.name) ∧
      (f = responsive → ∀ path ∈ paths, isGeneratedPath path = false) := by
  have hreports := reports_iff_not_strays h
  refine ⟨hreports, strays_iff_moved, fun text htext hrooted hstays => ⟨?_, ?_⟩⟩
  · rintro rfl path hpath
    obtain ⟨text', htext', rfl, hadmits⟩ := hreports.mpr hstays path hpath
    cases htext.symm.trans htext'
    exact css_of_admits hrooted hadmits
  · rintro rfl path hpath
    obtain ⟨text', htext', rfl, hadmits⟩ := hreports.mpr hstays path hpath
    cases htext.symm.trans htext'
    exact not_isGenerated_of_admits hrooted hadmits

/-- A stylesheet that is given its name by a move is reported, and admitted. -/
theorem reported_admitted_of_moved_in :
    css.dispatch ⟨.moved, "/a.css.tmp", "/a.css", false⟩ = .ok [Path.ofText "/a.css"] ∧
      ¬ css.Strays ⟨.moved, "/a.css.tmp", "/a.css", false⟩ ∧
      css.Reports ⟨.moved, "/a.css.tmp", "/a.css", false⟩ (Path.ofText "/a.css") := by
  have h : css.dispatch ⟨.moved, "/a.css.tmp", "/a.css", false⟩ = .ok [Path.ofText "/a.css"] := by
    cbv
  have hadmits : css.Admits "/a.css" := css_admits_iff.mpr ⟨"a.css", by decide, by decide⟩
  have hstays : ¬ css.Strays ⟨.moved, "/a.css.tmp", "/a.css", false⟩ :=
    fun hstrays => hstrays.2.2 hadmits
  exact ⟨h, hstays, (reported_admitted_iff h).1.mpr hstays _ (List.mem_singleton_self _)⟩

/-- A compiled stylesheet that is moved to another kind of name is reported by
that name, and a source that becomes an override stylesheet by its new one. -/
theorem moves_out_are_reported :
    css.dispatch ⟨.moved, "/a.css", "/b.txt", false⟩ = .ok [Path.ofText "/b.txt"] ∧
      ¬ css.Admits "/b.txt" ∧
      responsive.dispatch ⟨.moved, "/a.scss", "/_responsive-autofill.a.generated.scss", false⟩
        = .ok [Path.ofText "/_responsive-autofill.a.generated.scss"] ∧
      isGeneratedPath (Path.ofText "/_responsive-autofill.a.generated.scss") = true := by
  refine ⟨by cbv, fun hadmits => ?_, by cbv, rfl⟩
  obtain ⟨name, hname, hends⟩ := css_admits_iff.mp hadmits
  have hb : lastComponent? "/b.txt" = some "b.txt" := by decide
  cases hb.symm.trans hname
  exact absurd hends (by decide)

end ChangeFilter

end FluidScss
