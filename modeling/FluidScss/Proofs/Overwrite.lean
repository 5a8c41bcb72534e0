/-
FluidScss/Proofs/Overwrite.lean

Trees with one file set, and what is found in them.  A file may be set where
no directory stands.  The directories are then the same, so a path leads to a
directory exactly where it led to one (`isDirectory_set_file`), and all other
files read as they did (`readBytes_of_grows`).  The sources found below a
directory are the same too, if the file was there before or its name is not
that of a source (`sourcesBelow_set_file`).

Normal forms decide what is passed over in a search.  A path that leads to a
place spells it once its double dots are taken back (`normalParts_of_locate`),
so two paths with different normal forms never lead to the same place.
-/
import FluidScss.Discover
import FluidScss.Proofs.FileTree

namespace FluidScss

namespace FileTree

variable {t t' : FileTree} {here place file : Place} {p dir : Path} {ps : List Text}
variable {bytes : ByteArray}

/-! ### Questions about paths -/

theorem isDirectory_iff : t.isDirectory p = true ↔
    ∃ place, t.locate p = .ok place ∧ t.find? place = some .directory := by
  constructor
  · intro h
    rw [isDirectory] at h
    split at h
    · rename_i he
      exact locate_of_entryAt he
    · cases h
  · rintro ⟨place, hl, hf⟩
    rw [isDirectory, entryAt_of_locate hl hf]

theorem isFile_iff : t.isFile p = true ↔
    ∃ place bytes, t.locate p = .ok place ∧ t.find? place = some (.file bytes) := by
  constructor
  · intro h
    rw [isFile] at h
    split at h
    · rename_i bytes he
      obtain ⟨place, hl, hf⟩ := locate_of_entryAt he
      exact ⟨place, bytes, hl, hf⟩
    · cases h
  · rintro ⟨place, bytes, hl, hf⟩
    rw [isFile, entryAt_of_locate hl hf]

theorem isFile_of_locate (hl : t.locate p = .ok place) (hf : t.find? place = some (.file bytes)) :
    t.isFile p = true :=
  isFile_iff.mpr ⟨place, bytes, hl, hf⟩

/-- What is a file is no directory. -/
theorem isDirectory_of_isFile (h : t.isFile p = true) : t.isDirectory p = false := by
  obtain ⟨place, bytes, hl, hf⟩ := isFile_iff.mp h
  rw [isDirectory, entryAt_of_locate hl hf]

theorem isFile_of_isDirectory (h : t.isDirectory p = true) : t.isFile p = false := by
  obtain ⟨place, hl, hd⟩ := isDirectory_iff.mp h
  rw [isFile, entryAt_of_locate hl hd]

/-- A file that still stands where it stood reads as it did, however the tree
has grown. -/
theorem readBytes_of_grows (hg : t.Grows t') (hl : t.locate p = .ok place)
    (he : t'.find? place = t.find? place) : t'.readBytes p = t.readBytes p := by
  obtain ⟨e, hf⟩ := Option.isSome_iff_exists.mp (isSome_of_locate hl)
  rw [readBytes, readBytes, entryAt_of_locate hl hf,
    entryAt_of_locate (locate_of_grows hg hl) (he.trans hf)]

/-! ### The same directories -/

/-- All places on a walk to a directory are directories. -/
theorem directory_of_walk (h : t.walk here ps = .ok place)
    (hd : t.find? place = some .directory) : t.find? here = some .directory := by
  cases ps with
  | nil =>
    cases h
    exact hd
  | cons part ps => exact (walk_cons h).1

/-- A walk to a directory leads there in every tree that has its directories. -/
theorem walk_to_directory
    (hsame : ∀ place, t.find? place = some .directory → t'.find? place = some .directory)
    (h : t.walk here ps = .ok place) (hd : t.find? place = some .directory) :
    t'.walk here ps = .ok place := by
  induction ps generalizing here with
  | nil => exact h
  | cons part ps ih =>
    obtain ⟨hh, next, hn, -, hw⟩ := walk_cons h
    have hnext : t'.find? next = some .directory := hsame next (directory_of_walk hw hd)
    rw [walk_cons_of (hsame here hh) hn (by rw [hnext]; rfl)]
    exact ih hw

theorem isDirectory_of_same
    (hsame : ∀ place, t.find? place = some .directory → t'.find? place = some .directory)
    (h : t.isDirectory p = true) : t'.isDirectory p = true := by
  obtain ⟨place, hl, hd⟩ := isDirectory_iff.mp h
  exact isDirectory_iff.mpr ⟨place, walk_to_directory hsame hl hd, hsame place hd⟩

/-- The place above one that a path leads to is a directory. -/
theorem directory_dropLast_of_locate (h : t.locate p = .ok place) :
    t.find? place.dropLast = some .directory := by
  rcases List.eq_nil_or_concat' place with rfl | ⟨init, last, rfl⟩
  · rfl
  · have hr := reachable_of_locate h
    have hu : upwards ∉ init := fun hm => hr.names (List.mem_append_left _ hm)
    obtain ⟨mid, h1, h2⟩ := exists_walk_append hr.walk
    have hmid : mid = init := (walk_names hu h1).trans (List.nil_append _)
    rw [List.dropLast_concat, ← hmid]
    exact (walk_cons h2).1

/-! ### One file set -/

/-- Setting a file leaves the directories as they are. -/
theorem find?_set_directory (hd : t.find? file ≠ some .directory) (bytes : ByteArray)
    (place : Place) :
    (t.set file (.file bytes)).find? place = some .directory ↔
      t.find? place = some .directory := by
  rw [find?_set t (ne_nil_of_find? hd)]
  by_cases h : place = file
  · rw [if_pos h, h]
    constructor
    · intro hf
      cases hf
    · intro hf
      exact absurd hf hd
  · rw [if_neg h]

theorem isDirectory_set_file (hd : t.find? file ≠ some .directory) (bytes : ByteArray)
    (p : Path) : (t.set file (.file bytes)).isDirectory p = t.isDirectory p := by
  rw [Bool.eq_iff_iff]
  constructor
  · exact isDirectory_of_same fun place h => (find?_set_directory hd bytes place).mp h
  · exact isDirectory_of_same fun place h => (find?_set_directory hd bytes place).mpr h

/-- What is written over with the same bytes is the same tree. -/
theorem set_eq_self (h : t.find? file = some (.file bytes)) : t.set file (.file bytes) = t := by
  have hne : file ≠ [] := ne_nil_of_find? (ne_directory h)
  rw [find?, if_neg hne] at h
  have hset : ∀ entries : List (Place × Entry), entries.lookup file = some (.file bytes) →
      setEntry entries file (.file bytes) = entries := by
    intro entries hl
    induction entries with
    | nil => cases hl
    | cons entry rest ih =>
      obtain ⟨q, e⟩ := entry
      rw [setEntry]
      by_cases hq : q = file
      · subst hq
        rw [List.lookup_cons_self] at hl
        cases hl
        rw [if_pos rfl]
      · have hb : (file == q) = false := by simpa using Ne.symm hq
        rw [List.lookup_cons, hb] at hl
        rw [if_neg hq, ih hl]
  rw [set, hset t.entries h]

/-- Of two entries set in one place the second stays. -/
theorem set_set (t : FileTree) (place : Place) (d e : Entry) :
    (t.set place d).set place e = t.set place e := by
  suffices h : ∀ entries, setEntry (setEntry entries place d) place e = setEntry entries place e by
    rw [set, set, set, h]
  intro entries
  induction entries with
  | nil => simp [setEntry]
  | cons entry rest ih =>
    obtain ⟨q, f⟩ := entry
    by_cases hq : q = place
    · simp [setEntry, hq]
    · simp [setEntry, hq, ih]

theorem isFile_set_file (hf : t.isFile p = true) (hd : t.find? file ≠ some .directory)
    (bytes : ByteArray) : (t.set file (.file bytes)).isFile p = true := by
  obtain ⟨place, before, hl, hfind⟩ := isFile_iff.mp hf
  have hl' := locate_of_grows (grows_set_file hd bytes) hl
  by_cases h : place = file
  · refine isFile_iff.mpr ⟨place, bytes, hl', ?_⟩
    rw [find?_set t (ne_nil_of_find? hd), if_pos h]
  · refine isFile_iff.mpr ⟨place, before, hl', ?_⟩
    rw [find?_set t (ne_nil_of_find? hd), if_neg h, hfind]

/-- Paths lead where they led when a file is written that was there before. -/
theorem locate_set_file {before : ByteArray} (hf : t.find? file = some (.file before))
    (bytes : ByteArray) (p : Path) : (t.set file (.file bytes)).locate p = t.locate p := by
  have hne : file ≠ [] := ne_nil_of_find? (ne_directory hf)
  suffices h : ∀ ps here, (t.set file (.file bytes)).walk here ps = t.walk here ps from
    h p.parts []
  intro ps
  induction ps with
  | nil => exact fun _ => rfl
  | cons part ps ih =>
    intro here
    -- the file is a file before and after, so it stops the walk or lets it end there
    have hsome : ∀ q, ((t.set file (.file bytes)).find? q).isSome = (t.find? q).isSome := by
      intro q
      rw [find?_set t hne]
      by_cases hq : q = file
      · rw [if_pos hq, hq, hf]
        rfl
      · rw [if_neg hq]
    rw [walk, walk]
    by_cases hh : here = file
    · rw [find?_set t hne, if_pos hh, hh, hf]
    · rw [find?_set t hne, if_neg hh]
      simp only [hsome, ih]

theorem isFile_set_file_eq {before : ByteArray} (hf : t.find? file = some (.file before))
    (bytes : ByteArray) (p : Path) : (t.set file (.file bytes)).isFile p = t.isFile p := by
  have hne : file ≠ [] := ne_nil_of_find? (ne_directory hf)
  rw [Bool.eq_iff_iff, isFile_iff, isFile_iff]
  simp only [locate_set_file hf, find?_set t hne]
  constructor
  · rintro ⟨place, found, hl, hfind⟩
    by_cases h : place = file
    · exact ⟨place, before, hl, h ▸ hf⟩
    · exact ⟨place, found, hl, by rwa [if_neg h] at hfind⟩
  · rintro ⟨place, found, hl, hfind⟩
    by_cases h : place = file
    · exact ⟨place, bytes, hl, if_pos h⟩
    · exact ⟨place, found, hl, by rwa [if_neg h]⟩

/-- All other files read as they did. -/
theorem readBytes_set_file {before : ByteArray} (hf : t.find? file = some (.file before))
    (bytes : ByteArray) (hp : t.locate p ≠ .ok file) :
    (t.set file (.file bytes)).readBytes p = t.readBytes p := by
  have hne : file ≠ [] := ne_nil_of_find? (ne_directory hf)
  rw [readBytes, readBytes, entryAt, entryAt, locate_set_file hf]
  rcases hl : t.locate p with e | place
  · rfl
  · have hq : place ≠ file := by
      rintro rfl
      exact hp hl
    dsimp only
    rw [find?_set t hne, if_neg hq]

/-- A path that names a place leads there once a file stands in it. -/
theorem locate_set_of_slot (hs : t.slot p = .ok place) (hd : t.find? place ≠ some .directory)
    (bytes : ByteArray) : (t.set place (.file bytes)).locate p = .ok place := by
  have hg := grows_set_file hd bytes
  have hstands : ((t.set place (.file bytes)).find? place).isSome := by
    rw [find?_set t (ne_nil_of_find? hd), if_pos rfl]
    rfl
  obtain ⟨root, parts⟩ := p
  rcases List.eq_nil_or_concat' parts with rfl | ⟨init, part, rfl⟩
  · -- the root is named by a path without components, and is a directory
    cases hs
    exact absurd rfl hd
  · rw [slot, List.getLast?_concat, Path.parent, List.dropLast_concat] at hs
    dsimp only at hs
    split at hs
    · cases hs
    · rename_i here hl
      split at hs
      · rename_i hdir
        cases hs
        by_cases hu : part = ['.', '.']
        · -- going up leads to a directory
          rw [if_pos hu] at hd
          exact absurd (directory_dropLast_of_locate hl) hd
        · rw [if_neg hu] at hg hstands hd ⊢
          have hl' : (t.set (here ++ [part]) (.file bytes)).walk [] init = .ok here :=
            locate_of_grows hg hl
          have hdir' := (find?_set_directory hd bytes here).mpr hdir
          rw [locate, walk_append hl', walk_cons_of hdir' (if_neg hu).symm hstands]
          rfl
      · cases hs
      · cases hs

/-! ### Names -/

/-- A path that leads to a file ends with the file's name. -/
theorem getLast?_of_locate (hl : t.locate p = .ok place)
    (hd : t.find? place ≠ some .directory) : place.getLast? = some p.name := by
  obtain ⟨root, parts⟩ := p
  rcases List.eq_nil_or_concat' parts with rfl | ⟨init, part, rfl⟩
  · cases hl
    exact absurd rfl hd
  · have hname : Path.name ⟨root, init ++ [part]⟩ = part := by simp [Path.name]
    rw [hname]
    have hu : part ≠ upwards := by
      -- a path that ends by going up leads to a directory
      rintro rfl
      obtain ⟨mid, h1, h2⟩ := exists_walk_append hl
      obtain ⟨-, next, hn, -, hw⟩ := walk_cons h2
      cases hw
      rw [if_pos rfl] at hn
      have hmid : t.locate ⟨root, init⟩ = .ok mid := h1
      exact hd (hn ▸ directory_dropLast_of_locate hmid)
    exact getLast?_of_slot (slot_of_locate hl) List.getLast?_concat hu

/-- Paths that lead to one file have one name. -/
theorem name_eq_of_locate {q : Path} (hp : t.locate p = .ok place) (hq : t.locate q = .ok place)
    (hd : t.find? place ≠ some .directory) : p.name = q.name := by
  have h := getLast?_of_locate hp hd
  rw [getLast?_of_locate hq hd] at h
  exact (Option.some.inj h).symm

/-! ### Normal forms -/

theorem foldl_walkPart_of_walk (h : t.walk here ps = .ok place) :
    ps.foldl Path.walkPart here.reverse = place.reverse := by
  induction ps generalizing here with
  | nil =>
    cases h
    rfl
  | cons part ps ih =>
    obtain ⟨-, next, hn, -, hw⟩ := walk_cons h
    have hstep : Path.walkPart here.reverse part = next.reverse := by
      rw [hn]
      show (if part = upwards then here.reverse.tail else part :: here.reverse) = _
      by_cases hu : part = upwards
      · rw [if_pos hu, if_pos hu, List.tail_reverse]
      · rw [if_neg hu, if_neg hu, List.reverse_concat]
    rw [List.foldl_cons, hstep]
    exact ih hw

/-- The normal form of a path spells the place that the path leads to. -/
theorem normalParts_of_locate (h : t.locate p = .ok place) : Path.normalParts p.parts = place := by
  have hfold : p.parts.foldl Path.walkPart [] = place.reverse := foldl_walkPart_of_walk h
  rw [Path.normalParts, hfold, List.reverse_reverse]

/-- Paths that lead to one place have one normal form. -/
theorem normalize_eq_of_locate {q : Path} (hp : t.locate p = .ok place)
    (hq : t.locate q = .ok place) : p.normalize = q.normalize := by
  rw [Path.normalize, Path.normalize, normalParts_of_locate hp, normalParts_of_locate hq]

/-! ### Sources below a directory -/

theorem eq_of_dropParts? {base parts rest : List Text}
    (h : Path.dropParts? base parts = some rest) : parts = base ++ rest := by
  induction base generalizing parts with
  | nil =>
    cases h
    rfl
  | cons b base ih =>
    cases parts with
    | nil => cases h
    | cons p parts =>
      rw [Path.dropParts?] at h
      by_cases hb : b = p
      · rw [if_pos hb] at h
        rw [hb, ih h, List.cons_append]
      · rw [if_neg hb] at h
        cases h

theorem dropParts?_append (base rest : List Text) :
    Path.dropParts? base (base ++ rest) = some rest := by
  induction base with
  | nil => rfl
  | cons b base ih => rw [List.cons_append, Path.dropParts?, if_pos rfl, ih]

/-- Whether a name is that of a source. -/
def IsSourceName (name : Text) : Prop := sheetEnding.isSuffixOf name = true

/-- The place of a source as it is seen from a directory, if it lies below. -/
def sourceBelow? (base : Place) (found : Place × Entry) : Option Place :=
  match Path.dropParts? base found.1 with
  | some (part :: parts) =>
    if isSourceEntry (part :: parts, found.2) then some (part :: parts) else none
  | _ => none

theorem sourcesBelow_eq (t : FileTree) (base : Place) :
    ((t.below base).filter isSourceEntry).map Prod.fst = t.entries.filterMap (sourceBelow? base) := by
  rw [below, List.filter_filterMap, List.map_filterMap]
  refine List.filterMap_congr fun found _ => ?_
  obtain ⟨q, e⟩ := found
  rw [sourceBelow?]
  dsimp only
  rcases Path.dropParts? base q with - | - | ⟨part, parts⟩
  · rfl
  · rfl
  · by_cases hs : isSourceEntry (part :: parts, e) = true
    · simp [hs]
    · simp [hs]

/-- Whether a file is a source does not depend on its bytes. -/
theorem sourceBelow?_file (base q : Place) (bytes bytes' : ByteArray) :
    sourceBelow? base (q, .file bytes) = sourceBelow? base (q, .file bytes') := rfl

/-- A file whose name is not that of a source is none. -/
theorem sourceBelow?_eq_none {base q : Place}
    (hq : ∀ name, q.getLast? = some name → ¬ IsSourceName name) (bytes : ByteArray) :
    sourceBelow? base (q, .file bytes) = none := by
  rw [sourceBelow?]
  rcases hdrop : Path.dropParts? base q with - | - | ⟨part, parts⟩
  · rfl
  · rfl
  · dsimp only
    have hparts : q = base ++ part :: parts := eq_of_dropParts? hdrop
    have hlast : q.getLast? = (part :: parts).getLast? := by
      rw [hparts, List.getLast?_append]
      simp [List.getLast?_cons]
    rw [if_neg]
    intro hs
    rw [isSourceEntry, Bool.and_eq_true] at hs
    obtain ⟨name, hname, hends⟩ := (Option.any_eq_true _ _).mp hs.1
    exact hq name (hlast.trans hname) hends

/-- Setting an entry changes what is read off the entries only by what is read
off that one. -/
theorem filterMap_setEntry {α : Type} {g : Place × Entry → Option α}
    {entries : List (Place × Entry)} {q : Place} {e : Entry}
    (hthere : ∀ d, entries.lookup q = some d → g (q, e) = g (q, d))
    (hnew : entries.lookup q = none → g (q, e) = none) :
    (setEntry entries q e).filterMap g = entries.filterMap g := by
  induction entries with
  | nil => rw [setEntry, List.filterMap_cons, hnew rfl]
  | cons entry rest ih =>
    obtain ⟨k, d⟩ := entry
    rw [setEntry]
    by_cases hk : k = q
    · subst hk
      rw [if_pos rfl, List.filterMap_cons, List.filterMap_cons, hthere d List.lookup_cons_self]
    · have hb : (q == k) = false := by simpa using Ne.symm hk
      have hlookup : ((k, d) :: rest).lookup q = rest.lookup q := by rw [List.lookup_cons, hb]
      rw [hlookup] at hthere hnew
      rw [if_neg hk, List.filterMap_cons, List.filterMap_cons, ih hthere hnew]

/-- The sources below a directory are the same when a file is written that was
there before, or that has not the name of a source. -/
theorem sourcesBelow_set_file (hd : t.find? file ≠ some .directory) (bytes : ByteArray)
    (hsource : t.find? file = none → ∀ name, file.getLast? = some name → ¬ IsSourceName name)
    (dir : Path) : sourcesBelow (t.set file (.file bytes)) dir = sourcesBelow t dir := by
  have hne := ne_nil_of_find? hd
  have hlookup : t.find? file = t.entries.lookup file := by rw [find?, if_neg hne]
  have hentries : ∀ base, (t.set file (.file bytes)).entries.filterMap (sourceBelow? base)
      = t.entries.filterMap (sourceBelow? base) := by
    intro base
    refine filterMap_setEntry (fun d hdir => ?_) fun hnone => ?_
    · cases d with
      | directory => exact absurd (hlookup.trans hdir) hd
      | file before => exact sourceBelow?_file base file bytes before
    · exact sourceBelow?_eq_none (hsource (hlookup.trans hnone)) bytes
  have hsame := isDirectory_set_file hd bytes dir
  rw [sourcesBelow, sourcesBelow]
  by_cases h : t.isDirectory dir = true
  · -- the directory is found at the same place, with the same sources below
    obtain ⟨place, hl, -⟩ := isDirectory_iff.mp h
    rw [locate_of_grows (grows_set_file hd bytes) hl, hl]
    dsimp only
    rw [hsame, h, if_pos rfl, if_pos rfl, sourcesBelow_eq, sourcesBelow_eq, hentries]
  · rw [hsame]
    rw [Bool.not_eq_true] at h
    rw [h]
    rcases (t.set file (.file bytes)).locate dir with - | - <;> rcases t.locate dir with - | - <;>
      rfl

/-- A source that is found is below its directory, and has the name of a
source. -/
theorem name_of_mem_sourcesBelow (h : p ∈ sourcesBelow t dir) :
    ∃ name, p.parts.getLast? = some name ∧ IsSourceName name := by
  rw [sourcesBelow] at h
  split at h
  · cases h
  · rename_i place hl
    split at h
    · obtain ⟨parts, hm, rfl⟩ := List.mem_map.mp h
      rw [List.mem_mergeSort, sourcesBelow_eq, List.mem_filterMap] at hm
      obtain ⟨⟨q, e⟩, -, hs⟩ := hm
      rw [sourceBelow?] at hs
      split at hs
      · rename_i part rest hdrop
        split at hs
        · rename_i hsource
          cases hs
          cases e with
          | directory => cases hsource
          | file before =>
            rw [isSourceEntry, Bool.and_eq_true] at hsource
            obtain ⟨name, hname, hends⟩ := (Option.any_eq_true _ _).mp hsource.1
            refine ⟨name, ?_, hends⟩
            show (dir.parts ++ part :: rest).getLast? = some name
            rw [List.getLast?_append, hname]
            rfl
        · cases hs
      · cases hs
    · cases h

end FileTree

end FluidScss
