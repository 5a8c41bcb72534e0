/-
FluidScss/Proofs/Spelling.lean

How a project spells the paths of its files.  A text names a path taken from
the root (`Config.pathOf`), and a path is told by a text again
(`Config.relative`): what is behind the root in its normal form, if it lies
there, and the path as it stands otherwise.

The text that tells a path names the same place (`normalize?_pathOf_relative`),
and below the root it is told by nothing but the place (`relative_eq_iff`): it
does not matter how often the path climbs on its way, even above the root and
back.  What carries this is that a walk from the root keeps a front of the
root's components, and all that comes behind has been walked since
(`normalParts_append`); so no component of the root is told.

Elsewhere a path is told with the root's own components, and a backslash in
them is told as a slash; there the root must have none.
-/
import FluidScss.Proofs.SyncSafety

namespace FluidScss

namespace Path

variable {p : Path} {part text : Text} {parts base rest : List Text} {c : Char}

/-! ### The texts of paths -/

/-- A path whose components are those of a text. -/
def Spelled (p : Path) : Prop := ∀ part ∈ p.parts, isComponent part = true ∧ '/' ∉ part

instance decidableSpelled (p : Path) : Decidable p.Spelled :=
  inferInstanceAs (Decidable (∀ part ∈ p.parts, isComponent part = true ∧ '/' ∉ part))

theorem spelled_ofText (text : Text) : (ofText text).Spelled := by
  intro part hm
  obtain ⟨hsplit, hcomponent⟩ := List.mem_filter.mp hm
  exact ⟨hcomponent, Text.not_mem_of_mem_splitOn hsplit⟩

theorem rootOf_rootText (root : Root) (h : text.head? ≠ some '/') :
    rootOf (rootText root ++ text) = (root, text) := by
  rcases text with - | ⟨c, text⟩
  · cases root <;> rfl
  · have hc : c ≠ '/' := fun hc => h (congrArg some hc)
    cases root <;> simp [rootText, rootOf, hc]

/-- **A path is read back** from its text. -/
theorem ofText_toText (h : p.Spelled) : ofText p.toText = p := by
  obtain ⟨root, parts⟩ := p
  rcases parts with - | ⟨part, parts⟩
  · cases root <;> rfl
  · have htext : toText ⟨root, part :: parts⟩
        = rootText root ++ Text.join ['/'] (part :: parts) := by
      cases root <;> rfl
    have hfirst : (Text.join ['/'] (part :: parts)).head? ≠ some '/' := by
      obtain ⟨hcomponent, hslash⟩ := h part (List.mem_cons_self ..)
      rcases part with - | ⟨c, part⟩
      · cases hcomponent
      · rw [Text.join_cons, List.cons_append, List.head?_cons]
        rintro ⟨rfl⟩
        exact hslash (List.mem_cons_self ..)
    rw [htext, ofText, rootOf_rootText root hfirst]
    dsimp only
    rw [Text.splitOn_join (List.cons_ne_nil _ _) fun part hm => (h part hm).2,
      List.filter_eq_self.mpr fun part hm => (h part hm).1]

theorem subset_of_mem_ofText (h : part ∈ (ofText text).parts) : part ⊆ text := by
  have hrest : (rootOf text).2 <:+ text := by
    unfold rootOf
    split
    · exact ⟨"///", rfl⟩
    · exact ⟨"//", rfl⟩
    · exact ⟨"/", rfl⟩
    · exact List.suffix_refl text
  exact fun c hc => hrest.subset (Text.subset_of_mem_splitOn (List.mem_filter.mp h).1 hc)

theorem hasNul_ofText (h : '\x00' ∉ text) : (ofText text).hasNul = false := by
  rw [hasNul, List.any_eq_false]
  intro part hm
  simpa using fun hc => h (subset_of_mem_ofText hm hc)

/-- What is in a path's text is in its components, a slash or the dot of the
empty path. -/
theorem not_mem_toText (hc : c ≠ '/') (hd : c ≠ '.') (h : ∀ part ∈ p.parts, c ∉ part) :
    c ∉ p.toText := by
  have hjoin : ∀ parts : List Text, (∀ part ∈ parts, c ∉ part) → c ∉ Text.join ['/'] parts := by
    intro parts hparts
    induction parts with
    | nil => exact List.not_mem_nil
    | cons part parts ih =>
      obtain ⟨hpart, hparts⟩ := List.forall_mem_cons.mp hparts
      rcases parts with - | ⟨next, parts⟩
      · rwa [Text.join_singleton]
      · rw [Text.join_cons_cons, List.mem_append, List.mem_append, List.mem_singleton]
        exact not_or.mpr ⟨hpart, not_or.mpr ⟨hc, ih hparts⟩⟩
  unfold toText
  split
  · simpa using hd
  · rename_i root parts _
    refine fun hm => (List.mem_append.mp hm).elim (fun hm => ?_) (hjoin parts h)
    cases root <;> simp_all [rootText]

theorem posix_eq_self (h : '\\' ∉ text) : posix text = text := by
  rw [posix]
  refine (List.map_congr_left fun c hm => ?_).trans (List.map_id text)
  rw [if_neg (by rintro rfl; exact h hm), id]

/-! ### Normal forms -/

/-- A walk leaves of the components it began with those in front, and behind
them are components walked since, none of them a double dot. -/
theorem exists_foldl_walkPart (stack parts : List Text) : ∃ walked k,
    parts.foldl walkPart stack = walked ++ stack.drop k ∧ walked ⊆ parts ∧ upwards ∉ walked := by
  induction parts generalizing stack with
  | nil => exact ⟨[], 0, rfl, List.nil_subset _, List.not_mem_nil⟩
  | cons part parts ih =>
    obtain ⟨walked, k, hfold, hsubset, hup⟩ := ih (walkPart stack part)
    rw [List.foldl_cons, hfold, walkPart]
    by_cases hpart : part = ['.', '.']
    · refine ⟨walked, k + 1, ?_, fun x hx => List.mem_cons_of_mem _ (hsubset hx), hup⟩
      rw [if_pos hpart, List.drop_tail]
    · rw [if_neg hpart]
      rcases k with - | k
      · refine ⟨walked ++ [part], 0, by simp, ?_, ?_⟩
        · exact List.append_subset.mpr ⟨fun x hx => List.mem_cons_of_mem _ (hsubset hx), by simp⟩
        · rw [List.mem_append, List.mem_singleton]
          exact not_or.mpr ⟨hup, Ne.symm hpart⟩
      · exact ⟨walked, k, rfl, fun x hx => List.mem_cons_of_mem _ (hsubset hx), hup⟩

theorem normalParts_append (hu : upwards ∉ base) (parts : List Text) : ∃ n walked,
    normalParts (base ++ parts) = base.take n ++ walked ∧ walked ⊆ parts ∧ upwards ∉ walked := by
  obtain ⟨walked, k, hfold, hsubset, hup⟩ := exists_foldl_walkPart base.reverse parts
  refine ⟨base.length - k, walked.reverse, ?_, by simpa using hsubset, by simpa using hup⟩
  rw [normalParts, List.foldl_append, foldl_walkPart_names [] hu, List.append_nil, hfold,
    List.reverse_append, List.drop_reverse, List.reverse_reverse]

theorem upwards_not_mem_normalParts (parts : List Text) : upwards ∉ normalParts parts := by
  obtain ⟨n, walked, hparts, -, hup⟩ := normalParts_append List.not_mem_nil parts
  rw [List.nil_append, List.take_nil, List.nil_append] at hparts
  rwa [hparts]

/-- What is behind the components that a walk began with has been walked. -/
theorem subset_of_normalParts (hu : upwards ∉ base)
    (h : normalParts (base ++ parts) = base ++ rest) : rest ⊆ parts := by
  obtain ⟨n, walked, hparts, hsubset, -⟩ := normalParts_append hu parts
  rw [h] at hparts
  have hlength := congrArg List.length hparts
  rw [List.length_append, List.length_append, List.length_take] at hlength
  have hwalked : walked <:+ base ++ rest := hparts ▸ List.suffix_append _ _
  have hsuffix := List.suffix_of_suffix_length_le (List.suffix_append base rest) hwalked (by omega)
  exact fun x hx => hsubset (hsuffix.subset hx)

/-! ### Roots -/

/-- A root as it is once resolved: absolute, in its normal form, and spelled by
a text. -/
structure IsResolved (root : Path) : Prop where
  normal : root.normalize? = some root
  spelled : root.Spelled

namespace IsResolved

variable {root : Path}

theorem eq (h : root.IsResolved) : root.normalize = root := by
  have hn := h.normal
  rw [normalize?] at hn
  split at hn
  · cases hn
  · exact Option.some.inj hn

theorem hasNul (h : root.IsResolved) : root.hasNul = false := by
  have hn := h.normal
  rw [normalize?] at hn
  split at hn
  · cases hn
  · simpa using ‹¬ root.hasNul = true›

theorem single (h : root.IsResolved) : root.root = .single := congrArg Path.root h.eq.symm

theorem names (h : root.IsResolved) : upwards ∉ root.parts := by
  have hparts : normalParts root.parts = root.parts := congrArg Path.parts h.eq
  rw [← hparts]
  exact upwards_not_mem_normalParts _

end IsResolved

theorem isWithin_iff {q : Path} :
    p.isWithin q = true ↔ p.root = q.root ∧ ∃ rest, p.parts = q.parts ++ rest := by
  rw [isWithin, relativeTo?]
  constructor
  · intro hs
    split at hs
    · rename_i hroot
      rw [Option.isSome_map] at hs
      obtain ⟨rest, hrest⟩ := Option.isSome_iff_exists.mp hs
      exact ⟨hroot, rest, FileTree.eq_of_dropParts? hrest⟩
    · cases hs
  · rintro ⟨hroot, rest, hrest⟩
    rw [if_pos hroot, hrest, FileTree.dropParts?_append]
    rfl

theorem isWithin_normalize_iff {root : Path} (h : root.root = .single) :
    p.normalize.isWithin root = true ↔ ∃ rest, p.normalize.parts = root.parts ++ rest := by
  have hroot : p.normalize.root = root.root := h.symm
  rw [isWithin_iff, and_iff_right hroot]

/-- What lies below a path below the root lies below the root. -/
theorem isWithin_trans {q root : Path} (hp : p.isWithin q = true) (hq : q.isWithin root = true) :
    p.isWithin root = true := by
  obtain ⟨hroot, rest, hrest⟩ := isWithin_iff.mp hp
  obtain ⟨hroot', rest', hrest'⟩ := isWithin_iff.mp hq
  refine isWithin_iff.mpr ⟨hroot.trans hroot', rest' ++ rest, ?_⟩
  rw [hrest, hrest', List.append_assoc]

end Path

/-! ### Paths of a project -/

namespace Config

variable {c : Config} {p : Path} {text text' : Text} {rest : List Text}

/-- The path that a text names in a project. -/
def pathOf (c : Config) (text : Text) : Path := c.resolve (.ofText text)

theorem pathOf_cases (c : Config) (text : Text) :
    (c.pathOf text = .ofText text ∧ (Path.ofText text).isAbsolute = true) ∨
      c.pathOf text = { c.root with parts := c.root.parts ++ (Path.ofText text).parts } := by
  rw [pathOf, resolve, Path.join]
  split
  · exact .inl ⟨rfl, by assumption⟩
  · exact .inr rfl

theorem hasNul_pathOf (hroot : c.root.IsResolved) (hn : '\x00' ∉ text) :
    (c.pathOf text).hasNul = false := by
  have htext := Path.hasNul_ofText hn
  rcases c.pathOf_cases text with ⟨h, -⟩ | h
  · rwa [h]
  · have hparts := hroot.hasNul
    rw [Path.hasNul] at hparts htext
    rw [h, Path.hasNul, List.any_append, hparts, htext]
    rfl

theorem normalize?_pathOf (hroot : c.root.IsResolved) (hn : '\x00' ∉ text) :
    (c.pathOf text).normalize? = some (c.pathOf text).normalize := by
  rw [Path.normalize?, hasNul_pathOf hroot hn]
  rfl

theorem spelled_pathOf (hroot : c.root.IsResolved) (text : Text) : (c.pathOf text).Spelled := by
  rcases c.pathOf_cases text with ⟨h, -⟩ | h
  · rw [h]
    exact Path.spelled_ofText text
  · rw [h]
    exact List.forall_mem_append.mpr ⟨hroot.spelled, Path.spelled_ofText text⟩

theorem isAbsolute_pathOf (hroot : c.root.IsResolved) (text : Text) :
    (c.pathOf text).isAbsolute = true := by
  refine c.isAbsolute_resolve ?_ _
  rw [Path.isAbsolute, hroot.single]
  rfl

/-- What is behind the root in a path's normal form are components of its text. -/
theorem names_behind_root (hroot : c.root.IsResolved)
    (h : (c.pathOf text).normalize.parts = c.root.parts ++ rest) :
    rest ⊆ (Path.ofText text).parts ∧ upwards ∉ rest := by
  have hup : upwards ∉ c.root.parts ++ rest := h ▸ Path.upwards_not_mem_normalParts _
  refine ⟨?_, fun hm => hup (List.mem_append_right _ hm)⟩
  rcases c.pathOf_cases text with ⟨hpath, -⟩ | hpath <;> rw [hpath] at h
  · -- an absolute path has been walked as a whole
    have hall : c.root.parts ++ rest ⊆ (Path.ofText text).parts :=
      Path.subset_of_normalParts List.not_mem_nil h
    exact fun x hx => hall (List.mem_append_right _ hx)
  · exact Path.subset_of_normalParts hroot.names h

/-! ### The text that tells a path -/

/-- A path below the root is told by what is behind the root. -/
theorem relative_of_within (hroot : c.root.IsResolved) (hn : p.hasNul = false)
    (h : p.normalize.parts = c.root.parts ++ rest) :
    c.relative p = Path.posix (Path.toText ⟨.relative, rest⟩) := by
  have hp : p.normalize? = some p.normalize := by rw [Path.normalize?, hn]; rfl
  have hbelow : p.normalize.relativeTo? c.root = some ⟨.relative, rest⟩ := by
    have hsame : p.normalize.root = c.root.root := hroot.single.symm
    rw [Path.relativeTo?, if_pos hsame, h, FileTree.dropParts?_append]
    rfl
  rw [relative, relativeText, hp, hroot.normal]
  dsimp only
  rw [hbelow]

/-- Elsewhere a path is told as it stands. -/
theorem relative_of_not_within (hroot : c.root.IsResolved) (hn : p.hasNul = false)
    (h : p.normalize.isWithin c.root = false) : c.relative p = Path.posix p.toText := by
  have hp : p.normalize? = some p.normalize := by rw [Path.normalize?, hn]; rfl
  have helse : p.normalize.relativeTo? c.root = none := by
    rw [Path.isWithin] at h
    simpa using h
  rw [relative, relativeText, hp, hroot.normal]
  dsimp only
  rw [helse]

/-- The text that tells a path below the root spells what is behind the root. -/
theorem ofText_relative_of_within (hroot : c.root.IsResolved) (hn : '\x00' ∉ text)
    (hb : '\\' ∉ text) (h : (c.pathOf text).normalize.parts = c.root.parts ++ rest) :
    Path.ofText (c.relative (c.pathOf text)) = ⟨.relative, rest⟩ := by
  obtain ⟨hrest, -⟩ := names_behind_root hroot h
  have hspelled : (⟨.relative, rest⟩ : Path).Spelled := fun part hm =>
    Path.spelled_ofText text part (hrest hm)
  have hback : '\\' ∉ (⟨.relative, rest⟩ : Path).toText :=
    Path.not_mem_toText (by decide) (by decide) fun part hm hc =>
      hb (Path.subset_of_mem_ofText (hrest hm) hc)
  rw [relative_of_within hroot (hasNul_pathOf hroot hn) h, Path.posix_eq_self hback,
    Path.ofText_toText hspelled]

/-- Where the text that tells a path elsewhere has the backslashes of the path,
it spells the path. -/
theorem ofText_relative_of_not_within (hroot : c.root.IsResolved) (hn : '\x00' ∉ text)
    (hb : '\\' ∉ (c.pathOf text).toText) (h : (c.pathOf text).normalize.isWithin c.root = false) :
    Path.ofText (c.relative (c.pathOf text)) = c.pathOf text := by
  rw [relative_of_not_within hroot (hasNul_pathOf hroot hn) h, Path.posix_eq_self hb,
    Path.ofText_toText (spelled_pathOf hroot text)]

/-- A path's text has no backslash if the text that names it has none, and the
root has none or is no part of it. -/
theorem backslash_not_mem_pathOf (hb : '\\' ∉ text)
    (h : (∀ part ∈ c.root.parts, '\\' ∉ part) ∨ (Path.ofText text).isAbsolute = true) :
    '\\' ∉ (c.pathOf text).toText := by
  have htext : ∀ part ∈ (Path.ofText text).parts, '\\' ∉ part := fun part hm hc =>
    hb (Path.subset_of_mem_ofText hm hc)
  refine Path.not_mem_toText (by decide) (by decide) ?_
  rcases h with hparts | habs
  · rcases c.pathOf_cases text with ⟨hpath, -⟩ | hpath <;> rw [hpath]
    · exact htext
    · exact List.forall_mem_append.mpr ⟨hparts, htext⟩
  · rw [pathOf, resolve_of_isAbsolute habs]
    exact htext

/-- **The text that tells a path names its place**: below the root, and
elsewhere if no backslash is told. -/
theorem normalize?_pathOf_relative (hroot : c.root.IsResolved) (hn : '\x00' ∉ text)
    (hb : '\\' ∉ text) (h : (c.pathOf text).normalize.isWithin c.root = true ∨
      (∀ part ∈ c.root.parts, '\\' ∉ part) ∨ (Path.ofText text).isAbsolute = true) :
    (c.pathOf (c.relative (c.pathOf text))).normalize? = some (c.pathOf text).normalize := by
  rcases hin : (c.pathOf text).normalize.isWithin c.root with - | -
  · have hback := backslash_not_mem_pathOf hb (h.resolve_left (by rw [hin]; decide))
    have hspells := ofText_relative_of_not_within hroot hn hback hin
    have hsame : c.pathOf (c.relative (c.pathOf text)) = c.pathOf text := by
      rw [pathOf, hspells, resolve_of_isAbsolute (isAbsolute_pathOf hroot text)]
    rw [hsame, normalize?_pathOf hroot hn]
  · obtain ⟨rest, hrest⟩ := (Path.isWithin_normalize_iff hroot.single).mp hin
    obtain ⟨hsubset, hup⟩ := names_behind_root hroot hrest
    have hpath : c.pathOf (c.relative (c.pathOf text))
        = { c.root with parts := c.root.parts ++ rest } := by
      rw [pathOf, ofText_relative_of_within hroot hn hb hrest]
      rfl
    -- what is told has no double dot, so it is in its normal form
    have hnames : upwards ∉ c.root.parts ++ rest := fun hm =>
      (List.mem_append.mp hm).elim hroot.names hup
    have hnul : ({ c.root with parts := c.root.parts ++ rest } : Path).hasNul = false := by
      have hparts := hroot.hasNul
      rw [Path.hasNul, List.any_eq_false] at hparts ⊢
      refine List.forall_mem_append.mpr ⟨hparts, fun part hm => ?_⟩
      simpa using fun hc => hn (Path.subset_of_mem_ofText (hsubset hm) hc)
    rw [hpath, Path.normalize?, hnul, if_neg Bool.false_ne_true]
    refine congrArg some (congrArg (Path.mk .single) ?_)
    exact (Path.place_of_names hnames).trans hrest.symm

/-- **Below the root a path is told by its place**: two paths are told by one
text if and only if they have one normal form. -/
theorem relative_eq_iff (hroot : c.root.IsResolved) (hn : '\x00' ∉ text) (hn' : '\x00' ∉ text')
    (hb : '\\' ∉ text) (hb' : '\\' ∉ text')
    (hin : (c.pathOf text).normalize.isWithin c.root = true)
    (hin' : (c.pathOf text').normalize.isWithin c.root = true) :
    c.relative (c.pathOf text) = c.relative (c.pathOf text') ↔
      (c.pathOf text).normalize = (c.pathOf text').normalize := by
  obtain ⟨rest, hrest⟩ := (Path.isWithin_normalize_iff hroot.single).mp hin
  obtain ⟨rest', hrest'⟩ := (Path.isWithin_normalize_iff hroot.single).mp hin'
  constructor
  · intro h
    have hspells := ofText_relative_of_within hroot hn hb hrest
    rw [h, ofText_relative_of_within hroot hn' hb' hrest'] at hspells
    obtain rfl : rest' = rest := congrArg Path.parts hspells
    exact congrArg (Path.mk .single) (hrest.trans hrest'.symm)
  · intro h
    rw [h] at hrest
    rw [relative_of_within hroot (hasNul_pathOf hroot hn) (h ▸ hrest),
      relative_of_within hroot (hasNul_pathOf hroot hn') hrest]

end Config

end FluidScss
