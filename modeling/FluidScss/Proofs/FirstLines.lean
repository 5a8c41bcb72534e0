/-
FluidScss/Proofs/FirstLines.lean

What the first lines of an entry use.  They name two modules by lines of their
own, the helper and the entry's overrides, both in the entry's own directory;
the stylesheet of the entry stands in the directory of the sources.

`importsOverrides_iff` says when the two are one file.  The line that names
the overrides holds the entry's stem as it is, so a quote or a line break in
it cuts the name short; the stem of a file that has only an ending is that
ending, and not nothing; and a namespace with line breaks in it may bring in
lines of its own, which use other modules.
-/
import FluidScss.Proofs.Confined
import Mathlib.Data.List.Infix

namespace FluidScss

variable {p dir : Path} {ns base eol line name text : Text}

/-! ### Lines that use modules -/

/-- Whether a line uses a module. -/
def isUseLine (line : Text) : Bool := ("@use " : Text).isPrefixOf line

/-- The lines of a text that use modules. -/
def useLines (text : Text) : List Text := (Text.splitOn '\n' text).filter isUseLine

/-- The module that a line names: what stands between its first two quotes. -/
def usedModule? (line : Text) : Option Text :=
  match Text.breakOn ['"'] line with
  | some (_, quoted) => (Text.breakOn ['"'] quoted).map (·.1)
  | none => none

/-- The second module that the text of an entry uses is the stylesheet, found
from the entry's own directory. -/
def ImportsOverrides (entry : Path) (text : Text) (output : Path) : Prop :=
  ∃ line name : Text, (useLines text)[1]? = some line ∧ usedModule? line = some ("./" ++ name) ∧
    (entry.parent.join (Path.ofText ("./" ++ name ++ sheetEnding))).normalize = output.normalize

/-! ### First lines -/

/-- The beginning of an entry's first line. -/
def helperUse : Text := "@use \"./responsive\" as "

/-- The beginning of its second line, up to the entry's name. -/
def overridesUse : Text := "@use \"./_responsive-autofill."

/-- The end of its second line. -/
def overridesUseEnd : Text := ".generated\" as auto;"

/-- What follows the first two lines, with the line break `eol`. -/
def inclusion (eol : Text) : Text :=
  eol ++ ("// Keep this include last so the generated mobile overrides win."
    ++ (eol ++ ("@include auto." ++ (overridesMixin ++ ("();" ++ eol)))))

theorem entryBoilerplate_eq (ns base eol : Text) :
    entryBoilerplate ns base eol = helperUse ++ (ns ++ ';' :: (eol ++ (overridesUse ++
      (base ++ (overridesUseEnd ++ (eol ++ inclusion eol)))))) := by
  have hend : (";" : Text) = [';'] := rfl
  simp only [entryBoilerplate, Text.join_cons_cons, Text.join_singleton, List.append_assoc,
    List.cons_append, hend]
  rfl

/-- The line break of a text is one of two. -/
theorem lineBreakOf_cases (text : Text) : lineBreakOf text = "\r\n" ∨ lineBreakOf text = "\n" := by
  rw [lineBreakOf]
  split
  · exact .inl rfl
  · exact .inr rfl

/-- The first lines as they are read. -/
theorem unifyNewlines_entryBoilerplate (ns base : Text) (he : eol = "\r\n" ∨ eol = "\n") :
    Text.unifyNewlines (entryBoilerplate ns base eol)
      = helperUse ++ (Text.unifyNewlines ns ++ ";") ++ '\n' ::
        (overridesUse ++ (Text.unifyNewlines base ++ overridesUseEnd) ++ '\n' ::
          inclusion "\n") := by
  have hsecond : ∀ t, Text.unifyNewlines (';' :: (eol ++ (overridesUse ++ t)))
      = ';' :: '\n' :: (overridesUse ++ Text.unifyNewlines t) := by
    intro t
    rcases he with rfl | rfl <;> rfl
  have hend : Text.unifyNewlines (overridesUseEnd ++ (eol ++ inclusion eol))
      = overridesUseEnd ++ '\n' :: inclusion "\n" := by
    rcases he with rfl | rfl <;> decide +kernel
  have hbase : Text.unifyNewlines (base ++ (overridesUseEnd ++ (eol ++ inclusion eol)))
      = Text.unifyNewlines base ++ (overridesUseEnd ++ '\n' :: inclusion "\n") := by
    rw [← hend]
    exact Text.unifyNewlines_append_cons (by decide) base _
  rw [entryBoilerplate_eq, Text.unifyNewlines_append (by decide),
    Text.unifyNewlines_append_cons (by decide), hsecond, hbase]
  simp only [List.append_assoc]
  rfl

/-- A namespace that brings lines of its own into the first lines, one of
which uses a module. -/
def BringsUse (ns : Text) : Prop :=
  ∃ line ∈ (Text.splitOn '\n' (Text.unifyNewlines ns ++ ";")).tail, isUseLine line = true

/-- The lines of the first lines that use modules: the helper, what the
namespace brings in, and the overrides. -/
theorem useLines_entryBoilerplate (he : eol = "\r\n" ∨ eol = "\n") {helper own : Text}
    {brought more : List Text}
    (hns : Text.splitOn '\n' (Text.unifyNewlines ns ++ ";") = helper :: brought)
    (hbase : Text.splitOn '\n' (Text.unifyNewlines base ++ overridesUseEnd) = own :: more) :
    ∃ others, useLines (Text.unifyNewlines (entryBoilerplate ns base eol))
      = (helperUse ++ helper) :: (brought.filter isUseLine ++ (overridesUse ++ own) :: others) := by
  have hfirst : isUseLine (helperUse ++ helper) = true := rfl
  have hsecond : isUseLine (overridesUse ++ own) = true := rfl
  refine ⟨more.filter isUseLine ++ useLines (inclusion "\n"), ?_⟩
  rw [unifyNewlines_entryBoilerplate ns base he, useLines, Text.splitOn_append_sep,
    Text.splitOn_append_sep, Text.splitOn_append (by decide) hns,
    Text.splitOn_append (by decide) hbase, List.filter_append, List.filter_append,
    List.filter_cons_of_pos hfirst, List.filter_cons_of_pos hsecond, List.cons_append,
    List.cons_append]
  rfl

/-- A line of a text that was read has no line break in it. -/
theorem lacks_of_mem_useLines (h : line ∈ useLines (Text.unifyNewlines text)) :
    '\n' ∉ line ∧ '\r' ∉ line := by
  have hmem := List.mem_of_mem_filter h
  exact ⟨Text.not_mem_of_mem_splitOn hmem,
    fun hr => Text.cr_not_mem_unifyNewlines text (Text.subset_of_mem_splitOn hmem hr)⟩

/-! ### The module that a line names -/

theorem usedModule?_of_quoted {before after : Text} (hb : '"' ∉ before) (hm : '"' ∉ name) :
    usedModule? (before ++ '"' :: (name ++ '"' :: after)) = some name := by
  rw [usedModule?, Text.breakOn_append_cons hb]
  dsimp only
  rw [Text.breakOn_append_cons hm]
  rfl

/-- The name of a module stands in its line, and has no quote in it. -/
theorem of_usedModule? (h : usedModule? line = some name) : name ⊆ line ∧ '"' ∉ name := by
  rw [usedModule?] at h
  split at h
  · rename_i before quoted hline
    obtain ⟨⟨named, after⟩, hquoted, rfl⟩ := Option.map_eq_some_iff.mp h
    refine ⟨?_, Text.not_mem_of_breakOn hquoted⟩
    rw [Text.eq_of_breakOn hline, Text.eq_of_breakOn hquoted]
    intro c hc
    simp [hc]
  · cases h

/-- The path of a module's file: its last component ends as sources do. -/
theorem exists_moduleFile (dir : Path) (name : Text) : ∃ (around : Path) (last : Text),
    dir.join (Path.ofText ("./" ++ name ++ sheetEnding)) = around.child (last ++ sheetEnding) ∧
      '/' ∉ last ∧ last ⊆ name ∧ ('/' ∉ name → around = dir ∧ last = name) := by
  obtain ⟨parts, last, hname⟩ :=
    (List.eq_nil_or_concat' (Text.splitOn '/' name)).resolve_left (Text.splitOn_ne_nil '/' name)
  have hmem : last ∈ Text.splitOn '/' name := by
    rw [hname]
    exact List.mem_concat_self
  have hkept : Path.isComponent (last ++ sheetEnding) = true := by
    have hlength : (last ++ sheetEnding).length = last.length + 5 := List.length_append
    rw [Path.isComponent, Bool.and_eq_true, decide_eq_true_eq, decide_eq_true_eq]
    constructor <;> intro h <;> rw [h] at hlength <;> simp at hlength
  have hparts : Text.splitOn '/' ("./" ++ name ++ sheetEnding)
      = ['.'] :: (parts ++ [last ++ sheetEnding]) := by
    rw [← Text.splitOn_append_right (by decide) hname, ← Text.splitOn_append_cons (by decide)]
    rfl
  have hpath : Path.ofText ("./" ++ name ++ sheetEnding)
      = ⟨.relative, parts.filter Path.isComponent ++ [last ++ sheetEnding]⟩ := by
    show Path.mk .relative ((Text.splitOn '/' ("./" ++ name ++ sheetEnding)).filter
      Path.isComponent) = _
    rw [hparts, List.filter_cons_of_neg (by decide), List.filter_append,
      List.filter_cons_of_pos hkept, List.filter_nil]
  refine ⟨⟨dir.root, dir.parts ++ parts.filter Path.isComponent⟩, last, ?_,
    Text.not_mem_of_mem_splitOn hmem, Text.subset_of_mem_splitOn hmem, fun hslash => ?_⟩
  · rw [hpath, Path.child, List.append_assoc]
    rfl
  · rw [Text.splitOn_eq_singleton hslash] at hname
    have hone : [] ++ [name] = parts ++ [last] := hname
    obtain ⟨rfl, he⟩ := List.append_inj' hone rfl
    refine ⟨?_, (List.cons.inj he).1.symm⟩
    rw [List.filter_nil, List.append_nil]

/-! ### Names -/

/-- A source's name is its base name with the ending. -/
theorem name_eq_entryBase (h : FileTree.IsSourceName p.name) :
    p.name = Config.entryBase p ++ sheetEnding := by
  have hlength : sheetEnding.length = 5 := rfl
  obtain ⟨front, hfront⟩ := List.isSuffixOf_iff_suffix.mp h
  rw [entryBase_of_isSourceName h, ← hfront, List.length_append, hlength, Nat.add_sub_cancel,
    List.take_left]

/-- The stem of a source is its base name, unless that is empty; the ending
alone is a stem. -/
theorem stem_eq_entryBase_iff (h : FileTree.IsSourceName p.name) :
    p.stem = Config.entryBase p ↔ p.name ≠ sheetEnding := by
  have hname := name_eq_entryBase h
  generalize Config.entryBase p = base at hname ⊢
  have hrev : (base ++ sheetEnding).reverse = ("sscs" : Text) ++ '.' :: base.reverse := by
    rw [List.reverse_append]
    rfl
  have hbreak : Text.breakOn ['.'] p.name.reverse = some (("sscs" : Text), base.reverse) := by
    rw [hname, hrev]
    exact Text.breakOn_append_cons (by decide) _
  rw [Path.stem, Path.stemLength, hbreak]
  dsimp only
  constructor
  · rintro hstem hsheet
    have hempty : base = [] := by
      rw [hsheet] at hname
      exact List.self_eq_append_left.mp hname
    rw [if_pos (.inr (List.reverse_eq_nil_iff.mpr hempty)), List.take_length, hsheet, hempty]
      at hstem
    cases hstem
  · intro hne
    have hbase : base ≠ [] := by
      rintro rfl
      exact hne hname
    rw [if_neg (not_or.mpr ⟨by decide, fun he => hbase (List.reverse_eq_nil_iff.mp he)⟩),
      List.length_reverse, hname, List.take_left]

/-- A character that can stand between quotes, in one line and in one
component of a path. -/
def Quotable (c : Char) : Prop := c ≠ '"' ∧ c ≠ '/' ∧ c ≠ '\n' ∧ c ≠ '\r'

theorem quotable_sheetEnding : ∀ c ∈ sheetEnding, Quotable c := by
  unfold Quotable
  decide

/-- An entry's name is quotable if that of its stylesheet is. -/
theorem quotable_name_iff (h : FileTree.IsSourceName p.name) :
    (∀ c ∈ p.name, Quotable c) ↔ ∀ c ∈ entryName p, Quotable c := by
  have hname := name_eq_entryBase h
  have hstem : ∀ c ∈ overridesStem ++ ("." : Text), Quotable c := by
    unfold Quotable
    decide
  have hending : ∀ c ∈ overridesEnding, Quotable c := by
    unfold Quotable
    decide
  rw [hname, entryName]
  simp only [List.forall_mem_append]
  constructor
  · rintro ⟨hbase, -⟩
    exact ⟨⟨List.forall_mem_append.mp hstem, hbase⟩, hending⟩
  · rintro ⟨⟨-, hbase⟩, -⟩
    exact ⟨hbase, quotable_sheetEnding⟩

/-- The name that the first lines of an entry give to its overrides. -/
def usedName (entry : Path) : Text := overridesStem ++ "." ++ entry.stem ++ ".generated"

/-- It is that of the stylesheet if the stem is the base name. -/
theorem usedName_eq_iff (h : FileTree.IsSourceName p.name) :
    usedName p ++ sheetEnding = entryName p ↔ p.name ≠ sheetEnding := by
  have hending : overridesEnding = (".generated" : Text) ++ sheetEnding := rfl
  rw [← stem_eq_entryBase_iff h, usedName, entryName, hending, List.append_assoc _ _ sheetEnding,
    List.append_left_inj, List.append_right_inj]

theorem stem_subset_name (p : Path) : p.stem ⊆ p.name := (List.take_prefix _ _).subset

/-- A quotable name is named as it is. -/
theorem usedModule?_overrides {own : Text} {more : List Text} (hq : ∀ c ∈ p.name, Quotable c)
    (hbase : Text.splitOn '\n' (Text.unifyNewlines p.stem ++ overridesUseEnd) = own :: more) :
    usedModule? (overridesUse ++ own) = some ("./" ++ usedName p) := by
  have hlacks : ∀ c, ¬ Quotable c → c ∉ p.stem := fun c hc hm => hc (hq c (stem_subset_name p hm))
  have hquote : '"' ∉ p.stem := hlacks _ fun h => h.1 rfl
  have hnewline : '\n' ∉ p.stem := hlacks _ fun h => h.2.2.1 rfl
  have hreturn : '\r' ∉ p.stem := hlacks _ fun h => h.2.2.2 rfl
  have hone : '\n' ∉ p.stem ++ overridesUseEnd := by
    rw [List.mem_append, not_or]
    exact ⟨hnewline, by decide⟩
  rw [Text.unifyNewlines_eq_self hreturn, Text.splitOn_eq_singleton hone] at hbase
  obtain ⟨rfl, -⟩ := List.cons.inj hbase
  have hline : overridesUse ++ (p.stem ++ overridesUseEnd)
      = ("@use " : Text) ++ '"' :: (("./" ++ usedName p) ++ '"' :: (" as auto;" : Text)) := by
    simp only [usedName, List.append_assoc]
    rfl
  rw [hline]
  refine usedModule?_of_quoted (by decide) ?_
  simp only [usedName, List.mem_append, not_or]
  exact ⟨by decide, ⟨⟨by decide, by decide⟩, hquote⟩, by decide⟩

/-- A character that is not a newline was there before newlines were unified. -/
theorem mem_of_mem_unifyNewlines {c : Char} (hc : c ≠ '\n') (h : c ∈ Text.unifyNewlines text) :
    c ∈ text := by
  have hin : Text.contains [c] (Text.unifyNewlines text) = true :=
    Text.contains_iff_isInfix.mpr ((List.singleton_infix_iff c _).mpr h)
  have hn : '\n' ∉ [c] := fun hm => hc (List.mem_singleton.mp hm).symm
  exact (List.singleton_infix_iff c text).mp
    (Text.contains_iff_isInfix.mp (Text.contains_of_contains_unifyNewlines hn hin))

theorem bringsUse_iff {helper : Text} {brought : List Text}
    (h : Text.splitOn '\n' (Text.unifyNewlines ns ++ ";") = helper :: brought) :
    BringsUse ns ↔ brought.filter isUseLine ≠ [] := by
  rw [BringsUse, h, List.tail_cons, Ne, List.filter_eq_nil_iff]
  simp

/-- What the namespace brings in has no dot in it. -/
theorem dot_not_mem_brought {helper line : Text} {brought : List Text} (hdot : '.' ∉ ns)
    (h : Text.splitOn '\n' (Text.unifyNewlines ns ++ ";") = helper :: brought)
    (hl : line ∈ brought) : '.' ∉ line := by
  have hmem : line ∈ Text.splitOn '\n' (Text.unifyNewlines ns ++ ";") := by
    rw [h]
    exact List.mem_cons_of_mem _ hl
  intro hm
  rcases List.mem_append.mp (Text.subset_of_mem_splitOn hmem hm) with hm | hm
  · exact hdot (mem_of_mem_unifyNewlines (by decide) hm)
  · exact absurd hm (by decide)

/-- Paths have one normal form if they have one place. -/
theorem Path.normalize_eq_iff {p q : Path} : p.normalize = q.normalize ↔ p.place = q.place :=
  ⟨congrArg Path.parts, congrArg (Path.mk .single)⟩

/-- **The first lines** of an entry name its stylesheet if the entry stands in
the directory of the stylesheets, has a quotable name that is more than an
ending, and the namespace brings in no module. -/
theorem importsOverrides_iff (hs : FileTree.IsSourceName p.name) (hdot : '.' ∉ ns)
    (he : eol = "\r\n" ∨ eol = "\n") :
    ImportsOverrides p (Text.unifyNewlines (entryBoilerplate ns p.stem eol))
        (dir.child (entryName p)) ↔
      p.parent.place = dir.place ∧ (∀ c ∈ p.name, Quotable c) ∧ p.name ≠ sheetEnding ∧
        ¬ BringsUse ns := by
  obtain ⟨helper, brought, hns⟩ := List.exists_cons_of_ne_nil
    (Text.splitOn_ne_nil '\n' (Text.unifyNewlines ns ++ ";"))
  obtain ⟨own, more, hbase⟩ := List.exists_cons_of_ne_nil
    (Text.splitOn_ne_nil '\n' (Text.unifyNewlines p.stem ++ overridesUseEnd))
  obtain ⟨others, huse⟩ := useLines_entryBoilerplate he hns hbase
  rw [bringsUse_iff hns, not_not]
  have hslash : '/' ∉ p.name → '/' ∉ usedName p := by
    intro h
    simp only [usedName, List.mem_append, not_or]
    exact ⟨⟨⟨by decide, by decide⟩, fun hm => h (stem_subset_name p hm)⟩, by decide⟩
  have hup := (isSourceName_entryName p).ne_upwards
  constructor
  · rintro ⟨line, name, hline, hused, hplace⟩
    obtain ⟨hsub, hquote⟩ := of_usedModule? hused
    -- the file's own name is that of the stylesheet, and stands in a line
    obtain ⟨around, last, hfile, hlastSlash, hlast, hplain⟩ := exists_moduleFile p.parent name
    have hsource : FileTree.IsSourceName (last ++ sheetEnding) :=
      List.isSuffixOf_iff_suffix.mpr (List.suffix_append _ _)
    rw [hfile, Path.normalize_eq_iff, Path.place_child hsource.ne_upwards,
      Path.place_child hup] at hplace
    obtain ⟨haround, hname⟩ := List.append_inj' hplace rfl
    have hname : last ++ sheetEnding = entryName p := (List.cons.inj hname).1
    have hq : ∀ c ∈ p.name, Quotable c := by
      obtain ⟨hnewline, hreturn⟩ := lacks_of_mem_useLines (List.mem_of_getElem? hline)
      rw [quotable_name_iff hs, ← hname, List.forall_mem_append]
      refine ⟨fun c hc => ?_, quotable_sheetEnding⟩
      have hmem : c ∈ ("./" : Text) ++ name := List.mem_append_right _ (hlast hc)
      exact ⟨fun h => hquote (h ▸ hmem), fun h => hlastSlash (h ▸ hc),
        fun h => hnewline (h ▸ hsub hmem), fun h => hreturn (h ▸ hsub hmem)⟩
    -- so the line is the entry's own second one
    rcases hb : brought.filter isUseLine with - | ⟨foreign, rest⟩
    · rw [huse, hb] at hline
      obtain rfl : overridesUse ++ own = line := Option.some.inj hline
      rw [usedModule?_overrides hq hbase] at hused
      obtain rfl : usedName p = name := List.append_cancel_left (Option.some.inj hused)
      obtain ⟨rfl, rfl⟩ := hplain (hslash fun hm => (hq _ hm).2.1 rfl)
      exact ⟨haround, hq, (usedName_eq_iff hs).mp hname, rfl⟩
    · rw [huse, hb] at hline
      obtain rfl : foreign = line := Option.some.inj hline
      have hmem : foreign ∈ brought.filter isUseLine := by
        rw [hb]
        exact List.mem_cons_self ..
      have hdotted : '.' ∈ ("./" : Text) ++ name := List.mem_cons_self ..
      exact absurd (hsub hdotted) (dot_not_mem_brought hdot hns (List.mem_of_mem_filter hmem))
  · rintro ⟨hplace, hq, hne, hnone⟩
    obtain ⟨around, last, hfile, -, -, hplain⟩ := exists_moduleFile p.parent (usedName p)
    obtain ⟨rfl, rfl⟩ := hplain (hslash fun hm => (hq _ hm).2.1 rfl)
    refine ⟨_, usedName p, ?_, usedModule?_overrides hq hbase, ?_⟩
    · rw [huse, hnone]
      rfl
    · rw [hfile, (usedName_eq_iff hs).mpr hne, Path.normalize_eq_iff, Path.place_child hup,
        Path.place_child hup, hplace]

end FluidScss
