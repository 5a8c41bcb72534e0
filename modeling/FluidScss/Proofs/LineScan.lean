/-
FluidScss/Proofs/LineScan.lean

The line scan of sheets with one construct a line.  Each kind of line is
understood on its own first: a declaration opens and closes nothing and is
read as it is, the first line of a block opens it for its selectors, its last
line closes it, and neither of the two is a declaration.

The scan of all lines then runs like a stack machine beside the walk over the
forest: in front of a construct the open blocks have the selectors that the
walk hands down (`SelectorStack.Matches`), and behind it they are again as
they were, so that the rest of the lines may be any (`linesDrafts_construct`).

Main result: on printed forests the line scan and the tree scan find the same
overrides (`scans_agree_on_printed`).
-/
import FluidScss.Proofs.Construct
import FluidScss.Proofs.TreeScan
import FluidScss.Scan.Line

namespace FluidScss

/-! ### Declaration lines -/

theorem upToSemicolon?_append {t : Text} (h : ';' ∉ t) : upToSemicolon? (t ++ [';']) = some t := by
  induction t with
  | nil => rfl
  | cons c t ih =>
    rw [List.mem_cons, not_or] at h
    rw [List.cons_append, upToSemicolon?, if_neg (fun hc => h.1 hc.1.symm), ih h.2]
    rfl

/-- The value behind a colon and a space, up to its semicolon. -/
theorem lineValue?_append {value : Text} (hne : value ≠ [])
    (hhead : ∀ c, value.head? = some c → isBlank c = false) (h : ';' ∉ value) :
    lineValue? (' ' :: (value ++ [';'])) = some value := by
  obtain ⟨c, value, rfl⟩ := List.exists_cons_of_ne_nil hne
  rw [List.mem_cons, not_or] at h
  have hvalue : lineValue? (c :: value ++ [';']) = some (c :: value) := by
    rw [List.cons_append, lineValue?, hhead c rfl, if_neg Bool.false_ne_true, valueHere?,
      upToSemicolon?_append h.2]
    rfl
  have hspace : isBlank ' ' = true := rfl
  rw [lineValue?, if_pos hspace, hvalue]

theorem isBlank_of_isPropertyChar {c : Char} (h : isPropertyChar c = true) : isBlank c = false := by
  rw [isPropertyChar, Bool.or_eq_true] at h
  rcases h with h | h
  · exact isBlank_of_isAlphanum (by rw [Char.isAlphanum, h, Bool.true_or])
  · rw [of_decide_eq_true h]
    decide

/-- What stands between blanks, with a colon behind, is the property of a line. -/
theorem lineProperty?_of_between {indent property gap rest : Text}
    (hindent : Text.isBlank indent = true) (hgap : Text.isBlank gap = true)
    (hne : property ≠ []) (hchars : ∀ c ∈ property, isPropertyChar c = true) :
    lineProperty? (indent ++ property ++ gap ++ ':' :: rest) = some (property, rest) := by
  have hhead : ∀ c, (property ++ (gap ++ ':' :: rest)).head? = some c → isBlank c = false := by
    obtain ⟨d, property, rfl⟩ := List.exists_cons_of_ne_nil hne
    intro e he
    obtain rfl := Option.some.inj he
    exact isBlank_of_isPropertyChar (hchars _ (.head _))
  have hbehind : ∀ c, (gap ++ ':' :: rest).head? = some c → ¬ isPropertyChar c = true := by
    intro e he hproperty
    rcases gap with - | ⟨d, gap⟩ <;> obtain rfl := Option.some.inj he
    · cases hproperty
    · have hblank := List.all_eq_true.mp hgap _ (.head _)
      rw [isBlank_of_isPropertyChar hproperty] at hblank
      cases hblank
  have htake : (property ++ (gap ++ ':' :: rest)).takeWhile isPropertyChar = property := by
    rw [List.takeWhile_append_of_pos hchars, List.takeWhile_eq_nil_iff.mpr ?_, List.append_nil]
    exact fun h => hbehind _ (List.head?_eq_getElem? ▸ List.getElem?_eq_getElem h)
  have hdrop : (property ++ (gap ++ ':' :: rest)).dropWhile isPropertyChar
      = gap ++ ':' :: rest := by
    rw [List.dropWhile_append_of_pos hchars, List.dropWhile_eq_self_iff.mpr]
    exact fun h => hbehind _ (List.head?_eq_getElem? ▸ List.getElem?_eq_getElem h)
  rw [lineProperty?, List.append_assoc, List.append_assoc, Text.trimLeft_append_of_isBlank hindent,
    Text.trimLeft_eq_self hhead, htake, hdrop, if_neg hne, Text.trimLeft_append_of_isBlank hgap]
  rfl

/-- The property of an indented line, and the text behind its colon. -/
theorem lineProperty?_declaration (indent : Nat) {property : Text} (hp : PlainProperty property)
    (rest : Text) :
    lineProperty? (List.replicate indent ' ' ++ (property ++ ':' :: rest))
      = some (property, rest) := by
  have hindent : Text.isBlank (List.replicate indent ' ') = true := by
    rw [Text.isBlank, List.all_replicate]
    cases indent <;> rfl
  have hchars : ∀ c ∈ property, isPropertyChar c = true := by
    intro c hc
    rcases hp.chars c hc with ha | rfl
    · rw [isPropertyChar, ha, Bool.true_or]
    · rfl
  have h : lineProperty? (List.replicate indent ' ' ++ property ++ [] ++ ':' :: rest)
      = some (property, rest) := lineProperty?_of_between hindent rfl hp.ne_nil hchars
  rwa [List.append_nil, List.append_assoc] at h

/-- A line of one declaration is read as the declaration. -/
theorem lineDeclaration?_declaration (indent : Nat) {extra property value : Text}
    (hp : PlainProperty property) (hv : Phrase extra value) (hs : SpaceOnly extra)
    (hx : ∀ c ∈ ("/;!" : Text), c ∉ extra) (important : Bool) :
    lineDeclaration? (List.replicate indent ' '
        ++ (declarationText property value important ++ [';']))
      = some (property, value, important) := by
  -- with no slash there is no comment to drop, with no semicolon the value
  -- ends where the line does
  have hlacks : ∀ c ∈ ("/;" : Text), c ∉ withImportant value important := by
    intro c hc hm
    have hsign : ∀ d ∈ ("/;" : Text),
        d.isAlphanum = false ∧ d ∈ ("/;!" : Text) ∧ d ∉ (" !important" : Text) := by decide
    obtain ⟨ha, hd, hflag⟩ := hsign c hc
    rcases mem_withImportant hm with hm | hm
    · exact hv.not_mem ha (hx c hd) hm
    · exact hflag hm
  have htrim := trim_withImportant hv.ne_nil (hv.trim_eq hs) important
  have hvalue : lineValue? (' ' :: (withImportant value important ++ [';']))
      = some (withImportant value important) := by
    refine lineValue?_append ?_ (fun c hc => ?_) (hlacks _ (by decide))
    · intro he
      have hh := head?_withImportant hv.ne_nil important
      rw [he, List.head?_eq_some_head hv.ne_nil] at hh
      cases hh
    · rw [head?_withImportant hv.ne_nil] at hc
      exact hv.isBlank_head hs c hc
  have hblock : dropBlockComment (withImportant value important) = withImportant value important := by
    rw [dropBlockComment, Text.breakOn_eq_none (c := '/') (by decide) (hlacks _ (by decide))]
  have hline : dropLineComment (withImportant value important) = withImportant value important := by
    rw [dropLineComment, Text.breakOn_eq_none (c := '/') (by decide) (hlacks _ (by decide))]
  have hu : Unflagged value := unflagged_of_not_mem (hv.not_mem rfl (hx _ (by decide)))
  have hsplit : List.replicate indent ' ' ++ (declarationText property value important ++ [';'])
      = List.replicate indent ' '
        ++ (property ++ ':' :: (' ' :: (withImportant value important ++ [';']))) := by
    simp [declarationText]
  rw [hsplit, lineDeclaration?, lineProperty?_declaration indent hp]
  dsimp only
  rw [hvalue]
  dsimp only
  rw [htrim, hblock, hline, splitImportant_withImportant (hv.trim_eq hs) hu]

/-- A line without a colon is no declaration. -/
theorem lineDeclaration?_eq_none {line : Text} (h : ':' ∉ line) : lineDeclaration? line = none := by
  have hproperty : lineProperty? line = none := by
    rw [lineProperty?]
    split
    · rfl
    · split
      · rename_i rest he
        have hsub : Text.trimLeft ((Text.trimLeft line).dropWhile isPropertyChar) <:+ line :=
          (List.dropWhile_suffix _).trans ((List.dropWhile_suffix _).trans (List.dropWhile_suffix _))
        rw [he] at hsub
        exact absurd (hsub.subset (List.mem_cons_self ..)) h
      · rfl
  rw [lineDeclaration?, hproperty]

/-! ### Braces -/

theorem lineSelectors_eq_nil {line : Text} (h : '\x7b' ∉ line) : lineSelectors line = [] := by
  rw [lineSelectors, Text.breakOn_eq_none (List.mem_singleton_self _) h]

/-- The first line of a block has its selectors. -/
theorem lineSelectors_join (indent : Nat) {extra : Text} {selectors : List Text}
    (hne : selectors ≠ []) (h : ∀ s ∈ selectors, Phrase extra s) (hs : SpaceOnly extra)
    (hx : ∀ c ∈ (",()\"'@:\x7b" : Text), c ∉ extra) :
    lineSelectors (List.replicate indent ' ' ++ (Text.join ", " selectors ++ [' ', '\x7b']))
      = selectors := by
  have hphrase := Phrase.join hne h
  have hlacks : ∀ c ∈ ("@:\x7b" : Text), c ∉ Text.join ", " selectors := by
    intro c hc
    have hsign : ∀ d ∈ ("@:\x7b" : Text), d.isAlphanum = false ∧ d ∉ [',', ' '] := by decide
    obtain ⟨ha, hfirst⟩ := hsign c hc
    exact Phrase.not_mem_join hne h ha hfirst (hx c (List.mem_append_right (",()\"'" : Text) hc))
  have hspaces : SpaceOnly (',' :: ' ' :: extra) := by
    intro c hc hb
    rcases List.mem_cons.mp hc with rfl | hc
    · cases hb
    · rcases List.mem_cons.mp hc with rfl | hc
      · rfl
      · exact hs c hc hb
  have hbreak : Text.breakOn ['\x7b']
      (List.replicate indent ' ' ++ (Text.join ", " selectors ++ [' ', '\x7b']))
      = some (List.replicate indent ' ' ++ (Text.join ", " selectors ++ [' ']), []) := by
    have hfront : '\x7b' ∉ List.replicate indent ' ' ++ (Text.join ", " selectors ++ [' ']) := by
      intro hm
      rcases List.mem_append.mp hm with hm | hm
      · cases List.eq_of_mem_replicate hm
      · rcases List.mem_append.mp hm with hm | hm
        · exact hlacks _ (by decide) hm
        · cases List.mem_singleton.mp hm
    have := Text.breakOn_append_cons hfront []
    rwa [List.append_assoc, List.append_assoc] at this
  have htrim : Text.trim (List.replicate indent ' ' ++ (Text.join ", " selectors ++ [' ']))
      = Text.join ", " selectors := by
    rw [Text.trim_indent, trim_concat_space (hphrase.trim_eq hspaces)]
  -- neither an at-rule nor properties nested behind a colon
  rw [lineSelectors, hbreak]
  dsimp only
  rw [htrim, if_neg, splitTopLevel_join hne h hs
    fun c hc => hx c (List.mem_append_left ("@:\x7b" : Text) hc)]
  rintro (hat | hcolon)
  · exact hlacks '@' (by decide) (List.mem_of_mem_head? hat)
  · exact hlacks ':' (by decide) hcolon

/-! ### The open blocks -/

/-- The open blocks have the selectors that the walk hands down. -/
structure SelectorStack.Matches (stack : SelectorStack) (parents : List Text) : Prop where
  current : stack.current = parents
  atRoot : stack.frames = [] ↔ parents = rootSelectors

theorem SelectorStack.matches_nil : SelectorStack.Matches {} rootSelectors := ⟨rfl, by simp⟩

/-- Selectors that are combined with others are not those of the top. -/
theorem combineSelectors_ne_root {parents selectors : List Text}
    (h : ∀ s ∈ selectors, TidySelector s) : combineSelectors parents selectors ≠ rootSelectors := by
  intro he
  -- the selector of the top is empty, and no nested one is
  have hm : [] ∈ combineSelectors parents selectors := by
    rw [he]
    exact List.mem_singleton_self _
  exact nil_not_mem_combineSelectors h hm

/-- Selectors without blanks around them are pushed as they are. -/
theorem SelectorStack.push_tidy {selectors : List Text} (hne : selectors ≠ [])
    (h : ∀ s ∈ selectors, TidySelector s) (stack : SelectorStack) :
    stack.push selectors = ⟨combineSelectors stack.current selectors :: stack.frames⟩ := by
  have hkeep : (selectors.map Text.trim).filter (· ≠ []) = selectors := by
    have htrim : selectors.map Text.trim = selectors :=
      (List.map_congr_left fun s hs => (h s hs).2).trans (List.map_id selectors)
    rw [htrim, List.filter_eq_self]
    intro s hs
    rw [decide_eq_true_iff]
    exact (h s hs).1
  exact push_eq_cons hkeep hne stack

theorem SelectorStack.Matches.push {stack : SelectorStack} {parents selectors : List Text}
    (h : ∀ s ∈ selectors, TidySelector s) :
    SelectorStack.Matches ⟨combineSelectors parents selectors :: stack.frames⟩
      (combineSelectors parents selectors) := by
  refine ⟨rfl, ?_, fun he => absurd he (combineSelectors_ne_root h)⟩
  intro he
  cases he

/-! ### Lines of constructs -/

theorem Phrase.tidy {extra s : Text} (h : Phrase extra s) (hs : SpaceOnly extra) :
    TidySelector s :=
  ⟨h.ne_nil, h.trim_eq hs⟩

theorem lineDraftsOf_eq_nil {m : Marker} {stack : SelectorStack} {line : Text} (h : ':' ∉ line) :
    lineDraftsOf m stack line = [] := by
  rw [lineDraftsOf, lineDeclaration?_eq_none h]
  split <;> rfl

/-- A line with no brace leaves the open blocks as they are. -/
theorem stackAfter_eq_self {stack : SelectorStack} {line : Text} (ho : '\x7b' ∉ line)
    (hc : '\x7d' ∉ line) : stackAfter stack line = stack := by
  rw [stackAfter, List.count_eq_zero.mpr hc, lineSelectors_eq_nil ho]
  rfl

namespace Construct

variable {m : Marker} {stack : SelectorStack} {parents : List Text}

/-- The characters of a declaration line beside letters and digits. -/
def declarationLineExtra : Text := " -.,()%+*:;!"

/-- The characters of the first line of a block beside letters and digits. -/
def blockLineExtra : Text := " .-_&>,\x7b"

theorem inAlphabet_indent (n : Nat) {extra : Text} (h : ' ' ∈ extra) :
    InAlphabet extra (List.replicate n ' ') := by
  intro c hc
  rw [List.eq_of_mem_replicate hc]
  exact .inr h

theorem inAlphabet_declarationLine (indent : Nat) {property value : Text}
    (hp : PlainProperty property) (hv : Phrase valueExtra value) (important : Bool) :
    InAlphabet declarationLineExtra (List.replicate indent ' '
      ++ (declarationText property value important ++ [';'])) := by
  refine (inAlphabet_indent indent (by decide)).append (InAlphabet.append ?_ ?_)
  · refine InAlphabet.append (hp.phrase.chars.mono (by decide)) fun c hc => ?_
    have hvalue : InAlphabet declarationLineExtra value := hv.chars.mono (by decide)
    have hflag : InAlphabet declarationLineExtra " !important" := by decide
    rcases List.mem_cons.mp hc with rfl | hc
    · exact .inr (by decide)
    · rcases List.mem_cons.mp hc with rfl | hc
      · exact .inr (by decide)
      · exact (mem_withImportant hc).elim (hvalue c) (hflag c)
  · decide

theorem inAlphabet_blockLine (indent : Nat) {selectors : List Text} (hne : selectors ≠ [])
    (hs : ∀ s ∈ selectors, Phrase selectorExtra s) :
    InAlphabet blockLineExtra (List.replicate indent ' '
      ++ (Text.join ", " selectors ++ [' ', '\x7b'])) := by
  refine (inAlphabet_indent indent (by decide)).append (InAlphabet.append ?_ ?_)
  · exact (Phrase.join hne hs).chars.mono (by decide)
  · decide

/-- A declaration gives its drafts under the open block. -/
theorem linesDrafts_declaration (hm : stack.Matches parents) (indent : Nat)
    {property value : Text} (hp : PlainProperty property) (hv : Phrase valueExtra value)
    (important : Bool) (rest : List Text) :
    linesDrafts m stack ((declaration indent property value important).lines ++ rest)
      = (declaration indent property value important).node.drafts m parents
        ++ linesDrafts m stack rest := by
  have hchars := inAlphabet_declarationLine indent hp hv important
  have hstack : stackAfter stack (List.replicate indent ' '
      ++ (declarationText property value important ++ [';'])) = stack :=
    stackAfter_eq_self (hchars.not_mem rfl (by decide)) (hchars.not_mem rfl (by decide))
  have hline := lineDeclaration?_declaration indent hp hv (by decide) (by decide) important
  rw [lines, List.singleton_append, linesDrafts, hstack, node, Node.drafts, lineDraftsOf, hline]
  by_cases hr : parents = rootSelectors
  · rw [if_pos (hm.atRoot.mpr hr), if_pos hr]
  · rw [if_neg fun he => hr (hm.atRoot.mp he), if_neg hr, declarationDrafts, hm.current]

/-- A block opens and closes around its children. -/
theorem linesDrafts_block (hm : stack.Matches parents) (indent closing : Nat)
    {selectors : List Text} {children : List Construct} (hne : selectors ≠ [])
    (hs : ∀ s ∈ selectors, Phrase selectorExtra s)
    (hc : ∀ (inner : SelectorStack) (around : List Text) (rest : List Text), inner.Matches around →
      linesDrafts m inner (linesOfList children ++ rest)
        = Node.draftsOfList m around (nodes children) ++ linesDrafts m inner rest)
    (rest : List Text) :
    linesDrafts m stack ((block indent selectors children closing).lines ++ rest)
      = (block indent selectors children closing).node.drafts m parents
        ++ linesDrafts m stack rest := by
  have htidy : ∀ s ∈ selectors, TidySelector s := fun s h => (hs s h).tidy (by decide)
  have hopen : InAlphabet blockLineExtra _ := inAlphabet_blockLine indent hne hs
  have hclose : InAlphabet " \x7d" (List.replicate closing ' ' ++ ['\x7d']) :=
    (inAlphabet_indent closing (by decide)).append (by decide)
  -- the first line pushes the combined selectors, the last line pops them,
  -- and between them the children are scanned with a rest that begins there
  have hpush : stackAfter stack (List.replicate indent ' '
      ++ (Text.join ", " selectors ++ [' ', '\x7b']))
      = ⟨combineSelectors parents selectors :: stack.frames⟩ := by
    rw [stackAfter, List.count_eq_zero.mpr (hopen.not_mem rfl (by decide)),
      lineSelectors_join indent hne hs (by decide) (by decide), ← hm.current]
    exact SelectorStack.push_tidy hne htidy stack
  have hpop : stackAfter ⟨combineSelectors parents selectors :: stack.frames⟩
      (List.replicate closing ' ' ++ ['\x7d']) = stack := by
    have hcount : (List.replicate closing ' ' ++ ['\x7d']).count '\x7d' = 1 := by
      rw [List.count_append, List.count_replicate]
      rfl
    rw [stackAfter, hcount, lineSelectors_eq_nil (hclose.not_mem rfl (by decide))]
    rfl
  have hinner := hc ⟨combineSelectors parents selectors :: stack.frames⟩
    (combineSelectors parents selectors)
    ([List.replicate closing ' ' ++ ['\x7d']] ++ rest) (SelectorStack.Matches.push htidy)
  rw [lines, List.cons_append, linesDrafts, hpush, lineDraftsOf_eq_nil (hopen.not_mem rfl (by decide)),
    List.nil_append, List.append_assoc, hinner, List.singleton_append, linesDrafts, hpop,
    lineDraftsOf_eq_nil (hclose.not_mem rfl (by decide)), List.nil_append, node, Node.drafts,
    if_neg hne]

mutual

/-- The line scan of a construct finds what the walk finds, and leaves the
open blocks as it met them. -/
theorem linesDrafts_construct (m : Marker) {stack : SelectorStack} {parents : List Text}
    (hm : stack.Matches parents) (c : Construct) (h : c.Plain) (rest : List Text) :
    linesDrafts m stack (c.lines ++ rest) = c.node.drafts m parents ++ linesDrafts m stack rest := by
  cases c with
  | declaration indent property value important =>
    exact linesDrafts_declaration hm indent h.1 h.2.1 important rest
  | block indent selectors children closing =>
    refine linesDrafts_block hm indent closing h.1 h.2.1 (fun inner around rest hi => ?_) rest
    exact linesDrafts_constructs m hi children h.2.2 rest

theorem linesDrafts_constructs (m : Marker) {stack : SelectorStack} {parents : List Text}
    (hm : stack.Matches parents) (cs : List Construct) (h : PlainList cs) (rest : List Text) :
    linesDrafts m stack (linesOfList cs ++ rest)
      = Node.draftsOfList m parents (nodes cs) ++ linesDrafts m stack rest := by
  cases cs with
  | nil => rfl
  | cons c cs =>
    rw [linesOfList, List.append_assoc, linesDrafts_construct m hm c h.1,
      linesDrafts_constructs m hm cs h.2, nodes, Node.draftsOfList, List.append_assoc]

end

/-! ### Printed forests -/

theorem not_isLineBreak_of_inAlphabet {extra t : Text} (h : InAlphabet extra t)
    (he : ∀ c ∈ extra, isLineBreak c = false) : ∀ c ∈ t, isLineBreak c = false := by
  intro c hc
  rcases h c hc with ha | hm
  · rw [← Bool.not_eq_true]
    intro hb
    simp only [isLineBreak, Bool.or_eq_true, decide_eq_true_eq] at hb
    rcases hb with ((((((((rfl | rfl) | rfl) | rfl) | rfl) | rfl) | rfl) | rfl) | rfl) | rfl <;>
      cases ha
  · exact he c hm

mutual

/-- The lines of a construct are lines. -/
theorem isLine_of_mem_lines (c : Construct) (h : c.Plain) :
    ∀ line ∈ c.lines, line ≠ [] ∧ ∀ d ∈ line, isLineBreak d = false := by
  intro line hl
  cases c with
  | declaration indent property value important =>
    rw [lines, List.mem_singleton] at hl
    subst hl
    refine ⟨by simp [declarationText], ?_⟩
    exact not_isLineBreak_of_inAlphabet
      (inAlphabet_declarationLine indent h.1 h.2.1 important) (by decide)
  | block indent selectors children closing =>
    rw [lines] at hl
    rcases List.mem_cons.mp hl with rfl | hl
    · refine ⟨by simp, ?_⟩
      exact not_isLineBreak_of_inAlphabet (inAlphabet_blockLine indent h.1 h.2.1) (by decide)
    · rcases List.mem_append.mp hl with hl | hl
      · exact isLine_of_mem_linesOfList children h.2.2 line hl
      · rw [List.mem_singleton] at hl
        subst hl
        have hclose : InAlphabet " \x7d" (List.replicate closing ' ' ++ ['\x7d']) :=
          (inAlphabet_indent closing (by decide)).append (by decide)
        exact ⟨by simp, not_isLineBreak_of_inAlphabet hclose (by decide)⟩

theorem isLine_of_mem_linesOfList (cs : List Construct) (h : PlainList cs) :
    ∀ line ∈ linesOfList cs, line ≠ [] ∧ ∀ d ∈ line, isLineBreak d = false := by
  intro line hl
  cases cs with
  | nil => cases hl
  | cons c cs =>
    rw [linesOfList] at hl
    rcases List.mem_append.mp hl with hl | hl
    · exact isLine_of_mem_lines c h.1 line hl
    · exact isLine_of_mem_linesOfList cs h.2 line hl

end

end Construct

/-- The line scan of a printed forest finds what the walk over the forest
finds. -/
theorem lineDrafts_printed (m : Marker) (forest : List Construct)
    (h : Construct.PlainList forest) (final : Bool) :
    lineDrafts m (Construct.print forest final)
      = Node.draftsOfList m rootSelectors (Construct.nodes forest) := by
  rcases forest with - | ⟨c, cs⟩
  · cases final <;> rfl
  · -- the lines of the text are those that were joined
    have hlines := Text.lines_join (Construct.linesOfList_ne_nil c cs)
      (Construct.isLine_of_mem_linesOfList (c :: cs) h) final
    have hscan := Construct.linesDrafts_constructs m SelectorStack.matches_nil (c :: cs) h []
    rw [List.append_nil] at hscan
    rw [lineDrafts, Construct.print, hlines, hscan]
    exact List.append_nil _

/-- **The two scans agree**: on a sheet with one construct a line the line
scan finds the overrides of the forest, in the order and with the numbers of
the walk, and so does the tree scan unless the nesting is too deep. -/
theorem scans_agree_on_printed (m : Marker) (forest : List Construct)
    (h : Construct.PlainList forest) (final : Bool) (start : Int) :
    number start (lineDrafts m (Construct.print forest final))
        = number start (Node.draftsOfList m rootSelectors (Construct.nodes forest)) ∧
      (Construct.depthOfList forest ≤ 150 →
        (treeDrafts m (Construct.print forest final)).map (number start)
          = .ok (number start (lineDrafts m (Construct.print forest final)))) := by
  have hline := lineDrafts_printed m forest h final
  refine ⟨by rw [hline], fun hd => ?_⟩
  have hlimit : Construct.depthOfList forest ≤ Outline.nestingLimit :=
    Nat.le_trans hd (by decide)
  rw [hline, treeDrafts_printed m forest h final hlimit]
  rfl

/-- Two selectors around a flagged declaration. -/
def exampleForest : List Construct :=
  [.block 0 ["a", "b > c"] [.declaration 2 "font-size" "r.resp(2px, 1px, h1)" true] 0]

theorem scans_agree_on_printed_example :
    Construct.PlainList exampleForest ∧
      (treeDrafts ⟨"r", "resp"⟩ (Construct.print exampleForest true)).map (number 3)
        = .ok (number 3 (lineDrafts ⟨"r", "resp"⟩ (Construct.print exampleForest true))) := by
  have hplain : Construct.PlainList exampleForest :=
    ⟨⟨by decide, by decide, ⟨by decide, by decide, by decide⟩, trivial⟩, trivial⟩
  exact ⟨hplain, (scans_agree_on_printed ⟨"r", "resp"⟩ exampleForest hplain true 3).2 (by decide)⟩

end FluidScss
