/-
FluidScss/Proofs/OverrideSheet.lean

The generated stylesheet says what was merged.  Rendering the rules of a
project and reading the text again gives the tree `overrideNodes`: the
at-rule that loads the helpers, and the mixin with its media query, in which
each rule is a block and each of its properties a declaration, in their
order and on the lines that the renderer puts them
(`parseSheet_renderOverrides`).

What is asked of the overrides is asked of each alone (`PlainOverride`), and
merging keeps it (`plainRule_mergeRules`).  The text is taken apart into
lines (`newline_indentLines_ruleBlock`); each part is then read on its own,
declarations, blocks, blocks with empty lines between them, and the header.
-/
import FluidScss.Override.Sheet
import FluidScss.Proofs.QuotedValue

namespace FluidScss

/-! ### Plain overrides -/

/-- The characters of selectors of rules beside letters and digits. -/
def ruleSelectorExtra : Text := " .#-_:>+~*[]="

/-- A selector that does not end with a colon, which would nest properties. -/
structure PlainSelector (selector : Text) : Prop where
  phrase : Phrase ruleSelectorExtra selector
  last_ne : selector.getLast? ≠ some ':'

instance (selector : Text) : Decidable (PlainSelector selector) :=
  decidable_of_iff (Phrase ruleSelectorExtra selector ∧ selector.getLast? ≠ some ':')
    ⟨fun h => ⟨h.1, h.2⟩, fun h => ⟨h.phrase, h.last_ne⟩⟩

/-- A value with strings in it, with or without the flag. -/
def FlaggedValue (value : Text) : Prop :=
  ∃ bare important, QuotedValue bare ∧ value = withImportant bare important

/-- An override whose parts may stand in a stylesheet. -/
structure PlainOverride (o : Override) : Prop where
  selector : PlainSelector o.selector
  property : PlainProperty o.property
  value : FlaggedValue o.value

/-- A property and its value, as they may stand in a stylesheet. -/
def PlainEntry (entry : Text × Text) : Prop := PlainProperty entry.1 ∧ FlaggedValue entry.2

/-- A rule whose parts may stand in a stylesheet; it is never empty. -/
structure PlainRule (rule : Text × Properties) : Prop where
  selector : PlainSelector rule.1
  ne_nil : rule.2 ≠ []
  entries : ∀ entry ∈ rule.2, PlainEntry entry

/-! ### Merging -/

section Upsert

variable {κ α : Type} [DecidableEq κ] {key : κ} {new : α} {f : α → α} {entries : List (κ × α)}

theorem upsert_ne_nil : upsert key new f entries ≠ [] := by
  intro h
  have hkeys := map_fst_upsert key new f entries
  rw [h] at hkeys
  split at hkeys
  · rename_i hm
    rw [← hkeys] at hm
    cases hm
  · simp at hkeys

/-- What holds of the entries and is kept by the change holds after it. -/
theorem forall_upsert {P : κ × α → Prop} (hnew : P (key, f new))
    (hf : ∀ a, P (key, a) → P (key, f a)) (h : ∀ e ∈ entries, P e) :
    ∀ e ∈ upsert key new f entries, P e := by
  induction entries with
  | nil =>
    -- a key that was not there gets the new value, changed
    intro e he
    rw [upsert, List.mem_singleton] at he
    rw [he]
    exact hnew
  | cons first rest ih =>
    obtain ⟨k, a⟩ := first
    have hfirst := h (k, a) (List.mem_cons_self ..)
    have hrest := fun e he => h e (List.mem_cons_of_mem _ he)
    intro e he
    rw [upsert] at he
    split at he
    · rename_i hk
      subst hk
      rcases List.mem_cons.mp he with rfl | he
      · exact hf a hfirst
      · exact hrest e he
    · rcases List.mem_cons.mp he with rfl | he
      · exact hfirst
      · exact ih hrest e he

end Upsert

/-- One more plain override leaves rules plain. -/
theorem plainRule_addOverride {rules : Rules} {o : Override} (ho : PlainOverride o)
    (h : ∀ rule ∈ rules, PlainRule rule) : ∀ rule ∈ addOverride rules o, PlainRule rule := by
  have hentry : PlainEntry (o.property, o.value) := ⟨ho.property, ho.value⟩
  refine forall_upsert ⟨ho.selector, upsert_ne_nil, ?_⟩ (fun props hp => ?_) h
  · exact forall_upsert hentry (fun _ _ => hentry) fun e he => absurd he List.not_mem_nil
  · exact ⟨ho.selector, upsert_ne_nil, forall_upsert hentry (fun _ _ => hentry) hp.entries⟩

/-- Plain overrides are merged to plain rules. -/
theorem plainRule_mergeRules {overrides : List Override} (h : ∀ o ∈ overrides, PlainOverride o) :
    ∀ rule ∈ mergeRules overrides, PlainRule rule := by
  -- plainness of the rules so far carries the fold; sorting only reorders
  have hfold : ∀ (os : List Override) (rules : Rules), (∀ o ∈ os, PlainOverride o) →
      (∀ rule ∈ rules, PlainRule rule) → ∀ rule ∈ os.foldl addOverride rules, PlainRule rule := by
    intro os
    induction os with
    | nil => exact fun rules _ hr => hr
    | cons o os ih =>
      intro rules ho hr
      exact ih _ (fun p hp => ho p (List.mem_cons_of_mem _ hp))
        (plainRule_addOverride (ho o (List.mem_cons_self ..)) hr)
  refine hfold _ [] (fun o ho => h o ?_) fun rule hr => absurd hr List.not_mem_nil
  exact List.mem_mergeSort.mp ho

/-! ### The tree -/

/-- A value without the flag at its end, and whether it had one. -/
def splitFlag (value : Text) : Text × Bool :=
  match Text.dropSuffix? " !important" value with
  | some bare => (bare, true)
  | none => (value, false)

/-- The declarations of properties, one a line. -/
def entryNodes (k : Nat) : Properties → List Node
  | [] => []
  | (property, value) :: entries =>
    .declaration property (splitFlag value).1 (splitFlag value).2 k :: entryNodes (k + 1) entries

/-- The blocks of rules: a line for the selector, one for each property, one
for the brace and an empty one. -/
def ruleNodes (k : Nat) : Rules → List Node
  | [] => []
  | (selector, entries) :: rules =>
    .block selector [selector] (entryNodes (k + 1) entries) (some k)
      :: ruleNodes (k + entries.length + 3) rules

/-- The parameters of the at-rule that loads the helpers. -/
def useParams (m : Marker) : Text := "\"./responsive\" as " ++ m.ns

/-- The parameters of the mixin. -/
def mixinParams : Text := overridesMixin ++ "()"

/-- The parameters of the media query. -/
def mediaParams (mobileMax : Int) : Text :=
  "screen and (max-width: " ++ Text.ofInt mobileMax ++ "px)"

/-- The tree of the stylesheet with these rules. -/
def overrideNodes (m : Marker) (mobileMax : Int) (rules : Rules) : List Node :=
  [.atRule "use" (useParams m) [] 1,
    .atRule "mixin" mixinParams [.atRule "media" (mediaParams mobileMax) (ruleNodes 9 rules) 8] 7]

/-- The flag that was set is split off, and nothing besides. -/
theorem splitFlag_withImportant {value : Text} (h : QuotedValue value) (important : Bool) :
    splitFlag (withImportant value important) = (value, important) := by
  cases important
  · have hsuffix : (" !important" : Text).isSuffixOf value = false := by
      rw [← Bool.not_eq_true, List.isSuffixOf_iff_suffix]
      rintro ⟨front, he⟩
      -- the mark of such an ending has no quote behind it
      have hmark : value = (front ++ [' ']) ++ '!' :: ("important" : Text) := by
        rw [← he, List.append_assoc]
        rfl
      exact absurd (h.mem_of_eq hmark) (by decide)
    rw [withImportant, if_neg Bool.false_ne_true, splitFlag, Text.dropSuffix?, hsuffix,
      if_neg Bool.false_ne_true]
  · have hsuffix : (" !important" : Text).isSuffixOf (value ++ " !important") = true :=
      List.isSuffixOf_iff_suffix.mpr (List.suffix_append _ _)
    have hlength : (value ++ (" !important" : Text)).length - (" !important" : Text).length
        = value.length := by
      rw [List.length_append, Nat.add_sub_cancel]
    rw [withImportant, if_pos rfl, splitFlag, Text.dropSuffix?, hsuffix, if_pos rfl, hlength,
      List.take_left]

/-! ### Lines of the stylesheet -/

/-- The lines of a rule's block. -/
def ruleLines (rule : Text × Properties) : List Text :=
  (rule.1 ++ [' ', '\x7b']) :: (rule.2.map declarationLine ++ [['\x7d']])

theorem ruleBlock_eq_join {rule : Text × Properties} (hne : rule.2 ≠ []) :
    ruleBlock rule = Text.join "\n" (ruleLines rule) := by
  obtain ⟨selector, entries⟩ := rule
  obtain ⟨entry, entries, rfl⟩ := List.exists_cons_of_ne_nil hne
  rw [ruleLines, ruleBlock, Text.join_cons, List.map_cons, Text.join_cons]
  simp

theorem newline_not_mem_flaggedValue {value : Text} (h : FlaggedValue value) : '\n' ∉ value := by
  obtain ⟨bare, important, hb, rfl⟩ := h
  intro hm
  rcases mem_withImportant hm with hm | hm
  · exact hb.newline_not_mem hm
  · revert hm
    decide

theorem newline_not_mem_declarationLine {entry : Text × Text} (h : PlainEntry entry) :
    '\n' ∉ declarationLine entry := by
  have hp := h.1.phrase.not_mem (x := '\n') rfl (by decide)
  have hv := newline_not_mem_flaggedValue h.2
  simp [declarationLine, hp, hv]

theorem newline_not_mem_ruleLines {rule : Text × Properties} (h : PlainRule rule) :
    ∀ line ∈ ruleLines rule, '\n' ∉ line := by
  intro line hm
  rcases List.mem_cons.mp hm with rfl | hm
  · have hs := h.selector.phrase.not_mem (x := '\n') rfl (by decide)
    simp [hs]
  · rcases List.mem_append.mp hm with hm | hm
    · obtain ⟨entry, he, rfl⟩ := List.mem_map.mp hm
      exact newline_not_mem_declarationLine (h.entries entry he)
    · rw [List.mem_singleton.mp hm]
      decide

/-- The block of a rule, indented, with a line break in front of each line. -/
def ruleText (rule : Text × Properties) : Text :=
  Text.precededLines ((ruleLines rule).map (("    " : Text) ++ ·))

theorem newline_indentLines_ruleBlock {rule : Text × Properties} (h : PlainRule rule) :
    '\n' :: Text.indentLines "    " (ruleBlock rule) = ruleText rule := by
  have hne : ruleLines rule ≠ [] := List.cons_ne_nil _ _
  rw [ruleBlock_eq_join h.ne_nil, Text.indentLines_join _ hne (newline_not_mem_ruleLines h),
    Text.newline_join (by simpa using hne), ruleText]

theorem count_ruleText {rule : Text × Properties} (h : PlainRule rule) :
    (ruleText rule).count '\n' = rule.2.length + 2 := by
  have hlines : ∀ line ∈ (ruleLines rule).map (("    " : Text) ++ ·), '\n' ∉ line := by
    intro line hm
    obtain ⟨inner, hi, rfl⟩ := List.mem_map.mp hm
    rw [List.mem_append, not_or]
    exact ⟨by decide, newline_not_mem_ruleLines h inner hi⟩
  rw [ruleText, Text.count_precededLines hlines]
  simp [ruleLines]

/-- The blocks of rules, with an empty line between two. -/
def rulesText : Rules → Text
  | [] => []
  | rule :: rules => ruleText rule ++ rules.flatMap fun rule => '\n' :: ruleText rule

theorem newline_ruleBlocks {rules : Rules} (h : ∀ rule ∈ rules, PlainRule rule) :
    '\n' :: ruleBlocks rules = rulesText rules ++ ['\n'] := by
  rcases rules with - | ⟨rule, rules⟩
  · rfl
  · have hrest : ∀ rs : Rules, (∀ r ∈ rs, PlainRule r) →
        (rs.map fun r => Text.indentLines "    " (ruleBlock r)).flatMap (("\n\n" : Text) ++ ·)
          = rs.flatMap fun r => '\n' :: ruleText r := by
      intro rs hr
      rw [List.flatMap_map]
      refine List.flatMap_congr fun r hm => ?_
      rw [← newline_indentLines_ruleBlock (hr r hm)]
      rfl
    rw [ruleBlocks, if_neg (List.cons_ne_nil _ _), List.map_cons, Text.join_cons,
      hrest rules fun r hm => h r (List.mem_cons_of_mem _ hm), rulesText,
      ← newline_indentLines_ruleBlock (h rule (List.mem_cons_self ..))]
    rfl

/-! ### Reading the blocks -/

/-- A declaration with its semicolon is read as the property and what
`splitFlag` makes of the value. -/
theorem readsNodes_entry {entry : Text × Text} (h : PlainEntry entry) :
    ReadsNodes 0 (entry.1 ++ ": " ++ entry.2 ++ ";")
      fun k => [.declaration entry.1 (splitFlag entry.2).1 (splitFlag entry.2).2 k] := by
  obtain ⟨hp, bare, important, hb, hvalue⟩ := h
  have hnode := statementNode?_declaration hp.phrase (by decide) (by decide) (by decide) hb.ne_nil
    hb.trim_eq hb.unflagged important
  have htext : entry.1 ++ ": " ++ entry.2 ++ ";"
      = declarationText entry.1 bare important ++ [';'] := by
    rw [hvalue, declarationText]
    simp
  rw [htext, hvalue, splitFlag_withImportant hb]
  exact ReadsNodes.statement (declarationText_ne_nil hp.ne_nil) (hb.chunkText hp important)
    (isBlank_head_declarationText hp.phrase (by decide)) hnode

theorem readsNodes_entries {entries : Properties} (h : ∀ entry ∈ entries, PlainEntry entry) :
    ReadsNodes 0
      (Text.precededLines ((entries.map declarationLine).map (("    " : Text) ++ ·)))
      fun k => entryNodes (k + 1) entries := by
  induction entries with
  | nil => exact ReadsNodes.blanks (t := []) fun c hc => absurd hc List.not_mem_nil
  | cons entry entries ih =>
    have hentry := h entry (List.mem_cons_self ..)
    have hrest := ih fun e he => h e (List.mem_cons_of_mem _ he)
    have hline : ReadsNodes 0 ('\n' :: (("    " : Text) ++ declarationLine entry))
        fun k => [.declaration entry.1 (splitFlag entry.2).1 (splitFlag entry.2).2 (k + 1)] := by
      have hsplit : '\n' :: (("    " : Text) ++ declarationLine entry)
          = ('\n' :: ("      " : Text)) ++ (entry.1 ++ ": " ++ entry.2 ++ ";") := by
        simp [declarationLine]
      rw [hsplit]
      exact (readsNodes_entry hentry).after_blanks (isSheetBlank_newline_indent _ (by decide))
    have hcount : ('\n' :: (("    " : Text) ++ declarationLine entry)).count '\n' = 1 := by
      have hzero := List.count_eq_zero_of_not_mem (newline_not_mem_declarationLine hentry)
      rw [List.count_cons_self, List.count_append, hzero]
      rfl
    rw [List.map_cons, List.map_cons, Text.precededLines_cons, ← List.cons_append]
    refine (hline.append hrest).congr fun k => ?_
    rw [hcount]
    rfl

/-- A rule is read as its block. -/
theorem readsNodes_rule {rule : Text × Properties} (h : PlainRule rule) :
    ReadsNodes 1 (ruleText rule)
      fun k => [.block rule.1 [rule.1] (entryNodes (k + 2) rule.2) (some (k + 1))] := by
  have hs := h.selector.phrase
  have hone : selectorList rule.1 = [rule.1] := by
    have hphrases : ∀ s ∈ [rule.1], Phrase ruleSelectorExtra s := by
      intro s hm
      rw [List.mem_singleton.mp hm]
      exact hs
    have hjoin := selectorList_join (List.cons_ne_nil _ _) hphrases (by decide) (by decide)
    rwa [Text.join_singleton] at hjoin
  have hnode := blockNode?_phrase hs (by decide) (by decide) h.selector.last_ne
  rw [hone] at hnode
  have hzero : (rule.1 ++ [' ']).count '\n' = 0 := by
    have hn := hs.not_mem (x := '\n') rfl (by decide)
    exact List.count_eq_zero_of_not_mem (by simp [hn])
  have hbody := (readsNodes_entries h.entries).before_blanks
    (isSheetBlank_newline_indent "    " (by decide))
  have hblock := ReadsNodes.block (List.append_ne_nil_of_left_ne_nil hs.ne_nil _)
    (chunkText_selectors hs (by decide) (by decide)) (isBlank_head_concat hs (by decide)) hbody
    fun k children => hnode children k
  have hsplit : ruleText rule = ('\n' :: ("    " : Text)) ++ (rule.1 ++ [' '] ++ '\x7b' ::
      (Text.precededLines ((rule.2.map declarationLine).map (("    " : Text) ++ ·))
        ++ '\n' :: "    " ++ ['\x7d'])) := by
    rw [ruleText, ruleLines, List.map_cons, List.map_append, Text.precededLines_cons,
      Text.precededLines_append]
    simp [Text.precededLines]
  rw [hsplit]
  refine (hblock.after_blanks (isSheetBlank_newline_indent _ (by decide))).congr fun k => ?_
  rw [hzero]
  rfl

theorem readsNodes_rules {rules : Rules} (h : ∀ rule ∈ rules, PlainRule rule) :
    ReadsNodes 1 (rulesText rules) fun k => ruleNodes (k + 1) rules := by
  have hgap : ∀ rs : Rules, (∀ r ∈ rs, PlainRule r) →
      ReadsNodes 1 (rs.flatMap fun r => '\n' :: ruleText r) fun k => ruleNodes (k + 2) rs := by
    -- two lines below where the text begins, for the first of them is empty
    intro rs hr
    induction rs with
    | nil => exact ReadsNodes.blanks (t := []) fun c hc => absurd hc List.not_mem_nil
    | cons r rs ih =>
      have hfirst := hr r (List.mem_cons_self ..)
      have hrest := ih fun q hq => hr q (List.mem_cons_of_mem _ hq)
      have hline := (readsNodes_rule hfirst).after_blanks
        (isSheetBlank_newline_indent [] (by decide))
      refine (hline.append hrest).congr fun k => ?_
      have hnext : k + (1 + (r.2.length + 2)) + 2 = k + 2 + r.2.length + 3 := by omega
      rw [List.count_append, count_ruleText hfirst]
      show _ :: ruleNodes (k + (1 + (r.2.length + 2)) + 2) rs = _
      rw [hnext]
      rfl
  rcases rules with - | ⟨rule, rules⟩
  · exact ReadsNodes.blanks (t := []) fun c hc => absurd hc List.not_mem_nil
  · have hfirst := h rule (List.mem_cons_self ..)
    refine ((readsNodes_rule hfirst).append
      (hgap rules fun r hr => h r (List.mem_cons_of_mem _ hr))).congr fun k => ?_
    have hnext : k + (rule.2.length + 2) + 2 = k + 1 + rule.2.length + 3 := by omega
    rw [count_ruleText hfirst, hnext]
    rfl

/-! ### The header and the at-rules around the blocks -/

/-- The parts of a marker are names: letters, digits, underscores, hyphens. -/
structure PlainMarker (m : Marker) : Prop where
  ns : Phrase "_-" m.ns
  fn : Phrase "_-" m.fn

instance (m : Marker) : Decidable (PlainMarker m) :=
  decidable_of_iff (Phrase "_-" m.ns ∧ Phrase "_-" m.fn)
    ⟨fun h => ⟨h.1, h.2⟩, fun h => ⟨h.ns, h.fn⟩⟩

/-- The parameters begin with a string. -/
theorem useParams_eq (m : Marker) :
    useParams m = '"' :: (("./responsive" : Text) ++ '"' :: ((" as " : Text) ++ m.ns)) := by
  have hlit : ("\"./responsive\" as " : Text)
      = '"' :: (("./responsive" : Text) ++ '"' :: (" as " : Text)) := by decide
  show _ ++ m.ns = _
  rw [hlit, List.cons_append, List.append_assoc, List.cons_append]

theorem getLast?_append_ns {m : Marker} (h : PlainMarker m) (front : Text) :
    (front ++ m.ns).getLast? = m.ns.getLast? := by
  rw [List.getLast?_append, List.getLast?_eq_some_getLast h.ns.ne_nil, Option.some_or]

theorem phrase_useParams {m : Marker} (h : PlainMarker m) :
    Phrase " \"./_-" (useParams m) := by
  have hfront : InAlphabet " \"./_-" ("\"./responsive\" as " : Text) := by decide
  refine ⟨?_, ?_, ?_, ?_⟩
  · rw [useParams_eq]
    exact List.cons_ne_nil _ _
  · exact hfront.append (h.ns.chars.mono (by decide))
  · rw [useParams_eq, List.head?_cons]
    decide
  · have hlast : (useParams m).getLast? = m.ns.getLast? := getLast?_append_ns h _
    rw [hlast]
    exact h.ns.last

/-- The at-rule that loads the helpers is one chunk; its file name is a
string. -/
theorem chunkText_use {m : Marker} (h : PlainMarker m) :
    ChunkText (atRuleText "use" (useParams m)) := by
  have hfront : ∀ c ∈ (" as " : Text), isPlain c = true := by decide
  have htail : ChunkText ((" as " : Text) ++ m.ns) := by
    refine chunkText_of_plain (fun c hc => ?_) (fun hl => ?_) ?_
    · rcases List.mem_append.mp hc with hc | hc
      · exact hfront c hc
      · exact h.ns.plain (by decide) c hc
    · rw [getLast?_append_ns h] at hl
      exact h.ns.not_mem (x := '#') rfl (by decide) (List.mem_of_mem_getLast? hl)
    · exact (closing_of_not_mem (by decide)).append
        (closing_of_not_mem (h.ns.not_mem rfl (by decide)))
  have hparams : ChunkText (useParams m) := by
    rw [useParams_eq]
    exact .string (by decide) (by decide) (by decide) htail
  -- the blank behind the name keeps it apart from the string
  refine ChunkText.prepend (s := '@' :: "use") (by decide) (by decide)
    (.char rfl nofun (fun hu => ?_) hparams)
  cases (List.cons_prefix_cons.mp hu).1

/-- The header in its parts: the at-rule and three comments. -/
theorem overridesHeader_eq (m : Marker) :
    overridesHeader m = atRuleText "use" (useParams m) ++ [';'] ++ (['\n', '\n']
      ++ ('/' :: '/' :: ((" " : Text) ++ generatedStamp ++ " from " ++ configName) ++ ['\n']
      ++ ('/' :: '/' :: ((" Source: scanned " : Text) ++ m.qualified
        ++ "(pc, mobile, type) markers in scss.") ++ ['\n']
      ++ ('/' :: '/' ::
        (" Do not edit this file directly; re-run: scss-kit responsive generate" : Text)
          ++ ['\n'] ++ ['\n'])))) := by
  have huse : ("@use \"./responsive\" as " : Text) ++ m.ns = atRuleText "use" (useParams m) := by
    have hlit : ("@use \"./responsive\" as " : Text)
        = ('@' :: ("use" : Text)) ++ ' ' :: ("\"./responsive\" as " : Text) := by decide
    rw [hlit, List.append_assoc]
    rfl
  have hsemicolon : (";\n" : Text) = [';', '\n'] := rfl
  have hslashes : ("// " : Text) = '/' :: '/' :: (" " : Text) := rfl
  have hsource : ("// Source: scanned " : Text) = '/' :: '/' :: (" Source: scanned " : Text) := by
    decide
  have hend : ("(pc, mobile, type) markers in scss.\n" : Text)
      = ("(pc, mobile, type) markers in scss." : Text) ++ ['\n'] := by decide
  have hedit : ("// Do not edit this file directly; re-run: scss-kit responsive generate\n" : Text)
      = '/' :: '/' :: (" Do not edit this file directly; re-run: scss-kit responsive generate" : Text)
        ++ ['\n'] := by decide
  have hbreak : ("\n" : Text) = ['\n'] := rfl
  unfold overridesHeader
  rw [huse, hsemicolon, hbreak, hslashes, hsource, hend, hedit]
  simp only [List.append_assoc, List.cons_append, List.nil_append]

theorem count_overridesHeader {m : Marker} (h : PlainMarker m) :
    (overridesHeader m).count '\n' = 6 := by
  have hns := List.count_eq_zero_of_not_mem (h.ns.not_mem (x := '\n') rfl (by decide))
  have hfn := List.count_eq_zero_of_not_mem (h.fn.not_mem (x := '\n') rfl (by decide))
  unfold overridesHeader
  simp only [List.count_append, Marker.qualified, hns, hfn]
  decide

/-- The header is read as its at-rule; the rest of it are comments. -/
theorem readsNodes_header {m : Marker} (h : PlainMarker m) :
    ReadsNodes 0 (overridesHeader m) fun k => [.atRule "use" (useParams m) [] k] := by
  have hparams := phrase_useParams h
  have huse : ReadsNodes 0 (atRuleText "use" (useParams m) ++ [';'])
      fun k => [.atRule "use" (useParams m) [] k] := by
    refine ReadsNodes.statement (List.cons_ne_nil _ _) (chunkText_use h) (fun c hc => ?_)
      (statementNode?_atRule (by decide) hparams.ne_nil (hparams.trim_eq (by decide)))
    cases hc
    rfl
  have hns := h.ns.not_mem (x := '\n') rfl (by decide)
  have hfn := h.fn.not_mem (x := '\n') rfl (by decide)
  have hqualified : '\n' ∉ (" Source: scanned " : Text) ++ m.qualified
      ++ "(pc, mobile, type) markers in scss." := by
    have hlit : '\n' ∉ (" Source: scanned " : Text)
        ∧ '\n' ∉ ("(pc, mobile, type) markers in scss." : Text) := by decide
    have hdot : '\n' ∉ ("." : Text) := by decide
    simp only [Marker.qualified, List.mem_append, hlit, hns, hfn, hdot, or_self, not_false_iff]
  have hstamp : '\n' ∉ (" " : Text) ++ generatedStamp ++ " from " ++ configName := by decide
  have hedit : '\n' ∉
      (" Do not edit this file directly; re-run: scss-kit responsive generate" : Text) := by decide
  have hcomments := (ReadsNodes.comment (n := 0) hstamp).append
    ((ReadsNodes.comment hqualified).append
      ((ReadsNodes.comment hedit).before_blanks (t := ['\n']) (by decide)))
  rw [overridesHeader_eq]
  exact huse.append (hcomments.after_blanks (s := ['\n', '\n']) (by decide))

theorem inAlphabet_ofInt (n : Int) : InAlphabet "-" (Text.ofInt n) := by
  have hdigits : InAlphabet "-" (Text.ofNat n.natAbs) := by
    intro c hc
    have hd := Nat.isDigit_of_mem_toDigits (by decide) (by decide) hc
    exact .inl (by rw [Char.isAlphanum, hd, Bool.or_true])
  rw [Text.ofInt]
  split
  · exact InAlphabet.append (s := ['-']) (by decide) hdigits
  · exact hdigits

theorem phrase_mediaParams (mobileMax : Int) : Phrase " (:-)" (mediaParams mobileMax) := by
  have hfront : InAlphabet " (:-)" ("screen and (max-width: " : Text) := by decide
  have hnumber : InAlphabet " (:-)" (Text.ofInt mobileMax) :=
    (inAlphabet_ofInt mobileMax).mono (by decide)
  have hhead : (mediaParams mobileMax).head? = some 's' := rfl
  have hlast : (mediaParams mobileMax).getLast? = some ')' := by
    show (_ ++ ("px)" : Text)).getLast? = _
    rw [List.getLast?_append]
    rfl
  refine ⟨List.append_ne_nil_of_right_ne_nil _ (by decide), ?_, ?_, ?_⟩
  · exact (hfront.append hnumber).append (by decide)
  · rw [hhead]
    decide
  · rw [hlast]
    decide

/-- The text of the media query is one chunk, whatever number it holds. -/
theorem chunkText_media (mobileMax : Int) :
    ChunkText (atRuleText "media" (mediaParams mobileMax) ++ [' ']) := by
  have hname : ∀ c ∈ '@' :: ("media" : Text), isPlain c = true := by decide
  refine chunkText_of_plain (fun c hc => ?_) (fun hl => ?_) ?_
  · rcases List.mem_append.mp hc with hc | hc
    · rcases List.mem_append.mp (show c ∈ ('@' :: ("media" : Text)) ++ _ from hc) with hc | hc
      · exact hname c hc
      · rcases List.mem_cons.mp hc with rfl | hc
        · rfl
        · exact (phrase_mediaParams mobileMax).plain (by decide) c hc
    · rw [List.mem_singleton.mp hc]
      rfl
  · rw [List.getLast?_concat] at hl
    cases hl
  · have hsplit : atRuleText "media" (mediaParams mobileMax) ++ [' ']
        = ('@' :: (("media" : Text) ++ ' ' :: (("screen and (max-width: " : Text)
          ++ Text.ofInt mobileMax))) ++ (("px)" : Text) ++ [' ']) := by
      unfold atRuleText mediaParams
      simp only [List.append_assoc, List.cons_append]
    -- one parenthesis at the end closes whatever stands in front of it
    rw [hsplit]
    exact Closing.append_of_mem (by decide) (closing_of_not_mem (by decide))

/-- An at-rule with a block is read with what its block is read as. -/
theorem readsNodes_atRule {extra name params body : Text} {n : Nat} {f : Nat → List Node}
    (hn : ∀ c ∈ name, isNameChar c = true) (hp : Phrase extra params) (hs : SpaceOnly extra)
    (hx : '\n' ∉ extra) (hc : ChunkText (atRuleText name params ++ [' ']))
    (hb : ReadsNodes n body f) :
    ReadsNodes (n + 1) (atRuleText name params ++ [' '] ++ '\x7b' :: (body ++ ['\x7d']))
      fun k => [.atRule name params (f k) k] := by
  have hne : atRuleText name params ++ [' '] ≠ [] := List.cons_ne_nil _ _
  have hzero : (atRuleText name params ++ [' ']).count '\n' = 0 := by
    have hname : '\n' ∉ name := fun hm => absurd (hn _ hm) (by decide)
    have hparams := hp.not_mem (x := '\n') rfl hx
    refine List.count_eq_zero_of_not_mem ?_
    simp [atRuleText, hname, hparams]
  refine (ReadsNodes.block hne hc (fun c hm => ?_) hb
    (blockNode?_atRule hn hp.ne_nil (hp.trim_eq hs))).congr fun k => ?_
  · cases hm
    rfl
  · rw [hzero]
    rfl

/-- The media query and the mixin around it. -/
def mixinText (mobileMax : Int) (rules : Rules) : Text :=
  atRuleText "mixin" mixinParams ++ [' '] ++ '\x7b' ::
    ('\n' :: "  " ++ (atRuleText "media" (mediaParams mobileMax) ++ [' '] ++ '\x7b' ::
      (rulesText rules ++ '\n' :: "  " ++ ['\x7d'])) ++ ['\n'] ++ ['\x7d'])

/-- The mixin is read with the media query in it, and that with the rules. -/
theorem readsNodes_mixin (mobileMax : Int) {rules : Rules} (h : ∀ rule ∈ rules, PlainRule rule) :
    ReadsNodes 3 (mixinText mobileMax rules) fun k => [.atRule "mixin" mixinParams
      [.atRule "media" (mediaParams mobileMax) (ruleNodes (k + 2) rules) (k + 1)] k] := by
  have hindent := isSheetBlank_newline_indent "  " (by decide)
  have hmixin : Phrase "_()" mixinParams := by decide
  have hchunk : ChunkText (atRuleText "mixin" mixinParams ++ [' ']) :=
    chunkText_of_plain (by decide) (by decide) (by decide)
  have hmedia := readsNodes_atRule (by decide) (phrase_mediaParams mobileMax)
    (by decide) (by decide) (chunkText_media mobileMax) ((readsNodes_rules h).before_blanks hindent)
  have hbody := (hmedia.after_blanks hindent).before_blanks (t := ['\n']) (by decide)
  exact readsNodes_atRule (by decide) hmixin (by decide) (by decide) hchunk hbody

/-- The stylesheet is the header and the mixin. -/
theorem renderRules_eq (m : Marker) (mobileMax : Int) {rules : Rules}
    (h : ∀ rule ∈ rules, PlainRule rule) :
    renderRules m mobileMax rules = overridesHeader m ++ (mixinText mobileMax rules ++ ['\n']) := by
  have hmixin : ("@mixin " : Text) = '@' :: (("mixin" : Text) ++ [' ']) := by decide
  have hopen : ("() \x7b\n" : Text) = ("()" : Text) ++ [' ', '\x7b', '\n'] := by decide
  have hmedia : ("  @media screen and (max-width: " : Text)
      = ("  " : Text) ++ '@' :: (("media" : Text) ++ ' ' :: ("screen and (max-width: " : Text)) := by
    decide
  have hquery : ("px) \x7b\n" : Text) = ("px)" : Text) ++ [' ', '\x7b', '\n'] := by decide
  have hinner : ("  \x7d\n" : Text) = ("  " : Text) ++ ['\x7d', '\n'] := by decide
  have houter : ("\x7d\n" : Text) = ['\x7d', '\n'] := by decide
  have hblocks : ∀ rest, '\n' :: (ruleBlocks rules ++ rest) = rulesText rules ++ '\n' :: rest := by
    intro rest
    have hcons := congrArg (· ++ rest) (newline_ruleBlocks h)
    simpa using hcons
  unfold renderRules mixinText mixinParams mediaParams atRuleText
  rw [hmixin, hopen, hmedia, hquery, hinner, houter]
  simp only [List.append_assoc, List.cons_append, List.nil_append, hblocks]

/-- **The generated stylesheet says what was merged.** -/
theorem parseSheet_renderOverrides {m : Marker} (hm : PlainMarker m) (mobileMax : Int)
    {overrides : List Override} (ho : ∀ o ∈ overrides, PlainOverride o) :
    parseSheet (renderOverrides m mobileMax overrides)
      = .ok (overrideNodes m mobileMax (mergeRules overrides)) := by
  have hrules := plainRule_mergeRules ho
  have hread := (readsNodes_header hm).mono (Nat.zero_le 3) |>.append
    ((readsNodes_mixin mobileMax hrules).before_blanks (t := ['\n']) (by decide))
  rw [renderOverrides, renderRules_eq m mobileMax hrules, parseSheet_of_reads hread (by decide),
    count_overridesHeader hm]
  rfl

/-- A block comment that never ends and a brace stand in a string; the value
has the flag. -/
theorem parseSheet_renderOverrides_example :
    PlainMarker ⟨"fluid", "calc"⟩ ∧
      (∀ o ∈ [(⟨⟨".a > b:hover", "content", "\"; /* \x7b\" !important"⟩, 0⟩ : Override)],
        PlainOverride o) ∧
      parseSheet (renderOverrides ⟨"fluid", "calc"⟩ 768
          [⟨⟨".a > b:hover", "content", "\"; /* \x7b\" !important"⟩, 0⟩])
        = .ok (overrideNodes ⟨"fluid", "calc"⟩ 768
          [(".a > b:hover", [("content", "\"; /* \x7b\" !important")])]) := by
  have hmarker : PlainMarker ⟨"fluid", "calc"⟩ := by decide
  have hvalue : QuotedValue "\"; /* \x7b\"" :=
    ⟨by decide, by decide, by decide, [.string "; /* \x7b"], by decide, by decide, by decide⟩
  have hplain : ∀ o ∈ [(⟨⟨".a > b:hover", "content", "\"; /* \x7b\" !important"⟩, 0⟩ : Override)],
      PlainOverride o := by
    intro o ho
    rw [List.mem_singleton.mp ho]
    exact ⟨by decide, by decide, _, true, hvalue, by decide⟩
  refine ⟨hmarker, hplain, (parseSheet_renderOverrides hmarker 768 hplain).trans ?_⟩
  rw [mergeRules, List.mergeSort_singleton]
  rfl

end FluidScss
