/-
FluidScss/Proofs/AtRuleLines.lean

At-rule blocks in the line scan.  The first line of such a block opens nothing for
the scan, but its last line closes what is open, as every closing brace does: the
rule block around it, if there is one.  What stands in the at-rule block is read
as if its two lines were not there, and what follows it only if no block is open
for the scan where it ends (`atRule_unseen_iff`).

The scan may have fewer blocks open than there are around a line, because blocks
with a colon in their selectors are not opened either; it never has more
(`OpenWithin.behind`).  So the open blocks can be closed up to the one that makes
the difference, and a declaration read there.
-/
import FluidScss.Proofs.LineScan

namespace FluidScss

variable {m : Marker} {stack : SelectorStack} {depth depth' : Nat}

/-! ### Lines of a sheet -/

/-- A text with no brace, quote, comment or line break in it. -/
def BareText (text : Text) : Prop :=
  (∀ c ∈ text, c ∉ ("\x7b\x7d\"'" : Text) ∧ isLineBreak c = false)
    ∧ ¬ ("//" : Text) <:+: text ∧ ¬ ("/*" : Text) <:+: text

instance (text : Text) : Decidable (BareText text) :=
  inferInstanceAs (Decidable (_ ∧ _))

theorem BareText.not_mem {text : Text} {c : Char} (h : BareText text)
    (hc : c ∈ ("\x7b\x7d\"'" : Text)) : c ∉ text :=
  fun hm => (h.1 c hm).1 hc

/-- One construct on a line, behind as many spaces as its number says. -/
inductive SheetLine
  | opening (indent : Nat) (selectors : Text)
  | atRule (indent : Nat) (head : Text)
  | declaration (indent : Nat) (property value : Text)
  | closing (indent : Nat)

namespace SheetLine

/-- The construct without the spaces in front. -/
def construct : SheetLine → Text
  | opening _ selectors => selectors ++ " \x7b"
  | atRule _ head => '@' :: (head ++ " \x7b")
  | declaration _ property value => property ++ ": " ++ value ++ ";"
  | closing _ => "\x7d"

def indent : SheetLine → Nat
  | opening indent _ | atRule indent _ | declaration indent _ _ | closing indent => indent

def text (l : SheetLine) : Text := List.replicate l.indent ' ' ++ l.construct

/-- No brace, quote or comment stands anywhere but where the construct has it. -/
def Plain : SheetLine → Prop
  | opening _ selectors => BareText selectors
  | atRule _ head => BareText head
  | declaration _ property value => BareText property ∧ BareText value
  | closing _ => True

instance : (l : SheetLine) → Decidable l.Plain
  | opening .. | atRule .. => inferInstanceAs (Decidable (BareText _))
  | declaration .. => inferInstanceAs (Decidable (_ ∧ _))
  | closing _ => .isTrue trivial

/-- How many blocks are open behind lines, unless one is closed that is not open. -/
def nestingAfter : Nat → List SheetLine → Option Nat
  | depth, [] => some depth
  | depth, opening .. :: ls | depth, atRule .. :: ls => nestingAfter (depth + 1) ls
  | depth, declaration .. :: ls => nestingAfter depth ls
  | 0, closing _ :: _ => none
  | depth + 1, closing _ :: ls => nestingAfter depth ls

/-- The sheet of the lines, with or without a line break at its end. -/
def print (ls : List SheetLine) (final : Bool) : Text :=
  Text.join "\n" (ls.map text) ++ if final then ['\n'] else []

end SheetLine

open SheetLine

/-- The open blocks behind lines. -/
def stackBehind (stack : SelectorStack) (ls : List SheetLine) : SelectorStack :=
  (ls.map text).foldl stackAfter stack

/-- The drafts of lines. -/
def draftsOfLines (m : Marker) (stack : SelectorStack) (ls : List SheetLine) : List Draft :=
  linesDrafts m stack (ls.map text)

/-! ### Characters of lines -/

/-- The characters that a construct has beside its parts. -/
def SheetLine.signs : SheetLine → Text
  | opening .. => " \x7b"
  | atRule .. => "@ \x7b"
  | declaration .. => ": ;"
  | closing _ => " \x7d"

theorem SheetLine.mem_text {l : SheetLine} (h : l.Plain) {c : Char} (hc : c ∈ l.text) :
    (c ∉ ("\x7b\x7d\"'" : Text) ∧ isLineBreak c = false) ∨ c ∈ l.signs := by
  rcases List.mem_append.mp hc with hc | hc
  · rw [List.eq_of_mem_replicate hc]
    exact .inl (by decide)
  · cases l with
    | opening indent selectors =>
      exact (List.mem_append.mp hc).imp (h.1 c) id
    | atRule indent head =>
      rcases List.mem_cons.mp hc with rfl | hc
      · exact .inl (by decide)
      · exact (List.mem_append.mp hc).imp (h.1 c) (List.mem_cons_of_mem _)
    | declaration indent property value =>
      simp only [construct, List.mem_append] at hc
      rcases hc with ((hc | hc) | hc) | hc
      · exact .inl (h.1.1 c hc)
      · exact .inr (List.mem_append_left (";" : Text) hc)
      · exact .inl (h.2.1 c hc)
      · exact .inr (List.mem_append_right (": " : Text) hc)
    | closing indent => exact .inr (List.mem_cons_of_mem _ hc)

theorem SheetLine.brace_not_mem_text {l : SheetLine} (h : l.Plain) {c : Char}
    (hc : c ∈ ("\x7b\x7d" : Text)) (hs : c ∉ l.signs) : c ∉ l.text := by
  intro hm
  rcases mem_text h hm with hp | hp
  · exact hp.1 (List.mem_append_left ("\"'" : Text) hc)
  · exact hs hp

/-! ### Printed sheets -/

theorem SheetLine.text_ne_nil (l : SheetLine) : l.text ≠ [] := by
  cases l <;> simp [text, construct]

theorem SheetLine.not_isLineBreak {l : SheetLine} (h : l.Plain) :
    ∀ c ∈ l.text, isLineBreak c = false := by
  have hsigns : ∀ c ∈ l.signs, isLineBreak c = false := by
    cases l <;> simp only [signs] <;> decide
  intro c hc
  exact (mem_text h hc).elim And.right (hsigns c)

theorem lineDrafts_print {ls : List SheetLine} (h : ∀ l ∈ ls, l.Plain) (final : Bool) :
    lineDrafts m (print ls final) = draftsOfLines m {} ls := by
  rcases ls with - | ⟨l, ls⟩
  · cases final <;> rfl
  · have hlines : Text.lines (print (l :: ls) final) = (l :: ls).map text := by
      refine Text.lines_join (by simp) (fun line hl => ?_) final
      obtain ⟨l', hl', rfl⟩ := List.mem_map.mp hl
      exact ⟨l'.text_ne_nil, not_isLineBreak (h l' hl')⟩
    rw [lineDrafts, hlines, draftsOfLines]

/-! ### The scan of a line -/

/-- The first line of an at-rule block opens nothing. -/
theorem stackAfter_atRule (stack : SelectorStack) (indent : Nat) {head : Text} (h : BareText head) :
    stackAfter stack (atRule indent head).text = stack := by
  have hplain : (atRule indent head).Plain := h
  have hclose : '\x7d' ∉ (atRule indent head).text :=
    brace_not_mem_text hplain (by decide) (by simp [signs])
  have hfront : '\x7b' ∉ List.replicate indent ' ' ++ '@' :: (head ++ [' ']) := by
    simp [List.mem_replicate, h.not_mem (c := '\x7b') (by decide)]
  have htext : (atRule indent head).text
      = (List.replicate indent ' ' ++ '@' :: (head ++ [' '])) ++ '\x7b' :: [] := by
    simp [text, construct, SheetLine.indent]
  have hselectors : lineSelectors (atRule indent head).text = [] := by
    rw [lineSelectors, htext, Text.breakOn_append_cons hfront]
    dsimp only
    rw [Text.trim_indent, if_pos (.inl (Text.head?_trim_cons rfl _))]
  rw [stackAfter, List.count_eq_zero.mpr hclose, hselectors]
  rfl

/-- It is no declaration. -/
theorem lineDraftsOf_atRule (stack : SelectorStack) (indent : Nat) (head : Text) :
    lineDraftsOf m stack (atRule indent head).text = [] := by
  have hproperty : lineProperty? (atRule indent head).text = none := by
    have htrim : Text.trimLeft (atRule indent head).text = '@' :: (head ++ " \x7b") := by
      rw [text, SheetLine.indent, Text.trimLeft_indent]
      rfl
    rw [lineProperty?, htrim]
    rfl
  rw [lineDraftsOf, lineDeclaration?, hproperty]
  split <;> rfl

/-- The last line of any block closes what is open. -/
theorem stackAfter_closing (stack : SelectorStack) (indent : Nat) :
    stackAfter stack (closing indent).text = stack.pop := by
  have hplain : (closing indent).Plain := trivial
  have hopen : '\x7b' ∉ (closing indent).text :=
    brace_not_mem_text hplain (by decide) (by simp [signs])
  have hcount : (closing indent).text.count '\x7d' = 1 := by
    rw [text, construct, List.count_append, List.count_replicate]
    rfl
  rw [stackAfter, hcount, lineSelectors_eq_nil hopen]
  rcases stack with ⟨- | ⟨frame, frames⟩⟩ <;> rfl

theorem lineDraftsOf_closing (stack : SelectorStack) (indent : Nat) :
    lineDraftsOf m stack (closing indent).text = [] := by
  refine lineDraftsOf_eq_nil ?_
  simp [text, construct, SheetLine.indent, List.mem_replicate]

/-! ### The scan of lines -/

theorem draftsOfLines_cons (m : Marker) (stack : SelectorStack) (l : SheetLine)
    (ls : List SheetLine) : draftsOfLines m stack (l :: ls)
      = lineDraftsOf m (stackAfter stack l.text) l.text
        ++ draftsOfLines m (stackAfter stack l.text) ls := rfl

theorem stackBehind_cons (stack : SelectorStack) (l : SheetLine) (ls : List SheetLine) :
    stackBehind stack (l :: ls) = stackBehind (stackAfter stack l.text) ls := rfl

theorem draftsOfLines_append (m : Marker) (stack : SelectorStack) (front back : List SheetLine) :
    draftsOfLines m stack (front ++ back)
      = draftsOfLines m stack front ++ draftsOfLines m (stackBehind stack front) back := by
  induction front generalizing stack with
  | nil => rfl
  | cons l front ih =>
    rw [List.cons_append, draftsOfLines_cons, ih, draftsOfLines_cons, List.append_assoc,
      stackBehind_cons]

theorem draftsOfLines_atRule (m : Marker) (stack : SelectorStack) (indent : Nat) {head : Text}
    (h : BareText head) (ls : List SheetLine) :
    draftsOfLines m stack (atRule indent head :: ls) = draftsOfLines m stack ls := by
  rw [draftsOfLines_cons, stackAfter_atRule stack indent h, lineDraftsOf_atRule, List.nil_append]

theorem draftsOfLines_closing (m : Marker) (stack : SelectorStack) (indent : Nat)
    (ls : List SheetLine) :
    draftsOfLines m stack (closing indent :: ls) = draftsOfLines m stack.pop ls := by
  rw [draftsOfLines_cons, stackAfter_closing, lineDraftsOf_closing, List.nil_append]

/-- **An at-rule block** is read as the lines in it, and what follows it as if a
block ended in front. -/
theorem draftsOfLines_atRuleBlock (m : Marker) (before inside after : List SheetLine)
    {head : Text} (h : BareText head) (start stop : Nat) :
    draftsOfLines m {} (before ++ atRule start head :: (inside ++ closing stop :: after))
      = draftsOfLines m {} (before ++ inside)
        ++ draftsOfLines m (stackBehind {} (before ++ inside)).pop after := by
  rw [draftsOfLines_append, draftsOfLines_atRule _ _ _ h, ← draftsOfLines_append,
    ← List.append_assoc, draftsOfLines_append, draftsOfLines_closing]

/-- Closing a block changes nothing where none is open. -/
theorem SelectorStack.pop_eq_self (h : stack.frames = []) : stack.pop = stack := by
  rcases stack with ⟨frames⟩
  cases h
  rfl

/-! ### No more blocks are open than there are -/

/-- At most `depth` blocks are open for the scan, each with its selectors. -/
structure OpenWithin (depth : Nat) (stack : SelectorStack) : Prop where
  length_le : stack.frames.length ≤ depth
  ne_nil : ∀ frame ∈ stack.frames, frame ≠ []

theorem OpenWithin.nil : OpenWithin 0 {} := ⟨Nat.le_refl 0, nofun⟩

theorem OpenWithin.mono (h : OpenWithin depth stack) (hd : depth ≤ depth') :
    OpenWithin depth' stack := ⟨h.length_le.trans hd, h.ne_nil⟩

theorem OpenWithin.pop (h : OpenWithin (depth + 1) stack) : OpenWithin depth stack.pop := by
  refine ⟨?_, fun frame hf => h.ne_nil frame (List.mem_of_mem_tail hf)⟩
  have := h.length_le
  rw [SelectorStack.pop, List.length_tail]
  omega

theorem OpenWithin.current_ne_nil (h : OpenWithin depth stack) : stack.current ≠ [] := by
  rcases stack with ⟨- | ⟨frame, frames⟩⟩
  · exact List.cons_ne_nil _ _
  · exact h.ne_nil frame (List.mem_cons_self ..)

theorem OpenWithin.push (h : OpenWithin depth stack) (selectors : List Text) :
    OpenWithin (depth + 1) (stack.push selectors) := by
  by_cases hs : (selectors.map Text.trim).filter (· ≠ []) = []
  · rw [SelectorStack.push_eq_self hs]
    exact h.mono (Nat.le_succ depth)
  · rw [SelectorStack.push_eq_cons rfl hs]
    refine ⟨Nat.succ_le_succ h.length_le, List.forall_mem_cons.mpr ⟨?_, h.ne_nil⟩⟩
    exact combineSelectors_ne_nil h.current_ne_nil hs

/-- A line opens a block for the scan only where it opens one, and closes one where
it does. -/
theorem OpenWithin.step (h : OpenWithin depth stack) {l : SheetLine} (hl : l.Plain)
    (hd : nestingAfter depth [l] = some depth') : OpenWithin depth' (stackAfter stack l.text) := by
  -- only the line that opens a rule block may push, and only a closing line pops
  cases l with
  | opening indent selectors =>
    cases hd
    have hclose : '\x7d' ∉ (opening indent selectors).text :=
      brace_not_mem_text hl (by decide) (by simp [signs])
    rw [stackAfter, List.count_eq_zero.mpr hclose]
    exact h.push _
  | atRule indent head =>
    cases hd
    rw [stackAfter_atRule stack indent hl]
    exact h.mono (Nat.le_succ depth)
  | declaration indent property value =>
    cases hd
    rw [stackAfter_eq_self (brace_not_mem_text hl (by decide) (by simp [signs]))
      (brace_not_mem_text hl (by decide) (by simp [signs]))]
    exact h
  | closing indent =>
    rw [stackAfter_closing]
    rcases depth with - | depth
    · -- nothing is open that the line could close
      cases hd
    · cases hd
      exact h.pop

theorem nestingAfter_cons (l : SheetLine) (ls : List SheetLine) :
    nestingAfter depth (l :: ls) = (nestingAfter depth [l]).bind (nestingAfter · ls) := by
  cases l with
  | closing indent => cases depth <;> rfl
  | _ => rfl

theorem nestingAfter_append {front back : List SheetLine} :
    nestingAfter depth (front ++ back) = (nestingAfter depth front).bind (nestingAfter · back) := by
  induction front generalizing depth with
  | nil => rfl
  | cons l front ih =>
    rw [List.cons_append, nestingAfter_cons, nestingAfter_cons l front, Option.bind_assoc]
    exact congrArg _ (funext fun d => ih)

theorem OpenWithin.behind (h : OpenWithin depth stack) {ls : List SheetLine}
    (hl : ∀ l ∈ ls, l.Plain) (hd : nestingAfter depth ls = some depth') :
    OpenWithin depth' (stackBehind stack ls) := by
  induction ls generalizing depth stack with
  | nil =>
    cases hd
    exact h
  | cons l ls ih =>
    rw [nestingAfter_cons, Option.bind_eq_some_iff] at hd
    obtain ⟨between, hb, hd⟩ := hd
    exact ih (h.step (hl l (List.mem_cons_self ..)) hb)
      (fun l' hl' => hl l' (List.mem_cons_of_mem _ hl')) hd

/-- Lines nest in the same way with more blocks around them. -/
theorem nestingAfter_add (k : Nat) {ls : List SheetLine}
    (h : nestingAfter depth ls = some depth') :
    nestingAfter (depth + k) ls = some (depth' + k) := by
  fun_induction nestingAfter depth ls with
  | case1 =>
    cases h
    rfl
  | case2 depth indent selectors ls ih =>
    rw [nestingAfter, ← ih h, Nat.add_right_comm]
  | case3 depth indent head ls ih =>
    rw [nestingAfter, ← ih h, Nat.add_right_comm]
  | case4 depth indent property value ls ih => exact ih h
  | case5 => cases h
  | case6 depth indent ls ih =>
    rw [Nat.succ_add, nestingAfter, ih h]

/-! ### Continuations -/

/-- Lines that close `n` blocks. -/
def closings (n : Nat) : List SheetLine := List.replicate n (closing 0)

theorem draftsOfLines_closings (m : Marker) (stack : SelectorStack) (n : Nat)
    (ls : List SheetLine) :
    draftsOfLines m stack (closings n ++ ls) = draftsOfLines m (stack.popMany n) ls := by
  induction n generalizing stack with
  | zero => rfl
  | succ n ih =>
    rw [closings, List.replicate_succ, List.cons_append, draftsOfLines_closing]
    exact (ih stack.pop).trans (congrArg (draftsOfLines m · ls) (stack.popMany_pop n))

theorem nestingAfter_closings (depth n : Nat) (ls : List SheetLine) :
    nestingAfter (depth + n) (closings n ++ ls) = nestingAfter depth ls := by
  induction n with
  | zero => rfl
  | succ n ih => exact ih

/-- Lines that close `n` of `depth` blocks, with a declaration before the others are
closed. -/
def probe (n depth : Nat) : List SheetLine :=
  closings n ++ declaration 0 "w" "r.resp(1,2,h)" :: (closings (depth - n) ++ [])

theorem plain_probe (n depth : Nat) : ∀ l ∈ probe n depth, l.Plain := by
  have hclosings : ∀ k, ∀ l ∈ closings k, l.Plain := by
    intro k l hl
    rw [List.eq_of_mem_replicate hl]
    trivial
  refine List.forall_mem_append.mpr ⟨hclosings n, List.forall_mem_cons.mpr ⟨by decide, ?_⟩⟩
  exact List.forall_mem_append.mpr ⟨hclosings _, nofun⟩

theorem nestingAfter_probe {n : Nat} (h : n ≤ depth) :
    nestingAfter depth (probe n depth) = some 0 := by
  obtain ⟨k, rfl⟩ := Nat.exists_eq_add_of_le' h
  rw [probe, nestingAfter_closings, nestingAfter, Nat.add_sub_cancel]
  have := nestingAfter_closings 0 k []
  rwa [Nat.zero_add] at this

/-- The declaration is found if a block is still open. -/
theorem length_drafts_probe (stack : SelectorStack) (n depth : Nat) :
    (draftsOfLines ⟨"r", "resp"⟩ stack (probe n depth)).length
      = if (stack.popMany n).frames = [] then 0 else (stack.popMany n).current.length := by
  have hline : lineDeclaration? (declaration 0 "w" "r.resp(1,2,h)").text
      = some (("w" : Text), ("r.resp(1,2,h)" : Text), false) := by cbv
  have hcall : (clampCalls ⟨"r", "resp"⟩ "r.resp(1,2,h)").changed = true := by cbv
  have hstack : stackAfter (stack.popMany n) (declaration 0 "w" "r.resp(1,2,h)").text
      = stack.popMany n := stackAfter_eq_self (by decide) (by decide)
  rw [probe, draftsOfLines_closings, draftsOfLines_cons, hstack, draftsOfLines_closings,
    lineDraftsOf, hline]
  dsimp only
  rw [hcall, if_pos rfl]
  split
  · rfl
  · rw [List.length_append, List.length_map]
    rfl

/-- If a block is open for the scan, the sheet may go on so that it makes a
difference whether that block is closed. -/
theorem exists_continuation_ne (h : OpenWithin depth stack) (hne : stack.frames ≠ []) :
    ∃ after, (∀ l ∈ after, l.Plain) ∧ nestingAfter depth after = some 0
      ∧ (draftsOfLines ⟨"r", "resp"⟩ stack.pop after).length
        ≠ (draftsOfLines ⟨"r", "resp"⟩ stack after).length := by
  -- as many blocks are closed as leave one open, unless that one is closed before
  obtain ⟨n, hn⟩ := Nat.exists_eq_succ_of_ne_zero (mt List.length_eq_zero_iff.mp hne)
  have hle : n ≤ depth := by
    have := h.length_le
    omega
  have hnone : (stack.pop.popMany n).frames = [] := by
    rw [SelectorStack.pop, SelectorStack.popMany, List.drop_eq_nil_iff, List.length_tail]
    omega
  have hone : (stack.popMany n).frames ≠ [] := by
    rw [SelectorStack.popMany, Ne, List.drop_eq_nil_iff]
    omega
  have hopen : OpenWithin depth (stack.popMany n) := by
    refine ⟨?_, fun frame hf => h.ne_nil frame (List.mem_of_mem_drop hf)⟩
    exact (List.drop_sublist n stack.frames).length_le.trans h.length_le
  refine ⟨probe n depth, plain_probe n depth, nestingAfter_probe hle, ?_⟩
  rw [length_drafts_probe, length_drafts_probe, if_pos hnone, if_neg hone]
  exact (List.length_pos_iff.mpr hopen.current_ne_nil).ne

/-! ### At-rule blocks left out -/

section

variable {before inside after : List SheetLine} {head : Text}

/-- A block in which lines nest leaves as many open as there were in front. -/
theorem nestingAfter_inside (hb : nestingAfter 0 before = some depth)
    (hi : nestingAfter 0 inside = some 0) : nestingAfter 0 (before ++ inside) = some depth := by
  have hinside := nestingAfter_add depth hi
  rw [Nat.zero_add] at hinside
  rw [nestingAfter_append, hb]
  exact hinside

/-- The drafts of a sheet with an at-rule block. -/
theorem lineDrafts_atRuleBlock (hbefore : ∀ l ∈ before, l.Plain) (hinside : ∀ l ∈ inside, l.Plain)
    (hhead : BareText head) (hafter : ∀ l ∈ after, l.Plain) (m : Marker) (start stop : Nat)
    (final : Bool) :
    lineDrafts m (print (before ++ atRule start head :: (inside ++ closing stop :: after)) final)
      = draftsOfLines m {} (before ++ inside)
        ++ draftsOfLines m (stackBehind {} (before ++ inside)).pop after := by
  rw [lineDrafts_print ?_, draftsOfLines_atRuleBlock m _ _ _ hhead]
  simp only [List.forall_mem_append, List.forall_mem_cons]
  exact ⟨hbefore, hhead, hinside, trivial, hafter⟩

/-- The drafts of the sheet without its two lines. -/
theorem lineDrafts_leftOut (hbefore : ∀ l ∈ before, l.Plain) (hinside : ∀ l ∈ inside, l.Plain)
    (hafter : ∀ l ∈ after, l.Plain) (m : Marker) (final : Bool) :
    lineDrafts m (print (before ++ (inside ++ after)) final)
      = draftsOfLines m {} (before ++ inside)
        ++ draftsOfLines m (stackBehind {} (before ++ inside)) after := by
  rw [lineDrafts_print ?_, ← List.append_assoc, draftsOfLines_append]
  simp only [List.forall_mem_append]
  exact ⟨hbefore, hinside, hafter⟩

/-- Where no rule block is around it, an at-rule block is never seen. -/
theorem frames_eq_nil_of_nesting (hbefore : ∀ l ∈ before, l.Plain)
    (hinside : ∀ l ∈ inside, l.Plain) (hb : nestingAfter 0 before = some 0)
    (hi : nestingAfter 0 inside = some 0) : (stackBehind {} (before ++ inside)).frames = [] := by
  have hopen := OpenWithin.nil.behind (List.forall_mem_append.mpr ⟨hbefore, hinside⟩)
    (nestingAfter_inside hb hi)
  exact List.length_eq_zero_iff.mp (Nat.le_zero.mp hopen.length_le)

/-- **An at-rule block is not seen** in what follows it, that is, the overrides are
the same without its first and its last line however the sheet goes on, exactly if
no block is open for the scan where it ends. -/
theorem atRule_unseen_iff (hbefore : ∀ l ∈ before, l.Plain) (hinside : ∀ l ∈ inside, l.Plain)
    (hhead : BareText head) (hb : nestingAfter 0 before = some depth)
    (hi : nestingAfter 0 inside = some 0) (start stop : Nat) :
    (∀ after, (∀ l ∈ after, l.Plain) → nestingAfter depth after = some 0 →
        ∀ m final first,
          number first (lineDrafts m
              (print (before ++ atRule start head :: (inside ++ closing stop :: after)) final))
            = number first (lineDrafts m (print (before ++ (inside ++ after)) final)))
      ↔ (stackBehind {} (before ++ inside)).frames = [] := by
  constructor
  · intro h
    by_contra hframes
    have hopen := OpenWithin.nil.behind (List.forall_mem_append.mpr ⟨hbefore, hinside⟩)
      (nestingAfter_inside hb hi)
    obtain ⟨after, hafter, hnest, hlength⟩ := exists_continuation_ne hopen hframes
    have heq := congrArg List.length (h after hafter hnest ⟨"r", "resp"⟩ false 0)
    -- up to the end of the block the drafts are the same, so those behind it would be
    rw [length_number, length_number, lineDrafts_atRuleBlock hbefore hinside hhead hafter,
      lineDrafts_leftOut hbefore hinside hafter, List.length_append, List.length_append] at heq
    exact hlength (Nat.add_left_cancel heq)
  · intro hframes after hafter _ m final first
    rw [lineDrafts_atRuleBlock hbefore hinside hhead hafter,
      lineDrafts_leftOut hbefore hinside hafter, SelectorStack.pop_eq_self hframes]

end

/-- An at-rule block between rule blocks, with one in it. -/
theorem atRule_unseen_between_rules :
    (∀ l ∈ [opening 0 ".b", closing 0], l.Plain)
      ∧ (∀ l ∈ [opening 2 ".a", declaration 4 "w" "r.resp(1, 2, h)", closing 2], l.Plain)
      ∧ BareText "media (min-width: 10px)"
      ∧ nestingAfter 0 [opening 0 ".b", closing 0] = some 0
      ∧ nestingAfter 0 [opening 2 ".a", declaration 4 "w" "r.resp(1, 2, h)", closing 2] = some 0
      ∧ ∀ m final first,
        number first (lineDrafts m (print [opening 0 ".b", closing 0,
            atRule 0 "media (min-width: 10px)", opening 2 ".a",
            declaration 4 "w" "r.resp(1, 2, h)", closing 2, closing 0,
            opening 0 ".c", declaration 2 "w" "r.resp(3, 4, h)", closing 0] final))
          = number first (lineDrafts m (print [opening 0 ".b", closing 0, opening 2 ".a",
            declaration 4 "w" "r.resp(1, 2, h)", closing 2,
            opening 0 ".c", declaration 2 "w" "r.resp(3, 4, h)", closing 0] final)) := by
  have hbefore : ∀ l ∈ [opening 0 ".b", closing 0], l.Plain := by decide
  have hinside : ∀ l ∈ [opening 2 ".a", declaration 4 "w" "r.resp(1, 2, h)", closing 2],
      l.Plain := by decide
  have hhead : BareText "media (min-width: 10px)" := by decide
  refine ⟨hbefore, hinside, hhead, rfl, rfl, ?_⟩
  exact (atRule_unseen_iff hbefore hinside hhead rfl rfl 0 0).mpr
    (frames_eq_nil_of_nesting hbefore hinside rfl rfl)
    [opening 0 ".c", declaration 2 "w" "r.resp(3, 4, h)", closing 0] (by decide) rfl

/-- An at-rule block in a rule block: behind it the declarations of the rule block
are lost. -/
theorem atRule_closes_rule :
    (∀ l ∈ [opening 0 ".a", atRule 0 "media print", closing 0,
        declaration 0 "w" "r.resp(1, 2, h)", closing 0], l.Plain)
      ∧ nestingAfter 0 [opening 0 ".a", atRule 0 "media print", closing 0,
        declaration 0 "w" "r.resp(1, 2, h)", closing 0] = some 0
      ∧ number 0 (lineDrafts ⟨"r", "resp"⟩ (print [opening 0 ".a", atRule 0 "media print",
          closing 0, declaration 0 "w" "r.resp(1, 2, h)", closing 0] true)) = []
      ∧ number 0 (lineDrafts ⟨"r", "resp"⟩ (print [opening 0 ".a",
          declaration 0 "w" "r.resp(1, 2, h)", closing 0] true))
        = [⟨⟨".a", "w", "r.clamp_mb(2, r.min_px(2, h, mobile))"⟩, 0⟩] := by
  refine ⟨by decide, rfl, by cbv, by cbv⟩

end FluidScss
