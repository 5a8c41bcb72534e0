/-
FluidScss/Proofs/StackHistory.lean

The stack of open blocks is its history.  Of the pushes on a new stack those are
pending that open a block (`Operation.selectors`) which no later pop has closed:
behind them no operations up to any point ask to close more blocks than they open
(`KeepsOpen`).  So a pop takes the latest pending push away, and nothing where none
is pending (`pending_concat_pop`); a push comes behind those that are pending, unless
all its children are blank (`pending_concat_push`).

A stack is what its pending pushes alone would make of a new one
(`run_eq_foldl_push`), and these open their blocks one in the other.  What is open in
the line scan has a history as well (`run_lineOperations`), so the scan never finds an
override without a selector (`selector_ne_nil_of_mem_lineDrafts`).

Main result: `stack_eq_history`.
-/
import FluidScss.Proofs.LineScan

namespace FluidScss

namespace SelectorStack

/-! ### Histories -/

/-- What can be done to a stack. -/
inductive Operation
  | push (children : List Text)
  | pop
deriving DecidableEq

/-- The selectors of the block that an operation opens: the children of a push that
are not blank, trimmed.  Without any, no block is opened. -/
def Operation.selectors : Operation → List Text
  | push children => (children.filter fun child => !Text.isBlank child).map Text.trim
  | pop => []

/-- The stack behind an operation. -/
def apply (s : SelectorStack) : Operation → SelectorStack
  | .push children => s.push children
  | .pop => s.pop

/-- The stack behind operations, one after the other. -/
def run (s : SelectorStack) (ops : List Operation) : SelectorStack := ops.foldl apply s

/-- How many blocks operations open. -/
def opened (ops : List Operation) : Nat := ops.countP (·.selectors ≠ [])

/-- How many blocks operations ask to close. -/
def closed (ops : List Operation) : Nat := ops.count .pop

/-- Operations close no block that is open in front of them: up to no point do they
close more blocks than they open. -/
def KeepsOpen (later : List Operation) : Prop :=
  ∀ part, part <+: later → closed part ≤ opened part

instance (later : List Operation) : Decidable (KeepsOpen later) :=
  decidable_of_iff (∀ part ∈ later.inits, closed part ≤ opened part)
    (by simp only [List.mem_inits, KeepsOpen])

/-- The pending pushes of a history, in order, each with the selectors of the block
it opens: the pushes that open one and are followed by operations that keep it
open. -/
def pending : List Operation → List (List Text)
  | [] => []
  | op :: later =>
    if op.selectors ≠ [] ∧ KeepsOpen later then op.selectors :: pending later
    else pending later

theorem pending_cons_of_kept {op : Operation} {later : List Operation} (hs : op.selectors ≠ [])
    (hk : KeepsOpen later) : pending (op :: later) = op.selectors :: pending later :=
  if_pos ⟨hs, hk⟩

theorem pending_cons_of_closed {op : Operation} {later : List Operation}
    (h : ¬ (op.selectors ≠ [] ∧ KeepsOpen later)) : pending (op :: later) = pending later :=
  if_neg h

/-! ### Counting -/

theorem closed_append (ops ops' : List Operation) :
    closed (ops ++ ops') = closed ops + closed ops' := List.count_append

theorem opened_append (ops ops' : List Operation) :
    opened (ops ++ ops') = opened ops + opened ops' := List.countP_append

theorem closed_cons (op : Operation) (ops : List Operation) :
    closed (op :: ops) = closed [op] + closed ops := closed_append [op] ops

theorem opened_cons (op : Operation) (ops : List Operation) :
    opened (op :: ops) = opened [op] + opened ops := opened_append [op] ops

theorem opened_singleton (op : Operation) :
    opened [op] = if op.selectors = [] then 0 else 1 := by
  simp [opened, List.countP_singleton]

/-- How many blocks in front of them operations close, if there are as many: a pop
adds one to those that the later operations close, a push that opens a block takes one
of them off. -/
def overrun : List Operation → Nat
  | [] => 0
  | op :: later => overrun later + closed [op] - opened [op]

/-- No more than `k` blocks in front are closed exactly if up to no point more than
`k` are closed beyond those that are opened. -/
theorem overrun_le_iff {later : List Operation} {k : Nat} :
    overrun later ≤ k ↔ ∀ part, part <+: later → closed part ≤ k + opened part := by
  induction later generalizing k with
  | nil => simp [overrun, closed]
  | cons op later ih =>
    constructor
    · intro hk part hpart
      rw [overrun] at hk
      rcases List.prefix_cons_iff.mp hpart with rfl | ⟨rest, rfl, hrest⟩
      · exact Nat.zero_le _
      · have hlater := (ih (k := overrun later)).mp le_rfl rest hrest
        rw [closed_cons, opened_cons]
        omega
    · intro h
      have hcons : ∀ part, part <+: later →
          closed [op] + closed part ≤ k + opened [op] + opened part := by
        intro part hpart
        have := h (op :: part) (List.prefix_cons_inj op |>.mpr hpart)
        rw [closed_cons, opened_cons] at this
        omega
      -- the operation itself may close no more than `k` allows
      have hop : closed [op] ≤ k + opened [op] := hcons [] List.nil_prefix
      have hlater : overrun later ≤ k + opened [op] - closed [op] := ih.mpr fun part hpart => by
        have := hcons part hpart
        omega
      rw [overrun]
      omega

theorem keepsOpen_iff {later : List Operation} : KeepsOpen later ↔ overrun later = 0 := by
  rw [← Nat.le_zero, overrun_le_iff]
  simp only [KeepsOpen, Nat.zero_add]

/-- Every block that is opened is pending or closed. -/
theorem length_pending_add_closed (ops : List Operation) :
    (pending ops).length + closed ops = opened ops + overrun ops := by
  induction ops with
  | nil => rfl
  | cons op later ih =>
    rw [overrun, closed_cons, opened_cons]
    by_cases hs : op.selectors = []
    · have hopened : opened [op] = 0 := by rw [opened_singleton, if_pos hs]
      rw [pending_cons_of_closed fun h => h.1 hs, hopened]
      omega
    · have hopened : opened [op] = 1 := by rw [opened_singleton, if_neg hs]
      have hclosed : closed [op] = 0 := by
        cases op with
        | push children => rfl
        | pop => exact absurd rfl hs
      rw [hopened, hclosed]
      by_cases hk : KeepsOpen later
      · have hnone := keepsOpen_iff.mp hk
        rw [pending_cons_of_kept hs hk, List.length_cons]
        omega
      · -- the block is one of those that the later operations close
        have hsome := mt keepsOpen_iff.mpr hk
        rw [pending_cons_of_closed fun h => hk h.2]
        omega

/-! ### One operation more -/

theorem keepsOpen_concat_iff {later : List Operation} {op : Operation} :
    KeepsOpen (later ++ [op])
      ↔ KeepsOpen later ∧ closed (later ++ [op]) ≤ opened (later ++ [op]) := by
  constructor
  · exact fun h => ⟨fun part hpart => h part (hpart.trans (List.prefix_append _ _)),
      h _ List.prefix_rfl⟩
  · rintro ⟨h, hall⟩ part hpart
    rcases List.prefix_concat_iff.mp hpart with rfl | hpart
    · exact hall
    · exact h part hpart

theorem keepsOpen_concat_push {later : List Operation} {children : List Text} :
    KeepsOpen (later ++ [.push children]) ↔ KeepsOpen later := by
  rw [keepsOpen_concat_iff, closed_append, opened_append]
  refine and_iff_left_of_imp fun h => ?_
  exact (h later List.prefix_rfl).trans (Nat.le_add_right _ _)

/-- One pop more keeps a block open only if another is pending behind it. -/
theorem keepsOpen_concat_pop {later : List Operation} :
    KeepsOpen (later ++ [.pop]) ↔ KeepsOpen later ∧ pending later ≠ [] := by
  have hclosed : closed [.pop] = 1 := rfl
  have hopened : opened [.pop] = 0 := rfl
  have hbalance := length_pending_add_closed later
  rw [keepsOpen_concat_iff, closed_append, opened_append, hclosed, hopened, ← List.length_pos_iff,
    keepsOpen_iff]
  omega

/-- A push comes behind those that are pending, if it opens a block. -/
theorem pending_concat_push (ops : List Operation) (children : List Text) :
    pending (ops ++ [.push children]) = pending ops ++ pending [.push children] := by
  induction ops with
  | nil => rfl
  | cons op later ih =>
    rw [List.cons_append]
    by_cases h : op.selectors ≠ [] ∧ KeepsOpen later
    · rw [pending_cons_of_kept h.1 (keepsOpen_concat_push.mpr h.2), pending_cons_of_kept h.1 h.2, ih,
        List.cons_append]
    · rw [pending_cons_of_closed fun h' => h ⟨h'.1, keepsOpen_concat_push.mp h'.2⟩,
        pending_cons_of_closed h, ih]

theorem pending_singleton (op : Operation) :
    pending [op] = if op.selectors = [] then [] else [op.selectors] := by
  by_cases hs : op.selectors = []
  · rw [if_pos hs, pending_cons_of_closed fun h => h.1 hs]
    rfl
  · rw [if_neg hs, pending_cons_of_kept hs (keepsOpen_iff.mpr rfl)]
    rfl

/-- A pop takes the latest pending push away, and nothing where none is pending. -/
theorem pending_concat_pop (ops : List Operation) :
    pending (ops ++ [.pop]) = (pending ops).dropLast := by
  induction ops with
  | nil => rfl
  | cons op later ih =>
    rw [List.cons_append]
    by_cases h : op.selectors ≠ [] ∧ KeepsOpen later
    · rw [pending_cons_of_kept h.1 h.2]
      by_cases hp : pending later = []
      · -- the push itself is the latest
        rw [pending_cons_of_closed fun h' => (keepsOpen_concat_pop.mp h'.2).2 hp, ih, hp]
        rfl
      · rw [pending_cons_of_kept h.1 (keepsOpen_concat_pop.mpr ⟨h.2, hp⟩), ih,
          List.dropLast_cons_of_ne_nil hp]
    · rw [pending_cons_of_closed fun h' => h ⟨h'.1, (keepsOpen_concat_pop.mp h'.2).1⟩,
        pending_cons_of_closed h, ih]

/-! ### What is pending -/

/-- Blocks that can be open: each has a selector, and no selector is empty or has
blanks around it. -/
structure Openable (blocks : List (List Text)) : Prop where
  ne_nil : ∀ selectors ∈ blocks, selectors ≠ []
  tidy : TidyAround blocks

theorem Openable.front {blocks : List (List Text)} {last : List Text}
    (h : Openable (blocks ++ [last])) : Openable blocks :=
  ⟨fun b hb => h.ne_nil b (List.mem_append_left _ hb),
    fun b hb => h.tidy b (List.mem_append_left _ hb)⟩

theorem Openable.last {blocks : List (List Text)} {last : List Text}
    (h : Openable (blocks ++ [last])) : last ≠ [] ∧ ∀ selector ∈ last, TidySelector selector :=
  have hlast := List.mem_append_right blocks (List.mem_singleton_self last)
  ⟨h.ne_nil last hlast, h.tidy last hlast⟩

theorem tidySelector_of_mem_selectors {op : Operation} {selector : Text}
    (h : selector ∈ op.selectors) : TidySelector selector := by
  cases op with
  | pop => cases h
  | push children =>
    obtain ⟨child, hc, rfl⟩ := List.mem_map.mp h
    have hblank := (List.mem_filter.mp hc).2
    refine ⟨fun he => ?_, Text.trim_trim child⟩
    rw [Text.trim_eq_nil_iff.mp he] at hblank
    cases hblank

theorem openable_pending (ops : List Operation) : Openable (pending ops) := by
  induction ops with
  | nil => exact ⟨nofun, nofun⟩
  | cons op later ih =>
    by_cases h : op.selectors ≠ [] ∧ KeepsOpen later
    · rw [pending_cons_of_kept h.1 h.2]
      refine ⟨List.forall_mem_cons.mpr ⟨h.1, ih.ne_nil⟩, List.forall_mem_cons.mpr ⟨?_, ih.tidy⟩⟩
      exact fun selector => tidySelector_of_mem_selectors
    · rw [pending_cons_of_closed h]
      exact ih

/-! ### Blocks one in the other -/

section

variable {blocks : List (List Text)} {last : List Text}

theorem foldl_push_concat (h : Openable (blocks ++ [last])) :
    (blocks ++ [last]).foldl push {}
      = ⟨combineSelectors (blocks.foldl push {}).current last :: (blocks.foldl push {}).frames⟩ := by
  rw [List.foldl_append]
  exact push_tidy h.last.1 h.last.2 _

/-- A pop leaves all blocks but the last. -/
theorem pop_foldl_push (h : Openable blocks) :
    (blocks.foldl push {}).pop = blocks.dropLast.foldl push {} := by
  rcases List.eq_nil_or_concat' blocks with rfl | ⟨front, last, rfl⟩
  · rfl
  · rw [foldl_push_concat h, List.dropLast_concat]
    rfl

theorem length_frames_foldl_push (h : Openable blocks) :
    (blocks.foldl push {}).frames.length = blocks.length := by
  induction blocks using List.reverseRecOn with
  | nil => rfl
  | append_singleton front last ih =>
    rw [foldl_push_concat h, List.length_cons, ih h.front, List.length_append]
    rfl

/-- The selectors in force are the blocks', combined from the outermost on. -/
theorem current_foldl_push (h : Openable blocks) :
    (blocks.foldl push {}).current = blocks.foldl combineSelectors rootSelectors := by
  induction blocks using List.reverseRecOn with
  | nil => rfl
  | append_singleton front last ih =>
    rw [foldl_push_concat h, List.foldl_append, ← ih h.front]
    rfl

theorem length_foldl_combineSelectors (blocks : List (List Text)) :
    (blocks.foldl combineSelectors rootSelectors).length = (blocks.map List.length).prod := by
  induction blocks using List.reverseRecOn with
  | nil => rfl
  | append_singleton front last ih =>
    rw [List.foldl_append, List.map_append, List.prod_append, ← ih]
    exact (length_combineSelectors _ _).trans (by rw [List.map_singleton, List.prod_singleton])

theorem current_foldl_push_ne_nil (h : Openable blocks) : (blocks.foldl push {}).current ≠ [] := by
  rw [current_foldl_push h, ← List.length_pos_iff, length_foldl_combineSelectors]
  refine List.prod_pos fun n hn => ?_
  obtain ⟨selectors, hs, rfl⟩ := List.mem_map.mp hn
  exact List.length_pos_iff.mpr (h.ne_nil selectors hs)

theorem frames_foldl_push (h : Openable blocks) :
    ∀ frame ∈ (blocks.foldl push {}).frames, frame ≠ [] ∧ [] ∉ frame := by
  induction blocks using List.reverseRecOn with
  | nil => exact nofun
  | append_singleton front last ih =>
    rw [foldl_push_concat h]
    refine List.forall_mem_cons.mpr ⟨⟨?_, ?_⟩, ih h.front⟩
    · exact combineSelectors_ne_nil (current_foldl_push_ne_nil h.front) h.last.1
    · exact nil_not_mem_combineSelectors h.last.2

end

/-! ### The stack behind a history -/

theorem run_append (s : SelectorStack) (ops ops' : List Operation) :
    run s (ops ++ ops') = run (run s ops) ops' := List.foldl_append

/-- A push opens a block for its selectors, if it has any. -/
theorem push_eq (s : SelectorStack) (children : List Text) :
    s.push children = (pending [.push children]).foldl push s := by
  have hselectors : (children.map Text.trim).filter (· ≠ [])
      = (Operation.push children).selectors := by
    rw [List.filter_map, Operation.selectors]
    congr 1
    refine List.filter_congr fun child _ => ?_
    simp only [Function.comp_apply, ne_eq, Text.trim_eq_nil_iff, decide_not, Bool.decide_eq_true]
  rw [pending_singleton]
  by_cases hs : (Operation.push children).selectors = []
  · rw [if_pos hs]
    exact push_eq_self (hselectors.trans hs) s
  · rw [if_neg hs, List.foldl_cons, List.foldl_nil, push_eq_cons hselectors hs,
      push_tidy hs fun selector => tidySelector_of_mem_selectors]

/-- **A stack is what its pending pushes make**: the operations that cancelled others
and those that were cancelled leave no trace on it. -/
theorem run_eq_foldl_push (ops : List Operation) : run {} ops = (pending ops).foldl push {} := by
  induction ops using List.reverseRecOn with
  | nil => rfl
  | append_singleton ops op ih =>
    rw [run_append, ih]
    cases op with
    | push children =>
      rw [pending_concat_push, List.foldl_append]
      exact push_eq _ children
    | pop =>
      rw [pending_concat_pop]
      exact pop_foldl_push (openable_pending ops)

/-- **The stack of open blocks is its history**: on a new stack, whatever is pushed and
popped, as many blocks are open as pushes are pending, the selectors in force are those
of the pending pushes combined one after the other from the top of the sheet on, there
are as many of them as the product of the numbers of selectors that were pushed, and
every open block has selectors, none of them empty. -/
theorem stack_eq_history (ops : List Operation) :
    (run {} ops).frames.length = (pending ops).length ∧
      (run {} ops).current = (pending ops).foldl combineSelectors rootSelectors ∧
      (run {} ops).current.length = ((pending ops).map List.length).prod ∧
      ∀ frame ∈ (run {} ops).frames, frame ≠ [] ∧ [] ∉ frame := by
  have h := openable_pending ops
  have hcurrent := current_foldl_push h
  rw [run_eq_foldl_push]
  refine ⟨length_frames_foldl_push h, hcurrent, ?_, frames_foldl_push h⟩
  rw [hcurrent, length_foldl_combineSelectors]

/-- A pop with nothing open in front, a block that is closed again, and a push that
opens none. -/
example :
    let ops : List Operation :=
      [.pop, .push [" a ", "", "b"], .push [".c"], .pop, .push [" "], .push ["&:d"]]
    pending ops = ([["a", "b"], ["&:d"]] : List (List Text)) ∧
      (run {} ops).current = (["a:d", "b:d"] : List Text) := by decide

/-! ### The line scan -/

/-- What a line does to the open blocks. -/
def lineOperations (line : Text) : List Operation :=
  List.replicate (line.count '\x7d') .pop ++ [.push (lineSelectors line)]

theorem run_pops (s : SelectorStack) (n : Nat) : run s (List.replicate n .pop) = s.popMany n := by
  induction n generalizing s with
  | zero => rfl
  | succ n ih => exact (ih s.pop).trans (s.popMany_pop n)

theorem run_lineOperations (s : SelectorStack) (line : Text) :
    run s (lineOperations line) = stackAfter s line := by
  rw [lineOperations, run_append, run_pops]
  rfl

theorem current_mem_frames {s : SelectorStack} (h : s.frames ≠ []) : s.current ∈ s.frames := by
  rcases s with ⟨- | ⟨frame, frames⟩⟩
  · exact absurd rfl h
  · exact List.mem_cons_self

end SelectorStack

open SelectorStack

theorem mem_lineDraftsOf {m : Marker} {s : SelectorStack} {line : Text} {d : Draft}
    (h : d ∈ lineDraftsOf m s line) : s.frames ≠ [] ∧ d.selector ∈ s.current := by
  rw [lineDraftsOf] at h
  split at h
  · cases h
  · rename_i hframes
    refine ⟨hframes, ?_⟩
    split at h
    · cases h
    · dsimp only at h
      split at h
      · obtain ⟨selector, hs, rfl⟩ := List.mem_map.mp h
        exact hs
      · cases h

theorem selector_ne_nil_of_mem_linesDrafts {m : Marker} {lines : List Text}
    {ops : List Operation} {d : Draft} (h : d ∈ linesDrafts m (run {} ops) lines) :
    d.selector ≠ [] := by
  induction lines generalizing ops with
  | nil => cases h
  | cons line lines ih =>
    -- what is open in front of the line has a history, so what is open behind it has one
    rw [linesDrafts, ← run_lineOperations, ← run_append] at h
    rcases List.mem_append.mp h with hline | hlines
    · obtain ⟨hframes, hselector⟩ := mem_lineDraftsOf hline
      rw [run_eq_foldl_push] at hframes hselector
      have hframe := frames_foldl_push (openable_pending _) _ (current_mem_frames hframes)
      exact ne_of_mem_of_not_mem hselector hframe.2
    · exact ih hlines

/-- No override that is found line by line has an empty selector. -/
theorem selector_ne_nil_of_mem_lineDrafts {m : Marker} {source : Text} {d : Draft}
    (h : d ∈ lineDrafts m source) : d.selector ≠ [] :=
  selector_ne_nil_of_mem_linesDrafts (show d ∈ linesDrafts m (run {} []) _ from h)

end FluidScss
