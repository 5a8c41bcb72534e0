/-
FluidScss/Proofs/ClampAgain.lean

What becomes of a value that is clamped twice.  A clamp expression is written
from the second and the third argument of a call, which are copied into it as
they are, with the marker calls that they hold.  So the second time each copied
argument is clamped as a value of its own, and all else stays
(`clampCalls_again`); a clamped value is final exactly if clamping changes none
of the arguments that were copied into it (`clampCalls_again_iff`).

Around a copied argument nothing is read together with it.  Its quotes and
parentheses are even, so its calls end in it
(`clampCalls_append_of_selfContained`), and of what the expression writes
between the arguments nothing begins a call (`unmarked_frame`,
`unmarked_of_concat`).  Two things are needed for this: the names of the marker
are plain (`Marker.Clear`), and in copied arguments the marker does not begin in
a string (`Bare`).  There it would be read as a call too, one whose arguments
begin inside of the string.
-/
import FluidScss.Proofs.MarkerCall

namespace FluidScss

variable {m : Marker} {s : Quoting} {value text before after arguments rest : Text}
variable {sep : Char} {depth : Nat}

/-! ### Clamped values one after the other -/

/-- Two clamped values, written one after the other. -/
def Clamped.append (first second : Clamped) : Clamped where
  value := first.value ++ second.value
  changed := first.changed || second.changed

instance : Append Clamped := ⟨Clamped.append⟩

theorem Clamped.append_eq (first second : Clamped) :
    first ++ second = ⟨first.value ++ second.value, first.changed || second.changed⟩ := rfl

theorem Clamped.append_assoc (first second third : Clamped) :
    first ++ second ++ third = first ++ (second ++ third) := by
  simp only [append_eq, List.append_assoc, Bool.or_assoc]

theorem clampCalls_of_closed (h : Text.breakOn m.opener value = some (before, after))
    (hc : breakAtClose after = some (arguments, rest)) :
    clampCalls m value = ⟨before ++ m.replacement arguments, (m.clampOf? arguments).isSome⟩
      ++ clampCalls m rest := by
  rw [clampCalls, segments_of_closed h hc, clampCalls, Clamped.append_eq]
  simp only [List.flatMap_cons, List.any_cons, Segment.clamped_call, Segment.clamp?_call,
    List.append_assoc]
  rfl

/-- Text in which the marker does not begin stays in front of the rest. -/
theorem clampCalls_append_of_unmarked (h : Unmarked m (text ++ rest) 0 text.length) :
    clampCalls m (text ++ rest) = ⟨text, false⟩ ++ clampCalls m rest := by
  have hbreak := Text.breakOn_append rest fun n => h n (Nat.zero_le n)
  rcases hopen : Text.breakOn m.opener rest with - | ⟨before, after⟩
  · rw [hopen] at hbreak
    rw [clampCalls_of_unmarked hopen, clampCalls_of_unmarked hbreak]
    rfl
  · rw [hopen] at hbreak
    rcases hclose : breakAtClose after with - | ⟨arguments, behind⟩
    · rw [clampCalls_of_unclosed hopen hclose, clampCalls_of_unclosed hbreak hclose]
      rfl
    · rw [clampCalls_of_closed hopen hclose, clampCalls_of_closed hbreak hclose,
        ← Clamped.append_assoc, List.append_assoc]
      rfl

/-! ### Plain names -/

/-- The names of the marker have no character that ends an argument or stands
between two of them, and the name of its function has no dot. -/
structure Marker.Clear (m : Marker) : Prop where
  names : ∀ c ∈ m.ns ++ m.fn, IsSeparator c ∧ c ≠ ',' ∧ c ≠ ' '
  dotless : '.' ∉ m.fn

theorem isSeparator_dot : IsSeparator '.' := ⟨rfl, by decide, by decide⟩

namespace Marker.Clear

theorem isSeparator (h : m.Clear) : ∀ c ∈ m.qualified, IsSeparator c := by
  intro c hc
  rw [qualified, List.mem_append, List.mem_append] at hc
  rcases hc with (hc | hc) | hc
  · exact (h.names c (List.mem_append_left _ hc)).1
  · rw [List.mem_singleton.mp hc]
    exact isSeparator_dot
  · exact (h.names c (List.mem_append_right _ hc)).1

theorem open_notMem (h : m.Clear) : '(' ∉ m.qualified :=
  fun hm => (h.isSeparator _ hm).not_open rfl

theorem notMem_opener (h : m.Clear) {c : Char} (hc : c = ',' ∨ c = ' ' ∨ c = ')') :
    c ∉ m.opener := by
  have hnames : c ∉ m.ns ++ m.fn := fun hm => by
    obtain ⟨hsep, hcomma, hblank⟩ := h.names c hm
    rcases hc with rfl | rfl | rfl
    · exact hcomma rfl
    · exact hblank rfl
    · exact hsep.not_close rfl
  have hother : c ≠ '.' ∧ c ≠ '(' := by rcases hc with rfl | rfl | rfl <;> decide
  rw [List.mem_append, not_or] at hnames
  rw [opener, qualified, List.mem_append, List.mem_append, List.mem_append]
  rintro (((hm | hm) | hm) | hm)
  · exact hnames.1 hm
  · exact hother.1 (List.mem_singleton.mp hm)
  · exact hnames.2 hm
  · exact hother.2 (List.mem_singleton.mp hm)

/-- A marker that begins before a parenthesis ends before it, or is the name in
front of it. -/
theorem opener_isPrefix (h : m.Clear) (hbegins : m.opener <+: text ++ '(' :: rest) :
    m.opener <+: text ∨ m.qualified = text := by
  obtain ⟨more, hmore⟩ := hbegins
  rw [opener, List.append_assoc] at hmore
  by_cases hopen : '(' ∈ text
  · left
    obtain ⟨before, after, rfl, hbefore⟩ := List.eq_append_cons_of_mem hopen
    rw [List.append_assoc] at hmore
    obtain ⟨rfl, -⟩ := Text.eq_of_append_cons_eq h.open_notMem hbefore hmore
    rw [opener]
    exact ⟨after, List.append_assoc ..⟩
  · right
    exact (Text.eq_of_append_cons_eq h.open_notMem hopen hmore).1

/-- The last dot of the marker stands before its function's name. -/
theorem fn_eq_of_isSuffix {name : Text} (h : m.Clear) (hname : '.' ∉ name)
    (hsuffix : m.qualified <:+ text ++ '.' :: name) : m.fn = name := by
  obtain ⟨front, hfront⟩ := hsuffix
  rw [qualified, List.append_assoc, ← List.append_assoc front] at hfront
  have hnames : front ++ m.ns ++ '.' :: m.fn = text ++ '.' :: name := hfront
  have hreverse := congrArg List.reverse hnames
  simp only [List.reverse_append, List.reverse_cons, List.append_assoc, List.singleton_append]
    at hreverse
  obtain ⟨hfn, -⟩ := Text.eq_of_append_cons_eq (by simpa using h.dotless) (by simpa using hname)
    hreverse
  exact List.reverse_inj.mp hfn

end Marker.Clear

/-! ### The text of a clamp expression -/

/-- A text without parentheses, closed by a character that the marker lacks, has
no part of a call. -/
theorem unmarked_of_concat {c : Char} (htext : '(' ∉ text) (hc : c ∉ m.opener) (rest : Text) :
    Unmarked m (text ++ [c] ++ rest) 0 (text ++ [c]).length := by
  intro n _ hn hbegins
  rw [List.length_append, List.length_singleton] at hn
  rw [List.append_assoc, List.drop_append_of_le_length (by omega)] at hbegins
  have hinside : m.opener <+: text.drop n :=
    Text.isPrefix_of_isPrefix_append (by rintro d ⟨⟩; exact hc) hbegins
  exact htext (List.mem_of_mem_drop (hinside.subset (List.mem_append_right _ (by simp))))

/-- The call of another function of the module is no call of the marker, and no
part of one with what stands before it. -/
theorem unmarked_frame {front name : Text} (hclear : m.Clear) (hfront : ¬ m.opener <:+: front)
    (hname : '(' ∉ name ∧ '.' ∉ name) (hne : m.fn ≠ name) (rest : Text) :
    Unmarked m (front ++ (m.ns ++ '.' :: name) ++ "(" ++ rest) 0
      (front ++ (m.ns ++ '.' :: name) ++ "(").length := by
  intro n _ hn hbegins
  rw [List.length_append] at hn
  rw [List.append_assoc _ _ rest, List.drop_append_of_le_length (Nat.le_of_lt_succ hn)] at hbegins
  rcases hclear.opener_isPrefix hbegins with hinside | hq
  · -- the call has no parenthesis in its name, so the marker ends before it
    have hcall : '(' ∉ m.ns ++ '.' :: name := by
      rw [List.mem_append, List.mem_cons, not_or, not_or]
      exact ⟨fun hm => (hclear.names _ (List.mem_append_left _ hm)).1.not_open rfl, by decide,
        hname.1⟩
    rw [List.drop_append] at hinside
    have hstart : m.opener <+: front.drop n :=
      Text.isPrefix_of_isPrefix_append_of_notMem (fun hm => hcall (List.mem_of_mem_drop hm)) hinside
    exact hfront (hstart.isInfix.trans (List.drop_suffix n front).isInfix)
  · have hsuffix := List.drop_suffix n (front ++ (m.ns ++ '.' :: name))
    rw [← hq, ← List.append_assoc] at hsuffix
    exact hne (hclear.fn_eq_of_isSuffix hname.2 hsuffix)

/-! ### Self-contained texts -/

/-- Wherever the marker begins the scan is outside of strings. -/
def BareFrom (m : Marker) (s : Quoting) : Text → Prop
  | [] => True
  | c :: rest => (m.opener <+: c :: rest → s.quote = none) ∧ BareFrom m (s.step c) rest

instance decidableBareFrom (m : Marker) : ∀ s text, Decidable (BareFrom m s text)
  | _, [] => inferInstanceAs (Decidable True)
  | s, c :: rest =>
    have := decidableBareFrom m (s.step c) rest
    inferInstanceAs (Decidable
      ((m.opener <+: c :: rest → s.quote = none) ∧ BareFrom m (s.step c) rest))

/-- No string of the text holds the beginning of a call. -/
def Bare (m : Marker) (text : Text) : Prop := BareFrom m {} text

instance (m : Marker) (text : Text) : Decidable (Bare m text) :=
  inferInstanceAs (Decidable (BareFrom m {} text))

theorem bareFrom_after (h : BareFrom m s (text ++ rest)) : BareFrom m (s.after text) rest := by
  induction text generalizing s with
  | nil => exact h
  | cons c text ih => exact ih h.2

theorem quote_of_bareFrom (h : BareFrom m s (m.opener ++ rest)) : s.quote = none := by
  have hbegins : m.opener <+: m.opener ++ rest := List.prefix_append _ _
  rcases htext : m.opener ++ rest with - | ⟨c, text⟩
  · exact absurd (List.append_eq_nil_iff.mp htext).1 m.opener_ne_nil
  · rw [htext] at h hbegins
    exact h.1 hbegins

/-- In a self-contained text a marker that begins outside of strings begins a
call, and what is behind it is self-contained for what is still open. -/
theorem exists_call_of_selfContained (hclear : m.Clear) (h : SelfContainedFrom sep s depth text)
    (hbare : BareFrom m s text) (hopen : Text.breakOn m.opener text = some (before, after)) :
    ∃ arguments rest s' depth', breakAtClose after = some (arguments, rest) ∧
      s'.quote = none ∧ SelfContainedFrom sep s' depth' rest ∧ BareFrom m s' rest := by
  rw [Text.eq_of_breakOn hopen, List.append_assoc] at h hbare
  have hstart := bareFrom_after hbare
  have hquote := quote_of_bareFrom hstart
  -- behind the marker's parenthesis the scan is outside of strings, one deeper
  obtain ⟨d, hself⟩ := exists_selfContainedFrom_after h
  rw [Marker.opener, List.append_assoc] at hself
  obtain ⟨hnames, hself⟩ := selfContainedFrom_after hquote hclear.isSeparator hself
  have hdepth : ((s.after before).after m.qualified).depthAfter d '(' = 0 + 1 + d := by
    rw [Quoting.depthAfter_of_unquoted hnames, Nat.zero_add, Nat.add_comm]
    rfl
  have hparen : (((s.after before).after m.qualified).step '(').quote = none := by
    rw [Quoting.step_of_unquoted hnames]
    rfl
  have hself : SelfContainedFrom sep (((s.after before).after m.qualified).step '(')
      (((s.after before).after m.qualified).depthAfter d '(') after := hself.2
  rw [hdepth] at hself
  obtain ⟨arguments, rest, hclose, hend, hrest⟩ := exists_breakAtCloseFrom hself
  rw [breakAtCloseFrom_of_unquoted hparen] at hclose
  refine ⟨arguments, rest, _, _, hclose, hend, hrest, ?_⟩
  have hbehind := bareFrom_after hstart
  rw [eq_of_breakAtClose hclose, ← List.singleton_append, ← List.append_assoc] at hbehind
  have hstate : (s.after before).after m.opener
      = ((s.after before).after m.qualified).step '(' := by
    rw [Marker.opener, Quoting.after_append]
    rfl
  rw [hstate] at hbehind
  exact bareFrom_after hbehind

/-- **Calls of a self-contained text are its own**: it is clamped by itself, and
what is behind it by itself, if no marker goes on there. -/
theorem clampCalls_append_of_selfContained (hclear : m.Clear) (hs : s.quote = none)
    (h : SelfContainedFrom sep s depth text) (hbare : BareFrom m s text)
    (hrest : ∀ c ∈ rest.head?, c ∉ m.opener) :
    clampCalls m (text ++ rest) = clampCalls m text ++ clampCalls m rest := by
  -- call by call; behind each the scan is outside of strings, at some depth
  fun_induction segments m text generalizing s depth with
  | case1 text hopen =>
    have hunmarked : Unmarked m (text ++ rest) 0 text.length := by
      intro n _ hn hbegins
      rw [List.drop_append_of_le_length (Nat.le_of_lt hn)] at hbegins
      exact Text.not_isPrefix_of_breakOn_eq_none hopen n
        (Text.isPrefix_of_isPrefix_append hrest hbegins)
    rw [clampCalls_append_of_unmarked hunmarked, clampCalls_of_unmarked hopen]
  | case2 text before after hopen hclose =>
    -- a marker that is never closed would leave a parenthesis open
    obtain ⟨arguments, rest, -, -, hclosed, -⟩ :=
      exists_call_of_selfContained hclear h hbare hopen
    rw [hclose] at hclosed
    cases hclosed
  | case3 text before after hopen arguments behind hclose ih =>
    obtain ⟨_, _, s', depth', hclosed, hquote, hself, hbehind⟩ :=
      exists_call_of_selfContained hclear h hbare hopen
    rw [hclose] at hclosed
    cases hclosed
    have htext : text ++ rest = before ++ m.opener ++ (after ++ rest) := by
      rw [Text.eq_of_breakOn hopen, List.append_assoc]
    have hclose' : breakAtClose (after ++ rest) = some (arguments, behind ++ rest) := by
      rw [eq_of_breakAtClose hclose, List.append_assoc]
      exact breakAtClose_append_close (selfContainedFrom_of_breakAtCloseFrom hclose) _
    rw [clampCalls_of_closed hopen hclose, htext,
      clampCalls_of_closed (Text.breakOn_exchange hopen _) hclose', ih hquote hself hbehind,
      Clamped.append_assoc]

/-! ### The second time -/

/-- The two arguments that the clamp expression of a call is written from. -/
def copiedOf? (arguments : Text) : Option (Text × Text) :=
  match splitTopLevel "," arguments with
  | _ :: mobile :: sizing :: _ => some (mobile, sizing)
  | _ => none

theorem Marker.clampOf?_eq (m : Marker) (arguments : Text) :
    m.clampOf? arguments = (copiedOf? arguments).map fun a => m.mobileClamp a.1 a.2 := by
  rw [clampOf?, copiedOf?]
  rcases splitTopLevel "," arguments with - | ⟨_, - | ⟨_, - | ⟨_, _⟩⟩⟩ <;> rfl

theorem mem_of_copiedOf? {mobile sizing : Text} (h : copiedOf? arguments = some (mobile, sizing)) :
    mobile ∈ splitTopLevel "," arguments ∧ sizing ∈ splitTopLevel "," arguments := by
  rw [copiedOf?] at h
  split at h
  · rename_i hsplit
    cases h
    rw [hsplit]
    simp
  · cases h

namespace Segment

/-- The arguments that are copied when the segment is clamped. -/
def copied : Segment → List Text
  | plain _ => []
  | call arguments => (copiedOf? arguments).elim [] fun a => [a.1, a.2]

/-- The segment in a value that was clamped twice: in a clamp expression the
arguments that were copied are clamped. -/
def clampedTwice (m : Marker) : Segment → Text
  | plain text => text
  | call arguments => (copiedOf? arguments).elim (m.callText arguments) fun a =>
    m.mobileClamp (clampCalls m a.1).value (clampCalls m a.2).value

@[simp] theorem copied_plain (text : Text) : (plain text).copied = [] := rfl

@[simp] theorem copied_call (arguments : Text) :
    (call arguments).copied = (copiedOf? arguments).elim [] fun a => [a.1, a.2] := rfl

@[simp] theorem clampedTwice_plain (m : Marker) (text : Text) :
    (plain text).clampedTwice m = text := rfl

@[simp] theorem clampedTwice_call (m : Marker) (arguments : Text) :
    (call arguments).clampedTwice m
      = (copiedOf? arguments).elim (m.callText arguments) fun a =>
        m.mobileClamp (clampCalls m a.1).value (clampCalls m a.2).value := rfl

end Segment

/-- The arguments that are copied when a value is clamped. -/
def copiedArguments (m : Marker) (value : Text) : List Text :=
  (segments m value).flatMap Segment.copied

/-- The arguments of a call are self-contained. -/
theorem selfContained_of_mem_splitTopLevel (h : breakAtClose text = some (arguments, rest)) :
    ∀ a ∈ splitTopLevel "," arguments, SelfContained ',' a := by
  have hself := selfContainedFrom_of_breakAtCloseFrom h
  obtain ⟨part, parts, hpieces, hpart, hparts⟩ := selfContained_piecesFrom isSeparator_comma hself
  have hall : ∀ a ∈ (pieces [','] arguments).map Text.trim, SelfContained ',' a := by
    intro a ha
    obtain ⟨piece, hpiece, rfl⟩ := List.mem_map.mp ha
    rw [pieces, hpieces] at hpiece
    have hpiece : SelfContained ',' piece :=
      List.forall_mem_cons.mpr ⟨hpart, hparts⟩ piece hpiece
    exact hpiece.trim
  intro a ha
  rw [splitTopLevel] at ha
  split at ha
  · exact hall a (List.dropLast_subset _ ha)
  · exact hall a ha

/-- A clamp expression is clamped in its copied arguments only. -/
theorem clampCalls_mobileClamp {front mobile sizing : Text} (hclear : m.Clear)
    (hclamp : m.fn ≠ "clamp_mb") (hmin : m.fn ≠ "min_px") (hfront : ¬ m.opener <:+: front)
    (hmobile : SelfContained ',' mobile ∧ Bare m mobile)
    (hsizing : SelfContained ',' sizing ∧ Bare m sizing) (rest : Text) :
    clampCalls m (front ++ m.mobileClamp mobile sizing ++ rest)
      = ⟨front ++ m.mobileClamp (clampCalls m mobile).value (clampCalls m sizing).value,
          (clampCalls m mobile).changed || (clampCalls m sizing).changed⟩
        ++ clampCalls m rest := by
  have hcomma (tail : Text) (htail : tail.head? = some ',') : ∀ c ∈ tail.head?, c ∉ m.opener := by
    intro c hc
    rw [htail] at hc
    cases hc
    exact hclear.notMem_opener (.inl rfl)
  have hblank : ¬ m.opener <:+: (", " : Text) := fun hoccurs =>
    absurd (hoccurs.subset (List.mem_append_right _ (List.mem_singleton_self _))) (by decide)
  have htext : front ++ m.mobileClamp mobile sizing ++ rest
      = (front ++ (m.ns ++ '.' :: ("clamp_mb" : Text)) ++ "(") ++ (mobile
        ++ ((", " ++ (m.ns ++ '.' :: ("min_px" : Text)) ++ "(") ++ (mobile
        ++ ((("," : Text) ++ [' ']) ++ (sizing
        ++ (((", mobile)" : Text) ++ [')']) ++ rest)))))) := by
    rw [Marker.mobileClamp]
    simp
  rw [htext,
    clampCalls_append_of_unmarked (unmarked_frame hclear hfront (by decide) hclamp _),
    clampCalls_append_of_selfContained hclear rfl hmobile.1 hmobile.2 ?_,
    clampCalls_append_of_unmarked (unmarked_frame hclear hblank (by decide) hmin _),
    clampCalls_append_of_selfContained hclear rfl hmobile.1 hmobile.2 ?_,
    clampCalls_append_of_unmarked
      (unmarked_of_concat (by decide) (hclear.notMem_opener (.inr (.inl rfl))) _),
    clampCalls_append_of_selfContained hclear rfl hsizing.1 hsizing.2 ?_,
    clampCalls_append_of_unmarked
      (unmarked_of_concat (by decide) (hclear.notMem_opener (.inr (.inr rfl))) _)]
  · simp only [Clamped.append_eq, Marker.mobileClamp, Clamped.mk.injEq]
    constructor
    · simp
    · cases (clampCalls m mobile).changed <;> simp
  all_goals exact hcomma _ rfl

/-- Clamped once more, a value has its copied arguments clamped and is else the
same. -/
theorem clampCalls_again (hclear : m.Clear) (hclamp : m.fn ≠ "clamp_mb") (hmin : m.fn ≠ "min_px")
    (hbare : ∀ a ∈ copiedArguments m value, Bare m a) :
    clampCalls m (clampCalls m value).value
      = ⟨(segments m value).flatMap (Segment.clampedTwice m),
          (copiedArguments m value).any fun a => (clampCalls m a).changed⟩ := by
  rw [copiedArguments] at hbare ⊢
  fun_induction segments m value with
  | case1 value hopen =>
    rw [clampCalls_of_unmarked hopen, clampCalls_of_unmarked hopen]
    simp
  | case2 value before after hopen hclose =>
    rw [clampCalls_of_unclosed hopen hclose, clampCalls_of_unclosed hopen hclose]
    simp
  | case3 value before after hopen arguments rest hclose ih =>
    simp only [List.flatMap_cons, List.mem_append, or_imp, forall_and] at hbare
    obtain ⟨-, hcall, hlater⟩ := hbare
    rw [clampCalls_of_closed hopen hclose, Clamped.append_eq, Marker.replacement,
      Marker.clampOf?_eq]
    rcases hcopied : copiedOf? arguments with - | ⟨mobile, sizing⟩
    · -- the call stays, and is read as before
      have hagain : Text.breakOn m.opener
          (before ++ m.callText arguments ++ (clampCalls m rest).value)
          = some (before, arguments ++ ')' :: (clampCalls m rest).value) := by
        rw [← Text.breakOn_exchange hopen, Marker.callText]
        simp
      have hclosed := breakAtClose_append_close (selfContainedFrom_of_breakAtCloseFrom hclose)
        (clampCalls m rest).value
      show clampCalls m (before ++ m.callText arguments ++ (clampCalls m rest).value) = _
      rw [clampCalls_of_closed hagain hclosed, ih hlater, Clamped.append_eq, Marker.replacement,
        Marker.clampOf?_eq, hcopied]
      simp [hcopied]
    · -- it has become a clamp expression
      have hself := selfContained_of_mem_splitTopLevel hclose
      obtain ⟨hmobile, hsizing⟩ := mem_of_copiedOf? hcopied
      show clampCalls m (before ++ m.mobileClamp mobile sizing ++ (clampCalls m rest).value) = _
      rw [clampCalls_mobileClamp hclear hclamp hmin
        (Text.not_isInfix_of_breakOn m.opener_ne_nil hopen)
        ⟨hself mobile hmobile, hcall mobile (by simp [hcopied])⟩
        ⟨hself sizing hsizing, hcall sizing (by simp [hcopied])⟩,
        ih hlater, Clamped.append_eq]
      simp [hcopied, Bool.or_assoc]

/-- **A clamped value is final if its copied arguments are**: clamping it again
changes nothing exactly if clamping changes none of the second and third
arguments that were copied into it. -/
theorem clampCalls_again_iff (m : Marker) (value : Text) (hclear : m.Clear)
    (hclamp : m.fn ≠ "clamp_mb") (hmin : m.fn ≠ "min_px")
    (hbare : ∀ a ∈ copiedArguments m value, Bare m a) :
    clampCalls m (clampCalls m value).value = ⟨(clampCalls m value).value, false⟩
      ↔ ∀ a ∈ copiedArguments m value, (clampCalls m a).changed = false := by
  have hagain := clampCalls_again hclear hclamp hmin hbare
  have hchanged : (clampCalls m (clampCalls m value).value).changed = false
      ↔ ∀ a ∈ copiedArguments m value, (clampCalls m a).changed = false := by
    rw [hagain]
    simp
  rw [← hchanged]
  refine ⟨fun h => by rw [h], fun h => ?_⟩
  calc clampCalls m (clampCalls m value).value
      = ⟨(clampCalls m (clampCalls m value).value).value,
          (clampCalls m (clampCalls m value).value).changed⟩ := rfl
    _ = ⟨(clampCalls m value).value, false⟩ := by rw [value_of_not_changed h, h]

/-- A call of another module in a copied argument leaves the value final. -/
theorem clampCalls_again_iff_other :
    Marker.Clear ⟨"r", "resp"⟩ ∧
      copiedArguments ⟨"r", "resp"⟩ "calc(r.resp(32px, f(24px, 2), h1) + 1px)"
        = (["f(24px, 2)", "h1"] : List Text) ∧
      (∀ a ∈ (["f(24px, 2)", "h1"] : List Text), Bare ⟨"r", "resp"⟩ a) ∧
      clampCalls ⟨"r", "resp"⟩
          (clampCalls ⟨"r", "resp"⟩ "calc(r.resp(32px, f(24px, 2), h1) + 1px)").value
        = ⟨(clampCalls ⟨"r", "resp"⟩ "calc(r.resp(32px, f(24px, 2), h1) + 1px)").value, false⟩ := by
  have hclear : Marker.Clear ⟨"r", "resp"⟩ := ⟨by decide, by decide⟩
  have hrest : segments ⟨"r", "resp"⟩ " + 1px)" = [.plain " + 1px)"] := by
    rw [segments]
    rfl
  have hcopied : copiedArguments ⟨"r", "resp"⟩ "calc(r.resp(32px, f(24px, 2), h1) + 1px)"
      = (["f(24px, 2)", "h1"] : List Text) := by
    have hopen : Text.breakOn (Marker.opener ⟨"r", "resp"⟩)
        "calc(r.resp(32px, f(24px, 2), h1) + 1px)"
        = some (("calc(" : Text), ("32px, f(24px, 2), h1) + 1px)" : Text)) := by decide
    have hclose : breakAtClose "32px, f(24px, 2), h1) + 1px)"
        = some (("32px, f(24px, 2), h1" : Text), (" + 1px)" : Text)) := by decide
    rw [copiedArguments, segments_of_closed hopen hclose, hrest]
    rfl
  have hbare : ∀ a ∈ (["f(24px, 2)", "h1"] : List Text), Bare ⟨"r", "resp"⟩ a := by decide
  refine ⟨hclear, hcopied, hbare, (clampCalls_again_iff ⟨"r", "resp"⟩ _ hclear (by decide)
    (by decide) (by rwa [hcopied])).mpr ?_⟩
  rw [hcopied]
  intro a ha
  rw [clampCalls_of_unmarked]
  revert a
  decide

/-- A call in the mobile size of another is copied twice, and replaced only when
the value is clamped again. -/
theorem call_in_argument_is_left :
    ("resp" : Text) ≠ "clamp_mb" ∧ ("resp" : Text) ≠ "min_px" ∧
      clampCalls ⟨"r", "resp"⟩
          (clampCalls ⟨"r", "resp"⟩ "r.resp(0, r.resp(1, 2, h), h)").value
        ≠ ⟨(clampCalls ⟨"r", "resp"⟩ "r.resp(0, r.resp(1, 2, h), h)").value, false⟩ := by
  have hfirst : clampCalls ⟨"r", "resp"⟩ "r.resp(0, r.resp(1, 2, h), h)"
      = ⟨"r.clamp_mb(r.resp(1, 2, h), r.min_px(r.resp(1, 2, h), h, mobile))", true⟩ := by
    have hopen : Text.breakOn (Marker.opener ⟨"r", "resp"⟩) "r.resp(0, r.resp(1, 2, h), h)"
        = some (([] : Text), ("0, r.resp(1, 2, h), h)" : Text)) := by decide
    have hclose : breakAtClose "0, r.resp(1, 2, h), h)"
        = some (("0, r.resp(1, 2, h), h" : Text), ([] : Text)) := by decide
    rw [clampCalls_of_closed hopen hclose, clampCalls_of_unmarked (by decide)]
    rfl
  refine ⟨by decide, by decide, fun hfinal => ?_⟩
  have hopen : Text.breakOn (Marker.opener ⟨"r", "resp"⟩)
      "r.clamp_mb(r.resp(1, 2, h), r.min_px(r.resp(1, 2, h), h, mobile))"
      = some (("r.clamp_mb(" : Text),
        ("1, 2, h), r.min_px(r.resp(1, 2, h), h, mobile))" : Text)) := by decide
  have hclose : breakAtClose "1, 2, h), r.min_px(r.resp(1, 2, h), h, mobile))"
      = some (("1, 2, h" : Text), (", r.min_px(r.resp(1, 2, h), h, mobile))" : Text)) := by decide
  have hchanged := congrArg Clamped.changed hfinal
  rw [hfirst, clampCalls_of_closed hopen hclose] at hchanged
  cases hchanged

end FluidScss