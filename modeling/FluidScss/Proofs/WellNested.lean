/-
FluidScss/Proofs/WellNested.lean

Well-nested texts, told by how they are put together: characters that are no quotes
and no parentheses, strings, and well-nested texts in parentheses.  A string is what
stands between a quote and the next of its kind that is not right behind a
backslash (`StringBody`), so its body may hold anything else, parentheses and
separators included.

They are the texts that the scans of quotes and parentheses find self-contained
(`wellNested_iff_selfContained`): a string is read within itself
(`hidden_of_quotesKept`), and what is in parentheses is read one deeper
(`SelfContainedFrom.raise`); the other way round, the scan of a self-contained
text finds the end of each string (`exists_stringBody`) and of each parenthesis
(`exists_breakAtCloseFrom`).
-/
import Mathlib.Data.List.Induction
import FluidScss.Proofs.StringEnd

namespace FluidScss

variable {s : Quoting} {quote c : Char} {sep : Option Char} {depth more : Nat}
  {text rest body : Text}

/-! ### The grammar -/

/-- Each of the quotes in the text stands right behind a backslash. -/
def QuotesKept (quote : Char) (body : Text) : Prop :=
  ∀ front back, body = front ++ quote :: back → front.getLast? = some '\\'

/-- What stands between two quotes that open and close a string. -/
structure StringBody (quote : Char) (body : Text) : Prop where
  kept : QuotesKept quote body
  closed : body.getLast? ≠ some '\\'

/-- A text with balanced parentheses and closed strings, and without `sep` outside
of them. -/
inductive WellNested : Option Char → Text → Prop
  | nil {sep : Option Char} : WellNested sep []
  | plain {sep : Option Char} {c : Char} {rest : Text} (hc : IsSeparator c) (hsep : some c ≠ sep)
      (hrest : WellNested sep rest) : WellNested sep (c :: rest)
  | string {sep : Option Char} {quote : Char} {body rest : Text} (hquote : isQuote quote = true)
      (hbody : StringBody quote body) (hrest : WellNested sep rest) :
      WellNested sep (quote :: (body ++ quote :: rest))
  | parens {sep : Option Char} {inside rest : Text} (hinside : WellNested none inside)
      (hrest : WellNested sep rest) : WellNested sep ('(' :: (inside ++ ')' :: rest))

/-! ### Strings -/

theorem quotesKept_concat : QuotesKept quote (body ++ [c]) ↔
    QuotesKept quote body ∧ (c = quote → body.getLast? = some '\\') := by
  constructor
  · intro h
    refine ⟨fun front back hbody => h front (back ++ [c]) (by rw [hbody]; simp), ?_⟩
    rintro rfl
    exact h body [] rfl
  · rintro ⟨hbody, hc⟩ front back heq
    rcases List.eq_nil_or_concat back with rfl | ⟨back, d, rfl⟩
    · obtain ⟨rfl, hlast⟩ := List.append_inj' heq rfl
      exact hc (List.cons.inj hlast).1
    · rw [List.concat_eq_append, ← List.cons_append, ← List.append_assoc] at heq
      exact hbody front back (List.append_inj' heq rfl).1

/-- A string stays open over quotes behind backslashes. -/
theorem hidden_of_quotesKept (hs : s.quote = some quote) (h : QuotesKept quote body) :
    Hidden s body ∧ (s.after body).quote = some quote := by
  induction body using List.reverseRecOn with
  | nil => exact ⟨trivial, hs⟩
  | append_singleton body c ih =>
    obtain ⟨hbody, hc⟩ := quotesKept_concat.mp h
    obtain ⟨hidden, hopen⟩ := ih hbody
    refine ⟨hidden.append ⟨Quoting.not_bare_of_quoted hopen, trivial⟩, ?_⟩
    rw [Quoting.after_append]
    show (Quoting.step _ c).quote = some quote
    by_cases hq : c = quote
    · refine Quoting.quote_step_of_backslash hopen ?_
      rw [Quoting.last_after, hc hq]
      rfl
    · exact Quoting.quote_step_of_ne hopen hq

/-- Behind its closing quote a string is over. -/
theorem quote_after_stringBody (hs : s.quote = some quote) (hlast : s.last ≠ some '\\')
    (h : StringBody quote body) : (s.after (body ++ [quote])).quote = none := by
  rw [Quoting.after_append]
  refine Quoting.quote_step_close (hidden_of_quotesKept hs h.kept).2 ?_
  rw [Quoting.last_after]
  rcases hb : body.getLast? with - | d
  · exact hlast
  · exact fun hd => h.closed (hb.trans hd)

/-- A scan that is in a string and gets out of it finds its end. -/
theorem exists_stringBody {sep : Char} (hs : s.quote = some quote) (hkept : QuotesKept quote body)
    (h : SelfContainedFrom sep (s.after body) depth text) :
    ∃ inner rest, body ++ text = inner ++ quote :: rest ∧ StringBody quote inner ∧
      SelfContainedFrom sep (s.after (inner ++ [quote])) depth rest := by
  -- `body` is what has been read of the string
  induction text generalizing body with
  | nil =>
    have hopen := (hidden_of_quotesKept hs hkept).2
    rw [h.1] at hopen
    cases hopen
  | cons c text ih =>
    have hopen := (hidden_of_quotesKept hs hkept).2
    have hrest := h.2
    rw [depthAfter_of_not_bare (Quoting.not_bare_of_quoted hopen)] at hrest
    by_cases hend : c = quote ∧ body.getLast? ≠ some '\\'
    · obtain ⟨rfl, hclosed⟩ := hend
      refine ⟨body, text, rfl, ⟨hkept, hclosed⟩, ?_⟩
      rwa [Quoting.after_append]
    · have hmore : QuotesKept quote (body ++ [c]) := quotesKept_concat.mpr ⟨hkept, fun hc =>
        Decidable.not_not.mp fun hclosed => hend ⟨hc, hclosed⟩⟩
      have hread : s.after (body ++ [c]) = (s.after body).step c := Quoting.after_append ..
      rw [← hread] at hrest
      obtain ⟨inner, rest, heq, hinner⟩ := ih hmore hrest
      exact ⟨inner, rest, by rw [← heq, List.append_assoc]; rfl, hinner⟩

/-! ### Well-nested texts are self-contained -/

theorem selfContainedFrom_hidden {sep : Char} (h : Hidden s text) :
    SelfContainedFrom sep s depth (text ++ rest) ↔
      SelfContainedFrom sep (s.after text) depth rest := by
  induction text generalizing s with
  | nil => exact Iff.rfl
  | cons c text ih =>
    rw [List.cons_append, SelfContainedFrom, depthAfter_of_not_bare h.1, ih h.2, h.1]
    exact and_iff_right fun hbare => absurd hbare Bool.false_ne_true

/-- In parentheses the scan is one deeper and is read past the text too. -/
theorem SelfContainedFrom.raise {sep : Char} (h : SelfContainedFrom ')' s depth text)
    (hrest : SelfContainedFrom sep {} (more + 1) rest) :
    SelfContainedFrom sep s (depth + 1 + more) (text ++ rest) := by
  induction text generalizing s depth with
  | nil =>
    obtain ⟨hquote, rfl⟩ := h
    rw [List.nil_append, selfContainedFrom_of_unquoted hquote, Nat.zero_add, Nat.add_comm]
    exact hrest
  | cons c text ih =>
    obtain ⟨hc, htext⟩ := h
    refine ⟨fun _ hdepth => absurd hdepth (by omega), ?_⟩
    rw [depthAfter_add s depth more c fun ⟨hbare, hclose, hdepth⟩ =>
      (hc hbare hdepth).1 hclose]
    exact ih htext

theorem WellNested.selfContained (hsep : ∀ x ∈ sep, IsSeparator x) (h : WellNested sep text) :
    SelfContained (sep.getD ')') text := by
  induction h with
  | nil => exact ⟨rfl, rfl⟩
  | @plain sep c rest hc hne _ ih =>
    refine ⟨fun _ _ => ⟨hc.not_close, ?_⟩, ?_⟩
    · cases sep with
      | none => exact hc.not_close
      | some x => exact fun h => hne (congrArg some h)
    · rw [hc.depthAfter, selfContainedFrom_of_unquoted (hc.quote_step rfl)]
      exact ih hsep
  | @string sep quote body rest hquote hbody _ ih =>
    obtain ⟨hbare, hopened, hlast⟩ := opens_of_isQuote hquote
    have hclosed : (({} : Quoting).after (quote :: (body ++ [quote]))).quote = none :=
      quote_after_stringBody hopened hlast hbody
    have hidden : Hidden {} (quote :: (body ++ [quote])) :=
      ⟨hbare, (hidden_of_quotesKept hopened hbody.kept).1.append
        ⟨Quoting.not_bare_of_quoted (hidden_of_quotesKept hopened hbody.kept).2, trivial⟩⟩
    rw [SelfContained, List.append_cons, ← List.cons_append, selfContainedFrom_hidden hidden,
      selfContainedFrom_of_unquoted hclosed]
    exact ih hsep
  | @parens sep inside rest _ _ ihinside ih =>
    have hne : '(' ≠ sep.getD ')' := by
      cases sep with
      | none => decide
      | some x => exact (hsep x rfl).not_open.symm
    -- behind its closing parenthesis the scan is where it was in front
    have hclose : SelfContainedFrom (sep.getD ')') {} (0 + 1) (')' :: rest) :=
      ⟨fun _ h => absurd h (Nat.succ_ne_zero 0), (selfContainedFrom_of_unquoted rfl).mpr (ih hsep)⟩
    exact ⟨fun _ _ => ⟨by decide, hne⟩,
      (selfContainedFrom_of_unquoted rfl).mpr ((ihinside fun x hx => by cases hx).raise hclose)⟩

/-! ### Self-contained texts are well-nested -/

theorem wellNested_of_selfContained (h : SelfContained (sep.getD ')') text) :
    WellNested sep text := by
  induction hn : text.length using Nat.strongRecOn generalizing text sep with
  | ind n ih =>
    subst hn
    cases text with
    | nil => exact .nil
    | cons c text =>
      obtain ⟨hc, hrest⟩ := h
      -- the parts of a text with two delimiters are shorter than it
      have hshorter (inside rest : Text) (d : Char) :
          inside.length < (c :: (inside ++ d :: rest)).length ∧
            rest.length < (c :: (inside ++ d :: rest)).length := by
        simp only [List.length_cons, List.length_append]
        omega
      by_cases hquote : isQuote c = true
      · -- a string, up to its end, and what is behind it
        obtain ⟨hbare, hopened, hlast⟩ := opens_of_isQuote hquote
        rw [depthAfter_of_not_bare hbare] at hrest
        have hkept : QuotesKept c [] := fun front _ h => by simp at h
        obtain ⟨body, rest, rfl, hbody, hrest⟩ := exists_stringBody hopened hkept hrest
        rw [selfContainedFrom_of_unquoted (quote_after_stringBody hopened hlast hbody)] at hrest
        exact .string hquote hbody (ih _ (hshorter body rest c).2 hrest rfl)
      · rw [Bool.not_eq_true] at hquote
        obtain ⟨hclose, hsep⟩ := hc (by rw [Quoting.bare, hquote]; rfl) rfl
        by_cases hopen : c = '('
        · -- parentheses, up to the one that closes them
          subst hopen
          have hdeeper : SelfContainedFrom (sep.getD ')') {} (0 + 1 + 0) text :=
            (selfContainedFrom_of_unquoted rfl).mp hrest
          obtain ⟨inside, rest, hbreak, hunquoted, hafter⟩ := exists_breakAtCloseFrom hdeeper
          rw [selfContainedFrom_of_unquoted hunquoted] at hafter
          obtain rfl := eq_of_breakAtCloseFrom hbreak
          have hinside : SelfContained ')' inside := selfContainedFrom_of_breakAtCloseFrom hbreak
          exact .parens (ih _ (hshorter inside rest ')').1 hinside rfl)
            (ih _ (hshorter inside rest ')').2 hafter rfl)
        · have hplain : IsSeparator c := ⟨hquote, hopen, hclose⟩
          rw [hplain.depthAfter, selfContainedFrom_of_unquoted (hplain.quote_step rfl)] at hrest
          exact .plain hplain (fun h => hsep (by rw [← h]; rfl))
            (ih _ (Nat.lt_succ_self _) hrest rfl)

/-- **Well-nested is what the scans find self-contained.** -/
theorem wellNested_iff_selfContained (hsep : ∀ x ∈ sep, IsSeparator x) :
    WellNested sep text ↔ SelfContained (sep.getD ')') text :=
  ⟨WellNested.selfContained hsep, wellNested_of_selfContained⟩

/-- Whether an argument is well-nested is decided by the scan. -/
instance (text : Text) : Decidable (WellNested (some ',') text) :=
  decidable_of_iff (SelfContained ',' text)
    (wellNested_iff_selfContained fun _ h => Option.some.inj h ▸ isSeparator_comma).symm

end FluidScss
