/-
FluidScss/Proofs/StringEnd.lean

Where strings end.  A style sheet is cut into lexemes by the grammar's rule: in a
string a backslash takes the next character with it.  The scans of quotes and
parentheses have a rule of their own: a quote closes unless the character right
before it is a backslash (`Quoting.step`).

Inside of a string of the grammar the two never differ, for a quote in it is
taken by a backslash, which stands right before it (`hidden_of_stringRest`).  At
its end they differ exactly if a backslash stands there that was taken itself,
as in `"\\"`: the grammar's string is over, and to the scans it is still open
(`quote_after_string`).  Strings that do not end so are read alike by both, and
behind the others the scans find neither a parenthesis nor a comma
(`string_closed_unless_escaped`).

What is read within strings only is passed over by both scans
(`breakAtCloseFrom_hidden`, `piecesFrom_hidden`).
-/
import FluidScss.Proofs.SelfContained
import FluidScss.Proofs.Terminals

namespace FluidScss

variable {s : Quoting} {quote c : Char} {text rest body literal : Text}

/-! ### Texts within strings -/

namespace Quoting

theorem last_after (s : Quoting) (text : Text) :
    (s.after text).last = text.getLast?.or s.last := by
  rcases List.eq_nil_or_concat text with rfl | ⟨front, c, rfl⟩
  · rfl
  · rw [List.concat_eq_append, after_append, List.getLast?_concat]
    rfl

/-- Behind a backslash the quote is read on too. -/
theorem quote_step_of_backslash (hs : s.quote = some quote) (hl : s.last = some '\\') :
    (s.step c).quote = some quote := by
  simp only [step, hs]
  exact if_neg fun h => h.2 hl

/-- Anywhere else it closes the string. -/
theorem quote_step_close (hs : s.quote = some quote) (hl : s.last ≠ some '\\') :
    (s.step quote).quote = none := by
  simp only [step, hs]
  exact if_pos ⟨trivial, hl⟩

theorem not_bare_of_quoted (hs : s.quote = some quote) : s.bare c = false := by
  rw [bare, hs]
  rfl

end Quoting

/-- A quote outside of strings opens one, and is no backslash. -/
theorem opens_of_isQuote (h : isQuote quote = true) :
    ({} : Quoting).bare quote = false ∧ (({} : Quoting).step quote).quote = some quote ∧
      (({} : Quoting).step quote).last ≠ some '\\' := by
  refine ⟨?_, ?_, ?_⟩
  · rw [Quoting.bare, h]
    rfl
  · simp only [Quoting.step, h]
    rfl
  · rintro hlast
    cases hlast
    cases h

/-- All characters of the text stand in strings or open one. -/
def Hidden (s : Quoting) : Text → Prop
  | [] => True
  | c :: rest => s.bare c = false ∧ Hidden (s.step c) rest

theorem Hidden.append (h : Hidden s text) (hrest : Hidden (s.after text) rest) :
    Hidden s (text ++ rest) := by
  induction text generalizing s with
  | nil => exact hrest
  | cons c text ih => exact ⟨h.1, ih h.2 hrest⟩

/-- A string goes on over a text without its quote. -/
theorem hidden_of_not_mem (hs : s.quote = some quote) (h : quote ∉ text) : Hidden s text := by
  induction text generalizing s with
  | nil => trivial
  | cons c text ih =>
    rw [List.mem_cons, not_or] at h
    exact ⟨Quoting.not_bare_of_quoted hs, ih (Quoting.quote_step_of_ne hs (Ne.symm h.1)) h.2⟩

theorem depthAfter_of_not_bare (h : s.bare c = false) (depth : Nat) :
    s.depthAfter depth c = depth := by
  rw [Quoting.depthAfter, h, if_neg Bool.false_ne_true]

theorem breakAtCloseFrom_hidden (h : Hidden s text) (depth : Nat) (rest : Text) :
    breakAtCloseFrom s depth (text ++ rest) = (breakAtCloseFrom (s.after text) depth rest).map
      fun (inside, after) => (text ++ inside, after) := by
  induction text generalizing s with
  | nil => exact Option.map_id'.symm
  | cons c text ih =>
    have hopen : ¬ (s.bare c = true ∧ c = ')' ∧ depth = 0) := fun hc => by
      rw [h.1] at hc
      cases hc.1
    rw [List.cons_append, breakAtCloseFrom, if_neg hopen, depthAfter_of_not_bare h.1, ih h.2,
      Option.map_map]
    rfl

theorem piecesFrom_hidden (h : Hidden s text) (sep : Text) (depth : Nat) (rest : Text) :
    piecesFrom sep s depth (text ++ rest)
      = text.foldr Text.consHead (piecesFrom sep (s.after text) depth rest) := by
  induction text generalizing s with
  | nil => rfl
  | cons c text ih =>
    have hkeep : ¬ (s.bare c = true ∧ c ≠ '(' ∧ c ≠ ')' ∧ [c] = sep ∧ depth = 0) := fun hc => by
      rw [h.1] at hc
      cases hc.1
    rw [List.cons_append, piecesFrom, if_neg hkeep, depthAfter_of_not_bare h.1, ih h.2]
    rfl

/-! ### Strings of a sheet -/

/-- A text is a string as a chunk may hold it: the expression for strings in one
of the two quotes matches it to its end. -/
def IsString (literal : Text) : Prop :=
  ∃ quote, (quote = '"' ∨ quote = '\'') ∧ [] ∈ (Terminal.string quote).ways literal

/-- The quote that closes the string stands behind a backslash; that one was
taken by another. -/
def EscapedEnd (literal : Text) : Prop := literal.dropLast.getLast? = some '\\'

instance (literal : Text) : Decidable (EscapedEnd literal) :=
  inferInstanceAs (Decidable (literal.dropLast.getLast? = some '\\'))

/-- Up to the quote that ends a string the scans stay in it. -/
theorem hidden_of_stringRest (hq : quote ≠ '\\') (h : stringRest quote text = some (body, rest))
    (hs : s.quote = some quote) :
    ∃ inner, body = inner ++ [quote] ∧ Hidden s inner ∧ (s.after inner).quote = some quote := by
  -- a turn is a character that is no quote, or a backslash with what it takes
  fun_induction stringRest quote text generalizing body s with
  | case1 => cases h
  | case2 rest =>
    cases h
    exact ⟨[], rfl, trivial, hs⟩
  | case3 => cases h
  | case4 => cases h
  | case5 => cases h
  | case6 d rest _ _ _ ih =>
    obtain ⟨⟨body, rest⟩, hbody, he⟩ := Option.map_eq_some_iff.mp h
    cases he
    have hslash := Quoting.quote_step_of_ne hs (Ne.symm hq)
    obtain ⟨inner, rfl, hidden, hopen⟩ :=
      ih hbody (Quoting.quote_step_of_backslash (c := d) hslash rfl)
    exact ⟨'\\' :: d :: inner, rfl,
      ⟨Quoting.not_bare_of_quoted hs, Quoting.not_bare_of_quoted hslash, hidden⟩, hopen⟩
  | case7 c rest hne _ _ ih =>
    obtain ⟨⟨body, rest⟩, hbody, he⟩ := Option.map_eq_some_iff.mp h
    cases he
    obtain ⟨inner, rfl, hidden, hopen⟩ := ih hbody (Quoting.quote_step_of_ne hs hne)
    exact ⟨c :: inner, rfl, ⟨Quoting.not_bare_of_quoted hs, hidden⟩, hopen⟩

theorem IsString.exists_front (h : IsString literal) :
    ∃ quote inner, isQuote quote = true ∧ literal = quote :: inner ++ [quote] ∧
      Hidden {} (quote :: inner) ∧ (({} : Quoting).after (quote :: inner)).quote = some quote := by
  obtain ⟨quote, hquote, hways⟩ := h
  have hq : isQuote quote = true := by rcases hquote with rfl | rfl <;> rfl
  have hslash : quote ≠ '\\' := by rcases hquote with rfl | rfl <;> decide
  rcases literal with - | ⟨c, text⟩
  · cases hways
  · rw [Terminal.ways_string_cons hslash] at hways
    split at hways
    · rename_i hc
      subst hc
      rw [Option.mem_toList, Option.map_eq_some_iff] at hways
      obtain ⟨⟨body, rest⟩, hrest, rfl⟩ := hways
      obtain ⟨hbare, hopened, -⟩ := opens_of_isQuote hq
      obtain ⟨inner, rfl, hidden, hopen⟩ := hidden_of_stringRest hslash hrest hopened
      rw [(eq_of_stringRest hrest).1, List.append_nil]
      exact ⟨c, inner, hq, rfl, ⟨hbare, hidden⟩, hopen⟩
    · cases hways

/-- Behind a string of the grammar the scans are outside of strings, unless its
last quote stands behind a backslash. -/
theorem quote_after_string (h : IsString literal) :
    ∃ quote, isQuote quote = true ∧ literal.head? = some quote ∧ literal.getLast? = some quote ∧
      Hidden {} literal ∧
      (({} : Quoting).after literal).quote = if EscapedEnd literal then some quote else none := by
  obtain ⟨quote, inner, hq, rfl, hidden, hopen⟩ := h.exists_front
  have hend : EscapedEnd (quote :: inner ++ [quote])
      ↔ (({} : Quoting).after (quote :: inner)).last = some '\\' := by
    rw [Quoting.last_after, Option.or_none, EscapedEnd, List.dropLast_concat]
  refine ⟨quote, hq, rfl, List.getLast?_concat, hidden.append ⟨Quoting.not_bare_of_quoted hopen,
    trivial⟩, ?_⟩
  rw [Quoting.after_append]
  show (Quoting.step _ quote).quote = _
  by_cases hescaped : EscapedEnd (quote :: inner ++ [quote])
  · rw [if_pos hescaped]
    exact Quoting.quote_step_of_backslash hopen (hend.mp hescaped)
  · rw [if_neg hescaped]
    exact Quoting.quote_step_close hopen fun hlast => hescaped (hend.mpr hlast)

/-! ### The scans behind a string -/

/-- A text without quotes, parentheses and commas: it is one argument. -/
def Plainly (text : Text) : Prop :=
  ∀ c ∈ text, isQuote c = false ∧ c ≠ '(' ∧ c ≠ ')' ∧ c ≠ ','

instance (text : Text) : Decidable (Plainly text) :=
  inferInstanceAs (Decidable (∀ c ∈ text, isQuote c = false ∧ c ≠ '(' ∧ c ≠ ')' ∧ c ≠ ','))

theorem pieces_of_plainly (h : Plainly text) : pieces "," text = [text] := by
  have hsplit : pieces [','] text = Text.splitOn ',' text :=
    pieces_eq_splitOn (fun c hc => ⟨(h c hc).1, (h c hc).2.1, (h c hc).2.2.1⟩) ','
  exact hsplit.trans (Text.splitOn_eq_singleton fun hm => (h _ hm).2.2.2 rfl)

theorem isBlank_of_trim_eq (hne : text ≠ []) (h : Text.trim text = text) :
    Text.isBlank text = false := by
  refine Bool.eq_false_iff.mpr fun hblank => hne ?_
  rw [← h]
  exact Text.trim_eq_nil_iff.mpr hblank

/-- A string begins and ends with its quote, so it has no blanks to trim, and
nothing in front of it has. -/
theorem trim_string_append (h : IsString literal) (text : Text)
    (hlast : ∀ c, text.getLast? = some c → isBlank c = false) :
    Text.trim (literal ++ text) = literal ++ text := by
  obtain ⟨quote, hq, hhead, hend, -⟩ := quote_after_string h
  refine Text.trim_eq_self (fun c hc => ?_) fun c hc => ?_
  · rw [List.head?_append, hhead] at hc
    cases hc
    exact isBlank_of_isQuote hq
  · rw [List.getLast?_append, hend] at hc
    rcases hl : text.getLast? with - | d
    · rw [hl] at hc
      cases hc
      exact isBlank_of_isQuote hq
    · rw [hl] at hc
      cases hc
      exact hlast _ hl

/-- A parenthesis behind a string closes the one before it, or stands in it. -/
theorem closingParen_string (h : IsString literal) :
    closingParen (literal ++ ")") 0 = if EscapedEnd literal then none else some literal.length := by
  obtain ⟨quote, hq, -, -, hidden, hquote⟩ := quote_after_string h
  rw [closingParen, List.drop_zero, breakAtClose, breakAtCloseFrom_hidden hidden]
  by_cases hescaped : EscapedEnd literal
  · rw [if_pos hescaped] at hquote ⊢
    have hparen : Hidden (({} : Quoting).after literal) ")" := by
      refine hidden_of_not_mem hquote fun hm => ?_
      rw [List.mem_singleton.mp hm] at hq
      cases hq
    have hnone := breakAtCloseFrom_hidden hparen 0 []
    rw [List.append_nil] at hnone
    rw [hnone]
    rfl
  · rw [if_neg hescaped] at hquote ⊢
    rw [breakAtCloseFrom_of_unquoted hquote]
    show some (0 + (literal ++ []).length) = _
    rw [List.append_nil, Nat.zero_add]

/-- A comma behind a string separates it from a plain text, or stands in it. -/
theorem pieces_string (h : IsString literal) (hplain : Plainly text) :
    pieces "," (literal ++ "," ++ text)
      = if EscapedEnd literal then [literal ++ "," ++ text] else [literal, text] := by
  obtain ⟨quote, hq, -, -, hidden, hquote⟩ := quote_after_string h
  rw [List.append_assoc, pieces, piecesFrom_hidden hidden]
  by_cases hescaped : EscapedEnd literal
  · rw [if_pos hescaped] at hquote ⊢
    have htail : Hidden (({} : Quoting).after literal) ("," ++ text) := by
      refine hidden_of_not_mem hquote fun hm => ?_
      rcases List.mem_cons.mp hm with rfl | hm
      · cases hq
      · rw [(hplain _ hm).1] at hq
        cases hq
    have hone := piecesFrom_hidden htail "," 0 []
    rw [List.append_nil] at hone
    rw [hone, piecesFrom, foldr_consHead, foldr_consHead, List.append_nil]
  · rw [if_neg hescaped] at hquote ⊢
    have htext : pieces [','] text = [text] := pieces_of_plainly hplain
    rw [piecesFrom_of_unquoted hquote]
    show literal.foldr Text.consHead (pieces [','] (',' :: text)) = _
    rw [isSeparator_comma.pieces_cons, htext, foldr_consHead, List.append_nil]

/-- **Strings end where the grammar ends them, but for one kind.**  A parenthesis
behind a string closes the one before it, and a comma behind it separates it from
a plain text, unless a backslash stands before the quote that ends the string;
then it is still open to the scans, and they find neither. -/
theorem string_closed_unless_escaped (h : IsString literal) :
    closingParen (literal ++ ")") 0 = (if EscapedEnd literal then none else some literal.length) ∧
      ∀ x : Text, x ≠ [] → Plainly x → Text.trim x = x →
        splitTopLevel "," (literal ++ "," ++ x)
          = if EscapedEnd literal then [literal ++ "," ++ x] else [literal, x] := by
  refine ⟨closingParen_string h, fun x hne hx htrim => ?_⟩
  have hpieces := pieces_string h hx
  by_cases hescaped : EscapedEnd literal
  · rw [if_pos hescaped] at hpieces ⊢
    have hwhole : Text.trim (literal ++ "," ++ x) = literal ++ "," ++ x := by
      rw [List.append_assoc]
      refine trim_string_append h _ fun c hc => ?_
      rw [List.getLast?_append, List.getLast?_eq_some_getLast hne, Option.some_or,
        ← List.getLast?_eq_some_getLast hne, ← htrim] at hc
      exact Text.isBlank_getLast?_trim hc
    have hkept := isBlank_of_trim_eq (by simp) hwhole
    rw [splitTopLevel_of_pieces hpieces (by rintro part ⟨⟩; exact hkept), List.map_singleton,
      hwhole]
  · rw [if_neg hescaped] at hpieces ⊢
    have hliteral := trim_string_append h [] nofun
    rw [List.append_nil] at hliteral
    have hkept := isBlank_of_trim_eq hne htrim
    rw [splitTopLevel_of_pieces hpieces (by rintro part ⟨⟩; exact hkept), List.map_cons,
      List.map_singleton, hliteral, htrim]

/-- The string of an escaped quote ends as the grammar says. -/
theorem string_closed_unless_escaped_quote :
    IsString "\"a\\\"),\"" ∧
      closingParen (("\"a\\\"),\"" : Text) ++ ")") 0 = some 7 ∧
      splitTopLevel "," (("\"a\\\"),\"" : Text) ++ "," ++ "2px")
        = (["\"a\\\"),\"", "2px"] : List Text) := by
  have h : IsString "\"a\\\"),\"" := by
    refine ⟨'"', .inl rfl, ?_⟩
    show [] ∈ (Terminal.string '"').ways ['"', 'a', '\\', '"', ')', ',', '"']
    rw [Terminal.ways_string_cons (by decide)]
    decide
  obtain ⟨hclose, hsplit⟩ := string_closed_unless_escaped h
  exact ⟨h, hclose, hsplit "2px" (by decide) (by decide) (by decide)⟩

/-- An escaped backslash at the end of a string keeps it open to the scans: the
parenthesis behind it closes nothing, and the comma separates nothing. -/
theorem escaped_end_is_missed :
    IsString "\"\\\\\"" ∧ closingParen (("\"\\\\\"" : Text) ++ ")") 0 ≠ some 4 ∧
      splitTopLevel "," (("\"\\\\\"" : Text) ++ "," ++ "2px")
        ≠ (["\"\\\\\"", "2px"] : List Text) := by
  refine ⟨⟨'"', .inl rfl, ?_⟩, by decide, by decide⟩
  show [] ∈ (Terminal.string '"').ways ['"', '\\', '\\', '"']
  rw [Terminal.ways_string_cons (by decide)]
  decide

end FluidScss
