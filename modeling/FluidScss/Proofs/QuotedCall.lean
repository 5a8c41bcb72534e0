/-
FluidScss/Proofs/QuotedCall.lean

A call with a string as the value of the only declaration of a sheet.  A chunk
reads strings whole, so what stands in the string does not matter
(`parseSheet_callSheet_iff`), unless the name of the call ends in `url`: the call
is read as an address then, and an address ends with its first parenthesis, also
where that is in the string.  Only an address that begins behind that parenthesis,
still in the string, carries the chunk on to the end of the call.

Where the string is cut no declaration has the call as its value, because the two
quotes at the ends of the string would stand in one statement: either a brace, a
semicolon or a comment comes between them, or the sheet does not end.
-/
import FluidScss.Proofs.Boundary
import FluidScss.Proofs.Placement
import FluidScss.Proofs.QuotedValue
import FluidScss.Proofs.Written

namespace FluidScss

open Outline

variable {name body text rest part after : Text} {quote close : Char} {stop : Char → Bool}

/-! ### Ends of parts -/

theorem exists_of_stringRest (h : stringRest quote text = some (body, rest)) :
    ∃ inner, body = inner ++ [quote] := by
  fun_induction stringRest quote text generalizing body with
  | case1 => cases h
  | case2 =>
    cases h
    exact ⟨[], rfl⟩
  | case3 => cases h
  | case4 => cases h
  | case5 => cases h
  | case6 d rest' hd hq hn ih =>
    obtain ⟨⟨b, a⟩, hb, he⟩ := Option.map_eq_some_iff.mp h
    cases he
    obtain ⟨inner, rfl⟩ := ih hb
    exact ⟨'\\' :: d :: inner, rfl⟩
  | case7 c rest' hq hn hb ih =>
    obtain ⟨⟨b, a⟩, hb', he⟩ := Option.map_eq_some_iff.mp h
    cases he
    obtain ⟨inner, rfl⟩ := ih hb'
    exact ⟨c :: inner, rfl⟩

theorem exists_of_upTo (h : upTo close stop text = some (body, rest)) :
    ∃ inner, body = inner ++ [close] ∧ close ∉ inner := by
  fun_induction upTo close stop text generalizing body with
  | case1 => cases h
  | case2 =>
    cases h
    exact ⟨[], rfl, List.not_mem_nil⟩
  | case3 => cases h
  | case4 c rest' hc hs ih =>
    obtain ⟨⟨b, a⟩, hb, he⟩ := Option.map_eq_some_iff.mp h
    cases he
    obtain ⟨inner, rfl, hinner⟩ := ih hb
    exact ⟨c :: inner, rfl, by simp [hinner, Ne.symm hc]⟩

/-! ### Behind the string -/

/-- What follows the declaration in the sheet. -/
def afterCall : Text := "; \x7d"

/-- What follows the string in the sheet. -/
def afterBody : Text := '"' :: ')' :: afterCall

/-- Where a text goes on over the quote behind the string, its last character stands
behind the quote. -/
theorem exists_beyond {beyond inner : Text} (front : Text) {c : Char} (hc : c ≠ '"')
    (h : body ++ '"' :: beyond = front ++ (inner ++ [c])) :
    ∃ beyond', beyond = beyond' ++ [c] ∧ body ++ '"' :: beyond' = front ++ inner := by
  rcases List.eq_nil_or_concat beyond with rfl | ⟨beyond', d, rfl⟩
  · rw [← List.append_assoc] at h
    exact absurd (List.cons.inj (List.append_inj' h rfl).2).1.symm hc
  · rw [List.concat_eq_append, ← List.cons_append, ← List.append_assoc, ← List.append_assoc] at h
    obtain ⟨hfront, hd⟩ := List.append_inj' h rfl
    cases hd
    exact ⟨beyond', List.concat_eq_append, hfront⟩

/-- An address that goes on over the quote is open there. -/
theorem leavesOpen_of_address {beyond inner : Text} (hinner : ')' ∉ inner)
    (h : body ++ '"' :: beyond = ['u', 'r', 'l', '('] ++ inner) : LeavesOpen body := by
  rcases List.append_eq_append_iff.mp h with ⟨z, hz, hb⟩ | ⟨z, hz, rfl⟩
  · rcases z with - | ⟨d, z⟩
    · rw [List.append_nil] at hz
      rw [← hz]
      exact .here List.not_mem_nil
    · -- the quote would stand in the word
      have hd := (List.cons.inj hb).1
      have hmem : '"' ∈ (['u', 'r', 'l', '('] : Text) := by
        rw [hz, hd]
        simp
      exact absurd hmem (by decide)
  · rw [hz]
    exact .here fun hm => hinner (List.mem_append_left _ hm)

/-- A part that goes on over the quote at the end of the string is an address that
is open there, or an interpolation that takes the rest of the sheet. -/
theorem leavesOpen_of_chunkPart {beyond : Text} (hq : '"' ∉ body)
    (h : chunkPart (body ++ afterBody) = some (body ++ '"' :: beyond, after)) :
    LeavesOpen body ∨ after = [] := by
  have hrest : beyond ++ after = ("); \x7d" : Text) := by
    have hsplit := (eq_of_chunkPart h).1
    rw [List.append_assoc, List.append_cancel_left_eq] at hsplit
    exact (List.cons.inj hsplit).2.symm
  rcases body with - | ⟨c, body⟩
  · cases h
  · rw [List.mem_cons, not_or] at hq
    rw [chunkPart.eq_def] at h
    split at h
    · rename_i he
      cases he
    · rename_i he
      exact absurd (List.cons.inj he).1.symm hq.1
    · -- a string in the other quotes, of which there is none behind
      obtain ⟨⟨b, a⟩, hb, he⟩ := Option.map_eq_some_iff.mp h
      obtain ⟨inner, rfl⟩ := exists_of_stringRest hb
      obtain ⟨beyond', rfl, -⟩ := exists_beyond ['\''] (by decide)
        (Prod.mk.inj he).1.symm
      have hmem : '\'' ∈ ("); \x7d" : Text) := by
        rw [← hrest]
        simp
      exact absurd hmem (by decide)
    · -- an interpolation: the only brace behind is the last character
      obtain ⟨⟨b, a⟩, hb, he⟩ := Option.map_eq_some_iff.mp h
      obtain ⟨inner, rfl, hinner⟩ := exists_of_upTo hb
      obtain ⟨beyond', rfl, hbeyond'⟩ := exists_beyond ['#', '\x7b'] (by decide)
        (Prod.mk.inj he).1.symm
      have hmem : '\x7d' ∉ beyond' := fun hm => by
        have : '\x7d' ∈ (['#', '\x7b'] : Text) ++ inner := by
          rw [← hbeyond']
          simp [hm]
        simp [hinner] at this
      rw [List.append_assoc, List.singleton_append] at hrest
      exact .inr (Text.eq_of_append_cons_eq hmem (by decide : '\x7d' ∉ ("); " : Text)) hrest).2
    · cases h
    · cases h
    · split at h
      · rename_i b a hb
        obtain ⟨inner, rfl, hinner⟩ := exists_of_upTo hb
        obtain ⟨beyond', -, hbeyond'⟩ := exists_beyond ['u', 'r', 'l', '('] (by decide)
          (Prod.mk.inj (Option.some.inj h)).1.symm
        exact .inl (leavesOpen_of_address hinner hbeyond')
      · -- one letter is shorter
        have := congrArg List.length (Prod.mk.inj (Option.some.inj h)).1
        simp at this
    · split at h
      · cases h
      · have := congrArg List.length (Prod.mk.inj (Option.some.inj h)).1
        simp at this

/-- The chunk that a string is read in, from somewhere in the string on: it ends
before the quote, unless an address is open there or it takes the whole rest. -/
theorem chunkRest_before_quote (hq : '"' ∉ body) :
    LeavesOpen body ∨ (chunkRest (body ++ afterBody)).2 = []
      ∨ '"' ∉ (chunkRest (body ++ afterBody)).1 := by
  -- the induction follows the parts of the chunk
  induction hn : body.length using Nat.strongRecOn generalizing body with
  | ind n ih =>
    rcases hp : chunkPart (body ++ afterBody) with - | ⟨part, after⟩
    · rw [chunkRest_of_none hp]
      exact .inr (.inr List.not_mem_nil)
    · obtain ⟨hsplit, hne⟩ := eq_of_chunkPart hp
      rw [chunkRest_of_part hp]
      have hwithin : ∀ behind, body = part ++ behind → after = behind ++ afterBody →
          LeavesOpen body ∨ (chunkRest after).2 = [] ∨ '"' ∉ part ++ (chunkRest after).1 := by
        rintro behind rfl rfl
        rw [List.mem_append, not_or] at hq
        have hlength : behind.length < n := by
          have := List.length_pos_iff.mpr hne
          rw [List.length_append] at hn
          omega
        rcases ih _ hlength hq.2 rfl with ho | hrest
        · rw [List.append_assoc] at hp
          refine .inl (.behind (chunkPart_change hp (fun c hc => ?_) ?_) ho)
          · rw [List.head?_append, hc]
            rfl
          · rintro rfl ⟨inner, rfl⟩
            exact absurd (not_mem_of_chunkPart_address hp) (by simp [afterBody])
        · refine .inr (hrest.imp_right fun hrest => ?_)
          rw [List.mem_append, not_or]
          exact ⟨hq.1, hrest⟩
      rcases List.append_eq_append_iff.mp hsplit with ⟨z, rfl, hz⟩ | ⟨behind, hbody, hafter⟩
      · rcases z with - | ⟨d, beyond⟩
        · exact hwithin [] (by simp) (by simpa using hz.symm)
        · obtain rfl := (List.cons.inj hz).1
          rcases leavesOpen_of_chunkPart hq hp with ho | rfl
          · exact .inl ho
          · exact .inr (.inl (congrArg Prod.snd (chunkRest_of_none rfl)))
      · exact hwithin behind hbody hafter

/-! ### Calls -/

/-- A call with a string. -/
def quotedCall (name body : Text) : Text := name ++ '(' :: '"' :: (body ++ ['"', ')'])

/-- A sheet with a declaration whose value is the call. -/
def callSheet (name body : Text) : Text := ".a \x7b p: " ++ quotedCall name body ++ afterCall

/-- A name in letters and hyphens. -/
def IsCallName (name : Text) : Prop := ∀ c ∈ name, c.isAlpha = true ∨ c = '-'

instance : Decidable (IsCallName name) :=
  inferInstanceAs (Decidable (∀ c ∈ name, c.isAlpha = true ∨ c = '-'))

/-- A text that may stand in a string as it is. -/
def IsStringBody (body : Text) : Prop := '"' ∉ body ∧ '\\' ∉ body ∧ '\n' ∉ body

instance : Decidable (IsStringBody body) :=
  inferInstanceAs (Decidable ('"' ∉ body ∧ '\\' ∉ body ∧ '\n' ∉ body))

/-- The string of the call ends with its quote: the call is no address, or there is
no parenthesis in the string, or an address begins behind the first one that there
is and goes on to the parenthesis of the call. -/
def KeepsString (name body : Text) : Prop :=
  ("url" : Text) <:+ name → ∀ front back, body = front ++ ')' :: back → ')' ∉ front →
    LeavesOpen back

/-- The declaration of the sheet. -/
def callText (name body : Text) : Text := declarationText "p" (quotedCall name body) false

/-! ### Names that end like an address -/

/-- In front of the word that begins an address it does not begin earlier. -/
theorem not_isPrefix_url {c : Char} (h : '(' ∉ c :: text) (rest : Text) :
    ¬ ("url(" : Text) <+: c :: (text ++ ("url(" ++ rest)) := by
  intro hp
  have hp : ['r', 'l', '('] <+: text ++ 'u' :: 'r' :: 'l' :: '(' :: rest :=
    (List.cons_prefix_cons.mp hp).2
  rcases text with - | ⟨a, - | ⟨b, - | ⟨d, text⟩⟩⟩
  · cases (List.cons_prefix_cons.mp hp).1
  · cases (List.cons_prefix_cons.mp (List.cons_prefix_cons.mp hp).2).1
  · cases (List.cons_prefix_cons.mp (List.cons_prefix_cons.mp (List.cons_prefix_cons.mp hp).2).2).1
  · have hd := (List.cons_prefix_cons.mp
      (List.cons_prefix_cons.mp (List.cons_prefix_cons.mp hp).2).2).1
    subst hd
    exact h (by simp)

theorem chunkRest_before_address {front : Text} (hs : ∀ c ∈ front, isPlain c = true ∧ c ≠ '#')
    (ho : '(' ∉ front) (rest : Text) : chunkRest (front ++ ("url(" ++ rest))
      = (front ++ (chunkRest ("url(" ++ rest)).1, (chunkRest ("url(" ++ rest)).2) := by
  induction front with
  | nil => rfl
  | cons c front ih =>
    obtain ⟨hplain, hhash⟩ := hs c (List.mem_cons_self ..)
    have hpart : chunkPart (c :: (front ++ ("url(" ++ rest)))
        = some ([c], front ++ ("url(" ++ rest)) :=
      chunkPart_cons hplain (fun hc => absurd hc hhash) (not_isPrefix_url ho rest)
    rw [List.cons_append, chunkRest_of_part hpart,
      ih (fun d hd => hs d (List.mem_cons_of_mem _ hd)) fun hm => ho (List.mem_cons_of_mem _ hm)]
    rfl

theorem IsCallName.inAlphabet (h : IsCallName name) : InAlphabet "-" name := by
  intro c hc
  rcases h c hc with ha | rfl
  · exact .inl (by rw [Char.isAlphanum, ha, Bool.true_or])
  · exact .inr (List.mem_cons_self ..)

/-- A call whose name ends like an address is read up to the first parenthesis
behind it. -/
theorem chunkRest_address {front inside : Text} (hname : IsCallName (front ++ "url"))
    (hi : ')' ∉ inside) (rest : Text) :
    chunkRest ("p: " ++ front ++ ("url(" ++ (inside ++ ')' :: rest)))
      = ("p: " ++ front ++ ("url(" ++ (inside ++ ')' :: (chunkRest rest).1)),
        (chunkRest rest).2) := by
  have hpart : chunkPart ("url(" ++ (inside ++ ')' :: rest))
      = some ("url(" ++ (inside ++ [')']), rest) := by
    show chunkPart ('u' :: 'r' :: 'l' :: '(' :: (inside ++ ')' :: rest)) = _
    rw [chunkPart, upTo_append hi]
    rfl
  have hfront : InAlphabet ": -" ("p: " ++ front) := by
    refine InAlphabet.append (by decide) fun c hc => ?_
    exact (hname.inAlphabet.mono (by decide)) c (List.mem_append_left _ hc)
  have hplain : ∀ c ∈ ("p: " : Text) ++ front, isPlain c = true ∧ c ≠ '#' := by
    have hextra : ∀ c ∈ (": -" : Text), isPlain c = true ∧ c ≠ '#' := by decide
    intro c hc
    rcases hfront c hc with ha | hm
    · refine ⟨isPlain_of_isAlphanum ha, ?_⟩
      rintro rfl
      cases ha
    · exact hextra c hm
  rw [chunkRest_before_address hplain (hfront.not_mem rfl (by decide)), chunkRest_of_part hpart]
  simp

/-! ### The chunk of the declaration -/

theorem callText_append (front inside : Text) :
    callText (front ++ "url") inside
      = "p: " ++ front ++ ("url(" ++ ('"' :: (inside ++ ['"', ')']))) := by
  simp [callText, declarationText, quotedCall, withImportant]

/-- The parts of the call. -/
def callParts (name body : Text) : List ValuePart :=
  name.map .char ++ [.char '(', .string body, .char ')']

theorem source_callParts (name body : Text) :
    (callParts name body).flatMap ValuePart.source = quotedCall name body := by
  have hname : (name.map ValuePart.char).flatMap ValuePart.source = name := by
    rw [List.flatMap_map]
    exact List.flatMap_singleton' name
  rw [callParts, List.flatMap_append, hname]
  simp [quotedCall, ValuePart.source]

theorem plain_callParts (hname : IsCallName name) (hbody : IsStringBody body) :
    ∀ p ∈ callParts name body, p.Plain := by
  intro p hp
  rcases List.mem_append.mp hp with hp | hp
  · obtain ⟨c, hc, rfl⟩ := List.mem_map.mp hp
    exact (hname.inAlphabet.mono (by decide)) c hc
  · simp only [List.mem_cons, List.not_mem_nil, or_false] at hp
    rcases hp with rfl | rfl | rfl
    · decide
    · exact hbody
    · decide

/-- A call whose name does not end like an address is a value with a string. -/
theorem quotedValue_call (hname : IsCallName name) (hbody : IsStringBody body)
    (hurl : ¬ ("url" : Text) <:+ name) : QuotedValue (quotedCall name body) := by
  have hparen : '(' ∉ name := hname.inAlphabet.not_mem rfl (by decide)
  refine ⟨by simp [quotedCall], fun hh => ?_, fun hl => ?_, callParts name body,
    (source_callParts name body).symm, plain_callParts hname hbody, ?_⟩
  · rcases name with - | ⟨c, name⟩
    · cases hh
    · cases hh
      exact hname.inAlphabet.not_mem (x := ' ') rfl (by decide) (List.mem_cons_self ..)
  · rw [quotedCall, List.getLast?_append] at hl
    simp [List.getLast?_cons] at hl
  · -- there is one parenthesis, and the name stands in front of it
    have hmask : (callParts name body).map ValuePart.mask = name ++ '(' :: ['"', ')'] := by
      simp [callParts, ValuePart.mask, Function.comp_def]
    rw [hmask]
    rintro ⟨front, back, he⟩
    have hcount := congrArg (List.count '(') he
    have hword : front ++ "url(" ++ back = front ++ "url" ++ '(' :: back := by simp
    rw [hword, List.count_append, List.count_append, List.count_append, List.count_cons_self,
      List.count_cons_self, List.count_eq_zero_of_not_mem hparen] at hcount
    have hfront : '(' ∉ front ++ "url" := by
      rw [← List.count_eq_zero, List.count_append]
      have hrest : (['"', ')'] : Text).count '(' = 0 := rfl
      omega
    rw [hword] at he
    exact hurl ⟨front, (Text.eq_of_append_cons_eq hfront hparen he).1⟩

/-- **A string that is kept** is read in one chunk with its call. -/
theorem chunkRest_callText (hname : IsCallName name) (hbody : IsStringBody body)
    (hkeeps : KeepsString name body) :
    chunkRest (callText name body ++ afterCall) = (callText name body, afterCall) := by
  have hends : chunkRest afterCall = ([], afterCall) := chunkRest_of_none rfl
  by_cases hurl : ("url" : Text) <:+ name
  · obtain ⟨front, rfl⟩ := hurl
    by_cases hp : ')' ∈ body
    · obtain ⟨inside, behind, rfl, hi⟩ := List.eq_append_cons_of_mem hp
      have hopen := chunkRest_of_leavesOpen (hkeeps ⟨front, rfl⟩ inside behind rfl hi)
        (by decide : ')' ∉ ['"']) afterCall
      have haddress := chunkRest_address hname (by simp [hi] : ')' ∉ '"' :: inside)
        (behind ++ (['"'] ++ ')' :: afterCall))
      rw [hopen, hends] at haddress
      rw [callText_append]
      simpa using haddress
    · have haddress := chunkRest_address hname (by simp [hp] : ')' ∉ '"' :: (body ++ ['"']))
        afterCall
      rw [hends] at haddress
      rw [callText_append]
      simpa using haddress
  · have hp : PlainProperty "p" := by decide
    exact chunkRest_append ((quotedValue_call hname hbody hurl).chunkText hp false)
      (chunkEnds_cons rfl)

/-! ### The sheet -/

/-- The lexemes of the sheet up to the chunk of the declaration. -/
def frontLexemes (t : Text) : List Lexeme :=
  [.chunk ".a ", .openBrace, .ignored " ", .chunk t]

/-- The lexemes of the sheet begin so, whatever the chunk is. -/
theorem lexemes_callSheet {t : Text}
    (h : chunkRest (callText name body ++ afterCall) = (t, rest)) :
    lexemes (callSheet name body) = (frontLexemes t ++ (lexemes rest).1, (lexemes rest).2) := by
  have hne : t ≠ [] := by
    rintro rfl
    have hp : chunkPart (callText name body ++ afterCall)
        = some (['p'], ':' :: ' ' :: (quotedCall name body ++ afterCall)) := rfl
    rw [chunkRest_of_part hp] at h
    cases h
  have hchunk : munch (callText name body ++ afterCall) = some (.chunk t, rest) :=
    munch_of_chunk (chunk_eq_some_iff.mpr ⟨hne, by rintro c ⟨⟩; rfl, h⟩)
  have hopen : munch ('\x7b' :: ' ' :: (callText name body ++ afterCall))
      = some (.openBrace, ' ' :: (callText name body ++ afterCall)) := rfl
  have hblank : munch (' ' :: (callText name body ++ afterCall))
      = some (.ignored [' '], callText name body ++ afterCall) := rfl
  have htext : ChunkText ['.', 'a', ' '] :=
    chunkText_of_plain (by decide) (by decide) (closing_of_not_mem (by decide))
  have hends : ChunkEnds ('\x7b' :: ' ' :: (callText name body ++ afterCall)) :=
    chunkEnds_cons (by decide)
  have hselector := munch_chunk htext (by decide) hends
  have hsheet : callSheet name body
      = '.' :: ['a', ' '] ++ '\x7b' :: ' ' :: (callText name body ++ afterCall) := rfl
  rw [hsheet, lexemes_of_munch hselector, lexemes_of_munch hopen,
    lexemes_of_munch hblank, lexemes_of_munch hchunk]
  rfl

/-- The value of the call is read back. -/
theorem statementNode?_callText (hname : IsCallName name) (hbody : IsStringBody body) (k : Nat) :
    statementNode? [⟨callText name body, k⟩]
      = some (.declaration "p" (quotedCall name body) false k) := by
  have hp : Phrase "-" "p" := by decide
  have hparts := source_callParts name body
  refine statementNode?_declaration hp (by decide) (by decide) (by decide) (by simp [quotedCall])
    (Text.trim_eq_self (fun c hc => ?_) fun c hc => ?_)
    (unflagged_of_quoted fun front back he => ?_) false k
  · rcases name with - | ⟨d, name⟩
    · cases hc
      rfl
    · cases hc
      rcases hname c (List.mem_cons_self ..) with ha | rfl
      · exact isBlank_of_isAlphanum (by rw [Char.isAlphanum, ha, Bool.true_or])
      · rfl
  · have hlast : (quotedCall name body).getLast? = some ')' := by
      simp [quotedCall, List.getLast?_append, List.getLast?_cons]
    rw [hlast] at hc
    cases hc
    rfl
  · exact mem_of_flatMap_source_eq (plain_callParts hname hbody) (hparts.trans he)

/-- The tree of the sheet where the string is kept. -/
def callNodes (name body : Text) : List Node :=
  [.block ".a" [".a"] [.declaration "p" (quotedCall name body) false 1] (some 1)]

theorem parseSheet_callSheet (hname : IsCallName name) (hbody : IsStringBody body)
    (hkeeps : KeepsString name body) :
    parseSheet (callSheet name body) = .ok (callNodes name body) := by
  have hend : lexemes afterCall = ([.semicolon, .ignored " ", .closeBrace], []) := by cbv
  have hlex := lexemes_callSheet (chunkRest_callText hname hbody hkeeps)
  rw [hend] at hlex
  -- where the declaration and its semicolon stand
  obtain ⟨here, hhere⟩ : ∃ here, here = Position.after {} ".a \x7b " := ⟨_, rfl⟩
  obtain ⟨there, hthere⟩ : ∃ there, there = here.after (callText name body) := ⟨_, rfl⟩
  have hline : here.line = 1 := by rw [hhere]; rfl
  have hblock : ∀ children, blockNode? [⟨".a ", 1⟩] children
      = some (.block ".a" [".a"] children (some 1)) := fun children => rfl
  refine parseSheet_eq_ok_iff.mpr ⟨by rw [hlex], ⟨[.block (some ⟨({}, ".a "), []⟩)
    (Position.after {} ".a ") [.statement ⟨(here, callText name body), []⟩ there] none
      (there.after "; ")], none⟩, ?_, ?_, ?_⟩
  · rw [hlex, hthere, hhere]
    rfl
  · show deepest 0 [.chunk _, .openBrace, .chunk _, .semicolon, .closeBrace] ≤ nestingLimit
    simp [deepest, nestingLimit]
  · show Item.nodes [.block [⟨".a ", 1⟩] [.statement [⟨callText name body, here.line⟩]] []] ++ []
      = _
    rw [hline]
    simp only [Item.nodes, Item.node?, statementNode?_callText hname hbody, hblock]
    rfl

/-! ### Strings that are not kept -/

/-- Behind a chunk the text ends, or a lexeme follows that is structural or a
comment, or none does. -/
theorem behind_chunk (h : chunkPart rest = none) :
    munch rest = none ∨ ∃ l after, munch rest = some (l, after)
      ∧ (l.Structural ∨ ∃ b, l = .ignored b ∧ '/' ∈ b) := by
  rcases hm : munch rest with - | ⟨l, after⟩
  · exact .inl rfl
  · refine .inr ⟨l, after, rfl, ?_⟩
    obtain hs | ⟨c, tail, rfl, hc, -, -⟩ | ⟨b, rfl, hb⟩ | ⟨t, rfl, hchunk⟩ := munch_cases hm
    · exact .inl hs
    · rw [chunkPart_of_isSheetBlank hc] at h
      cases h
    · obtain ⟨d, inner, -, rfl⟩ := exists_of_comment hb
      exact .inr ⟨_, rfl, List.mem_cons_self ..⟩
    · have hrest := chunk_eq_some_iff.mp hchunk
      rw [chunkRest_of_none h] at hrest
      exact absurd (Prod.mk.inj hrest.2.2).1.symm hrest.1

theorem count_call {t : Text} {c : Char}
    (h : chunkRest (callText name body ++ afterCall) = (t, rest)) (hp : c ∉ ("p: " : Text))
    (hc : c ∉ afterCall) : (quotedCall name body).count c = t.count c + rest.count c := by
  have hsplit := congrArg (List.count c) (eq_of_chunkRest (callText name body ++ afterCall))
  have hcall : callText name body = "p: " ++ quotedCall name body := rfl
  rw [h, hcall, List.count_append, List.count_append, List.count_append,
    List.count_eq_zero_of_not_mem hp, List.count_eq_zero_of_not_mem hc] at hsplit
  dsimp only at hsplit
  omega

theorem count_quote_call (hname : IsCallName name) (hbody : IsStringBody body) :
    (quotedCall name body).count '"' = 2 := by
  have hn := List.count_eq_zero_of_not_mem (hname.inAlphabet.not_mem (x := '"') rfl (by decide))
  have hb := List.count_eq_zero_of_not_mem hbody.1
  simp [quotedCall, hn, hb]

theorem written_chunk (here : Position) (t : Text) : written [(here, .chunk t)] = t :=
  List.append_nil t

theorem written_frontLexemes (t : Text) :
    written (significant {} (frontLexemes t)) = ".a " ++ t := by
  show (".a " : Text) ++ ([] ++ (t ++ [])) = _
  rw [List.nil_append, List.append_nil]

/-- Where a brace or a semicolon stands between the quotes, no statement has both. -/
theorem not_writtenIn_of_structural {text t after : Text} {l : Lexeme} (here there : Position)
    (hl : l.Structural) (htext : text.count '"' = 2) (ht : t.count '"' = 1)
    (hafter : after.count '"' ≤ 1) : ¬ WrittenIn text (significant {} (frontLexemes t)
      ++ (here, l) :: significant there (lexemes after).1) := by
  intro hw
  rcases hw.cut (by rcases hl with rfl | rfl | rfl <;> simp) with hfront | hback
  · have hfront : WrittenIn text ([(({} : Position), .chunk ".a ")]
        ++ (Position.after {} ".a ", .openBrace) :: [(Position.after {} ".a \x7b ", .chunk t)]) :=
      hfront
    rcases hfront.cut (by simp) with hselector | hstatement
    · have hle := hselector.count_le (c := '"') (by decide)
      have hzero : (".a " : Text).count '"' = 0 := rfl
      rw [written_chunk] at hle
      omega
    · have hle := hstatement.count_le (c := '"') (by decide)
      rw [written_chunk] at hle
      omega
  · have hle := (hback.count_le (c := '"') (by decide)).trans (count_written_le '"' _ after)
    omega

/-- Without a comment there are fewer slashes than with it. -/
theorem not_writtenIn_of_comment {text t after b : Text} (here : Position) (hb : '/' ∈ b)
    (htext : text.count '/' = t.count '/' + (b ++ after).count '/') :
    ¬ WrittenIn text (significant {} (frontLexemes t) ++ significant here (lexemes after).1) := by
  intro hw
  have hle := hw.count_le (c := '/') (by decide)
  have hbehind := count_written_le '/' here after
  have hslash := List.count_pos_iff.mpr hb
  have hselector : (".a " : Text).count '/' = 0 := rfl
  rw [written_append, written_frontLexemes, List.count_append, List.count_append] at hle
  rw [List.count_append] at htext
  omega

/-- **A string that is cut** is not read in one statement with its call: the
quotes at its two ends would be, with all that is between them. -/
theorem not_writtenIn_of_cut {t : Text} (hname : IsCallName name) (hbody : IsStringBody body)
    (h : chunkRest (callText name body ++ afterCall) = (t, rest)) (hq : t.count '"' = 1)
    (hrest : rest ≠ []) (hwhole : (lexemes (callSheet name body)).2 = []) :
    ¬ WrittenIn (quotedCall name body) (significant {} (lexemes (callSheet name body)).1) := by
  have hlex := lexemes_callSheet h
  have hquotes := count_quote_call hname hbody
  have htotal := count_call h (c := '"') (by decide) (by decide)
  have hslashes := count_call h (c := '/') (by decide) (by decide)
  rw [hlex] at hwhole ⊢
  rcases behind_chunk (chunkPart_of_rest h) with hm | ⟨l, after, hm, hl⟩
  · rw [lexemes_of_munch_none hm] at hwhole
    exact absurd hwhole hrest
  · obtain ⟨rfl, -⟩ := eq_of_munch hm
    rw [lexemes_of_munch hm, significant_append]
    rcases hl with hl | ⟨b, rfl, hb⟩
    · rw [significant_token (by rcases hl with rfl | rfl | rfl <;> simp)]
      refine not_writtenIn_of_structural _ _ hl hquotes hq ?_
      rw [List.count_append] at htotal
      omega
    · exact not_writtenIn_of_comment _ hb hslashes

/-- A sheet whose one chunk takes the whole rest leaves its block open. -/
theorem parseSheet_ne_ok_of_unclosed {t : Text} {nodes : List Node}
    (h : chunkRest (callText name body ++ afterCall) = (t, [])) :
    parseSheet (callSheet name body) ≠ .ok nodes := by
  intro hok
  obtain ⟨-, e, he, -, -⟩ := parseSheet_eq_ok_iff.mp hok
  obtain ⟨-, hcount⟩ := (exists_derivation_iff (filter_isSignificant {} _)).mp ⟨e, he⟩
  rw [opens_significant, closes_significant, lexemes_callSheet h, lexemes_nil] at hcount
  cases hcount

/-- Where the string is not kept, no declaration has the call as its value. -/
theorem value_ne_of_not_keepsString {nodes : List Node} (hname : IsCallName name)
    (hbody : IsStringBody body) (hkeeps : ¬ KeepsString name body)
    (h : parseSheet (callSheet name body) = .ok nodes) :
    ∀ d ∈ Node.declaredOfList [] nodes, d.value ≠ quotedCall name body := by
  intro d hd hvalue
  simp only [KeepsString, Classical.not_imp, not_forall] at hkeeps
  obtain ⟨⟨front, rfl⟩, inside, behind, rfl, hi, hclosed⟩ := hkeeps
  have hb : '"' ∉ behind := fun hm => hbody.1 (by simp [hm])
  have hin : '"' ∉ inside := fun hm => hbody.1 (by simp [hm])
  -- the address ends in the string, and what is read behind it ends there as well
  have haddress := chunkRest_address hname (by simp [hi] : ')' ∉ '"' :: inside)
    (behind ++ afterBody)
  have hsource : "p: " ++ front ++ ("url(" ++ ('"' :: inside ++ ')' :: (behind ++ afterBody)))
      = callText (front ++ "url") (inside ++ ')' :: behind) ++ afterCall := by
    rw [callText_append]
    simp [afterBody]
  rw [hsource] at haddress
  rcases chunkRest_before_quote hb with ho | hrest | hquote
  · exact hclosed ho
  · rw [hrest] at haddress
    exact parseSheet_ne_ok_of_unclosed haddress h
  · by_cases hrest : (chunkRest (behind ++ afterBody)).2 = []
    · rw [hrest] at haddress
      exact parseSheet_ne_ok_of_unclosed haddress h
    · have hfront : '"' ∉ front ++ "url" := hname.inAlphabet.not_mem rfl (by decide)
      rw [List.mem_append, not_or] at hfront
      have hone : ("p: " ++ front ++ ("url(" ++ ('"' :: inside
          ++ ')' :: (chunkRest (behind ++ afterBody)).1)) : Text).count '"' = 1 := by
        simp [List.count_eq_zero_of_not_mem hfront.1, List.count_eq_zero_of_not_mem hin,
          List.count_eq_zero_of_not_mem hquote]
      obtain ⟨hwhole, e, he, -, rfl⟩ := parseSheet_eq_ok_iff.mp h
      have hw := writtenIn_of_declared hd
      rw [hvalue, he] at hw
      exact not_writtenIn_of_cut hname hbody haddress hone hrest hwhole hw

/-- **A string in a call** is read whole exactly where it is kept: the sheet has one
block with one declaration then, whose value is the call, and otherwise no
declaration of it has that value. -/
theorem parseSheet_callSheet_iff (hname : IsCallName name) (hbody : IsStringBody body) :
    (parseSheet (callSheet name body) = .ok (callNodes name body) ↔ KeepsString name body)
      ∧ (¬ KeepsString name body → ∀ nodes, parseSheet (callSheet name body) = .ok nodes →
        ∀ d ∈ Node.declaredOfList [] nodes, d.value ≠ quotedCall name body) := by
  refine ⟨⟨fun h => ?_, parseSheet_callSheet hname hbody⟩, fun hkeeps nodes h =>
    value_ne_of_not_keepsString hname hbody hkeeps h⟩
  by_contra hkeeps
  have hd : (⟨[[".a"]], "p", quotedCall name body, false⟩ : Declared)
      ∈ Node.declaredOfList [] (callNodes name body) := List.mem_cons_self ..
  exact value_ne_of_not_keepsString hname hbody hkeeps h _ hd rfl

/-- Braces, a semicolon, a parenthesis, a quote and a comment opener in a string. -/
theorem parseSheet_callSheet_symbols :
    IsCallName "format" ∧ IsStringBody "\x7b;)'/*"
      ∧ parseSheet (callSheet "format" "\x7b;)'/*") = .ok (callNodes "format" "\x7b;)'/*") := by
  have hname : IsCallName "format" := by decide
  have hbody : IsStringBody "\x7b;)'/*" := by decide
  refine ⟨hname, hbody, (parseSheet_callSheet_iff hname hbody).1.mpr fun hurl => ?_⟩
  exact absurd hurl (by decide)

/-- The parenthesis in the string closes the address, and the quote behind it
begins a string that does not end. -/
theorem parenthesis_cuts_string :
    IsCallName "url" ∧ IsStringBody "a)b"
      ∧ parseSheet (callSheet "url" "a)b") = .error (.malformed ⟨1, 17⟩)
      ∧ parseSheet (callSheet "url" "a)b") ≠ .ok (callNodes "url" "a)b") := by
  have hsheet : callSheet "url" "a)b" = ".a \x7b p: url(\"a)b\"); \x7d" := by decide
  have hparse : parseSheet (callSheet "url" "a)b") = .error (.malformed ⟨1, 17⟩) := by
    rw [hsheet]
    cbv
  refine ⟨by decide, by decide, hparse, ?_⟩
  rw [hparse]
  intro h
  cases h

end FluidScss
