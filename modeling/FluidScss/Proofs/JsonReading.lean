/-
FluidScss/Proofs/JsonReading.lean

What reading a JSON text can give.  No value that is read has an object with a
key twice, for a repeated key sets the member that is there, none has a whole
number of too many digits, and every other number has been rounded: it is
`Readable`, at every depth (`Json.readable_of_read?`).  The invariant is that of
the text read in part, with all that is on the stack, and each lexeme keeps it
(`Progress.Readable.step`).

Beside it stands `Json.Whole`, which says of a value that its numbers are all
whole, and what setting a member does to the list of members.
-/
import FluidScss.Json.Reader
import FluidScss.Proofs.ShortestDecimal
import Mathlib.Data.List.Induction
import Mathlib.Data.List.TakeWhile
import Mathlib.Data.Nat.Digits.Defs

namespace FluidScss

open JsonLexeme

namespace Json

variable {members : List (Text × Json)} {key : Text}

/-! ### Members -/

/-- The member of a name is the first one of that name. -/
theorem exists_of_member? {value : Json} (h : member? members key = some value) :
    ∃ before after, members = before ++ (key, value) :: after ∧ key ∉ before.map Prod.fst := by
  obtain ⟨before, after, hmembers, hne⟩ := List.lookup_eq_some_iff.mp h
  refine ⟨before, after, hmembers, fun hk => ?_⟩
  obtain ⟨m, hm, hkey⟩ := List.mem_map.mp hk
  have hbne := hne m hm
  rw [hkey, bne_self_eq_false] at hbne
  cases hbne

/-- A key without a member stands nowhere. -/
theorem not_mem_of_member? (h : member? members key = none) : key ∉ members.map Prod.fst := by
  intro hk
  obtain ⟨m, hm, hkey⟩ := List.mem_map.mp hk
  have hbne := List.lookup_eq_none_iff.mp h m hm
  rw [hkey, bne_self_eq_false] at hbne
  cases hbne

/-- A new key comes last. -/
theorem setMember_of_not_mem (h : key ∉ members.map Prod.fst) (value : Json) :
    setMember members key value = members ++ [(key, value)] := by
  induction members with
  | nil => rfl
  | cons m rest ih =>
    rw [List.map_cons, List.mem_cons, not_or] at h
    rw [setMember, if_neg (Ne.symm h.1), ih h.2]
    rfl

/-- The value of a key that is there is set in its place. -/
theorem setMember_append_cons {before : List (Text × Json)} (h : key ∉ before.map Prod.fst)
    (old value : Json) (after : List (Text × Json)) :
    setMember (before ++ (key, old) :: after) key value = before ++ (key, value) :: after := by
  induction before with
  | nil => exact if_pos rfl
  | cons m rest ih =>
    rw [List.map_cons, List.mem_cons, not_or] at h
    rw [List.cons_append, setMember, if_neg (Ne.symm h.1), ih h.2]
    rfl

/-- A member that is there now is the one that was set, or was there before. -/
theorem mem_of_mem_setMember {m : Text × Json} {value : Json}
    (h : m ∈ setMember members key value) : m = (key, value) ∨ m ∈ members := by
  induction members with
  | nil => exact .inl (List.mem_singleton.mp h)
  | cons first rest ih =>
    rw [setMember] at h
    split at h
    · rename_i hk
      rcases List.mem_cons.mp h with rfl | h
      · exact .inl (by rw [hk])
      · exact .inr (List.mem_cons_of_mem _ h)
    · rcases List.mem_cons.mp h with rfl | h
      · exact .inr (List.mem_cons_self ..)
      · exact (ih h).imp_right (List.mem_cons_of_mem _)

/-! ### Values that texts have -/

/-- A value whose numbers are all whole, at every depth. -/
inductive Whole : Json → Prop
  | null : Whole null
  | bool (b : Bool) : Whole (bool b)
  | int (n : Int) : Whole (int n)
  | str (text : Text) : Whole (str text)
  | arr {items : List Json} (whole : ∀ v ∈ items, Whole v) : Whole (arr items)
  | obj {members : List (Text × Json)} (whole : ∀ m ∈ members, Whole m.2) : Whole (obj members)

/-- A value that a text can have: whole numbers are not too long, the mantissas
of others not either, and no object has a key twice. -/
inductive Readable : Json → Prop
  | null : Readable null
  | bool (b : Bool) : Readable (bool b)
  | int {n : Int} (short : (Text.ofNat n.natAbs).length ≤ Text.maxDigits) : Readable (int n)
  | num {x : Binary64} (fits : x.Fits) : Readable (num x)
  | str (text : Text) : Readable (str text)
  | arr {items : List Json} (readable : ∀ v ∈ items, Readable v) : Readable (arr items)
  | obj {members : List (Text × Json)} (keys : (members.map Prod.fst).Nodup)
      (readable : ∀ m ∈ members, Readable m.2) : Readable (obj members)

theorem Whole.item {items : List Json} (h : Whole (Json.arr items)) : ∀ v ∈ items, Whole v := by
  obtain - | - | - | - | ⟨whole⟩ := h
  exact whole

theorem Whole.member (h : Whole (Json.obj members)) : ∀ m ∈ members, Whole m.2 := by
  obtain - | - | - | - | - | ⟨whole⟩ := h
  exact whole

theorem Readable.item {items : List Json} (h : Readable (Json.arr items)) :
    ∀ v ∈ items, Readable v := by
  obtain - | - | - | - | - | ⟨readable⟩ := h
  exact readable

theorem Readable.member (h : Readable (Json.obj members)) : ∀ m ∈ members, Readable m.2 := by
  obtain - | - | - | - | - | - | ⟨-, readable⟩ := h
  exact readable

theorem readable_infinite (negative : Bool) : Readable (num (.infinite negative)) := .num trivial

theorem readable_nan : Readable (num .nan) := .num trivial

theorem readable_empty : Readable (obj []) :=
  .obj List.nodup_nil fun _ hm => absurd hm List.not_mem_nil

theorem readable_setMember (h : Readable (obj members)) (key : Text) {value : Json}
    (hv : Readable value) : Readable (obj (setMember members key value)) := by
  obtain - | - | - | - | - | - | ⟨hkeys, readable⟩ := h
  refine .obj ?_ fun m hm => ?_
  · -- a key that is there is not added, and a new one is none of the others
    rcases hm : member? members key with - | old
    · have hk := not_mem_of_member? hm
      rw [setMember_of_not_mem hk, List.map_append, List.map_cons, List.map_nil, List.nodup_append]
      refine ⟨hkeys, List.pairwise_singleton .., fun a ha b hb => ?_⟩
      rintro rfl
      rw [List.mem_singleton.mp hb] at ha
      exact hk ha
    · obtain ⟨before, after, rfl, hk⟩ := exists_of_member? hm
      rw [setMember_append_cons hk]
      rw [List.map_append, List.map_cons] at hkeys ⊢
      exact hkeys
  · rcases mem_of_mem_setMember hm with rfl | hm
    · exact hv
    · exact readable m hm

theorem whole_setMember (h : Whole (obj members)) (key : Text) {value : Json} (hv : Whole value) :
    Whole (obj (setMember members key value)) := by
  refine .obj fun m hm => ?_
  rcases mem_of_mem_setMember hm with rfl | hm
  · exact hv
  · exact h.member m hm

end Json

/-! ### Reading gives readable values -/

namespace JsonLexeme

/-- A lexeme whose value, if it has one, is readable. -/
def Readable : JsonLexeme → Prop
  | .scalar value => value.Readable
  | _ => True

theorem decimal_lt_pow {digits : Text} (hd : ∀ c ∈ digits, c.isDigit = true) :
    decimal digits < 10 ^ digits.length := by
  induction digits using List.reverseRecOn with
  | nil => decide
  | append_singleton digits c ih =>
    have hc : c.toNat - '0'.toNat < 10 := by
      have hdigit := hd c (List.mem_append_right _ (List.mem_singleton_self c))
      rw [Char.isDigit, Bool.and_eq_true, decide_eq_true_eq, decide_eq_true_eq] at hdigit
      change 48 ≤ c.toNat ∧ c.toNat ≤ 57 at hdigit
      show c.toNat - 48 < 10
      omega
    have hfront := ih fun d hdigit => hd d (List.mem_append_left _ hdigit)
    rw [decimal] at hfront
    rw [decimal, Nat.ofDigitChars_append, List.length_append, List.length_singleton, pow_succ,
      Nat.ofDigitChars_cons, Nat.ofDigitChars_nil]
    omega

/-- Digits spell a number that is not longer. -/
theorem length_ofNat_decimal {digits : Text} (hd : ∀ c ∈ digits, c.isDigit = true)
    (hne : digits ≠ []) : (Text.ofNat (decimal digits)).length ≤ digits.length :=
  (Nat.length_toDigits_le_iff (by decide) (List.length_pos_iff.mpr hne)).mpr (decimal_lt_pow hd)

theorem readable_numberWith (negative : Bool) {digits : Text} (hd : ∀ c ∈ digits, c.isDigit = true)
    (hne : digits ≠ []) (rest : Text) : (numberWith negative digits rest).1.Readable := by
  rw [numberWith]
  dsimp only
  split
  · split
    · trivial
    · rename_i hshort
      refine .int (le_trans ?_ (Nat.not_lt.mp hshort))
      have habs : (if negative then -(decimal digits : Int) else decimal digits).natAbs
          = decimal digits := by
        cases negative <;> simp
      rw [habs]
      exact length_ofNat_decimal hd hne
  · exact .num (Binary64.fits_ofDecimal _ _ _)

theorem readable_number (negative : Bool) {c : Char} (hc : c.isDigit = true) (rest : Text) :
    (number negative c rest).1.Readable := by
  unfold number
  split
  · exact readable_numberWith negative (List.forall_mem_singleton.mpr rfl) (List.cons_ne_nil _ _) rest
  · refine readable_numberWith negative (fun d hd => ?_) (List.cons_ne_nil _ _) _
    rcases List.mem_cons.mp hd with rfl | hd
    · exact hc
    · exact List.mem_takeWhile_imp hd

theorem readable_word {value : Json} (hv : value.Readable) (name text : Text) :
    (word name value text).1.Readable := by
  unfold word
  split
  · exact hv
  · trivial

theorem readable_readString (rest : Text) : (readString rest).1.Readable := by
  unfold readString
  split <;> trivial

theorem readable_negative (rest : Text) : (negative rest).1.Readable := by
  unfold negative
  split
  · trivial
  · split
    · rename_i hc
      exact readable_number true hc _
    · exact readable_word (Json.readable_infinite true) _ _

theorem readable_front (c : Char) (rest : Text) : (front c rest).1.Readable := by
  unfold front
  split
  all_goals first
    | trivial
    | exact readable_readString rest
    | exact readable_word .null _ _
    | exact readable_word (.bool _) _ _
    | exact readable_word Json.readable_nan _ _
    | exact readable_word (Json.readable_infinite false) _ _
    | exact readable_negative rest
    | skip
  split
  · rename_i hc
    exact readable_number false hc rest
  · trivial

theorem readable_of_mem_all {text : Text} {m : Text × JsonLexeme} (h : m ∈ all text) :
    m.2.Readable := by
  fun_induction all text with
  | case1 => cases h
  | case2 c rest _ ih => exact ih h
  | case3 c rest _ found ih =>
    rcases List.mem_cons.mp h with rfl | h
    · exact readable_front c rest
    · exact ih h

end JsonLexeme

namespace JsonReader

/-- An open array or object of readable values. -/
def Frame.Readable : Frame → Prop
  | .array items => ∀ v ∈ items, v.Readable
  | .object members _ => (Json.obj members).Readable

/-- What may come next, in front of readable values. -/
def Expected.Readable : Expected → Prop
  | .name members => (Json.obj members).Readable
  | .nothing v => v.Readable
  | _ => True

/-- A text read in part, all of whose values are readable. -/
structure Progress.Readable (p : Progress) : Prop where
  frames : ∀ f ∈ p.frames, f.Readable
  expected : p.expected.Readable

variable {p p' : Progress} {frames : List Frame} {here : Text} {l : JsonLexeme} {value : Json}

theorem readable_complete (hf : ∀ f ∈ frames, f.Readable) (hv : value.Readable) :
    (complete frames value).Readable := by
  -- the value is the text's own, an item or a member
  rcases frames with - | ⟨items | ⟨members, key⟩, outer⟩
  · exact ⟨hf, hv⟩
  · obtain ⟨hitems, houter⟩ := List.forall_mem_cons.mp hf
    have hmore : ∀ v ∈ value :: items, v.Readable := List.forall_mem_cons.mpr ⟨hv, hitems⟩
    exact ⟨List.forall_mem_cons.mpr ⟨hmore, houter⟩, trivial⟩
  · obtain ⟨hmembers, houter⟩ := List.forall_mem_cons.mp hf
    exact ⟨List.forall_mem_cons.mpr ⟨Json.readable_setMember hmembers key hv, houter⟩, trivial⟩

theorem readable_beginValue (hf : ∀ f ∈ frames, f.Readable) (hl : l.Readable)
    (h : beginValue frames here l = .ok p) : p.Readable := by
  cases l with
  | scalar value => cases h; exact readable_complete hf hl
  | string text => cases h; exact readable_complete hf (.str text)
  | openArray =>
    cases h
    have hempty : ∀ v ∈ ([] : List Json), v.Readable := nofun
    exact ⟨List.forall_mem_cons.mpr ⟨hempty, hf⟩, trivial⟩
  | openObject => cases h; exact ⟨hf, trivial⟩
  | _ => cases h

theorem readable_beginMember {members : List (Text × Json)} (hf : ∀ f ∈ frames, f.Readable)
    (hm : (Json.obj members).Readable) (h : beginMember frames members here l = .ok p) :
    p.Readable := by
  cases l with
  | string key =>
    cases h
    exact ⟨List.forall_mem_cons.mpr ⟨hm, hf⟩, trivial⟩
  | _ => cases h

theorem readable_afterValue (hf : ∀ f ∈ frames, f.Readable)
    (h : afterValue frames here l = .ok p) : p.Readable := by
  cases l with
  | comma =>
    rcases frames with - | ⟨items | ⟨members, key⟩, outer⟩ <;> cases h
    · exact ⟨hf, trivial⟩
    · obtain ⟨hmembers, houter⟩ := List.forall_mem_cons.mp hf
      exact ⟨houter, hmembers⟩
  | closeArray =>
    rcases frames with - | ⟨items | ⟨members, key⟩, outer⟩ <;> cases h
    obtain ⟨hitems, houter⟩ := List.forall_mem_cons.mp hf
    exact readable_complete houter (.arr fun v hv => hitems v (List.mem_reverse.mp hv))
  | closeObject =>
    rcases frames with - | ⟨items | ⟨members, key⟩, outer⟩ <;> cases h
    obtain ⟨hmembers, houter⟩ := List.forall_mem_cons.mp hf
    exact readable_complete houter hmembers
  | _ => cases h

/-- One lexeme keeps the values read so far readable. -/
theorem Progress.Readable.step (hp : p.Readable) (hl : l.Readable)
    (h : JsonReader.step p here l = .ok p') : p'.Readable := by
  obtain ⟨frames, expected⟩ := p
  obtain ⟨hf, he⟩ := hp
  unfold JsonReader.step at h
  cases expected with
  | value => exact readable_beginValue hf hl h
  | firstItem =>
    dsimp only at h
    split at h
    · cases h
      exact readable_complete (List.forall_mem_cons.mp hf).2 (.arr nofun)
    · exact readable_beginValue hf hl h
  | firstName =>
    dsimp only at h
    split at h
    · cases h
      exact readable_complete hf Json.readable_empty
    · exact readable_beginMember hf Json.readable_empty h
  | name members => exact readable_beginMember hf he h
  | colon =>
    dsimp only at h
    split at h
    · cases h
      exact ⟨hf, trivial⟩
    · cases h
  | more => exact readable_afterValue hf h
  | nothing value => cases h

theorem readable_steps {ls : List (Text × JsonLexeme)} (hp : p.Readable)
    (hl : ∀ m ∈ ls, m.2.Readable) (h : steps p ls = .ok value) : value.Readable := by
  induction ls generalizing p with
  | nil =>
    obtain ⟨frames, expected⟩ := p
    cases expected with
    | nothing v => cases h; exact hp.expected
    | _ => cases h
  | cons m ls ih =>
    obtain ⟨here, l⟩ := m
    rw [steps] at h
    split at h
    · rename_i p' hstep
      obtain ⟨hfirst, hrest⟩ := List.forall_mem_cons.mp hl
      exact ih (hp.step hfirst hstep) hrest h
    · cases h

end JsonReader

/-- **Reading** gives readable values only. -/
theorem Json.readable_of_read? {text : Text} {value : Json} (h : Json.read? text = .ok value) :
    value.Readable := by
  unfold Json.read? at h
  split at h
  · cases h
  · exact JsonReader.readable_steps (p := {}) ⟨fun _ hf => absurd hf List.not_mem_nil, trivial⟩
      (fun _ hm => readable_of_mem_all hm) h

end FluidScss
