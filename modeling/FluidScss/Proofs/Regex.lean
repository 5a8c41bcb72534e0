/-
FluidScss/Proofs/Regex.lean

Regular expressions with a preference.  A matcher tries the alternatives of an
expression from left to right and takes the first way through; a repetition
goes on as long as it can, or as short.  `ways` lists the texts that are left
by all ways of matching at the front of a text, in the order in which they are
tried, so that what an expression matches is decided by the first of them
(`match?`).

The laws here reduce the ways of a repetition to those of one turn.  Of a
greedy one the first way takes the first way of each turn while there is one
(`head?_manyWays_of_none`, `head?_manyWays_of_some`).
-/
import FluidScss.Proofs.Text

namespace FluidScss

/-- Expressions: a character of a class, one expression behind another, two
alternatives, repetitions that take as many turns as they can or as few, and
a look at what does not follow. -/
inductive Regex
  | one (p : Char → Bool)
  | seq (r s : Regex)
  | alt (r s : Regex)
  | many (r : Regex)
  | few (r : Regex)
  | notAhead (r : Regex)

namespace Regex

/-! ### Ways -/

/-- The ways that take at least one character. -/
def taking (f : Text → List Text) (text : Text) : List Text :=
  (f text).filter fun rest => rest.length < text.length

theorem length_of_mem_taking {f : Text → List Text} {text rest : Text} (h : rest ∈ taking f text) :
    rest.length < text.length :=
  of_decide_eq_true (List.mem_filter.mp h).2

/-- As many turns as possible come first. -/
def manyWays (f : Text → List Text) (text : Text) : List Text :=
  ((taking f text).attach.flatMap fun ⟨rest, _⟩ => manyWays f rest) ++ [text]
termination_by text.length
decreasing_by
  exact length_of_mem_taking ‹_›

/-- As few turns as possible come first. -/
def fewWays (f : Text → List Text) (text : Text) : List Text :=
  text :: (taking f text).attach.flatMap fun ⟨rest, _⟩ => fewWays f rest
termination_by text.length
decreasing_by
  exact length_of_mem_taking ‹_›

/-- What the ways of matching leave, the preferred first. -/
def ways : Regex → Text → List Text
  | one p, text =>
    match text with
    | c :: rest => if p c then [rest] else []
    | [] => []
  | seq r s, text => (r.ways text).flatMap s.ways
  | alt r s, text => r.ways text ++ s.ways text
  | many r, text => manyWays r.ways text
  | few r, text => fewWays r.ways text
  | notAhead r, text => if r.ways text = [] then [text] else []

theorem manyWays_eq (f : Text → List Text) (text : Text) :
    manyWays f text = (taking f text).flatMap (manyWays f) ++ [text] := by
  rw [manyWays]
  simp

theorem fewWays_eq (f : Text → List Text) (text : Text) :
    fewWays f text = text :: (taking f text).flatMap (fewWays f) := by
  rw [fewWays]
  simp

/-- What an expression matches at the front of a text, and what it leaves. -/
def match? (r : Regex) (text : Text) : Option (Text × Text) :=
  (r.ways text).head?.map fun rest => (text.take (text.length - rest.length), rest)

/-- A character. -/
def char (c : Char) : Regex := one (· = c)

/-- A word, and what follows it. -/
def word (w : Text) (r : Regex) : Regex := w.foldr (fun c r => seq (char c) r) r

/-! ### Single characters -/

variable {r s : Regex} {p : Char → Bool} {c d : Char} {f : Text → List Text} {text rest : Text}

@[simp] theorem ways_one_nil : (one p).ways [] = [] := rfl

@[simp] theorem ways_one_cons : (one p).ways (c :: text) = if p c then [text] else [] := rfl

@[simp] theorem ways_char_nil : (char c).ways [] = [] := rfl

@[simp] theorem ways_char_cons : (char d).ways (c :: text) = if c = d then [text] else [] := by
  show (if decide (c = d) = true then [text] else []) = _
  by_cases h : c = d <;> simp [h]

@[simp] theorem ways_char_seq_nil : (seq (char d) r).ways [] = [] := rfl

@[simp] theorem ways_char_seq_cons :
    (seq (char d) r).ways (c :: text) = if c = d then r.ways text else [] := by
  rw [ways, ways_char_cons]
  by_cases h : c = d <;> simp [h]

/-- A character that one of a class may not follow. -/
theorem ways_char_notAhead : (seq (char d) (notAhead (one p))).ways (c :: text)
    = if c = d ∧ text.head?.any p = false then [text] else [] := by
  rw [ways_char_seq_cons]
  by_cases hc : c = d
  · rcases text with - | ⟨e, text⟩
    · simp [hc, ways]
    · rcases hp : p e with - | - <;> simp [hc, hp, ways]
  · simp [hc]

/-! ### Words -/

@[simp] theorem ways_word_append (w : Text) : (word w r).ways (w ++ text) = r.ways text := by
  induction w with
  | nil => rfl
  | cons c w ih =>
    show (seq (char c) (word w r)).ways (c :: (w ++ text)) = _
    rw [ways_char_seq_cons, if_pos rfl, ih]

theorem ways_word_eq_nil {w : Text} (h : ¬ w <+: text) : (word w r).ways text = [] := by
  induction w generalizing text with
  | nil => exact absurd List.nil_prefix h
  | cons c w ih =>
    show (seq (char c) (word w r)).ways text = []
    rcases text with - | ⟨d, text⟩
    · rfl
    · rw [ways_char_seq_cons]
      split
      · rename_i hd
        exact ih fun hw => h (List.cons_prefix_cons.mpr ⟨hd.symm, hw⟩)
      · rfl

/-! ### What is matched -/

/-- An expression matches what is taken by the first way. -/
theorem match?_of_head? {body : Text} (ht : text = body ++ rest)
    (h : (r.ways text).head? = some rest) : r.match? text = some (body, rest) := by
  rw [match?, h, ht]
  simp

theorem match?_eq {g : Text → Option (Text × Text)}
    (hg : ∀ {body rest}, g text = some (body, rest) → text = body ++ rest)
    (h : (r.ways text).head? = (g text).map Prod.snd) : r.match? text = g text := by
  rcases hgt : g text with - | ⟨body, rest⟩
  · rw [match?, h, hgt]
    rfl
  · rw [hgt] at h
    exact match?_of_head? (hg hgt) h

theorem match?_eq_none (h : r.ways text = []) : r.match? text = none := by
  rw [match?, h]
  rfl

/-! ### Turns -/

/-- One character is a turn. -/
theorem taking_one : taking (one p).ways text = (one p).ways text := by
  refine List.filter_eq_self.mpr fun rest hrest => ?_
  rcases text with - | ⟨c, text⟩
  · cases hrest
  · rw [ways_one_cons] at hrest
    split at hrest
    · rw [List.mem_singleton.mp hrest]
      simp
    · cases hrest

/-- If the first way takes a character it is a turn, and the first one. -/
theorem head?_taking (h : ∀ rest, (f text).head? = some rest → rest.length < text.length) :
    (taking f text).head? = (f text).head? := by
  rw [taking]
  rcases hl : f text with - | ⟨rest, l⟩
  · rfl
  · have hrest : rest.length < text.length := h rest (by rw [hl]; rfl)
    rw [List.filter_cons_of_pos (by simpa using hrest)]
    rfl

theorem manyWays_ne_nil (f : Text → List Text) (text : Text) : manyWays f text ≠ [] := by
  rw [manyWays_eq]
  simp

theorem head?_flatMap_of_ne_nil {l : List Text} {g : Text → List Text} (hg : ∀ x, g x ≠ []) :
    (l.flatMap g).head? = l.head?.bind fun x => (g x).head? := by
  rcases l with - | ⟨x, l⟩
  · rfl
  · obtain ⟨y, ys, hy⟩ := List.exists_cons_of_ne_nil (hg x)
    simp [hy]

/-- Without a turn a repetition ends where it is. -/
theorem head?_manyWays_of_none (h : (taking f text).head? = none) :
    (manyWays f text).head? = some text := by
  rw [List.head?_eq_none_iff] at h
  rw [manyWays_eq, h]
  rfl

/-- With a turn it goes on behind the preferred one. -/
theorem head?_manyWays_of_some (h : (taking f text).head? = some rest) :
    (manyWays f text).head? = (manyWays f rest).head? := by
  obtain ⟨l, hl⟩ := List.head?_eq_some_iff.mp h
  obtain ⟨y, ys, hy⟩ := List.exists_cons_of_ne_nil (manyWays_ne_nil f rest)
  rw [manyWays_eq, hl, List.flatMap_cons, hy]
  rfl

/-- A repeated class takes all the characters of the class. -/
theorem head?_many_one : ((many (one p)).ways text).head? = some (text.dropWhile p) := by
  rw [ways]
  induction text with
  | nil => exact head?_manyWays_of_none (by rw [taking_one]; rfl)
  | cons c text ih =>
    by_cases hc : p c = true
    · rw [List.dropWhile_cons_of_pos hc, ← ih]
      refine head?_manyWays_of_some ?_
      rw [taking_one, ways_one_cons, if_pos hc]
      rfl
    · rw [List.dropWhile_cons_of_neg hc]
      refine head?_manyWays_of_none ?_
      rw [taking_one, ways_one_cons, if_neg hc]
      rfl

/-- What follows a repetition is tried behind each number of turns. -/
theorem ways_many_seq (r s : Regex) (text : Text) :
    (seq (many r) s).ways text
      = (taking r.ways text).flatMap (seq (many r) s).ways ++ s.ways text := by
  simp only [ways]
  rw [manyWays_eq, List.flatMap_append, List.flatMap_assoc, List.flatMap_singleton]

theorem ways_few_seq (r s : Regex) (text : Text) :
    (seq (few r) s).ways text
      = s.ways text ++ (taking r.ways text).flatMap (seq (few r) s).ways := by
  simp only [ways]
  rw [fewWays_eq, List.flatMap_cons, List.flatMap_assoc]

end Regex

end FluidScss
