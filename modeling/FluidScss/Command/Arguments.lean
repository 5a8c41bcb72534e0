/-
FluidScss/Command/Arguments.lean

Options and arguments of a command line.  An option is written in full with
two hyphens, its value behind an equals sign or as the next word, or as one
letter behind a hyphen, where letters without values may share the hyphen.
Two hyphens alone end the options.  A command takes options among its
arguments; a group of commands takes them only before the first.
-/
import FluidScss.Text

namespace FluidScss

/-- An option: its name in full, its letter, and whether it has a value. -/
structure OptionSpec where
  name : Text
  letter : Option Char := none
  takesValue : Bool := false

/-- The options given, in order, with their values, and the arguments. -/
structure Arguments where
  options : List (Text × Text) := []
  words : List Text := []

namespace Arguments

/-- Whether an option was given. -/
def has (a : Arguments) (name : Text) : Bool := a.options.any fun o => o.1 = name

/-- The value of an option, the last one given. -/
def value? (a : Arguments) (name : Text) : Option Text :=
  (a.options.reverse.find? fun o => o.1 = name).map Prod.snd

/-- What an option leaves to be read: an option read and the words behind it. -/
abbrev Step := Option (List (Text × Text) × List Text)

/-- Reads a full name, with or without a value behind an equals sign. -/
def readName (specs : List OptionSpec) (word : Text) (rest : List Text) : Step :=
  let (name, attached) := Text.cut '=' word
  match specs.find? fun s => ('-' :: '-' :: s.name) = name with
  | none => none
  | some s =>
    match s.takesValue, attached, rest with
    | true, some value, _ => some ([(s.name, value)], rest)
    | true, none, value :: rest => some ([(s.name, value)], rest)
    | true, none, [] => none
    | false, none, _ => some ([(s.name, [])], rest)
    | false, some _, _ => none

/-- Reads letters behind one hyphen. -/
def readLetters (specs : List OptionSpec) (letters : Text) (rest : List Text) : Step :=
  match letters with
  | [] => some ([], rest)
  | c :: letters =>
    match specs.find? fun s => s.letter = some c with
    | none => none
    | some s =>
      if s.takesValue then
        match letters, rest with
        | [], value :: rest => some ([(s.name, value)], rest)
        | [], [] => none
        | value, rest => some ([(s.name, value)], rest)
      else (readLetters specs letters rest).map fun (more, rest) => ((s.name, []) :: more, rest)

/-- Reads a word that begins with a hyphen. -/
def readOption (specs : List OptionSpec) (word : Text) (rest : List Text) : Step :=
  match word with
  | '-' :: '-' :: _ => readName specs word rest
  | '-' :: letters => readLetters specs letters rest
  | _ => none

theorem length_readName {specs : List OptionSpec} {word : Text} {rest after : List Text}
    {given : List (Text × Text)} (h : readName specs word rest = some (given, after)) :
    after.length ≤ rest.length := by
  unfold readName at h
  simp only at h
  split at h
  · simp at h
  · split at h <;> simp at h <;> obtain ⟨_, rfl⟩ := h <;> simp_all

theorem length_readLetters {specs : List OptionSpec} {letters : Text} {rest after : List Text}
    {given : List (Text × Text)} (h : readLetters specs letters rest = some (given, after)) :
    after.length ≤ rest.length := by
  induction letters generalizing given with
  | nil => simp [readLetters] at h; simp [h.2]
  | cons c letters ih =>
    rw [readLetters] at h
    split at h
    · simp at h
    · split at h
      · split at h <;> simp at h <;> obtain ⟨_, rfl⟩ := h <;> simp
      · obtain ⟨⟨g, a⟩, hg, he⟩ := Option.map_eq_some_iff.1 h
        simp only [Prod.mk.injEq] at he
        obtain ⟨_, rfl⟩ := he
        exact ih hg

theorem length_readOption {specs : List OptionSpec} {word : Text} {rest after : List Text}
    {given : List (Text × Text)} (h : readOption specs word rest = some (given, after)) :
    after.length ≤ rest.length := by
  unfold readOption at h
  split at h
  · exact length_readName h
  · exact length_readLetters h
  · simp at h

/-- Whether a word is an option. -/
def isOption (word : Text) : Bool := word.head? = some '-' && 1 < word.length

/-- Reads a command line; `interspersed` allows options behind arguments. -/
def read? (specs : List OptionSpec) (interspersed : Bool) (line : List Text) :
    Option Arguments :=
  match line with
  | [] => some {}
  | word :: rest =>
    if word = ("--" : Text) then some { words := rest }
    else if isOption word then
      match _h : readOption specs word rest with
      | none => none
      | some (given, after) =>
        (read? specs interspersed after).map fun a => { a with options := given ++ a.options }
    else if interspersed then
      (read? specs interspersed rest).map fun a => { a with words := word :: a.words }
    else some { words := word :: rest }
termination_by line.length
decreasing_by
  · have := length_readOption _h
    simp only [List.length_cons]
    omega
  · simp

end Arguments

end FluidScss
