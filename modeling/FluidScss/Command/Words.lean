/-
FluidScss/Command/Words.lean

A command line as words.  Blanks separate words outside of quotes.  Single
quotes keep everything, double quotes everything but a backslash before
another one or before a double quote; outside of quotes a backslash keeps
the next character.  A quote that is not closed, and a backslash at the end,
make no words.
-/
import FluidScss.Text

namespace FluidScss

/-- Where a scan of a command line stands. -/
inductive WordState
  | between
  | inWord (word : Text)
  | afterBackslash (word : Text)
  | inQuotes (quote : Char) (word : Text)
  | escapedInQuotes (word : Text)
deriving DecidableEq

/-- Whether `c` separates words. -/
def isWordBlank (c : Char) : Bool := c = ' ' || c = '\t' || c = '\r' || c = '\n'

/-- The state behind the first character of a word, or one more of it; words
are kept in reverse. -/
def wordStep (word : Text) (c : Char) : WordState :=
  if c = '\\' then .afterBackslash word
  else if c = '\'' ∨ c = '"' then .inQuotes c word
  else .inWord (c :: word)

/-- The words of a command line from a state on. -/
def wordsFrom : WordState → Text → Option (List Text)
  | .between, [] => some []
  | .between, c :: rest =>
    if isWordBlank c then wordsFrom .between rest else wordsFrom (wordStep [] c) rest
  | .inWord word, [] => some [word.reverse]
  | .inWord word, c :: rest =>
    if isWordBlank c then (wordsFrom .between rest).map (word.reverse :: ·)
    else wordsFrom (wordStep word c) rest
  | .afterBackslash _, [] => none
  | .afterBackslash word, c :: rest => wordsFrom (.inWord (c :: word)) rest
  | .inQuotes _ _, [] => none
  | .inQuotes quote word, c :: rest =>
    if c = quote then wordsFrom (.inWord word) rest
    else if c = '\\' ∧ quote = '"' then wordsFrom (.escapedInQuotes word) rest
    else wordsFrom (.inQuotes quote (c :: word)) rest
  | .escapedInQuotes _, [] => none
  | .escapedInQuotes word, c :: rest =>
    let word := if c = '\\' ∨ c = '"' then c :: word else c :: '\\' :: word
    wordsFrom (.inQuotes '"' word) rest

/-- The words of a command line. -/
def words? (line : Text) : Option (List Text) := wordsFrom .between line

end FluidScss
