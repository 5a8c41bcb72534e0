/-
FluidScss/Text/Lines.lean

Lines of a text.  Two readings are needed: `lines` cuts at every line break
that Unicode knows, `unifyNewlines` turns the three newlines of text files
(LF, CR LF and a lone CR) into LF, as reading a text file does.

A text that holds no CR is left alone by `unifyNewlines`
(`unifyNewlines_eq_self`), and its result never holds one
(`cr_not_mem_unifyNewlines`); so what was written without CR reads back.
-/
import FluidScss.Text

namespace FluidScss

/-- The characters at which a line ends. -/
def isLineBreak (c : Char) : Bool :=
  c = '\n' || c = '\r' || c = '\x0b' || c = '\x0c' || c = '\x1c' || c = '\x1d' || c = '\x1e'
    || c = '\u0085' || c = '\u2028' || c = '\u2029'

namespace Text

/-- The lines of a text without their breaks.  CR LF is one break, and a
break at the end opens no further line. -/
def lines : Text → List Text
  | [] => []
  | '\r' :: '\n' :: rest => [] :: lines rest
  | c :: rest => if isLineBreak c then [] :: lines rest else consHead c (lines rest)

/-- Every CR LF and every lone CR becomes LF. -/
def unifyNewlines : Text → Text
  | [] => []
  | '\r' :: '\n' :: rest => '\n' :: unifyNewlines rest
  | c :: rest => (if c = '\r' then '\n' else c) :: unifyNewlines rest

theorem unifyNewlines_eq_self {text : Text} (h : '\r' ∉ text) : unifyNewlines text = text := by
  fun_induction unifyNewlines text with
  | case1 => rfl
  | case2 rest ih => simp at h
  | case3 c rest _ ih =>
    simp only [List.mem_cons, not_or] at h
    rw [ih h.2, if_neg (Ne.symm h.1)]

theorem cr_not_mem_unifyNewlines (text : Text) : '\r' ∉ unifyNewlines text := by
  fun_induction unifyNewlines text with
  | case1 => simp
  | case2 rest ih => simp [ih]
  | case3 c rest _ ih =>
    simp only [List.mem_cons, not_or]
    refine ⟨?_, ih⟩
    by_cases hc : c = '\r'
    · simp [hc]
    · rw [if_neg hc]; exact Ne.symm hc

/-- Each line with `indent` in front of it, where only LF ends a line. -/
def indentLines (indent text : Text) : Text :=
  join ['\n'] ((splitOn '\n' text).map (indent ++ ·))

end Text

end FluidScss
