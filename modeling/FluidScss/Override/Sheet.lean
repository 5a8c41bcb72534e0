/-
FluidScss/Override/Sheet.lean

The generated stylesheet: a header with the stamp of generated files, and a
mixin that wraps one media query.  In it stands one block per selector of
`mergeRules`, one declaration per property, in their order.  Without
overrides the media query is empty.

Every line of a block is indented, and lines are separated by LF alone, so
that a value holding one is indented with its block.
-/
import FluidScss.Call
import FluidScss.Names
import FluidScss.Override
import FluidScss.Text.Lines

namespace FluidScss

/-- The lines above the mixin. -/
def overridesHeader (m : Marker) : Text :=
  "@use \"./responsive\" as " ++ m.ns ++ ";\n"
    ++ "\n"
    ++ "// " ++ generatedStamp ++ " from " ++ configName ++ "\n"
    ++ "// Source: scanned " ++ m.qualified ++ "(pc, mobile, type) markers in scss.\n"
    ++ "// Do not edit this file directly; re-run: scss-kit responsive generate\n"
    ++ "\n"

/-- One declaration of a block. -/
def declarationLine (declaration : Text × Text) : Text :=
  "  " ++ declaration.1 ++ ": " ++ declaration.2 ++ ";"

/-- The block of one selector. -/
def ruleBlock (rule : Text × Properties) : Text :=
  rule.1 ++ " \x7b\n" ++ Text.join "\n" (rule.2.map declarationLine) ++ "\n\x7d"

/-- The blocks of rules, indented, with an empty line between two. -/
def ruleBlocks (rules : Rules) : Text :=
  if rules = [] then []
  else Text.join "\n\n" (rules.map fun rule => Text.indentLines "    " (ruleBlock rule)) ++ "\n"

/-- The stylesheet of rules for screens up to `mobileMax` pixels wide. -/
def renderRules (m : Marker) (mobileMax : Int) (rules : Rules) : Text :=
  overridesHeader m
    ++ "@mixin " ++ overridesMixin ++ "() \x7b\n"
    ++ "  @media screen and (max-width: " ++ Text.ofInt mobileMax ++ "px) \x7b\n"
    ++ ruleBlocks rules
    ++ "  \x7d\n"
    ++ "\x7d\n"

/-- The stylesheet of overrides. -/
def renderOverrides (m : Marker) (mobileMax : Int) (overrides : List Override) : Text :=
  renderRules m mobileMax (mergeRules overrides)

end FluidScss
