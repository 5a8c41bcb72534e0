/-
FluidScss/Helper.lean

The helper module of a project: the tables of coefficients as maps, and the
functions that a style sheet calls for responsive sizes.  It is written from
the configuration, the design widths and the two tables, and replaced
whenever they change.

Widths and coefficients appear as the configuration gives them, whatever
their kind; only the two tables must be objects.
-/
import FluidScss.Config
import FluidScss.Write

namespace FluidScss

/-- A table as a map, one entry a line. -/
def sheetMap (members : List (Text × Json)) : Text :=
  "(\n" ++ Text.join "\n" (members.map fun (key, value) => "  " ++ key ++ ": " ++ value.shown ++ ",")
    ++ "\n)"

/-- The map of a value, which must be an object. -/
def sheetMapOf : Json → Except Fault Text
  | .obj members => .ok (sheetMap members)
  | _ => .error .noMembers

/-! ### The parts of the module -/

/-- The modules in use and the stamp. -/
def helperHead : List Text :=
  ["@use \"sass:map\";",
   "@use \"sass:math\";",
   "@use \"sass:list\";",
   "@use \"sass:meta\";",
   "",
   "// " ++ generatedStamp ++ " from " ++ configName,
   "// Edit " ++ configName ++ " to change design sizes / coefficient tables.",
   ""]

/-- The design widths and the tables. -/
def helperTables (desktopWidth mobileWidth : Json) (mobile desktop : List (Text × Json)) :
    List Text :=
  ["// Design widths:",
   "// - desktop: " ++ desktopWidth.shown,
   "// - mobile: " ++ mobileWidth.shown,
   "",
   "$coef-mobile: " ++ sheetMap mobile ++ ";",
   "",
   "$coef-desktop: " ++ sheetMap desktop ++ ";",
   ""]

/-- The functions between numbers and pixels. -/
def helperUnits : List Text :=
  ["@function _to-px($value) \x7b",
   "  @return if(math.is-unitless($value), $value * 1px, $value);",
   "\x7d",
   "",
   "@function _to-num($value) \x7b",
   "  @if meta.type-of($value) != number \x7b",
   "    @error \"Expected a number, got: #\x7bmeta.type-of($value)\x7d\";",
   "  \x7d",
   "  @if math.is-unitless($value) \x7b",
   "    @return $value;",
   "  \x7d",
   "  @if math.unit($value) != 'px' \x7b",
   "    @error \"Expected px or unitless number, got: #\x7bmath.unit($value)\x7d\";",
   "  \x7d",
   "  @return math.div($value, 1px);",
   "\x7d",
   ""]

/-- The function that looks a coefficient up. -/
def helperCoefficient : List Text :=
  ["@function coef($type, $range: mobile) \x7b",
   "  $table: if($range == desktop, $coef-desktop, $coef-mobile);",
   "  @if map.has-key($table, $type) \x7b",
   "    @return map.get($table, $type);",
   "  \x7d",
   "  @error \"Unknown coef type: #\x7b$type\x7d\";",
   "\x7d",
   ""]

/-- The function of the least size. -/
def helperMinimum (mobileWidth : Json) : List Text :=
  ["// Minimum clamp value derived from the " ++ mobileWidth.shown
     ++ " design value and coefficient.",
   "@function min_px($mobile, $type, $range: mobile, $override-coef: null) \x7b",
   "  $v: _to-px($mobile);",
   "",
   "  // Mobile typography:",
   "  // - scale the " ++ mobileWidth.shown ++ "px design to a 375px viewport",
   "  // - readable floors: h1 >= 16px, h2 >= 14px, other text >= 12px",
   "  // - never exceed the design value",
   "  @if $range == mobile and $override-coef == null \x7b",
   "    $typography-types: (h1, h2, h3, body, small, button-text);",
   "    @if list.index($typography-types, $type) \x7b",
   "      $scaled-375: $v * math.div(375, " ++ mobileWidth.shown ++ ");",
   "      $floor: if($type == h1, 16px, if($type == h2, 14px, 12px));",
   "      @return math.min($v, math.max($scaled-375, $floor));",
   "    \x7d",
   "  \x7d",
   "",
   "  $c: if($override-coef == null, coef($type, $range), $override-coef);",
   "  @return $v * $c;",
   "\x7d",
   ""]

/-- The functions of clamped sizes. -/
def helperClamps : List Text :=
  ["// Desktop clamp: min, calc(pc * var(--px-to-vw)), pc",
   "@function clamp_pc($pc, $min) \x7b",
   "  $v: _to-px($pc);",
   "  $n: _to-num($pc);",
   "  @return clamp(#\x7b$min\x7d, calc(#\x7b$n\x7d * var(--px-to-vw)), #\x7b$v\x7d);",
   "\x7d",
   "",
   "// Mobile clamp: min, calc(mobile * var(--px-to-vw-mb)), mobile",
   "@function clamp_mb($mobile, $min) \x7b",
   "  $v: _to-px($mobile);",
   "  $n: _to-num($mobile);",
   "  @return clamp(#\x7b$min\x7d, calc(#\x7b$n\x7d * var(--px-to-vw-mb)), #\x7b$v\x7d);",
   "\x7d",
   ""]

/-- The marker function. -/
def helperMarker : List Text :=
  ["// resp(): desktop value with the mobile value and type embedded for autofill scanning",
   "@function resp($pc, $mobile, $type) \x7b",
   "  @if meta.type-of($pc) != number \x7b",
   "    @error \"resp() expects a number (px) for pc value\";",
   "  \x7d",
   "  @return clamp_pc($pc, min_px($pc, $type, desktop));",
   "\x7d"]

/-! ### The module -/

/-- The two tables of coefficients, for mobile and desktop. -/
def Config.coefficients (c : Config) :
    Except Fault (List (Text × Json) × List (Text × Json)) :=
  let tables := c.sectionOf "coefficients"
  match Json.member? tables "mobile", Json.member? tables "desktop" with
  | some (.obj mobile), some (.obj desktop) => .ok (mobile, desktop)
  | _, _ => .error (.configuration .coefficients)

/-- The text of the helper module. -/
def renderHelper (c : Config) : Except Fault Text := do
  let (mobile, desktop) ← c.coefficients
  let design := c.sectionOf "design"
  let desktopWidth := (Json.member? design "desktopWidth").getD (.int 1920)
  let mobileWidth := (Json.member? design "mobileWidth").getD (.int 750)
  let lines := helperHead ++ helperTables desktopWidth mobileWidth mobile desktop ++ helperUnits
    ++ helperCoefficient ++ helperMinimum mobileWidth ++ helperClamps ++ helperMarker
  return Text.join "\n" lines ++ "\n"

/-- Writes the helper module of a project. -/
def writeHelper (c : Config) : Action WritePlan := do
  let path ← c.helperPath
  let content ← renderHelper c
  writeSafely path content generatedStamp

end FluidScss
