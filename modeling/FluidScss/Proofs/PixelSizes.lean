/-
FluidScss/Proofs/PixelSizes.lean

Pixel sizes as they are written.  The search for candidates looks for sizes by a
pattern, from left to right and from any character, which wants digits in front of
the point (`pixelNumber?_iff`); a value of a style sheet is read number by number
(`pixelDimensions`).  So `.5px` gives `5px`, and in `1.2.3px` the fraction of one
number is taken for the front of the next.

Where no px dimension begins with its point the two agree, as far as digits are those
of a style sheet; the pattern also takes the decimal digits of other scripts.  This is
exact (`pixelSizes_eq_dimensions_iff`), also for what is reported of a candidate
(`sizes_as_written_iff`).
-/
import FluidScss.Proofs.LineScan
import FluidScss.Proofs.PixelDimensions
import FluidScss.Proofs.SelectorInForce

namespace FluidScss

variable {text number rest sign whole fraction : Text} {c : Char}

/-! ### Sizes -/

/-- The fraction that is taken is one, and stands at the front of the text. -/
theorem pixelFraction_spec (text : Text) :
    (pixelFraction text = [] ∨ ∃ digits, digits ≠ [] ∧ pixelFraction text = '.' :: digits ∧
        ∀ c ∈ digits, isDigit c = true) ∧
      pixelFraction text <+: text := by
  rw [pixelFraction.eq_def]
  split
  · rename_i rest
    by_cases hdigits : rest.takeWhile isDigit = []
    · rw [if_pos hdigits]
      exact ⟨.inl rfl, List.nil_prefix⟩
    · rw [if_neg hdigits]
      refine ⟨.inr ⟨_, hdigits, rfl, fun c hc => ?_⟩, ?_⟩
      · exact List.all_eq_true.mp List.all_takeWhile c hc
      · exact List.cons_prefix_cons.mpr ⟨rfl, List.takeWhile_prefix _⟩
  · exact ⟨.inl rfl, List.nil_prefix⟩

theorem takeWhile_isDigit_append {digits : Text} (hdigits : ∀ c ∈ digits, isDigit c = true)
    (hrest : ∀ c, rest.head? = some c → isDigit c = false) :
    (digits ++ rest).takeWhile isDigit = digits := by
  rw [List.takeWhile_append_of_pos hdigits]
  rcases rest with - | ⟨c, rest⟩
  · simp
  · rw [List.takeWhile_cons_of_neg (by rw [hrest c rfl]; exact Bool.false_ne_true),
      List.append_nil]

/-- The pattern of a size: a minus sign or none, digits, a fraction or none, and the
unit. -/
theorem pixelNumber?_iff : pixelNumber? text = some number ↔
    ∃ sign whole fraction rest, NumberParts isDigit sign whole fraction ∧ whole ≠ [] ∧
      number = sign ++ whole ++ fraction ∧ text = number ++ 'p' :: 'x' :: rest := by
  constructor
  · intro h
    rw [pixelNumber?] at h
    generalize hsign : (if text.head? = some '-' then ['-'] else [] : Text) = sign at h
    have hsigns : (sign = [] ∨ sign = ['-']) ∧ sign <+: text := by
      rw [← hsign]
      split
      · rename_i hhead
        obtain ⟨tail, rfl⟩ := List.head?_eq_some_iff.mp hhead
        exact ⟨.inr rfl, tail, rfl⟩
      · exact ⟨.inl rfl, List.nil_prefix⟩
    have htext := List.prefix_iff_eq_append.mp hsigns.2
    generalize text.drop sign.length = unsigned at h htext
    have hwhole := List.prefix_iff_eq_append.mp (List.takeWhile_prefix (l := unsigned) isDigit)
    generalize hdigits : unsigned.takeWhile isDigit = whole at h hwhole
    generalize unsigned.drop whole.length = behind at h hwhole
    obtain ⟨hback, hprefix⟩ := pixelFraction_spec behind
    have hbehind := List.prefix_iff_eq_append.mp hprefix
    obtain ⟨⟨hne, hunit⟩, hnumber⟩ := Option.ite_none_right_eq_some.mp h
    obtain ⟨rest, hrest⟩ := List.isPrefixOf_iff_prefix.mp hunit
    refine ⟨sign, whole, pixelFraction behind, rest, ⟨hsigns.1, ?_, hback, .inl hne⟩, hne,
      (Option.some.inj hnumber).symm, ?_⟩
    · rw [← hdigits]
      exact List.all_eq_true.mp List.all_takeWhile
    · rw [← htext, ← hwhole, ← Option.some.inj hnumber]
      conv => lhs; rw [← hbehind, ← hrest]
      simp
  · rintro ⟨sign, whole, fraction, rest, h, hne, rfl, rfl⟩
    have hp : isDigit 'p' = false := properDigits_unicode.unit
    have hpoint : isDigit '.' = false := properDigits_unicode.point
    have hsign : (if (sign ++ whole ++ fraction ++ 'p' :: 'x' :: rest).head? = some '-'
        then ['-'] else [] : Text) = sign := by
      rcases h.signs with rfl | rfl
      · obtain ⟨d, whole, rfl⟩ := List.exists_cons_of_ne_nil hne
        refine if_neg fun hd => ?_
        cases hd
        have := h.front '-' (List.mem_cons_self ..)
        rw [properDigits_unicode.minus] at this
        cases this
      · exact if_pos rfl
    have hwhole : (whole ++ (fraction ++ 'p' :: 'x' :: rest)).takeWhile isDigit = whole := by
      refine takeWhile_isDigit_append h.front fun c hc => ?_
      rcases h.back with rfl | ⟨digits, -, rfl, -⟩ <;> cases hc
      · exact hp
      · exact hpoint
    have hfraction : pixelFraction (fraction ++ 'p' :: 'x' :: rest) = fraction := by
      rcases h.back with rfl | ⟨digits, hdigits, rfl, hall⟩
      · rfl
      · show (if (digits ++ 'p' :: 'x' :: rest).takeWhile isDigit = [] then []
            else '.' :: (digits ++ 'p' :: 'x' :: rest).takeWhile isDigit) = '.' :: digits
        rw [takeWhile_isDigit_append hall fun c hc => by cases hc; exact hp, if_neg hdigits]
    rw [pixelNumber?, hsign]
    simp only [List.append_assoc, List.drop_left, hwhole, hfraction]
    simp [hne]

theorem pixelSizes_of_number (h : pixelNumber? (number ++ 'p' :: 'x' :: rest) = some number) :
    pixelSizes (number ++ 'p' :: 'x' :: rest) = (number ++ ['p', 'x']) :: pixelSizes rest := by
  obtain ⟨c, more, htext⟩ : ∃ c more, number ++ 'p' :: 'x' :: rest = c :: more :=
    List.exists_cons_of_ne_nil (by simp)
  rw [htext] at h
  have hrest : more.drop (number.length + 1) = rest := by
    have hdrop := congrArg (List.drop (number.length + 2)) htext
    rw [List.drop_succ_cons, ← List.drop_drop, List.drop_left] at hdrop
    exact hdrop.symm
  rw [htext, pixelSizes, h]
  dsimp only
  rw [hrest]

theorem pixelSizes_of_none (h : pixelNumber? (c :: rest) = none) :
    pixelSizes (c :: rest) = pixelSizes rest := by
  rw [pixelSizes, h]

/-! ### Where they agree -/

/-- A size whose digits are those of a style sheet. -/
def PlainDigits (size : Text) : Prop := ∀ c ∈ size, isDigit c = true → c.isDigit = true

instance (size : Text) : Decidable (PlainDigits size) :=
  inferInstanceAs (Decidable (∀ c ∈ size, isDigit c = true → c.isDigit = true))

theorem PlainDigits.parts (h : NumberParts isDigit sign whole fraction)
    (hplain : PlainDigits (sign ++ whole ++ fraction ++ rest)) :
    NumberParts Char.isDigit sign whole fraction :=
  h.mono fun c hc => hplain c (by simp only [List.mem_append] at hc ⊢; tauto)

/-- No size that is a number of the style sheet begins within a number that is passed
over, unless the text goes on with a dimension that begins with its point. -/
theorem exists_pointed_of_within {passed inside more : Text}
    (hlongest : longestPrefix? isNumber (passed ++ inside ++ rest) = some (passed ++ inside))
    (hunit : ¬ ['p', 'x'] <+: rest) (hinside : inside ≠ [])
    (h : NumberParts Char.isDigit sign whole fraction)
    (heq : inside ++ rest = sign ++ whole ++ fraction ++ 'p' :: 'x' :: more) :
    ∃ size ∈ pixelDimensions rest, Pointed size := by
  obtain ⟨hnumber, -, hmax⟩ := longestPrefix?_eq_some_iff.mp hlongest
  obtain ⟨sign₀, whole₀, fraction₀, h₀, hparts⟩ := isNumber_iff.mp hnumber
  -- the size goes on behind the number, for the unit is not in it
  obtain ⟨tail, hsize, hrest⟩ : ∃ tail, sign ++ whole ++ fraction = inside ++ tail ∧
      rest = tail ++ 'p' :: 'x' :: more := by
    rcases List.append_eq_append_iff.mp heq with ⟨tail, hsize, hrest⟩ | ⟨tail, hsize, hrest⟩
    · exact ⟨tail, hsize, hrest⟩
    · rcases tail with - | ⟨c, tail⟩
      · exact ⟨[], by simp [hsize], by simpa using hrest.symm⟩
      · obtain ⟨rfl, -⟩ := List.cons.inj hrest
        exact absurd (show 'p' ∈ sign₀ ++ whole₀ ++ fraction₀ by rw [← hparts, hsize]; simp)
          (h₀.unit_not_mem properDigits_ascii)
  rcases tail with - | ⟨c, tail⟩
  · exact absurd ⟨more, hrest.symm⟩ hunit
  have hlonger : ∀ front, isNumber (passed ++ inside ++ c :: front) = true →
      c :: front <+: rest → False := by
    intro front hf hprefix
    have := hmax _ hf ((List.prefix_append_right_inj _).mpr hprefix)
    simp only [List.length_append, List.length_cons] at this
    omega
  obtain ⟨front, hfront⟩ : ∃ front, whole ++ fraction = front ++ c :: tail := by
    rcases h.signs with rfl | rfl
    · exact ⟨inside, hsize⟩
    · obtain ⟨d, front, rfl⟩ := List.exists_cons_of_ne_nil hinside
      exact ⟨front, (List.cons.inj hsize).2⟩
  rcases h.mem_unsigned (hfront ▸ List.mem_append_right _ (List.mem_cons_self ..)) with hdigit | rfl
  · -- the number would have been longer by a digit
    obtain ⟨whole', fraction', h', hconcat⟩ := h₀.concat hdigit
    refine (hlonger [] ?_ ⟨tail ++ 'p' :: 'x' :: more, by simp [hrest]⟩).elim
    rw [hparts, hconcat]
    exact isNumber_iff.mpr ⟨_, _, _, h', rfl⟩
  · have htail := h.fraction_of_point rfl hfront
    rcases h₀.back with rfl | ⟨digits₀, -, rfl, -⟩
    · -- or by a fraction
      refine (hlonger tail ?_ ⟨'p' :: 'x' :: more, by simp [hrest]⟩).elim
      rw [hparts, List.append_nil]
      exact isNumber_iff.mpr ⟨sign₀, whole₀, '.' :: tail,
        ⟨h₀.signs, h₀.front, .inr ⟨tail, htail.1, rfl, htail.2⟩, .inr (by simp)⟩, by simp⟩
    · have hfraction : NumberParts Char.isDigit [] [] ('.' :: tail) :=
        ⟨.inl rfl, nofun, .inr ⟨tail, htail.1, rfl, htail.2⟩, .inr (by simp)⟩
      have hdims := pixelDimensions_of_unit (longestPrefix?_isNumber_unit hfraction ('x' :: more))
      refine ⟨'.' :: tail ++ ['p', 'x'], ?_, .inl ⟨_, rfl⟩⟩
      rw [hrest]
      exact hdims ▸ List.mem_cons_self ..

/-- So nothing is found in a number that is passed over. -/
theorem pixelSizes_of_passed {passed inside : Text}
    (hlongest : longestPrefix? isNumber (passed ++ inside ++ rest) = some (passed ++ inside))
    (hunit : ¬ ['p', 'x'] <+: rest)
    (hpointed : ∀ size ∈ pixelDimensions rest, ¬ Pointed size)
    (hplain : ∀ size ∈ pixelSizes (inside ++ rest), PlainDigits size) :
    pixelSizes (inside ++ rest) = pixelSizes rest := by
  induction inside generalizing passed with
  | nil => rfl
  | cons c inside ih =>
    rcases hn : pixelNumber? (c :: (inside ++ rest)) with - | number
    · rw [List.cons_append, pixelSizes_of_none hn] at hplain ⊢
      rw [List.append_cons passed c inside] at hlongest
      exact ih hlongest hplain
    · obtain ⟨sign, whole, fraction, more, h, -, rfl, htext⟩ := pixelNumber?_iff.mp hn
      rw [List.cons_append, htext, pixelSizes_of_number (htext ▸ hn)] at hplain
      have hascii := (hplain _ (List.mem_cons_self ..)).parts h
      obtain ⟨size, hsize, hpoint⟩ :=
        exists_pointed_of_within hlongest hunit (List.cons_ne_nil _ _) hascii htext
      exact absurd hpoint (hpointed size hsize)

/-- Sizes in digits of a style sheet are the px dimensions, unless one of these begins
with its point. -/
theorem pixelSizes_eq_dimensions (hpointed : ∀ size ∈ pixelDimensions text, ¬ Pointed size)
    (hplain : ∀ size ∈ pixelSizes text, PlainDigits size) :
    pixelSizes text = pixelDimensions text := by
  induction text using numberwise_induction with
  | nil => rw [pixelSizes, pixelDimensions]
  | unit number rest hlongest ih =>
    -- it has digits in front, so the pattern takes it whole
    obtain ⟨sign, whole, fraction, h, rfl⟩ :=
      isNumber_iff.mp (longestPrefix?_eq_some_iff.mp hlongest).1
    have hdims := pixelDimensions_of_unit hlongest
    rw [hdims, List.forall_mem_cons] at hpointed
    have hwhole : whole ≠ [] := fun hw => hpointed.1 ((pointed_iff h properDigits_ascii _).mpr hw)
    have hsizes := pixelSizes_of_number (pixelNumber?_iff.mpr
      ⟨sign, whole, fraction, rest, h.mono fun c _ => isDigit_of_ascii, hwhole, rfl, rfl⟩)
    rw [hsizes, List.forall_mem_cons] at hplain
    rw [hsizes, hdims, ih hpointed.2 hplain.2]
  | no_unit number rest hlongest hunit ih =>
    rw [pixelDimensions_of_no_unit hlongest hunit] at hpointed ⊢
    have hwhole : longestPrefix? isNumber ([] ++ number ++ rest) = some ([] ++ number) := hlongest
    have hsizes := pixelSizes_of_passed hwhole hunit hpointed hplain
    rw [hsizes] at hplain ⊢
    exact ih hpointed hplain
  | other c rest hnone ih =>
    rw [pixelDimensions_of_none hnone] at hpointed ⊢
    rcases hn : pixelNumber? (c :: rest) with - | number
    · rw [pixelSizes_of_none hn] at hplain ⊢
      exact ih hpointed hplain
    · -- a size in digits of a style sheet would be a number
      obtain ⟨sign, whole, fraction, more, h, -, rfl, htext⟩ := pixelNumber?_iff.mp hn
      rw [htext, pixelSizes_of_number (htext ▸ hn)] at hplain
      have hascii := (hplain _ (List.mem_cons_self ..)).parts h
      have hprefix : sign ++ whole ++ fraction <+: c :: rest := by
        rw [htext]
        exact List.prefix_append _ _
      have hnot := longestPrefix?_eq_none hnone hprefix
      rw [isNumber_iff.mpr ⟨sign, whole, fraction, hascii, rfl⟩] at hnot
      cases hnot

theorem exists_parts_of_mem_pixelSizes {size : Text} (h : size ∈ pixelSizes text) :
    ∃ sign whole fraction, NumberParts isDigit sign whole fraction ∧ whole ≠ [] ∧
      size = sign ++ whole ++ fraction ++ ['p', 'x'] := by
  induction text using pixelSizes.induct with
  | case1 => rw [pixelSizes] at h; cases h
  | case2 c rest number hn ih =>
    rw [pixelSizes, hn] at h
    rcases List.mem_cons.mp h with rfl | h
    · obtain ⟨sign, whole, fraction, -, hparts, hwhole, rfl, -⟩ := pixelNumber?_iff.mp hn
      exact ⟨sign, whole, fraction, hparts, hwhole, rfl⟩
    · exact ih h
  | case3 c rest hn ih =>
    rw [pixelSizes_of_none hn] at h
    exact ih h

/-- The sizes of a value are its px dimensions exactly if none of these begins with its
point and none of the sizes has digits of another script. -/
theorem pixelSizes_eq_dimensions_iff :
    pixelSizes text = pixelDimensions text ↔
      (∀ size ∈ pixelDimensions text, ¬ Pointed size) ∧
        ∀ size ∈ pixelSizes text, PlainDigits size := by
  constructor
  · intro heq
    constructor
    · intro size hsize
      rw [← heq] at hsize
      obtain ⟨sign, whole, fraction, h, hwhole, rfl⟩ := exists_parts_of_mem_pixelSizes hsize
      exact fun hpoint => hwhole ((pointed_iff h properDigits_unicode _).mp hpoint)
    · intro size hsize c hc hdigit
      rw [heq] at hsize
      obtain ⟨number, hnumber, rfl⟩ := exists_number_of_mem_pixelDimensions hsize
      obtain ⟨sign, whole, fraction, h, rfl⟩ := isNumber_iff.mp hnumber
      -- every other character of a size is a sign, a point or a letter of the unit
      have hother : ∀ d ∈ ("-.px" : Text), isDigit d = false := by decide
      by_contra hascii
      refine absurd hdigit (Bool.eq_false_iff.mp (hother c ?_))
      rw [List.append_assoc sign, List.mem_append, List.mem_append] at hc
      rcases hc with (hc | hc) | hc
      · rcases h.signs with rfl | rfl
        · cases hc
        · rw [List.mem_singleton.mp hc]
          decide
      · rcases h.mem_unsigned hc with hd | rfl
        · exact absurd hd hascii
        · decide
      · exact List.mem_cons_of_mem _ (List.mem_cons_of_mem _ hc)
  · rintro ⟨hpointed, hplain⟩
    exact pixelSizes_eq_dimensions hpointed hplain

/-! ### The sizes of a candidate -/

/-- A line declares a property with a value: behind a colon stands the value, blanks in
front of it left out, up to the first semicolon. -/
def Declares (line property value : Text) : Prop :=
  ∃ indent gap lead rest,
    line = indent ++ property ++ gap ++ ':' :: (lead ++ value ++ ';' :: rest) ∧
    (Text.isBlank indent = true ∧ Text.isBlank gap = true ∧ Text.isBlank lead = true) ∧
    (property ≠ [] ∧ ∀ c ∈ property, isPropertyChar c = true) ∧
    ';' ∉ value ∧ ∀ c, value.head? = some c → isBlank c = false

/-- The property of a line stands between blanks, with a colon behind. -/
theorem exists_of_lineProperty? {line property rest : Text}
    (h : lineProperty? line = some (property, rest)) :
    ∃ indent gap, line = indent ++ property ++ gap ++ ':' :: rest ∧
      Text.isBlank indent = true ∧ Text.isBlank gap = true ∧
      property ≠ [] ∧ ∀ c ∈ property, isPropertyChar c = true := by
  obtain ⟨indent, hline, hindent⟩ := Text.exists_trimLeft line
  rw [lineProperty?] at h
  generalize Text.trimLeft line = declaration at h hline
  obtain ⟨gap, hgap, hblank⟩ := Text.exists_trimLeft (declaration.dropWhile isPropertyChar)
  split at h
  · cases h
  · rename_i hne
    split at h
    · rename_i behind hbehind
      cases h
      refine ⟨indent, gap, ?_, hindent, hblank, hne, List.all_eq_true.mp List.all_takeWhile⟩
      rw [hline, List.append_assoc, List.append_assoc, ← hbehind, ← hgap,
        List.takeWhile_append_dropWhile]
    · cases h

theorem declares_of_declared? {line property value : Text}
    (h : declared? line = some (property, value)) : Declares line property value := by
  rw [declared?] at h
  split at h
  · cases h
  · rename_i found behind hproperty
    obtain ⟨indent, gap, rfl, hindent, hgap, hfound⟩ := exists_of_lineProperty? hproperty
    rcases hcut : Text.breakOn [';'] behind with - | ⟨before, rest⟩
    · rw [Text.cut, hcut] at h
      cases h
    · rw [Text.cut, hcut] at h
      cases h
      obtain ⟨lead, hbefore, hlead⟩ := Text.exists_trimLeft before
      refine ⟨indent, gap, lead, rest, ?_, ⟨hindent, hgap, hlead⟩, hfound, fun hm => ?_,
        Text.head?_dropWhile_isBlank before⟩
      · rw [← hbefore, Text.eq_of_breakOn hcut, List.append_assoc before, List.singleton_append]
      · refine Text.not_mem_of_breakOn hcut ?_
        rw [hbefore]
        exact List.mem_append_right _ hm

/-- A line declares no more than one property, with one value. -/
theorem declared?_eq_some_iff {line property value : Text} :
    declared? line = some (property, value) ↔ Declares line property value := by
  refine ⟨declares_of_declared?, ?_⟩
  rintro ⟨indent, gap, lead, rest, rfl, ⟨hindent, hgap, hlead⟩, ⟨hne, hchars⟩, hvalue, hhead⟩
  have hnone : ';' ∉ lead ++ value := by
    rw [List.mem_append, not_or]
    exact ⟨fun h => absurd (List.all_eq_true.mp hlead ';' h) (by decide), hvalue⟩
  rw [declared?, lineProperty?_of_between hindent hgap hne hchars]
  dsimp only
  rw [Text.cut, Text.breakOn_append_cons hnone]
  dsimp only
  rw [Text.trimLeft_append_of_isBlank hlead, Text.trimLeft_eq_self hhead]

/-- **Sizes as they are written**: a candidate is on a line that declares its property
with some value, and its sizes are the px dimensions of the value, in order, exactly if
no px dimension of it begins with the point and no size has digits of another script. -/
theorem sizes_as_written_iff {source : Text} {k : Candidate} (hk : k ∈ candidates source) :
    ∃ line value, (Text.lines source)[k.line - 1]? = some line ∧ Declares line k.property value ∧
      (k.sizes = pixelDimensions value ↔
        (∀ size ∈ pixelDimensions value, ¬ Pointed size) ∧ ∀ size ∈ k.sizes, PlainDigits size) := by
  obtain ⟨before, line, after, hlines, s, -, -, -, hcandidate⟩ := mem_candidates_iff.mp hk
  obtain ⟨property, value, hdeclared, -, -, rfl⟩ := candidate?_eq_some_iff.mp hcandidate
  refine ⟨line, value, ?_, declares_of_declared? hdeclared, pixelSizes_eq_dimensions_iff⟩
  simp [hlines]

/-- Sizes with signs and fractions that stand close together, none of them with its
point in front. -/
theorem sizes_as_written_close :
    ⟨".a", "margin", ["-1.5px", "2px", "-3px"], true, 2⟩
        ∈ candidates ".a \x7b\n  margin: -1.5px 1.2.3em 0 2px-3px !important;\n\x7d\n" ∧
      Declares "  margin: -1.5px 1.2.3em 0 2px-3px !important;" "margin"
        "-1.5px 1.2.3em 0 2px-3px !important" ∧
      (["-1.5px", "2px", "-3px"] : List Text)
        = pixelDimensions "-1.5px 1.2.3em 0 2px-3px !important" := by
  have hk : ⟨".a", "margin", ["-1.5px", "2px", "-3px"], true, 2⟩
      ∈ candidates ".a \x7b\n  margin: -1.5px 1.2.3em 0 2px-3px !important;\n\x7d\n" := by
    decide +kernel
  obtain ⟨line, value, hline, hdeclares, hsizes⟩ := sizes_as_written_iff hk
  -- the line is the second one, and it declares one value
  have htext : some "  margin: -1.5px 1.2.3em 0 2px-3px !important;".toList = some line :=
    Eq.trans (by decide +kernel) hline
  obtain rfl := Option.some.inj htext
  have hvalue : some ("margin".toList, "-1.5px 1.2.3em 0 2px-3px !important".toList)
      = some ("margin".toList, value) :=
    Eq.trans (by decide +kernel) (declared?_eq_some_iff.mpr hdeclares)
  obtain rfl := (Prod.mk.inj (Option.some.inj hvalue)).2
  exact ⟨hk, hdeclares, hsizes.mpr ⟨by decide +kernel, by decide +kernel⟩⟩

/-- A size that begins with its point is reported without it, ten times as long as it is. -/
theorem pointed_size_is_cut :
    candidates ".a \x7b\n  width: .5px;\n\x7d\n" = [⟨".a", "width", ["5px"], false, 2⟩] ∧
      (Text.lines ".a \x7b\n  width: .5px;\n\x7d\n")[2 - 1]? = some "  width: .5px;".toList ∧
      Declares "  width: .5px;" "width" ".5px" ∧
      pixelDimensions ".5px" = ([".5px"] : List Text) :=
  ⟨by decide +kernel, by decide +kernel, declares_of_declared? (by decide +kernel),
    by decide +kernel⟩

end FluidScss
