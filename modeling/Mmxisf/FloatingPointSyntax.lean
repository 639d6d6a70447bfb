/-
# FloatingPointSyntax -- which texts are floating-point and complex numbers

The scanner of `is_valid_floating_point_value` accepts a regular language, given
here as a grammar: a sign, digits with an optional fraction, an optional
exponent, or one of seven names.  A complex value is two such texts, with
whitespace around each, between parentheses.  The checks agree with the grammar
on every text, and read no position outside it (`floatingPointSyntax`).
-/
import Mmxisf.Reader.Positions
import Mmxisf.Trimming

namespace Mmxisf

set_option autoImplicit false

/-! ## The grammar -/

/-- At least one decimal digit. -/
structure IsDigits (text : Text) : Prop where
  nonempty : text ≠ []
  digits : text.all isAsciiDigit = true

/-- No sign, or one. -/
inductive IsSign : Text → Prop
  | absent : IsSign []
  | plus : IsSign [ch '+']
  | minus : IsSign [ch '-']

/-- `D+(.D+)?|.D+` -/
inductive IsMantissa : Text → Prop
  | whole {digits : Text} (isDigits : IsDigits digits) : IsMantissa digits
  | both {digits fraction : Text} (isDigits : IsDigits digits) (isFraction : IsDigits fraction) :
      IsMantissa (digits ++ ch '.' :: fraction)
  | fraction {fraction : Text} (isFraction : IsDigits fraction) : IsMantissa (ch '.' :: fraction)

/-- `([eE][+-]?D+)?` -/
inductive IsExponent : Text → Prop
  | absent : IsExponent []
  | present {marker : Byte} {sign digits : Text} (isMarker : marker = ch 'e' ∨ marker = ch 'E')
      (isSign : IsSign sign) (isDigits : IsDigits digits) :
      IsExponent (marker :: sign ++ digits)

/-- A decimal literal without a sign. -/
def IsUnsignedLiteral (text : Text) : Prop :=
  ∃ mantissa exponent, text = mantissa ++ exponent ∧ IsMantissa mantissa ∧ IsExponent exponent

/-- The texts of floating-point numbers. -/
inductive IsFloatingPoint : Text → Prop
  | name {text : Text}
      (isName : text ∈ ["NaN", "+Inf", "-Inf", "nan", "-nan", "inf", "-inf"].map lit) :
      IsFloatingPoint text
  | literal {sign text : Text} (isSign : IsSign sign) (isLiteral : IsUnsignedLiteral text) :
      IsFloatingPoint (sign ++ text)

/-- The texts of complex numbers: each part with whitespace around it. -/
inductive IsComplex : Text → Prop
  | pair {real imaginary realCore imaginaryCore : Text}
      (noComma : ch ',' ∉ real) (noComma' : ch ',' ∉ imaginary)
      (isReal : Trimmed real realCore ∧ IsFloatingPoint realCore)
      (isImaginary : Trimmed imaginary imaginaryCore ∧ IsFloatingPoint imaginaryCore) :
      IsComplex (ch '(' :: real ++ ch ',' :: imaginary ++ [ch ')'])

/-! ## Scanning -/

/-- Digits before something else are what a scan takes. -/
theorem takeWhile_digits {digits rest : Text} (all : digits.all isAsciiDigit = true)
    (other : rest.head?.all (fun c => !isAsciiDigit c) = true) :
    (digits ++ rest).takeWhile isAsciiDigit = digits ∧
      (digits ++ rest).dropWhile isAsciiDigit = rest := by
  induction digits with
  | nil =>
      cases rest with
      | nil => exact ⟨rfl, rfl⟩
      | cons c tail =>
          have stops : isAsciiDigit c = false := by simpa using other
          simp [stops]
  | cons d digits ih =>
      rw [List.all_cons, Bool.and_eq_true] at all
      obtain ⟨taken, left⟩ := ih all.2
      simp [all.1, taken, left]

theorem isDigits_takeWhile {text : Text} (some : text.takeWhile isAsciiDigit ≠ []) :
    IsDigits (text.takeWhile isAsciiDigit) := ⟨some, List.all_takeWhile⟩

theorem dropSign_split (text : Text) : ∃ sign, IsSign sign ∧ text = sign ++ dropSign text := by
  unfold dropSign
  cases text with
  | nil => exact ⟨[], .absent, by simp⟩
  | cons c rest =>
      by_cases plus : c = ch '+'
      · exact ⟨[ch '+'], .plus, by simp [plus]⟩
      by_cases minus : c = ch '-'
      · exact ⟨[ch '-'], .minus, by simp [minus]⟩
      · exact ⟨[], .absent, by simp [plus, minus]⟩

/-- A sign before something that is none is dropped. -/
theorem dropSign_append {sign rest : Text} (isSign : IsSign sign)
    (unsigned : rest.head? ≠ some (ch '+') ∧ rest.head? ≠ some (ch '-')) :
    dropSign (sign ++ rest) = rest := by
  unfold dropSign
  cases isSign with
  | absent => rw [List.nil_append, if_neg (not_or.mpr unsigned)]
  | plus => simp
  | minus => simp

theorem IsDigits.head {digits : Text} (isDigits : IsDigits digits) (rest : Text) :
    ∃ c, (digits ++ rest).head? = some c ∧ isAsciiDigit c = true := by
  obtain ⟨nonempty, all⟩ := isDigits
  cases digits with
  | nil => exact absurd rfl nonempty
  | cons c tail =>
      rw [List.all_cons, Bool.and_eq_true] at all
      exact ⟨c, rfl, all.1⟩

/-- A digit is no sign. -/
theorem IsDigits.unsigned {digits : Text} (isDigits : IsDigits digits) (rest : Text) :
    (digits ++ rest).head? ≠ some (ch '+') ∧ (digits ++ rest).head? ≠ some (ch '-') := by
  obtain ⟨c, head, digit⟩ := isDigits.head rest
  rw [head]
  constructor
  · rintro ⟨⟩
    cases digit
  · rintro ⟨⟩
    cases digit

theorem IsDigits.takeWhile {digits : Text} (isDigits : IsDigits digits) :
    digits.takeWhile isAsciiDigit = digits ∧ digits.dropWhile isAsciiDigit = [] := by
  have taken := @takeWhile_digits digits [] isDigits.digits rfl
  rwa [List.append_nil] at taken

/-- A text whose digits go to its end. -/
theorem isDigits_of_dropWhile {text : Text} (some : text.takeWhile isAsciiDigit ≠ [])
    (all : text.dropWhile isAsciiDigit = []) : IsDigits text := by
  have split := List.takeWhile_append_dropWhile (p := isAsciiDigit) (l := text)
  rw [all, List.append_nil] at split
  rw [← split]
  exact ⟨some, List.all_takeWhile⟩

/-- An exponent is what the scanner takes to the end. -/
theorem scanExponent_iff {text : Text} : scanExponent text = some [] ↔ IsExponent text := by
  unfold scanExponent
  constructor
  · intro scanned
    cases text with
    | nil => exact .absent
    | cons c rest =>
        by_cases isMarker : c = ch 'e' ∨ c = ch 'E'
        · obtain ⟨sign, isSign, split⟩ := dropSign_split rest
          simp only [List.head?_cons, Option.some.injEq, isMarker, if_true, List.drop_one,
            List.tail_cons] at scanned
          by_cases empty : (dropSign rest).takeWhile isAsciiDigit = []
          · rw [if_pos empty] at scanned
            cases scanned
          · rw [if_neg empty, Option.some.injEq] at scanned
            rw [split]
            exact .present isMarker isSign (isDigits_of_dropWhile empty scanned)
        · simp [isMarker] at scanned
  · intro exponent
    cases exponent with
    | absent => rfl
    | @present marker sign digits isMarker isSign isDigits =>
        have unsigned : dropSign (sign ++ digits) = digits := by
          have head := isDigits.unsigned []
          rw [List.append_nil] at head
          exact dropSign_append isSign head
        simp only [List.cons_append, List.head?_cons, Option.some.injEq, isMarker, if_true,
          List.drop_one, List.tail_cons, unsigned, isDigits.takeWhile.1, isDigits.takeWhile.2,
          isDigits.nonempty, if_false]

/-- An exponent begins neither with a digit nor with a point. -/
theorem IsExponent.head {exponent : Text} (isExponent : IsExponent exponent) :
    exponent.head?.all (fun c => !isAsciiDigit c) = true ∧ exponent.head? ≠ some (ch '.') := by
  cases isExponent with
  | absent => exact ⟨rfl, by simp⟩
  | present isMarker isSign isDigits =>
      rcases isMarker with rfl | rfl <;> exact ⟨rfl, by simp; decide⟩

/-- The scanner takes the mantissas and exponents of the grammar. -/
theorem isUnsignedDecimalLiteral_iff {text : Text} :
    isUnsignedDecimalLiteral text = true ↔ IsUnsignedLiteral text := by
  have split := List.takeWhile_append_dropWhile (p := isAsciiDigit) (l := text)
  unfold isUnsignedDecimalLiteral
  constructor
  · intro accepted
    have ended {rest left : Text} (scanned : scanExponent rest = some left)
        (stops : decide (left = []) = true) : IsExponent rest := by
      rw [of_decide_eq_true stops] at scanned
      exact scanExponent_iff.mp scanned
    cases point : (text.dropWhile isAsciiDigit).head? == some (ch '.') with
    | false =>
        have none : scanFraction (text.dropWhile isAsciiDigit) =
            some (false, text.dropWhile isAsciiDigit) := by
          unfold scanFraction
          rw [if_neg (by simpa using point)]
        simp only [none] at accepted
        by_cases bare : text.takeWhile isAsciiDigit = []
        · simp [bare] at accepted
        · rw [if_neg (fun both => bare both.1)] at accepted
          split at accepted
          · cases accepted
          · rename_i scanned
            exact ⟨_, _, split.symm, .whole (isDigits_takeWhile bare), ended scanned accepted⟩
    | true =>
        obtain ⟨tail, rest⟩ : ∃ tail, text.dropWhile isAsciiDigit = ch '.' :: tail := by
          cases rest : text.dropWhile isAsciiDigit with
          | nil => simp [rest] at point
          | cons c tail => exact ⟨tail, by simpa [rest] using point⟩
        have tailSplit := List.takeWhile_append_dropWhile (p := isAsciiDigit) (l := tail)
        have fraction : scanFraction (text.dropWhile isAsciiDigit) =
            if tail.takeWhile isAsciiDigit = [] then none
            else some (true, tail.dropWhile isAsciiDigit) := by
          rw [rest]
          exact if_pos rfl
        rw [fraction] at accepted
        by_cases empty : tail.takeWhile isAsciiDigit = []
        · simp [empty] at accepted
        · have isFraction := isDigits_takeWhile empty
          simp only [empty, if_false, Bool.true_eq_false, and_false] at accepted
          split at accepted
          · cases accepted
          · rename_i scanned
            have isExponent := ended scanned accepted
            rw [rest, ← tailSplit] at split
            by_cases bare : text.takeWhile isAsciiDigit = []
            · rw [bare, List.nil_append] at split
              exact ⟨_, _, split.symm, .fraction isFraction, isExponent⟩
            · refine ⟨_, _, ?_, .both (isDigits_takeWhile bare) isFraction, isExponent⟩
              rw [List.append_assoc]
              exact split.symm
  · rintro ⟨mantissa, exponent, rfl, isMantissa, isExponent⟩
    obtain ⟨noDigit, noPoint⟩ := isExponent.head
    have scanned := scanExponent_iff.mpr isExponent
    have noFraction : scanFraction exponent = some (false, exponent) := if_neg noPoint
    have fractionOf {fraction : Text} (isFraction : IsDigits fraction) :
        scanFraction (ch '.' :: fraction ++ exponent) = some (true, exponent) := by
      obtain ⟨taken, left⟩ := takeWhile_digits isFraction.digits noDigit
      unfold scanFraction
      simp only [List.cons_append, List.head?_cons, if_true, List.drop_one, List.tail_cons, taken,
        left, isFraction.nonempty, if_false]
    cases isMantissa with
    | whole isDigits =>
        obtain ⟨taken, left⟩ := takeWhile_digits isDigits.digits noDigit
        simp only [taken, left, noFraction, isDigits.nonempty, false_and, if_false, scanned,
          decide_true]
    | @both digits fraction isDigits isFraction =>
        have head : (ch '.' :: fraction ++ exponent).head?.all (fun c => !isAsciiDigit c) = true :=
          rfl
        obtain ⟨taken, left⟩ := takeWhile_digits isDigits.digits head
        rw [List.append_assoc]
        simp only [taken, left, fractionOf isFraction, isDigits.nonempty, false_and, if_false,
          scanned, decide_true]
    | fraction isFraction =>
        have point : isAsciiDigit (ch '.') = false := rfl
        have scannedFraction := fractionOf isFraction
        simp only [List.cons_append] at scannedFraction
        simp [point, scannedFraction, scanned]

/-- A literal begins with a digit or a point. -/
theorem IsUnsignedLiteral.unsigned {text : Text} (isLiteral : IsUnsignedLiteral text) :
    text ≠ [] ∧ text.head? ≠ some (ch '+') ∧ text.head? ≠ some (ch '-') := by
  obtain ⟨mantissa, exponent, rfl, isMantissa, -⟩ := isLiteral
  cases isMantissa with
  | whole isDigits =>
      refine ⟨?_, isDigits.unsigned exponent⟩
      simp [isDigits.nonempty]
  | both isDigits isFraction =>
      rw [List.append_assoc]
      refine ⟨?_, isDigits.unsigned _⟩
      simp [isDigits.nonempty]
  | fraction => exact ⟨by simp, by simp; decide, by simp; decide⟩

/-- The verdict on a floating-point text, by the grammar of its core. -/
theorem isValidFloatingPointValue_iff (text : Text) :
    Reader.isValidFloatingPointValue text = true ↔
      ∃ core, Trimmed text core ∧ IsFloatingPoint core := by
  rw [exists_trimmed_iff]
  unfold Reader.isValidFloatingPointValue
  generalize trimXmlWhitespace text = core
  by_cases isName : isNonFiniteName core = true
  · simp only [isName, if_true, true_iff]
    exact .name (of_decide_eq_true isName)
  · have noName : ¬ core ∈ ["NaN", "+Inf", "-Inf", "nan", "-nan", "inf", "-inf"].map lit :=
      fun member => isName (decide_eq_true member)
    simp only [isName, Bool.false_eq_true, if_false]
    obtain ⟨sign, isSign, split⟩ := dropSign_split core
    constructor
    · intro accepted
      by_cases empty : core = []
      · simp [empty] at accepted
      by_cases bare : dropSign core = []
      · simp [empty, bare] at accepted
      · simp only [empty, bare, if_false] at accepted
        rw [split]
        exact .literal isSign (isUnsignedDecimalLiteral_iff.mp accepted)
    · intro number
      cases number with
      | name member => exact absurd member noName
      | literal isSign isLiteral =>
          obtain ⟨nonempty, unsigned⟩ := isLiteral.unsigned
          rw [dropSign_append isSign unsigned]
          simp [nonempty, isUnsignedDecimalLiteral_iff.mpr isLiteral]

theorem IsFloatingPoint.nonempty {text : Text} (number : IsFloatingPoint text) : text ≠ [] := by
  cases number with
  | name isName =>
      rintro rfl
      exact absurd isName (by decide)
  | literal isSign isLiteral => simp [isLiteral.unsigned.1]

/-- A text with a nonempty core is not empty. -/
theorem Trimmed.nonempty {text core : Text} (trimmed : Trimmed text core) (some : core ≠ []) :
    text ≠ [] := by
  obtain ⟨⟨before, after, rfl, -, -⟩, -⟩ := trimmed
  simp [some]

/-- A part without a mark, up to the mark. -/
theorem takeWhile_mark {mark : Byte} {part rest : Text} (free : mark ∉ part) :
    (part ++ mark :: rest).takeWhile (· ≠ mark) = part ∧
      (part ++ mark :: rest).dropWhile (· ≠ mark) = mark :: rest := by
  induction part with
  | nil => simp
  | cons c part ih =>
      rw [List.mem_cons, not_or] at free
      obtain ⟨taken, left⟩ := ih free.2
      have other : decide (c ≠ mark) = true := decide_eq_true (Ne.symm free.1)
      simp only [List.cons_append, List.takeWhile_cons, List.dropWhile_cons, other, if_true, taken,
        left, and_self]

/-- What stands before a comma has none, and the comma is first of the rest. -/
theorem comma_split {text rest : Text} {c : Byte}
    (left : text.dropWhile (· ≠ ch ',') = c :: rest) :
    ch ',' ∉ text.takeWhile (· ≠ ch ',') ∧ c = ch ',' := by
  constructor
  · intro member
    have passes := List.all_eq_true.mp List.all_takeWhile _ member
    simp at passes
  · have first := List.head?_dropWhile_not (· ≠ ch ',') text
    rw [left] at first
    simpa using first

/-- The first and the last character, and what is between them. -/
theorem enclosed {text : Text} {first last : Byte} (long : ¬ text.length < 2)
    (head : text.head? = some first) (back : text.getLast? = some last) :
    text = first :: (text.drop 1).dropLast ++ [last] := by
  obtain ⟨front, rfl⟩ := List.getLast?_eq_some_iff.mp back
  cases front with
  | nil => exact absurd (by simp) long
  | cons c middle =>
      obtain rfl : c = first := Option.some.inj head
      rw [List.cons_append, List.drop_one, List.tail_cons, List.dropLast_concat, List.cons_append]

/-- The verdict on a complex text, by the grammar of its core. -/
theorem isValidComplexValue_iff (text : Text) :
    Reader.isValidComplexValue text = true ↔ ∃ core, Trimmed text core ∧ IsComplex core := by
  rw [exists_trimmed_iff]
  unfold Reader.isValidComplexValue isComplexOf
  generalize trimXmlWhitespace text = core
  constructor
  · intro accepted
    by_cases refused : (decide (core.length < 5) || decide (core.head? ≠ some (ch '(')) ||
        decide (core.getLast? ≠ some (ch ')'))) = true
    · simp only [refused, if_true] at accepted
      cases accepted
    · simp only [refused, Bool.false_eq_true, if_false] at accepted
      simp only [Bool.or_eq_true, decide_eq_true_eq, not_or, ne_eq, not_not] at refused
      obtain ⟨⟨long, head⟩, back⟩ := refused
      have whole := enclosed (by omega) head back
      have split := List.takeWhile_append_dropWhile (p := (· ≠ ch ','))
        (l := (core.drop 1).dropLast)
      cases left : (core.drop 1).dropLast.dropWhile (· ≠ ch ',') with
      | nil =>
          rw [left] at accepted
          cases accepted
      | cons c imaginary =>
          obtain ⟨noComma, rfl⟩ := comma_split left
          rw [left] at accepted split
          simp only [Bool.and_eq_true, Bool.not_eq_true'] at accepted
          obtain ⟨⟨single, isReal⟩, isImaginary⟩ := accepted
          obtain ⟨realCore, real⟩ := (isValidFloatingPointValue_iff _).mp isReal
          obtain ⟨imaginaryCore, imaginary'⟩ := (isValidFloatingPointValue_iff _).mp isImaginary
          rw [whole, ← split]
          have noComma' : ch ',' ∉ imaginary := by simpa using single
          have pair := IsComplex.pair noComma noComma' real imaginary'
          simpa only [List.cons_append, List.append_assoc] using pair
  · intro complex
    cases complex with
    | @pair real imaginary realCore imaginaryCore noComma noComma' isReal isImaginary =>
        have nonempty := isReal.1.nonempty isReal.2.nonempty
        have nonempty' := isImaginary.1.nonempty isImaginary.2.nonempty
        have some := List.length_pos_iff.mpr nonempty
        have some' := List.length_pos_iff.mpr nonempty'
        have inner : ((ch '(' :: real ++ ch ',' :: imaginary ++ [ch ')']).drop 1).dropLast =
            real ++ ch ',' :: imaginary := by
          rw [List.cons_append, List.cons_append, List.drop_one, List.tail_cons,
            List.dropLast_concat]
        obtain ⟨taken, left⟩ := @takeWhile_mark _ real imaginary noComma
        have accepted := (isValidFloatingPointValue_iff real).mpr ⟨_, isReal⟩
        have accepted' := (isValidFloatingPointValue_iff imaginary).mpr ⟨_, isImaginary⟩
        rw [if_neg]
        · simp only [inner, taken, left, accepted, accepted', Bool.and_true, Bool.not_eq_true']
          simpa using noComma'
        · have back : (ch '(' :: real ++ ch ',' :: imaginary ++ [ch ')']).getLast? =
              Option.some (ch ')') := List.getLast?_concat
          rw [back]
          simp
          omega

/-- The floating-point and complex texts that a reader takes are those of the
grammar, and the scan that decides reads no position outside the text. -/
theorem floatingPointSyntax (text : Text) :
    (Reader.isValidFloatingPointValueAt text = some (Reader.isValidFloatingPointValue text) ∧
      (Reader.isValidFloatingPointValue text = true ↔
        ∃ core, Trimmed text core ∧ IsFloatingPoint core)) ∧
    Reader.isValidComplexValueAt text = some (Reader.isValidComplexValue text) ∧
      (Reader.isValidComplexValue text = true ↔ ∃ core, Trimmed text core ∧ IsComplex core) := by
  constructor
  · constructor
    · exact Reader.isValidFloatingPointValueAt_eq text
    · exact isValidFloatingPointValue_iff text
  · constructor
    · exact Reader.isValidComplexValueAt_eq text
    · exact isValidComplexValue_iff text

end Mmxisf
