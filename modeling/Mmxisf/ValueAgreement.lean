/-
# ValueAgreement -- what the writer takes for a value, the reader takes too

The two translation units carry their own validators.  They agree on every
string, and on what an XML parser makes of it: attribute-value normalisation
turns a TAB, a carriage return or a line feed into a space (`normalizeValue`).

An accepted value has no whitespace but around it (`Tight`), which a trim
removes, so normalisation cannot change a verdict (`Tight.verdict_normalize`).
Only a complex number may have whitespace inside, and that is around its parts.
-/
import Mmxisf.Writer.Tags
import Mmxisf.Reader.Steps

namespace Mmxisf

set_option autoImplicit false

/-! ## Attribute-value normalisation -/

/-- A TAB, a carriage return or a line feed becomes a space. -/
def normalizeCharacter (c : Byte) : Byte :=
  if c = ch '\t' ∨ c = ch '\r' ∨ c = ch '\n' then ch ' ' else c

/-- Attribute-value normalisation of XML 1.0, after the entities were expanded. -/
def normalizeValue (text : Text) : Text := text.map normalizeCharacter

@[simp] theorem normalizeValue_nil : normalizeValue [] = [] := rfl

@[simp] theorem normalizeValue_cons (c : Byte) (text : Text) :
    normalizeValue (c :: text) = normalizeCharacter c :: normalizeValue text := rfl

@[simp] theorem length_normalizeValue (text : Text) :
    (normalizeValue text).length = text.length := List.length_map _

@[simp] theorem isXmlWhitespace_normalize (c : Byte) :
    isXmlWhitespace (normalizeCharacter c) = isXmlWhitespace c := by
  unfold normalizeCharacter isXmlWhitespace
  split
  · rename_i isBreak
    rcases isBreak with rfl | rfl | rfl <;> decide
  · rfl

theorem normalizeCharacter_of_not {c : Byte} (dark : isXmlWhitespace c = false) :
    normalizeCharacter c = c := by
  unfold isXmlWhitespace at dark
  unfold normalizeCharacter
  simp only [Bool.or_eq_false_iff, decide_eq_false_iff_not] at dark
  rw [if_neg]
  rintro (tab | carriage | line)
  · exact dark.1.1.2 tab
  · exact dark.1.2 carriage
  · exact dark.2 line

/-- A text without whitespace. -/
def Dark (text : Text) : Prop := ∀ c ∈ text, isXmlWhitespace c = false

instance instDecidableDark (text : Text) : Decidable (Dark text) := List.decidableBAll _ text

theorem Dark.normalize {text : Text} (dark : Dark text) : normalizeValue text = text := by
  induction text with
  | nil => rfl
  | cons c rest ih =>
      rw [normalizeValue_cons, normalizeCharacter_of_not (dark c List.mem_cons_self),
        ih fun d member => dark d (List.mem_cons_of_mem _ member)]

theorem dark_normalize {text : Text} : Dark (normalizeValue text) ↔ Dark text := by
  unfold Dark normalizeValue
  simp only [List.forall_mem_map, isXmlWhitespace_normalize]

theorem dropWhile_normalize (text : Text) :
    (normalizeValue text).dropWhile isXmlWhitespace =
      normalizeValue (text.dropWhile isXmlWhitespace) := by
  unfold normalizeValue
  rw [List.dropWhile_map]
  congr 2
  funext c
  exact isXmlWhitespace_normalize c

/-- Trimming and normalisation commute. -/
theorem trim_normalize (text : Text) :
    trimXmlWhitespace (normalizeValue text) = normalizeValue (trimXmlWhitespace text) := by
  have reversed (t : Text) : (normalizeValue t).reverse = normalizeValue t.reverse :=
    (List.map_reverse).symm
  unfold trimXmlWhitespace
  rw [dropWhile_normalize, reversed, dropWhile_normalize, reversed]

/-! ## Texts without whitespace -/

/-- A character of a class that no whitespace belongs to. -/
theorem not_whitespace_of {isMember : Byte → Bool}
    (none : [ch ' ', ch '\t', ch '\r', ch '\n'].any isMember = false) {c : Byte}
    (member : isMember c = true) : isXmlWhitespace c = false := by
  cases white : isXmlWhitespace c with
  | false => rfl
  | true =>
      simp only [isXmlWhitespace, Bool.or_eq_true, decide_eq_true_eq] at white
      have listed : c ∈ [ch ' ', ch '\t', ch '\r', ch '\n'] := by
        rcases white with ((rfl | rfl) | rfl) | rfl <;> simp
      rw [List.any_eq_true.mpr ⟨c, listed, member⟩] at none
      cases none

theorem not_whitespace_of_eq {c d : Byte} (same : c = d) (dark : isXmlWhitespace d = false) :
    isXmlWhitespace c = false := same ▸ dark

theorem Dark.nil : Dark [] := fun _ member => absurd member List.not_mem_nil

theorem Dark.cons {c : Byte} {rest : Text} (first : isXmlWhitespace c = false)
    (dark : Dark rest) : Dark (c :: rest) := List.forall_mem_cons.mpr ⟨first, dark⟩

theorem Dark.append {text more : Text} (dark : Dark text) (darkMore : Dark more) :
    Dark (text ++ more) := by
  intro c member
  rcases List.mem_append.mp member with before | after
  · exact dark c before
  · exact darkMore c after

theorem dark_of_all {isMember : Byte → Bool}
    (none : [ch ' ', ch '\t', ch '\r', ch '\n'].any isMember = false) {text : Text}
    (members : text.all isMember = true) : Dark text := fun c member =>
  not_whitespace_of none (List.all_eq_true.mp members c member)

theorem dark_of_digits {text : Text} (digits : text.all isAsciiDigit = true) : Dark text :=
  dark_of_all (by decide) digits

/-- A text is dark when what follows its leading digits is. -/
theorem dark_of_rest {text : Text} (dark : Dark (text.dropWhile isAsciiDigit)) : Dark text := by
  rw [← List.takeWhile_append_dropWhile (p := isAsciiDigit) (l := text)]
  exact Dark.append (dark_of_digits (List.all_takeWhile)) dark

/-- A text is dark when it starts with this character and the rest is. -/
theorem dark_of_head {text : Text} {c : Byte} (head : text.head? = some c)
    (first : isXmlWhitespace c = false) (dark : Dark (text.drop 1)) : Dark text := by
  cases text with
  | nil => exact Dark.nil
  | cons d rest =>
      obtain rfl : d = c := Option.some.inj head
      exact Dark.cons first dark

/-! ## Verdicts that normalisation keeps -/

/-- A validator that looks at the trimmed text only, and accepts no whitespace
inside it. -/
structure Tight (isValid : Text → Bool) : Prop where
  trimmed : ∀ {text other : Text}, trimXmlWhitespace text = trimXmlWhitespace other →
    isValid text = isValid other
  dark : ∀ {text : Text}, isValid text = true → Dark (trimXmlWhitespace text)

/-- It does not see normalisation: an accepted text is its own normal form where
it is looked at. -/
theorem Tight.normalize {isValid : Text → Bool} (tight : Tight isValid) (text : Text) :
    isValid (normalizeValue text) = isValid text := by
  have same (dark : Dark (trimXmlWhitespace text)) : isValid (normalizeValue text) = isValid text :=
    tight.trimmed (by rw [trim_normalize, dark.normalize])
  rw [Bool.eq_iff_iff]
  constructor
  · intro accepted
    have dark := tight.dark accepted
    rw [trim_normalize, dark_normalize] at dark
    rwa [← same dark]
  · intro accepted
    rwa [same (tight.dark accepted)]

/-! ## Boolean and integer values -/

theorem boolean_tight : Tight fun text => isBooleanValue (trimXmlWhitespace text) where
  trimmed same := by simp only [same]
  dark accepted := by
    simp only [isBooleanValue, Bool.or_eq_true, decide_eq_true_eq] at accepted
    rcases accepted with ((isTrue | isFalse) | isZero) | isOne
    · rw [isTrue]
      decide
    · rw [isFalse]
      decide
    · rw [isZero]
      decide
    · rw [isOne]
      decide

/-- A decimal integer is a sign and digits. -/
theorem dark_of_decimalInteger {text : Text} {isSigned : Bool} {bitWidth : Nat}
    (valid : isValidDecimalInteger text isSigned bitWidth = true) : Dark text := by
  unfold isValidDecimalInteger at valid
  by_cases signed : text.head? = some (ch '+') ∨ text.head? = some (ch '-')
  · simp only [← Bool.decide_or, signed, decide_true, if_true] at valid
    have digits : Dark (text.drop 1) := by
      cases allDigits : (text.drop 1).all isAsciiDigit with
      | true => exact dark_of_digits allDigits
      | false => simp only [allDigits, if_true, ite_self, Bool.false_eq_true] at valid
    rcases signed with plus | minus
    · exact dark_of_head plus (by decide) digits
    · exact dark_of_head minus (by decide) digits
  · simp only [← Bool.decide_or, signed, decide_false, Bool.false_eq_true, if_false] at valid
    cases allDigits : text.all isAsciiDigit with
    | true => exact dark_of_digits allDigits
    | false => simp only [allDigits, if_true, ite_self, Bool.false_eq_true] at valid

theorem prefixBase_dark {c : Byte} (announced : prefixBase c ≠ 0) : isXmlWhitespace c = false := by
  apply @not_whitespace_of (fun c => prefixBase c ≠ 0)
  · decide
  · simpa using announced

theorem digitOfBase_dark {base : Nat} {c : Byte} (digit : isDigitOfBase base c = true) :
    isXmlWhitespace c = false := by
  apply @not_whitespace_of (fun c =>
    isAsciiDigit c || ((ch 'a' ≤ c && c ≤ ch 'f') || (ch 'A' ≤ c && c ≤ ch 'F')))
  · decide
  · unfold isDigitOfBase at digit
    cases decimal : isAsciiDigit c with
    | true => rfl
    | false =>
        rw [if_neg (by simp [decimal]), Bool.and_eq_true] at digit
        rw [Bool.false_or, digit.2]

theorem integer_tight (isSigned : Bool) (bitWidth : Nat) :
    Tight fun text => Reader.isValidIntegerValue text isSigned bitWidth where
  trimmed same := by simp only [Reader.isValidIntegerValue, same]
  dark {text} accepted := by
    unfold Reader.isValidIntegerValue at accepted
    cases trimmed : trimXmlWhitespace text with
    | nil => exact Dark.nil
    | cons first rest =>
        rw [trimmed] at accepted
        dsimp only at accepted
        by_cases prefixed : first = ch '0' ∧ prefixBase (rest.headD 0) ≠ 0
        · obtain ⟨zero, announced⟩ := prefixed
          rw [if_pos zero, if_pos announced] at accepted
          cases rest with
          | nil => exact absurd rfl announced
          | cons c digits =>
              rw [List.headD_cons, List.drop_one, List.tail_cons] at accepted
              have isDigits : Dark digits := by
                cases inBase : digits.all (isDigitOfBase (prefixBase c)) with
                | true =>
                    exact fun d member => digitOfBase_dark (List.all_eq_true.mp inBase d member)
                | false =>
                    simp only [inBase, Bool.false_and, ite_self, Bool.false_eq_true] at accepted
              exact Dark.cons (by rw [zero]; decide)
                (Dark.cons (prefixBase_dark announced) isDigits)
        · have decimal : (if first = ch '0' then prefixBase (rest.headD 0) else 0) = 0 := by
            split
            · rename_i zero
              by_contra announced
              exact prefixed ⟨zero, announced⟩
            · rfl
          rw [decimal, if_neg (fun impossible => impossible rfl)] at accepted
          exact dark_of_decimalInteger accepted

/-! ## Floating-point and complex values -/

theorem dark_of_dropSign {text : Text} (dark : Dark (dropSign text)) : Dark text := by
  unfold dropSign at dark
  split at dark
  · rename_i signed
    rcases signed with plus | minus
    · exact dark_of_head plus (by decide) dark
    · exact dark_of_head minus (by decide) dark
  · exact dark

theorem dark_of_scanFraction {text rest : Text} {fraction : Bool}
    (scanned : scanFraction text = some (fraction, rest)) (dark : Dark rest) : Dark text := by
  unfold scanFraction at scanned
  split at scanned
  · rename_i point
    dsimp only at scanned
    split at scanned
    · cases scanned
    · cases scanned
      exact dark_of_head point (by decide) (dark_of_rest dark)
  · cases scanned
    exact dark

theorem dark_of_scanExponent {text rest : Text} (scanned : scanExponent text = some rest)
    (dark : Dark rest) : Dark text := by
  unfold scanExponent at scanned
  split at scanned
  · rename_i exponent
    dsimp only at scanned
    split at scanned
    · cases scanned
    · cases scanned
      have tail : Dark (text.drop 1) := dark_of_dropSign (dark_of_rest dark)
      rcases exponent with lower | upper
      · exact dark_of_head lower (by decide) tail
      · exact dark_of_head upper (by decide) tail
  · cases scanned
    exact dark

theorem dark_of_decimalLiteral {text : Text} (valid : isUnsignedDecimalLiteral text = true) :
    Dark text := by
  unfold isUnsignedDecimalLiteral at valid
  apply dark_of_rest
  cases scanned : scanFraction (text.dropWhile isAsciiDigit) with
  | none => simp [scanned] at valid
  | some fraction =>
      obtain ⟨fractionDigits, rest⟩ := fraction
      apply dark_of_scanFraction scanned
      simp only [scanned] at valid
      split at valid
      · cases valid
      · cases exponent : scanExponent rest with
        | none => simp [exponent] at valid
        | some last =>
            apply dark_of_scanExponent exponent
            simp only [exponent, decide_eq_true_eq] at valid
            rw [valid]
            exact Dark.nil

theorem dark_of_nonFiniteName {text : Text} (named : isNonFiniteName text = true) : Dark text := by
  have all : ∀ name ∈ ["NaN", "+Inf", "-Inf", "nan", "-nan", "inf", "-inf"].map lit,
      name.all (fun c => !isXmlWhitespace c) = true := by decide
  unfold isNonFiniteName at named
  intro c member
  have dark := List.all_eq_true.mp (all text (of_decide_eq_true named)) c member
  simpa using dark

theorem floatingPoint_tight : Tight Reader.isValidFloatingPointValue where
  trimmed same := by simp only [Reader.isValidFloatingPointValue, same]
  dark {text} accepted := by
    unfold Reader.isValidFloatingPointValue at accepted
    dsimp only at accepted
    split at accepted
    · rename_i named
      exact dark_of_nonFiniteName named
    · split at accepted
      · cases accepted
      · split at accepted
        · cases accepted
        · exact dark_of_dropSign (dark_of_decimalLiteral accepted)

theorem normalizeCharacter_eq_iff {c d : Byte} (dark : isXmlWhitespace d = false) :
    normalizeCharacter c = d ↔ c = d := by
  constructor
  · rintro rfl
    rw [isXmlWhitespace_normalize] at dark
    exact (normalizeCharacter_of_not dark).symm
  · rintro rfl
    exact normalizeCharacter_of_not dark

theorem map_normalize_eq_some {c : Option Byte} {d : Byte} (dark : isXmlWhitespace d = false) :
    c.map normalizeCharacter = some d ↔ c = some d := by
  cases c with
  | none => simp
  | some c => simpa using normalizeCharacter_eq_iff dark

/-- The parts of a complex number between its parentheses may have whitespace
around them, which the validator of a part trims. -/
theorem complex_normalize {isFloatingPoint : Text → Bool}
    (part : ∀ text, isFloatingPoint (normalizeValue text) = isFloatingPoint text) (text : Text) :
    isComplexOf isFloatingPoint (normalizeValue text) = isComplexOf isFloatingPoint text := by
  have notComma : (fun c => decide (c ≠ ch ',')) ∘ normalizeCharacter =
      fun c => decide (c ≠ ch ',') := by
    funext c
    simp only [Function.comp_apply, ne_eq, decide_eq_decide, not_iff_not]
    exact normalizeCharacter_eq_iff (by decide)
  unfold isComplexOf
  rw [trim_normalize]
  generalize trimXmlWhitespace text = trimmed
  have opens : (normalizeValue trimmed).head? ≠ some (ch '(') ↔ trimmed.head? ≠ some (ch '(') := by
    unfold normalizeValue
    rw [List.head?_map, ne_eq, map_normalize_eq_some (by decide)]
  have closes : (normalizeValue trimmed).getLast? ≠ some (ch ')') ↔
      trimmed.getLast? ≠ some (ch ')') := by
    unfold normalizeValue
    rw [List.getLast?_map, ne_eq, map_normalize_eq_some (by decide)]
  have inner : ((normalizeValue trimmed).drop 1).dropLast =
      normalizeValue ((trimmed.drop 1).dropLast) := by
    unfold normalizeValue
    rw [← List.map_drop, List.map_dropLast]
  simp only [length_normalizeValue, opens, closes, inner]
  generalize (trimmed.drop 1).dropLast = pair
  have before : (normalizeValue pair).takeWhile (· ≠ ch ',') =
      normalizeValue (pair.takeWhile (· ≠ ch ',')) := by
    unfold normalizeValue
    rw [List.takeWhile_map, notComma]
  have after : (normalizeValue pair).dropWhile (· ≠ ch ',') =
      normalizeValue (pair.dropWhile (· ≠ ch ',')) := by
    unfold normalizeValue
    rw [List.dropWhile_map, notComma]
  rw [before, after, part]
  cases pair.dropWhile (· ≠ ch ',') with
  | nil => rfl
  | cons comma imaginary =>
      have another : (normalizeValue imaginary).contains (ch ',') =
          imaginary.contains (ch ',') := by
        rw [Bool.eq_iff_iff, List.contains_iff_mem, List.contains_iff_mem]
        unfold normalizeValue
        simp only [List.mem_map, normalizeCharacter_eq_iff (show isXmlWhitespace (ch ',') = false by
          decide), exists_eq_right]
      simp only [normalizeValue_cons, another, part]

/-! ## Points in time -/

theorem parsedDigit_dark {text : Text} {position count value i : Nat} {c : Byte}
    (parsed : parseFixedDigits text position count = some value) (low : position ≤ i)
    (high : i < position + count) (there : text[i]? = some c) : isXmlWhitespace c = false := by
  unfold parseFixedDigits at parsed
  split at parsed
  · cases parsed
  · dsimp only at parsed
    split at parsed
    · rename_i digits
      apply dark_of_digits digits c
      apply List.mem_of_getElem? (i := i - position)
      rw [List.getElem?_take, if_pos (by omega), List.getElem?_drop, Nat.add_sub_cancel' low, there]
    · cases parsed

/-- The characters of the date and the time: each is a digit that was parsed, or
one of the five separators. -/
theorem dark_of_calendarTime {text : Text} (valid : isCalendarTime text = true)
    (separators : ∀ i ∈ [4, 7, 10, 13, 16], ∀ c, text[i]? = some c → isXmlWhitespace c = false) :
    Dark (text.take 19) := by
  unfold isCalendarTime at valid
  split at valid
  · rename_i year month day hour minute second isYear isMonth isDay isHour isMinute isSecond
    intro c member
    obtain ⟨i, there⟩ := List.getElem?_of_mem member
    rw [List.getElem?_take] at there
    split at there
    · rename_i small
      have place : i ∈ [4, 7, 10, 13, 16] ∨ i < 4 ∨ (5 ≤ i ∧ i < 7) ∨ (8 ≤ i ∧ i < 10) ∨
          (11 ≤ i ∧ i < 13) ∨ (14 ≤ i ∧ i < 16) ∨ (17 ≤ i ∧ i < 19) := by
        simp only [List.mem_cons, List.not_mem_nil, or_false]
        omega
      rcases place with isSeparator | digit | digit | digit | digit | digit | digit
      · exact separators i isSeparator c there
      · exact parsedDigit_dark isYear (Nat.zero_le i) (by omega) there
      · exact parsedDigit_dark isMonth digit.1 digit.2 there
      · exact parsedDigit_dark isDay digit.1 digit.2 there
      · exact parsedDigit_dark isHour digit.1 digit.2 there
      · exact parsedDigit_dark isMinute digit.1 digit.2 there
      · exact parsedDigit_dark isSecond digit.1 digit.2 there
    · cases there
  · cases valid

theorem dark_of_timeZone {text : Text} (valid : Reader.isTimeZone text = true) : Dark text := by
  unfold Reader.isTimeZone at valid
  split at valid
  · exact Dark.nil
  · rename_i first rest
    split at valid
    · rename_i isUtc
      obtain rfl : rest = [] := of_decide_eq_true valid
      rcases isUtc with rfl | rfl
      · exact Dark.cons (by decide) Dark.nil
      · exact Dark.cons (by decide) Dark.nil
    · split at valid
      · cases valid
      · rename_i form
        simp only [not_or, not_and, not_not] at form
        obtain ⟨sign, size, colon⟩ := form
        split at valid
        · rename_i hour minute isHour isMinute
          have signDark : isXmlWhitespace first = false := by
            by_cases plus : first = ch '+'
            · rw [plus]
              decide
            · rw [sign plus]
              decide
          apply Dark.cons signDark
          intro c member
          obtain ⟨i, there⟩ := List.getElem?_of_mem member
          have small := (List.getElem?_eq_some_iff.mp there).1
          by_cases isColon : i = 2
          · rw [isColon, colon, Option.some.injEq] at there
            rw [← there]
            decide
          · by_cases early : i < 2
            · exact parsedDigit_dark isHour (Nat.zero_le i) (by omega) there
            · exact parsedDigit_dark isMinute (by omega) (by omega) there
        · cases valid

theorem timePoint_tight : Tight Reader.isValidTimePointValue where
  trimmed same := by simp only [Reader.isValidTimePointValue, same]
  dark {text} accepted := by
    unfold Reader.isValidTimePointValue at accepted
    dsimp only at accepted
    generalize trimXmlWhitespace text = trimmed at accepted ⊢
    split at accepted
    · cases accepted
    · rename_i form
      simp only [Bool.or_eq_true, Bool.and_eq_true, decide_eq_true_eq, not_or, not_and, not_not,
        ne_eq] at form
      obtain ⟨⟨⟨⟨⟨-, dash⟩, dash'⟩, separator⟩, colon⟩, colon'⟩ := form
      split at accepted
      · cases accepted
      · rename_i calendar
        have first : Dark (trimmed.take 19) := by
          apply dark_of_calendarTime (by simpa using calendar)
          intro i isSeparator c there
          simp only [List.mem_cons, List.not_mem_nil, or_false] at isSeparator
          rcases isSeparator with rfl | rfl | rfl | rfl | rfl
          · exact not_whitespace_of_eq (Option.some.inj (there.symm.trans dash)) (by decide)
          · exact not_whitespace_of_eq (Option.some.inj (there.symm.trans dash')) (by decide)
          · by_cases upper : trimmed[10]? = some (ch 'T')
            · exact not_whitespace_of_eq (Option.some.inj (there.symm.trans upper)) (by decide)
            · exact not_whitespace_of_eq (Option.some.inj (there.symm.trans (separator upper)))
                (by decide)
          · exact not_whitespace_of_eq (Option.some.inj (there.symm.trans colon)) (by decide)
          · exact not_whitespace_of_eq (Option.some.inj (there.symm.trans colon')) (by decide)
        have last : Dark (trimmed.drop 19) := by
          cases scanned : scanFraction (trimmed.drop 19) with
          | none => simp [scanned] at accepted
          | some fraction =>
              obtain ⟨digits, rest⟩ := fraction
              rw [scanned] at accepted
              exact dark_of_scanFraction scanned (dark_of_timeZone accepted)
        have whole := Dark.append first last
        rwa [List.take_append_drop] at whole

/-! ## The same verdicts -/

theorem integer_agrees (text : Text) (isSigned : Bool) (bitWidth : Nat) :
    Writer.isValidIntegerValue text isSigned bitWidth =
      Reader.isValidIntegerValue text isSigned bitWidth := by
  unfold Writer.isValidIntegerValue Reader.isValidIntegerValue
  cases trimXmlWhitespace text with
  | nil => rfl
  | cons first rest =>
      dsimp only
      generalize (if first = ch '0' then prefixBase (rest.headD 0) else 0) = base
      by_cases decimal : base = 0
      · rw [if_neg (not_not.mpr decimal), if_neg (not_not.mpr decimal)]
      · rw [if_pos decimal, if_pos decimal]
        by_cases none : rest.drop 1 = []
        · simp [none]
        · rw [if_neg none, decide_eq_true none, Bool.true_and]

/-- The reader's second look for an empty text only repeats what the literal's
grammar says. -/
theorem floatingPoint_agrees (text : Text) :
    Writer.isValidFloatingPointValue text = Reader.isValidFloatingPointValue text := by
  unfold Writer.isValidFloatingPointValue Reader.isValidFloatingPointValue
  dsimp only
  generalize trimXmlWhitespace text = trimmed
  by_cases none : dropSign trimmed = []
  · rw [none, if_pos rfl]
    rfl
  · rw [if_neg none]

theorem complex_agrees (text : Text) :
    Writer.isValidComplexValue text = Reader.isValidComplexValue text := by
  unfold Writer.isValidComplexValue Reader.isValidComplexValue
  rw [funext floatingPoint_agrees]

theorem scalar_agrees (type value : Text) :
    Writer.isValidScalarProperty type value = Reader.isValidScalarOrComplexValue type value := by
  unfold Writer.isValidScalarProperty Reader.isValidScalarOrComplexValue
    Reader.classifyPropertyValueKind
  by_cases boolean : type = lit "Boolean"
  · rw [if_pos boolean, if_pos boolean]
  rw [if_neg boolean, if_neg boolean]
  by_cases isSigned : type ∈ signedIntegerTypes
  · rw [if_pos isSigned, if_pos isSigned, integer_agrees]
  rw [if_neg isSigned, if_neg isSigned]
  by_cases isUnsigned : type ∈ unsignedIntegerTypes
  · rw [if_pos isUnsigned, if_pos isUnsigned, integer_agrees]
  rw [if_neg isUnsigned, if_neg isUnsigned]
  by_cases floating : type ∈ floatingPointTypes
  · rw [if_pos floating, if_pos floating, floatingPoint_agrees]
  rw [if_neg floating, if_neg floating]
  by_cases complex : type ∈ complexTypes
  · rw [if_pos complex, decide_eq_true complex, Bool.true_and, complex_agrees]
  · rw [if_neg complex, decide_eq_false complex, Bool.false_and]

/-- The fold over the characters, from either state. -/
theorem identifierFold_eq (value : Text) (expectStart : Bool) :
    Writer.identifierVerdict (value.foldlM Writer.identifierRound expectStart) =
      propertyIdentifierFrom expectStart value := by
  induction value generalizing expectStart with
  | nil => rfl
  | cons c rest ih =>
      have start : Writer.isIdentifierStart c = (decide (c = ch '_') || isAsciiLetter c) := by
        unfold Writer.isIdentifierStart isAsciiLetter
        rw [Bool.or_assoc]
      have continues : Writer.isIdentifierContinue c =
          (Writer.isIdentifierStart c || isAsciiDigit c) := rfl
      rw [List.foldlM_cons, propertyIdentifierFrom, Writer.identifierRound]
      by_cases colon : c = ch ':'
      · rw [if_pos colon, if_pos colon]
        cases expectStart with
        | true => rfl
        | false => exact ih true
      · rw [if_neg colon, if_neg colon]
        dsimp only
        rw [← start, ← continues]
        cases expectStart with
        | true =>
            simp only [if_true]
            cases Writer.isIdentifierStart c with
            | true => exact ih false
            | false => rfl
        | false =>
            simp only [Bool.false_eq_true, if_false]
            cases Writer.isIdentifierContinue c with
            | true => exact ih false
            | false => rfl

theorem propertyIdentifier_agrees (value : Text) :
    Writer.isValidPropertyIdentifier value = isValidPropertyIdentifier value := by
  unfold Writer.isValidPropertyIdentifier isValidPropertyIdentifier
  rw [identifierFold_eq]

theorem imageIdentifier_agrees (value : Text) :
    Writer.isValidImageIdentifier value = isValidUniqueId value := by
  cases value with
  | nil => rfl
  | cons first rest =>
      simp only [Writer.isValidImageIdentifier, isValidUniqueId, List.head?_cons, ne_eq,
        Option.some.injEq, Option.any_some, reduceCtorEq, false_or, List.drop_succ_cons,
        List.drop_zero]

/-- A canonical time is its own trimmed form: it begins with a digit and ends
with `Z`. -/
theorem trim_of_ends {text : Text} {first last : Byte} (head : text.head? = some first)
    (tail : text.getLast? = some last) (before : isXmlWhitespace first = false)
    (after : isXmlWhitespace last = false) : trimXmlWhitespace text = text := by
  unfold trimXmlWhitespace
  have front : text.dropWhile isXmlWhitespace = text := by
    cases text with
    | nil => rfl
    | cons c rest =>
        obtain rfl : c = first := Option.some.inj head
        rw [List.dropWhile_cons_of_neg (by rw [before]; decide)]
  have back : text.reverse.dropWhile isXmlWhitespace = text.reverse := by
    rw [← List.head?_reverse] at tail
    cases reversed : text.reverse with
    | nil => rfl
    | cons c rest =>
        rw [reversed] at tail
        obtain rfl : c = last := Option.some.inj tail
        rw [List.dropWhile_cons_of_neg (by rw [after]; decide)]
  rw [front, back, List.reverse_reverse]

/-- The parts of a canonical time: the first nineteen characters, and `Z`. -/
theorem canonical_parts {text : Text} (canonical : Writer.isCanonicalUtcTime text = true) :
    Dark (text.take 19) ∧ text.drop 19 = [ch 'Z'] := by
  unfold Writer.isCanonicalUtcTime at canonical
  split at canonical
  · cases canonical
  · rename_i form
    simp only [Bool.or_eq_true, decide_eq_true_eq, not_or, not_not, ne_eq] at form
    obtain ⟨⟨⟨⟨⟨⟨length, dash⟩, dash'⟩, separator⟩, colon⟩, colon'⟩, zone⟩ := form
    constructor
    · apply dark_of_calendarTime canonical
      intro i isSeparator c there
      simp only [List.mem_cons, List.not_mem_nil, or_false] at isSeparator
      rcases isSeparator with rfl | rfl | rfl | rfl | rfl
      · exact not_whitespace_of_eq (Option.some.inj (there.symm.trans dash)) (by decide)
      · exact not_whitespace_of_eq (Option.some.inj (there.symm.trans dash')) (by decide)
      · exact not_whitespace_of_eq (Option.some.inj (there.symm.trans separator)) (by decide)
      · exact not_whitespace_of_eq (Option.some.inj (there.symm.trans colon)) (by decide)
      · exact not_whitespace_of_eq (Option.some.inj (there.symm.trans colon')) (by decide)
    · have small : 19 < text.length := by omega
      rw [List.drop_eq_getElem_cons small, List.drop_eq_nil_of_le (by omega)]
      rw [List.getElem?_eq_getElem small, Option.some.injEq] at zone
      rw [zone]

theorem dark_of_canonical {text : Text} (canonical : Writer.isCanonicalUtcTime text = true) :
    Dark text := by
  obtain ⟨first, last⟩ := canonical_parts canonical
  have zone : Dark (text.drop 19) := by
    rw [last]
    exact Dark.cons (by decide) Dark.nil
  have whole := Dark.append first zone
  rwa [List.take_append_drop] at whole

theorem canonical_normalize (text : Text) :
    Writer.isCanonicalUtcTime (normalizeValue text) = Writer.isCanonicalUtcTime text := by
  rw [Bool.eq_iff_iff]
  constructor
  · intro canonical
    have dark := dark_normalize.mp (dark_of_canonical canonical)
    rwa [dark.normalize] at canonical
  · intro canonical
    rwa [(dark_of_canonical canonical).normalize]

theorem timePoint_of_canonical {text : Text} (canonical : Writer.isCanonicalUtcTime text = true) :
    Reader.isValidTimePointValue text = true := by
  obtain ⟨-, last⟩ := canonical_parts canonical
  have dark := dark_of_canonical canonical
  unfold Writer.isCanonicalUtcTime at canonical
  split at canonical
  · cases canonical
  · rename_i form
    simp only [Bool.or_eq_true, decide_eq_true_eq, not_or, not_not, ne_eq] at form
    obtain ⟨⟨⟨⟨⟨⟨length, dash⟩, dash'⟩, separator⟩, colon⟩, colon'⟩, zone⟩ := form
    have trimmed : trimXmlWhitespace text = text := by
      obtain ⟨first, rest, rfl⟩ : ∃ first rest, text = first :: rest := by
        cases text with
        | nil => simp at length
        | cons first rest => exact ⟨first, rest, rfl⟩
      refine @trim_of_ends _ first (ch 'Z') rfl ?_ (dark first List.mem_cons_self) (by decide)
      rw [List.getLast?_eq_getElem?, length]
      exact zone
    unfold Reader.isValidTimePointValue
    simp only [trimmed, length, dash, dash', separator, colon, colon', canonical, last]
    decide

/-- The verdict on a scalar or complex value is the one on what the parser
reports. -/
theorem scalar_normalize (type value : Text) :
    Reader.isValidScalarOrComplexValue type (normalizeValue value) =
      Reader.isValidScalarOrComplexValue type value := by
  unfold Reader.isValidScalarOrComplexValue
  cases Reader.classifyPropertyValueKind type with
  | boolean => exact boolean_tight.normalize value
  | signedInteger => exact (integer_tight true _).normalize value
  | unsignedInteger => exact (integer_tight false _).normalize value
  | floatingPoint => exact floatingPoint_tight.normalize value
  | complex => exact complex_normalize floatingPoint_tight.normalize value
  | other => rfl

/-- The types whose values the writer checks are the scalar and complex ones. -/
theorem supportedType_iff (type : Text) :
    Writer.isSupportedScalarPropertyType type = true ↔
      classifyPropertyType type = .scalarOrComplex := by
  have supported : ∀ type ∈ scalarAndComplexTypes,
      Writer.isSupportedScalarPropertyType type = true := by decide
  have kinds : ∀ type, type = lit "Boolean" ∨ type ∈ signedIntegerTypes ∨
      type ∈ unsignedIntegerTypes ∨ type ∈ floatingPointTypes ∨ type ∈ complexTypes →
      type ∈ scalarAndComplexTypes := by
    intro type kind
    rcases kind with rfl | listed | listed | listed | listed
    · decide
    · exact (show ∀ type ∈ signedIntegerTypes, type ∈ scalarAndComplexTypes by decide) type listed
    · exact (show ∀ type ∈ unsignedIntegerTypes, type ∈ scalarAndComplexTypes by decide) type listed
    · exact (show ∀ type ∈ floatingPointTypes, type ∈ scalarAndComplexTypes by decide) type listed
    · exact (show ∀ type ∈ complexTypes, type ∈ scalarAndComplexTypes by decide) type listed
  have category : classifyPropertyType type = .scalarOrComplex ↔ type ∈ scalarAndComplexTypes := by
    unfold classifyPropertyType
    by_cases scalar : type ∈ scalarAndComplexTypes
    · simp [scalar]
    · rw [if_neg scalar]
      simp only [scalar, iff_false]
      split_ifs <;> simp
  rw [category]
  constructor
  · intro isSupported
    apply kinds
    by_contra other
    simp only [not_or] at other
    obtain ⟨boolean, isSigned, isUnsigned, floating, complex⟩ := other
    simp [Writer.isSupportedScalarPropertyType, Writer.isValidScalarProperty, boolean, isSigned,
      isUnsigned, floating, complex] at isSupported
  · exact supported type

end Mmxisf
