/-
# IntegerSyntax -- which texts are integers

`is_valid_integer_value` never computes a number: it compares digit strings by
their length and then as strings, and a prefixed pattern by the number of its
significant digits and its leading octal digit.  Here the grammar and the range
are said of numbers, and the two agree on every text (`integerSyntax`).
-/
import Mmxisf.Library.Positional
import Mmxisf.Trimming

namespace Mmxisf

set_option autoImplicit false

open Library (positional)

/-! ## The grammar -/

/-- The digit that a character is, up to sixteen. -/
def digitNumber (c : Byte) : Nat :=
  if isAsciiDigit c then c.toNat - 48 else if ch 'a' ≤ c then c.toNat - 87 else c.toNat - 55

/-- The characters that are digits of a base up to sixteen. -/
def IsDigit (base : Nat) (c : Byte) : Prop :=
  (isAsciiDigit c = true ∨ (ch 'a' ≤ c ∧ c ≤ ch 'f') ∨ (ch 'A' ≤ c ∧ c ≤ ch 'F')) ∧
    digitNumber c < base

/-- The number that digits of a base denote. -/
def numberOf (base : Nat) (digits : Text) : Nat := positional base (digits.map digitNumber)

/-- A decimal numeral without leading zeros. -/
structure IsNumeral (digits : Text) : Prop where
  nonempty : digits ≠ []
  decimal : ∀ c ∈ digits, IsDigit 10 c
  canonical : digits.head? = some (ch '0') → digits.length = 1

/-- The numbers of an integer type. -/
def InRange (isSigned : Bool) (width : Nat) (value : Int) : Prop :=
  if isSigned = true then -2 ^ (width - 1) ≤ value ∧ value ≤ 2 ^ (width - 1) - 1
  else 0 ≤ value ∧ value ≤ 2 ^ width - 1

/-- The character after the `0` of a prefix, and the base that it announces. -/
def prefixes : List (Byte × Nat) :=
  [(ch 'b', 2), (ch 'B', 2), (ch 'o', 8), (ch 'O', 8), (ch 'x', 16), (ch 'X', 16)]

/-- A decimal numeral with an optional sign, in the range of the type. -/
inductive IsDecimalInteger (isSigned : Bool) (width : Nat) : Text → Prop
  | plain {digits : Text} (numeral : IsNumeral digits)
      (inRange : InRange isSigned width (numberOf 10 digits)) :
      IsDecimalInteger isSigned width digits
  | plus {digits : Text} (numeral : IsNumeral digits)
      (inRange : InRange isSigned width (numberOf 10 digits)) :
      IsDecimalInteger isSigned width (ch '+' :: digits)
  | minus {digits : Text} (signed : isSigned = true) (numeral : IsNumeral digits)
      (inRange : InRange isSigned width (-(numberOf 10 digits : Int))) :
      IsDecimalInteger isSigned width (ch '-' :: digits)

/-- A prefix and digits of its base: a pattern of as many bits as the type has. -/
inductive IsBitPattern (width : Nat) : Text → Prop
  | digits {marker : Byte} {base : Nat} {digits : Text} (announced : (marker, base) ∈ prefixes)
      (nonempty : digits ≠ []) (ofBase : ∀ c ∈ digits, IsDigit base c)
      (fits : numberOf base digits < 2 ^ width) : IsBitPattern width (ch '0' :: marker :: digits)

/-- The texts of the values of an integer type. -/
def IsInteger (isSigned : Bool) (width : Nat) (text : Text) : Prop :=
  IsDecimalInteger isSigned width text ∨ IsBitPattern width text

/-- A width that the standard has integers of. -/
structure IntegerWidth where
  bits : Nat
  standard : bits ∈ [8, 16, 32, 64, 128]

/-! ## Digits -/

section

variable {c : Byte} {digits maximum : Text} {base width : Nat}

theorem isAsciiDigit_iff : isAsciiDigit c = true ↔ 48 ≤ c.toNat ∧ c.toNat ≤ 57 := by
  simp only [isAsciiDigit, Bool.and_eq_true, decide_eq_true_eq, UInt8.le_iff_toNat_le]
  exact Iff.rfl

theorem lower_iff : (ch 'a' ≤ c ↔ 97 ≤ c.toNat) ∧ (c ≤ ch 'f' ↔ c.toNat ≤ 102) :=
  ⟨UInt8.le_iff_toNat_le, UInt8.le_iff_toNat_le⟩

theorem upper_iff : (ch 'A' ≤ c ↔ 65 ≤ c.toNat) ∧ (c ≤ ch 'F' ↔ c.toNat ≤ 70) :=
  ⟨UInt8.le_iff_toNat_le, UInt8.le_iff_toNat_le⟩

/-- The three ranges of digit characters, and their values. -/
theorem isDigit_iff : IsDigit base c ↔
    (48 ≤ c.toNat ∧ c.toNat ≤ 57 ∧ digitNumber c = c.toNat - 48 ∧ c.toNat - 48 < base) ∨
    (97 ≤ c.toNat ∧ c.toNat ≤ 102 ∧ digitNumber c = c.toNat - 87 ∧ c.toNat - 87 < base) ∨
    (65 ≤ c.toNat ∧ c.toNat ≤ 70 ∧ digitNumber c = c.toNat - 55 ∧ c.toNat - 55 < base) := by
  unfold IsDigit digitNumber
  simp only [lower_iff, upper_iff, isAsciiDigit_iff]
  split
  · omega
  · split <;> omega

theorem isDigit_ten : IsDigit 10 c ↔ isAsciiDigit c = true := by
  rw [isAsciiDigit_iff]
  constructor
  · intro digit
    have cases' := isDigit_iff.mp digit
    omega
  · intro bounds
    have value : digitNumber c = c.toNat - 48 := if_pos (isAsciiDigit_iff.mpr bounds)
    exact isDigit_iff.mpr (.inl ⟨bounds.1, bounds.2, value, by omega⟩)

/-- Only the character `0` is the digit zero. -/
theorem digitNumber_eq_zero (digit : IsDigit base c) : digitNumber c = 0 ↔ c = ch '0' := by
  constructor
  · intro zero
    have cases' := isDigit_iff.mp digit
    apply UInt8.toNat_inj.mp
    show c.toNat = 48
    omega
  · rintro rfl
    rfl

/-- The checker's digits of a base are those of the grammar. -/
theorem isDigitOfBase_iff (announced : base = 2 ∨ base = 8 ∨ base = 16) :
    isDigitOfBase base c = true ↔ IsDigit base c := by
  unfold isDigitOfBase IsDigit digitNumber digitValue
  simp only [lower_iff, upper_iff, isAsciiDigit_iff]
  split
  · simp only [decide_eq_true_eq]
    omega
  · simp only [Bool.and_eq_true, Bool.or_eq_true, decide_eq_true_eq]
    split <;> omega

theorem values_small (ofBase : ∀ c ∈ digits, IsDigit base c) :
    ∀ d ∈ digits.map digitNumber, d < base := by
  simp only [List.forall_mem_map]
  exact fun c member => (ofBase c member).2

/-- The significant digits of a text are those of its values. -/
theorem dropWhile_values (ofBase : ∀ c ∈ digits, IsDigit base c) :
    (digits.map digitNumber).dropWhile (· = 0) =
      (digits.dropWhile (· = ch '0')).map digitNumber := by
  induction digits with
  | nil => rfl
  | cons c rest ih =>
      rw [List.forall_mem_cons] at ofBase
      have zero := digitNumber_eq_zero ofBase.1
      by_cases isZero : c = ch '0'
      · rw [List.map_cons, List.dropWhile_cons_of_pos (by simpa using zero.mpr isZero),
          List.dropWhile_cons_of_pos (by simpa using isZero), ih ofBase.2]
      · rw [List.map_cons, List.dropWhile_cons_of_neg (by simpa using mt zero.mp isZero),
          List.dropWhile_cons_of_neg (by simpa using isZero), List.map_cons]

/-! ## Decimal numbers -/

/-- Decimal digits are ordered as their values. -/
theorem digit_order {d : Byte} (left : IsDigit 10 c) (right : IsDigit 10 d) :
    (c < d ↔ digitNumber c < digitNumber d) ∧ (c = d ↔ digitNumber c = digitNumber d) := by
  have leftCases := isDigit_iff.mp left
  have rightCases := isDigit_iff.mp right
  rw [UInt8.lt_iff_toNat_lt, ← UInt8.toNat_inj]
  omega

theorem IsNumeral.first (numeral : IsNumeral digits) (long : 1 < digits.length) :
    ∃ d rest, digits.map digitNumber = d :: rest ∧ d ≠ 0 := by
  cases digits with
  | nil => exact absurd rfl numeral.nonempty
  | cons c rest =>
      refine ⟨digitNumber c, rest.map digitNumber, rfl, fun zero => ?_⟩
      have isZero := (digitNumber_eq_zero (numeral.decimal c List.mem_cons_self)).mp zero
      have single := numeral.canonical (congrArg some isZero)
      omega

/-- A numeral with fewer digits is a smaller number. -/
theorem IsNumeral.lt_of_length (numeral : IsNumeral digits) (larger : IsNumeral maximum)
    (fewer : digits.length < maximum.length) : numberOf 10 digits < numberOf 10 maximum := by
  have nonempty := List.length_pos_iff.mpr numeral.nonempty
  obtain ⟨d, rest, same, significant⟩ := larger.first (by omega)
  unfold numberOf
  rw [same]
  apply Library.positional_lt_of_length (by decide) (values_small numeral.decimal) significant
  rwa [← same, List.length_map, List.length_map]

/-- Strings of digits are compared as their numbers are. -/
theorem decimalMagnitudeFits_iff (numeral : IsNumeral digits) (limit : IsNumeral maximum) :
    decimalMagnitudeFits digits maximum = true ↔ numberOf 10 digits ≤ numberOf 10 maximum := by
  simp only [decimalMagnitudeFits, Bool.or_eq_true, Bool.and_eq_true, decide_eq_true_eq]
  rcases lt_trichotomy digits.length maximum.length with fewer | same | more
  · simp only [fewer, true_or, true_iff]
    exact (numeral.lt_of_length limit fewer).le
  · have compared : digits ≤ maximum ↔ numberOf 10 digits ≤ numberOf 10 maximum :=
      Library.positional_le_iff same
        (fun c member => (numeral.decimal c member).2) (fun c member => (limit.decimal c member).2)
        fun c member d member' => digit_order (numeral.decimal c member) (limit.decimal d member')
    simp only [same, lt_irrefl, false_or, true_and, compared]
  · have less := limit.lt_of_length numeral more
    constructor
    · rintro (fewer | ⟨same, _⟩) <;> omega
    · intro below
      omega

theorem isNumeral_iff : IsNumeral digits ↔
    digits ≠ [] ∧ digits.all isAsciiDigit = true ∧
      ¬ (digits.length > 1 ∧ digits.head? = some (ch '0')) := by
  constructor
  · intro numeral
    refine ⟨numeral.nonempty, ?_, fun ⟨long, zero⟩ => ?_⟩
    · exact List.all_eq_true.mpr fun c member => isDigit_ten.mp (numeral.decimal c member)
    · have single := numeral.canonical zero
      omega
  · rintro ⟨nonempty, decimal, canonical⟩
    refine ⟨nonempty, fun c member => ?_, fun zero => ?_⟩
    · exact isDigit_ten.mpr (List.all_eq_true.mp decimal c member)
    · have some := List.length_pos_iff.mpr nonempty
      have short : ¬ digits.length > 1 := fun long => canonical ⟨long, zero⟩
      omega

instance instDecidableIsNumeral (digits : Text) : Decidable (IsNumeral digits) :=
  decidable_of_iff _ isNumeral_iff.symm

/-- The largest magnitude of a type, among its negative numbers or the others. -/
def largestMagnitude (isSigned isNegative : Bool) (width : Nat) : Nat :=
  if isSigned = true then (if isNegative = true then 2 ^ (width - 1) else 2 ^ (width - 1) - 1)
  else 2 ^ width - 1

/-- The literal maxima are the numerals of the largest magnitudes. -/
theorem maximum_eq (width : IntegerWidth) (isSigned isNegative : Bool) :
    IsNumeral (maximumDecimalMagnitude width.bits isSigned isNegative) ∧
      numberOf 10 (maximumDecimalMagnitude width.bits isSigned isNegative) =
        largestMagnitude isSigned isNegative width.bits := by
  have all : ∀ bits ∈ [8, 16, 32, 64, 128], ∀ isSigned isNegative,
      IsNumeral (maximumDecimalMagnitude bits isSigned isNegative) ∧
        numberOf 10 (maximumDecimalMagnitude bits isSigned isNegative) =
          largestMagnitude isSigned isNegative bits := by
    decide +kernel
  exact all width.bits width.standard isSigned isNegative

theorem inRange_iff {isSigned isNegative : Bool} (allowed : isNegative = true → isSigned = true)
    (value : Nat) :
    InRange isSigned width (if isNegative = true then -(value : Int) else value) ↔
      value ≤ largestMagnitude isSigned isNegative width := by
  have half : (1 : Int) ≤ 2 ^ (width - 1) := by exact_mod_cast Nat.one_le_two_pow
  have whole : (1 : Int) ≤ 2 ^ width := by exact_mod_cast Nat.one_le_two_pow
  have castHalf : ((2 ^ (width - 1) : Nat) : Int) = 2 ^ (width - 1) := by norm_cast
  have castWhole : ((2 ^ width : Nat) : Int) = 2 ^ width := by norm_cast
  unfold InRange largestMagnitude
  cases isSigned with
  | false =>
      have positive : isNegative = false := by
        cases isNegative with
        | false => rfl
        | true => cases allowed rfl
      simp only [positive, Bool.false_eq_true, if_false]
      omega
  | true =>
      cases isNegative with
      | false =>
          simp only [Bool.false_eq_true, if_false, if_true]
          omega
      | true =>
          simp only [if_true]
          omega

/-- What the checker asks of the digits after the sign. -/
theorem decimal_iff (width : IntegerWidth) {isSigned isNegative : Bool}
    (allowed : isNegative = true → isSigned = true) :
    (digits ≠ [] ∧ digits.all isAsciiDigit = true ∧
        ¬ (digits.length > 1 ∧ digits.head? = some (ch '0'))) ∧
      decimalMagnitudeFits digits (maximumDecimalMagnitude width.bits isSigned isNegative) = true ↔
    IsNumeral digits ∧ InRange isSigned width.bits
      (if isNegative = true then -(numberOf 10 digits : Int) else numberOf 10 digits) := by
  obtain ⟨limit, value⟩ := maximum_eq width isSigned isNegative
  rw [← isNumeral_iff, inRange_iff allowed, ← value]
  exact and_congr_right fun numeral => decimalMagnitudeFits_iff numeral limit

/-! ## Patterns -/

/-- The significant digits of a pattern. -/
theorem significant_values (ofBase : ∀ c ∈ digits, IsDigit base c) {first : Byte} {rest : Text}
    (significant : digits.dropWhile (· = ch '0') = first :: rest) :
    numberOf base digits = positional base (digitNumber first :: rest.map digitNumber) ∧
      IsDigit base first ∧ (∀ d ∈ rest.map digitNumber, d < base) ∧ digitNumber first ≠ 0 := by
  have kept : ∀ c ∈ first :: rest, IsDigit base c := fun c member =>
    ofBase c ((List.dropWhile_sublist _).subset (significant ▸ member))
  rw [List.forall_mem_cons] at kept
  refine ⟨?_, kept.1, values_small kept.2, fun zero => ?_⟩
  · unfold numberOf
    rw [← Library.positional_dropZeros, dropWhile_values ofBase, significant, List.map_cons]
  · have nonzero := List.head?_dropWhile_not (· = ch '0') digits
    rw [significant] at nonzero
    have isZero := (digitNumber_eq_zero kept.1).mp zero
    simp [isZero] at nonzero

/-- The leading digit of an octal pattern with as many digits as the width needs
has only the bits that are left. -/
theorem octal_lt_iff {d : Nat} {rest : List Nat} (small : ∀ d ∈ rest, d < 8) (octal : d < 8)
    (nonzero : d ≠ 0) :
    positional 8 (d :: rest) < 2 ^ width ↔
      rest.length + 1 < (width + 2) / 3 ∨
        (rest.length + 1 = (width + 2) / 3 ∧ (width % 3 = 0 ∨ d < 2 ^ (width % 3))) := by
  have power (count : Nat) : 8 ^ count = 2 ^ (3 * count) := by
    rw [pow_mul]
    rfl
  have low : 8 ^ rest.length ≤ positional 8 (d :: rest) := Library.pow_le_positional nonzero
  have high : positional 8 (d :: rest) < 8 ^ (rest.length + 1) := by
    apply Library.positional_lt
    rw [List.forall_mem_cons]
    exact ⟨octal, small⟩
  rw [power] at low high
  rcases lt_trichotomy (rest.length + 1) ((width + 2) / 3) with fewer | same | more
  · have room : 2 ^ (3 * (rest.length + 1)) ≤ 2 ^ width :=
      Nat.pow_le_pow_right (by decide) (by omega)
    simp only [fewer, true_or, iff_true]
    omega
  · simp only [same, lt_irrefl, false_or, true_and]
    by_cases whole : width % 3 = 0
    · have exactly : 3 * (rest.length + 1) = width := by omega
      rw [exactly] at high
      simp only [whole, true_or, iff_true]
      exact high
    · have exactly : 2 ^ width = 2 ^ (width % 3) * 8 ^ rest.length := by
        rw [power, ← pow_add]
        congr 1
        omega
      simp only [whole, false_or]
      rw [exactly, Library.positional_lt_mul_pow_iff small]
  · have beyond : 2 ^ width ≤ 2 ^ (3 * rest.length) := Nat.pow_le_pow_right (by decide) (by omega)
    constructor
    · intro less
      omega
    · rintro (fewer | ⟨same, _⟩) <;> omega

/-- Significant binary, octal or hexadecimal digits are counted, and the leading
octal one is compared. -/
theorem prefixedIntegerFits_iff (announced : base = 2 ∨ base = 8 ∨ base = 16)
    (whole : 4 ∣ width) (ofBase : ∀ c ∈ digits, IsDigit base c) :
    prefixedIntegerFits digits base width = true ↔ numberOf base digits < 2 ^ width := by
  have counted (count : Nat) (positive : 1 < base) :
      numberOf base digits < base ^ count ↔ (digits.dropWhile (· = ch '0')).length ≤ count := by
    unfold numberOf
    rw [Library.positional_lt_pow_iff positive (values_small ofBase), dropWhile_values ofBase,
      List.length_map]
  unfold prefixedIntegerFits
  cases significant : digits.dropWhile (· = ch '0') with
  | nil =>
      have zero := (counted 0 (by omega)).mpr (by rw [significant]; exact le_rfl)
      rw [pow_zero] at zero
      have positive : 0 < 2 ^ width := Nat.two_pow_pos width
      simp only [true_iff]
      omega
  | cons first rest =>
      rw [significant, List.length_cons] at counted
      rcases announced with rfl | rfl | rfl
      · simp only [if_true, decide_eq_true_eq]
        rw [counted width (by decide)]
      · obtain ⟨same, octal, small, nonzero⟩ := significant_values ofBase significant
        have digit : digitValue first = digitNumber first := by
          have cases' := isDigit_iff.mp octal
          unfold digitValue
          omega
        rw [same, octal_lt_iff small octal.2 nonzero, List.length_map]
        simp only [show ¬ (8 = 2) by decide, show ¬ (8 = 16) by decide, if_false, ne_eq,
          not_true_eq_false, digit]
        by_cases length : rest.length + 1 = (width + 2) / 3
        · simp only [length, not_true_eq_false, if_false, lt_irrefl, false_or, true_and]
          by_cases none : width % 3 = 0
          · simp only [none, if_true, true_or]
          · have positive : 0 < 2 ^ (width % 3) := Nat.two_pow_pos _
            simp only [none, if_false, false_or, decide_eq_true_eq]
            omega
        · simp only [length, not_false_eq_true, if_true, decide_eq_true_eq, false_and, or_false]
      · have hexadecimal : (2 : Nat) ^ width = 16 ^ (width / 4) := by
          rw [show (16 : Nat) = 2 ^ 4 by rfl, ← pow_mul, Nat.mul_div_cancel' whole]
        simp only [show ¬ (16 = 2) by decide, if_false, if_true, decide_eq_true_eq]
        rw [hexadecimal, counted (width / 4) (by decide)]

theorem prefixes_iff {marker : Byte} :
    (marker, base) ∈ prefixes ↔ prefixBase marker = base ∧ base ≠ 0 := by
  have table : ∀ entry ∈ prefixes, prefixBase entry.1 = entry.2 ∧ entry.2 ≠ 0 := by decide
  constructor
  · exact table (marker, base)
  · rintro ⟨rfl, announced⟩
    unfold prefixBase at announced ⊢
    split
    · rename_i binary
      rcases binary with rfl | rfl <;> decide
    · split
      · rename_i octal
        rcases octal with rfl | rfl <;> decide
      · split
        · rename_i hexadecimal
          rcases hexadecimal with rfl | rfl <;> decide
        · simp_all

theorem announced_base {marker : Byte} (announced : (marker, base) ∈ prefixes) :
    base = 2 ∨ base = 8 ∨ base = 16 := by
  have table : ∀ entry ∈ prefixes, entry.2 = 2 ∨ entry.2 = 8 ∨ entry.2 = 16 := by decide
  exact table (marker, base) announced

/-! ## The two halves -/

/-- The characters of a numeral are digits, so the first is no sign. -/
theorem IsNumeral.head {c : Byte} (numeral : IsNumeral (c :: digits)) :
    c ≠ ch '+' ∧ c ≠ ch '-' := by
  have decimal := isDigit_ten.mp (numeral.decimal c List.mem_cons_self)
  constructor <;> rintro rfl <;> exact absurd decimal (by decide)

/-- The checks of the digits, after the sign. -/
theorem magnitude_iff (width : IntegerWidth) {isSigned isNegative : Bool}
    (allowed : isNegative = true → isSigned = true) :
    (if digits = [] || (digits.length > 1 && digits.head? = some (ch '0')) then false
      else if digits.all isAsciiDigit = false then false
      else
        let maximum := maximumDecimalMagnitude width.bits isSigned isNegative
        maximum ≠ [] && decimalMagnitudeFits digits maximum) = true ↔
      IsNumeral digits ∧ InRange isSigned width.bits
        (if isNegative = true then -(numberOf 10 digits : Int) else numberOf 10 digits) := by
  have limit := (maximum_eq width isSigned isNegative).1.nonempty
  rw [← decimal_iff width allowed]
  by_cases empty : digits = []
  · simp [empty]
  by_cases zeros : digits.length > 1 ∧ digits.head? = some (ch '0')
  · simp [zeros]
  have proceeds : (decide (digits = []) ||
      (decide (digits.length > 1) && decide (digits.head? = some (ch '0')))) = false := by
    simp only [empty, decide_false, Bool.false_or, Bool.and_eq_false_iff, decide_eq_false_iff_not]
    exact Classical.not_and_iff_not_or_not.mp zeros
  rw [proceeds, if_neg (by decide)]
  cases decimal : digits.all isAsciiDigit with
  | false => simp
  | true => simp [empty, zeros, limit]

theorem decimalInteger_iff (width : IntegerWidth) (isSigned : Bool) (text : Text) :
    isValidDecimalInteger text isSigned width.bits = true ↔
      IsDecimalInteger isSigned width.bits text := by
  have unsigned (digits : Text) (isNegative : Bool)
      (allowed : isNegative = true → isSigned = true) :=
    @magnitude_iff digits width isSigned isNegative allowed
  by_cases plus : text.head? = some (ch '+')
  · obtain ⟨digits, rfl⟩ : ∃ digits, text = ch '+' :: digits := by
      cases text with
      | nil => cases plus
      | cons c digits => exact ⟨digits, by rw [Option.some.inj plus]⟩
    have body : isValidDecimalInteger (ch '+' :: digits) isSigned width.bits = true ↔
        IsNumeral digits ∧ InRange isSigned width.bits (numberOf 10 digits) := by
      have checked := unsigned digits false (by simp)
      cases isSigned <;> exact checked
    rw [body]
    constructor
    · rintro ⟨numeral, inRange⟩
      exact .plus numeral inRange
    · intro integer
      cases integer with
      | plain numeral => exact absurd rfl numeral.head.1
      | plus numeral inRange => exact ⟨numeral, inRange⟩
  by_cases minus : text.head? = some (ch '-')
  · obtain ⟨digits, rfl⟩ : ∃ digits, text = ch '-' :: digits := by
      cases text with
      | nil => cases minus
      | cons c digits => exact ⟨digits, by rw [Option.some.inj minus]⟩
    cases isSigned with
    | false =>
        have refused : isValidDecimalInteger (ch '-' :: digits) false width.bits = false := rfl
        rw [refused]
        constructor
        · intro impossible
          cases impossible
        · intro integer
          cases integer with
          | plain numeral => exact absurd rfl numeral.head.2
          | minus signed => cases signed
    | true =>
        have body : isValidDecimalInteger (ch '-' :: digits) true width.bits = true ↔ _ :=
          unsigned digits true (by simp)
        rw [body]
        constructor
        · rintro ⟨numeral, inRange⟩
          exact .minus rfl numeral inRange
        · intro integer
          cases integer with
          | plain numeral => exact absurd rfl numeral.head.2
          | minus signed numeral inRange => exact ⟨numeral, inRange⟩
  · have body := unsigned text false (by simp)
    unfold isValidDecimalInteger
    simp only [plus, minus, decide_false, Bool.or_false, Bool.false_and, Bool.false_eq_true,
      if_false] at body ⊢
    rw [body]
    constructor
    · rintro ⟨numeral, inRange⟩
      exact .plain numeral inRange
    · intro integer
      cases integer with
      | plain numeral inRange => exact ⟨numeral, inRange⟩
      | plus => exact absurd rfl plus
      | minus => exact absurd rfl minus

/-- A numeral does not begin with `0`, so nothing is both a number and a pattern. -/
theorem not_decimal_of_zero {isSigned : Bool} {marker : Byte} :
    ¬ IsDecimalInteger isSigned width (ch '0' :: marker :: digits) := by
  intro integer
  cases integer with
  | plain numeral =>
      have single := numeral.canonical rfl
      rw [List.length_cons, List.length_cons] at single
      omega

end

/-! ## Every text -/

/-- The integers that a reader takes are those of the grammar and the range. -/
theorem integerSyntax (width : IntegerWidth) (isSigned : Bool) (text : Text) :
    Reader.isValidIntegerValue text isSigned width.bits = true ↔
      ∃ core, Trimmed text core ∧ IsInteger isSigned width.bits core := by
  rw [exists_trimmed_iff]
  unfold Reader.isValidIntegerValue IsInteger
  generalize trimXmlWhitespace text = core
  cases core with
  | nil =>
      simp only [Bool.false_eq_true, false_iff, not_or]
      constructor
      · intro integer
        cases integer with
        | plain numeral => exact numeral.nonempty rfl
      · intro pattern
        cases pattern
  | cons first rest =>
      have decimal := decimalInteger_iff width isSigned (first :: rest)
      dsimp only
      by_cases announced : (if first = ch '0' then prefixBase (rest.headD 0) else 0) ≠ 0
      · rw [if_pos announced]
        obtain rfl : first = ch '0' := by
          by_contra other
          exact announced (if_neg other)
        rw [if_pos rfl] at announced ⊢
        cases rest with
        | nil => exact absurd rfl announced
        | cons marker digits =>
            have marked : (marker, prefixBase marker) ∈ prefixes :=
                prefixes_iff.mpr ⟨rfl, announced⟩
            have base := announced_base marked
            rw [show ((marker :: digits).headD 0) = marker from rfl,
              show (marker :: digits).drop 1 = digits from rfl]
            have checked : digits.all (isDigitOfBase (prefixBase marker)) = true ↔
                ∀ c ∈ digits, IsDigit (prefixBase marker) c := by
              rw [List.all_eq_true]
              exact forall₂_congr fun c _ => isDigitOfBase_iff base
            have whole : 4 ∣ width.bits := by
              have table : ∀ bits ∈ [8, 16, 32, 64, 128], 4 ∣ bits := by decide
              exact table width.bits width.standard
            by_cases empty : digits = []
            · rw [if_pos empty]
              simp only [Bool.false_eq_true, false_iff, not_or]
              refine ⟨not_decimal_of_zero, fun pattern => ?_⟩
              cases pattern with
              | digits _ nonempty => exact nonempty empty
            · rw [if_neg empty, Bool.and_eq_true, checked]
              constructor
              · rintro ⟨ofBase, fits⟩
                exact .inr (.digits marked empty ofBase
                  ((prefixedIntegerFits_iff base whole ofBase).mp fits))
              · rintro (integer | pattern)
                · exact absurd integer not_decimal_of_zero
                · cases pattern with
                  | digits marked' nonempty ofBase fits =>
                      rw [(prefixes_iff.mp marked').1]
                      have base' := announced_base marked'
                      exact ⟨ofBase, (prefixedIntegerFits_iff base' whole ofBase).mpr fits⟩
      · rw [if_neg announced, decimal]
        constructor
        · exact .inl
        · rintro (integer | pattern)
          · exact integer
          · cases pattern with
            | digits marked =>
                exact absurd (prefixes_iff.mp marked) (fun both => announced (both.1 ▸ both.2))

end Mmxisf
