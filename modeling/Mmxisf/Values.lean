/-
# Values -- identifiers and plain-text values

Both translation units validate identifiers, integers, floating-point and
complex numbers and points in time.  The functions that `reader.cpp` and
`writer.cpp` carry word for word are here once; where the two bodies differ,
`Reader` and `Writer` each have their own below.

A `std::string_view` that a loop walks with a position is the list of the
characters still to come, so no position can leave the text.
-/
import Mmxisf.PropertyTypes

namespace Mmxisf

set_option autoImplicit false

/-! ## Characters -/

def isXmlWhitespace (c : Byte) : Bool := c = ch ' ' || c = ch '\t' || c = ch '\r' || c = ch '\n'

def isAsciiDigit (c : Byte) : Bool := ch '0' ≤ c && c ≤ ch '9'

def isUpperLetter (c : Byte) : Bool := ch 'A' ≤ c && c ≤ ch 'Z'

def isAsciiLetter (c : Byte) : Bool := isUpperLetter c || (ch 'a' ≤ c && c ≤ ch 'z')

/-- `character - '0'`. -/
def digitValue (c : Byte) : Nat := c.toNat - 48

def trimXmlWhitespace (text : Text) : Text :=
  ((text.dropWhile isXmlWhitespace).reverse.dropWhile isXmlWhitespace).reverse

/-! ## Identifiers -/

def isValidFitsKeywordName (value : Text) : Bool :=
  value ≠ [] && value.length ≤ 8 &&
    value.all fun c => isUpperLetter c || isAsciiDigit c || c = ch '_' || c = ch '-'

/-- `is_valid_property_identifier` from a character on: `expectStart` holds at
the start of the identifier and after each colon. -/
def propertyIdentifierFrom : Bool → Text → Bool
  | expectStart, [] => !expectStart
  | expectStart, c :: rest =>
      if c = ch ':' then
        if expectStart then false else propertyIdentifierFrom true rest
      else
        let isStart := c = ch '_' || isAsciiLetter c
        if expectStart then
          if isStart then propertyIdentifierFrom false rest else false
        else if isStart || isAsciiDigit c then propertyIdentifierFrom false rest
        else false

def isValidPropertyIdentifier (value : Text) : Bool :=
  if value = [] then false else propertyIdentifierFrom true value

/-- The reader's `is_valid_unique_id` and the writer's
`is_valid_image_identifier`. -/
def isValidUniqueId : Text → Bool
  | [] => false
  | first :: rest =>
      if first ≠ ch '_' ∧ isAsciiLetter first = false then false
      else rest.all fun c => c = ch '_' || isAsciiLetter c || isAsciiDigit c

/-! ## Integers -/

/-- `digits` and `maximum` are compared as strings, the shorter first. -/
def decimalMagnitudeFits (digits maximum : Text) : Bool :=
  digits.length < maximum.length || (digits.length = maximum.length && decide (digits ≤ maximum))

def maximumDecimalMagnitude (bitWidth : Nat) (isSigned isNegative : Bool) : Text :=
  if isSigned = false then
    match bitWidth with
    | 8 => lit "255"
    | 16 => lit "65535"
    | 32 => lit "4294967295"
    | 64 => lit "18446744073709551615"
    | 128 => lit "340282366920938463463374607431768211455"
    | _ => []
  else
    match bitWidth with
    | 8 => if isNegative then lit "128" else lit "127"
    | 16 => if isNegative then lit "32768" else lit "32767"
    | 32 => if isNegative then lit "2147483648" else lit "2147483647"
    | 64 => if isNegative then lit "9223372036854775808" else lit "9223372036854775807"
    | 128 =>
        if isNegative then lit "170141183460469231731687303715884105728"
        else lit "170141183460469231731687303715884105727"
    | _ => []

def prefixedIntegerFits (digits : Text) (base bitWidth : Nat) : Bool :=
  match digits.dropWhile (· = ch '0') with
  | [] => true
  | first :: rest =>
      let size := rest.length + 1
      if base = 2 then size ≤ bitWidth
      else if base = 16 then size ≤ bitWidth / 4
      else if base ≠ 8 then false
      else
        let maximumDigits := (bitWidth + 2) / 3
        if size ≠ maximumDigits then size < maximumDigits
        else
          let leadingBits := bitWidth % 3
          if leadingBits = 0 then true else digitValue first ≤ 2 ^ leadingBits - 1

/-- The base that the character after a leading `0` announces, `0` for none. -/
def prefixBase (c : Byte) : Nat :=
  if c = ch 'b' ∨ c = ch 'B' then 2
  else if c = ch 'o' ∨ c = ch 'O' then 8
  else if c = ch 'x' ∨ c = ch 'X' then 16
  else 0

def isDigitOfBase (base : Nat) (c : Byte) : Bool :=
  if isAsciiDigit c then digitValue c < base
  else base = 16 && ((ch 'a' ≤ c && c ≤ ch 'f') || (ch 'A' ≤ c && c ≤ ch 'F'))

/-- The decimal half of `is_valid_integer_value`, on trimmed nonempty text. -/
def isValidDecimalInteger (text : Text) (isSigned : Bool) (bitWidth : Nat) : Bool :=
  let signed := text.head? = some (ch '+') || text.head? = some (ch '-')
  let isNegative := text.head? = some (ch '-')
  if signed && !isSigned && isNegative then false
  else
    let digits := if signed then text.drop 1 else text
    if digits = [] || (digits.length > 1 && digits.head? = some (ch '0')) then false
    else if digits.all isAsciiDigit = false then false
    else
      let maximum := maximumDecimalMagnitude bitWidth isSigned isNegative
      maximum ≠ [] && decimalMagnitudeFits digits maximum

def integerBitWidth (type : Text) : Nat :=
  if type ∈ ["Int8", "UInt8", "Byte"].map lit then 8
  else if type ∈ ["Int16", "Short", "UInt16", "UShort"].map lit then 16
  else if type ∈ ["Int32", "Int", "UInt32", "UInt"].map lit then 32
  else if type ∈ ["Int64", "UInt64"].map lit then 64
  else if type ∈ ["Int128", "UInt128"].map lit then 128
  else 0

def signedIntegerTypes : List Text :=
  ["Int8", "Int16", "Short", "Int32", "Int", "Int64", "Int128"].map lit

def unsignedIntegerTypes : List Text :=
  ["UInt8", "Byte", "UInt16", "UShort", "UInt32", "UInt", "UInt64", "UInt128"].map lit

def floatingPointTypes : List Text :=
  ["Float32", "Float", "Float64", "Double", "Float128", "Quad"].map lit

def complexTypes : List Text := ["Complex32", "Complex64", "Complex", "Complex128"].map lit

/-- The Boolean values, on trimmed text. -/
def isBooleanValue (trimmed : Text) : Bool :=
  trimmed = lit "true" || trimmed = lit "false" || trimmed = lit "0" || trimmed = lit "1"

/-! ## Floating point -/

def isNonFiniteName (text : Text) : Bool :=
  text ∈ ["NaN", "+Inf", "-Inf", "nan", "-nan", "inf", "-inf"].map lit

def dropSign (text : Text) : Text :=
  if text.head? = some (ch '+') ∨ text.head? = some (ch '-') then text.drop 1 else text

/-- The fraction, if a point is next: whether there was one, and what follows.
`none` is a point without a digit. -/
def scanFraction (text : Text) : Option (Bool × Text) :=
  if text.head? = some (ch '.') then
    let tail := text.drop 1
    if tail.takeWhile isAsciiDigit = [] then none else some (true, tail.dropWhile isAsciiDigit)
  else some (false, text)

/-- The exponent, if one is next, and what follows; `none` is an exponent
without a digit. -/
def scanExponent (text : Text) : Option Text :=
  if text.head? = some (ch 'e') ∨ text.head? = some (ch 'E') then
    let tail := dropSign (text.drop 1)
    if tail.takeWhile isAsciiDigit = [] then none else some (tail.dropWhile isAsciiDigit)
  else some text

/-- The loop of `is_valid_floating_point_value`, after the sign. -/
def isUnsignedDecimalLiteral (text : Text) : Bool :=
  let integerDigits := text.takeWhile isAsciiDigit
  match scanFraction (text.dropWhile isAsciiDigit) with
  | none => false
  | some (fractionDigits, rest) =>
      if integerDigits = [] ∧ fractionDigits = false then false
      else
        match scanExponent rest with
        | none => false
        | some rest => rest = []

/-- `is_valid_complex_value` over either floating-point grammar. -/
def isComplexOf (isFloatingPoint : Text → Bool) (text : Text) : Bool :=
  let text := trimXmlWhitespace text
  if text.length < 5 || text.head? ≠ some (ch '(') || text.getLast? ≠ some (ch ')') then false
  else
    let inner := (text.drop 1).dropLast
    let real := inner.takeWhile (· ≠ ch ',')
    match inner.dropWhile (· ≠ ch ',') with
    | [] => false
    | _ :: imaginary =>
        !imaginary.contains (ch ',') && isFloatingPoint real && isFloatingPoint imaginary

/-! ## Points in time -/

def isLeapYear (year : Nat) : Bool := year % 4 = 0 && (year % 100 ≠ 0 || year % 400 = 0)

/-- The reader's `parse_fixed_digits` and the writer's `parse_digits`. -/
def parseFixedDigits (text : Text) (position count : Nat) : Option Nat :=
  if position > text.length ∨ count > text.length - position then none
  else
    let digits := (text.drop position).take count
    if digits.all isAsciiDigit then
      some (digits.foldl (fun value c => value * 10 + digitValue c) 0)
    else none

def monthLengths : List Nat := [31, 28, 31, 30, 31, 30, 31, 31, 30, 31, 30, 31]

def maximumDay (year month : Nat) : Nat :=
  if month = 2 ∧ isLeapYear year = true then 29 else monthLengths.getD (month - 1) 0

/-- The calendar checks on the first nineteen characters, `YYYY-MM-DDThh:mm:ss`. -/
def isCalendarTime (text : Text) : Bool :=
  match parseFixedDigits text 0 4, parseFixedDigits text 5 2, parseFixedDigits text 8 2,
    parseFixedDigits text 11 2, parseFixedDigits text 14 2, parseFixedDigits text 17 2 with
  | some year, some month, some day, some hour, some minute, some second =>
      if month = 0 ∨ month > monthLengths.length then false
      else
        day ≠ 0 && day ≤ maximumDay year month && hour ≤ 23 && minute ≤ 59 && second ≤ 60
  | _, _, _, _, _, _ => false

/-! ## The reader's own bodies -/

namespace Reader

def isValidIntegerValue (text : Text) (isSigned : Bool) (bitWidth : Nat) : Bool :=
  match trimXmlWhitespace text with
  | [] => false
  | first :: rest =>
      let base := if first = ch '0' then prefixBase (rest.headD 0) else 0
      if base ≠ 0 then
        let digits := rest.drop 1
        if digits = [] then false
        else digits.all (isDigitOfBase base) && prefixedIntegerFits digits base bitWidth
      else isValidDecimalInteger (first :: rest) isSigned bitWidth

def isValidFloatingPointValue (text : Text) : Bool :=
  let text := trimXmlWhitespace text
  if isNonFiniteName text then true
  else if text = [] then false
  else
    let unsigned := dropSign text
    if unsigned = [] then false else isUnsignedDecimalLiteral unsigned

def isValidComplexValue (text : Text) : Bool := isComplexOf isValidFloatingPointValue text

/-- The offset after the seconds and the fraction of a time point. -/
def isTimeZone : Text → Bool
  | [] => true
  | first :: rest =>
      if first = ch 'Z' ∨ first = ch 'z' then rest = []
      else if (first ≠ ch '+' ∧ first ≠ ch '-') ∨ rest.length ≠ 5 ∨ rest[2]? ≠ some (ch ':') then
        false
      else
        match parseFixedDigits rest 0 2, parseFixedDigits rest 3 2 with
        | some hour, some minute => hour ≤ 23 && minute ≤ 59
        | _, _ => false

def isValidTimePointValue (text : Text) : Bool :=
  let text := trimXmlWhitespace text
  if text.length < 19 || text[4]? ≠ some (ch '-') || text[7]? ≠ some (ch '-') ||
      (text[10]? ≠ some (ch 'T') && text[10]? ≠ some (ch 't')) ||
      text[13]? ≠ some (ch ':') || text[16]? ≠ some (ch ':') then false
  else if isCalendarTime text = false then false
  else
    match scanFraction (text.drop 19) with
    | none => false
    | some (_, rest) => isTimeZone rest

inductive PropertyValueKind
  | boolean
  | signedInteger
  | unsignedInteger
  | floatingPoint
  | complex
  | other
  deriving DecidableEq, Repr

def classifyPropertyValueKind (type : Text) : PropertyValueKind :=
  if type = lit "Boolean" then .boolean
  else if type ∈ signedIntegerTypes then .signedInteger
  else if type ∈ unsignedIntegerTypes then .unsignedInteger
  else if type ∈ floatingPointTypes then .floatingPoint
  else if type ∈ complexTypes then .complex
  else .other

def isValidScalarOrComplexValue (type value : Text) : Bool :=
  match classifyPropertyValueKind type with
  | .boolean => isBooleanValue (trimXmlWhitespace value)
  | .signedInteger => isValidIntegerValue value true (integerBitWidth type)
  | .unsignedInteger => isValidIntegerValue value false (integerBitWidth type)
  | .floatingPoint => isValidFloatingPointValue value
  | .complex => isValidComplexValue value
  | .other => false

end Reader

/-! ## The writer's own bodies -/

namespace Writer

def isValidIntegerValue (text : Text) (isSigned : Bool) (bitWidth : Nat) : Bool :=
  match trimXmlWhitespace text with
  | [] => false
  | first :: rest =>
      let base := if first = ch '0' then prefixBase (rest.headD 0) else 0
      if base ≠ 0 then
        let digits := rest.drop 1
        (digits ≠ [] && digits.all (isDigitOfBase base)) && prefixedIntegerFits digits base bitWidth
      else isValidDecimalInteger (first :: rest) isSigned bitWidth

/-- No check between the sign and the digits: an empty rest has no digits. -/
def isValidFloatingPointValue (text : Text) : Bool :=
  let text := trimXmlWhitespace text
  if isNonFiniteName text then true
  else if text = [] then false
  else isUnsignedDecimalLiteral (dropSign text)

def isValidComplexValue (text : Text) : Bool := isComplexOf isValidFloatingPointValue text

def isCanonicalUtcTime (text : Text) : Bool :=
  if text.length ≠ 20 || text[4]? ≠ some (ch '-') || text[7]? ≠ some (ch '-') ||
      text[10]? ≠ some (ch 'T') || text[13]? ≠ some (ch ':') || text[16]? ≠ some (ch ':') ||
      text[19]? ≠ some (ch 'Z') then false
  else isCalendarTime text

def isValidScalarProperty (type value : Text) : Bool :=
  if type = lit "Boolean" then isBooleanValue (trimXmlWhitespace value)
  else if type ∈ signedIntegerTypes then isValidIntegerValue value true (integerBitWidth type)
  else if type ∈ unsignedIntegerTypes then isValidIntegerValue value false (integerBitWidth type)
  else if type ∈ floatingPointTypes then isValidFloatingPointValue value
  else type ∈ complexTypes && isValidComplexValue value

def isSupportedScalarPropertyType (type : Text) : Bool :=
  isValidScalarProperty type (lit "0") || isValidScalarProperty type (lit "(0,0)")

end Writer

end Mmxisf
