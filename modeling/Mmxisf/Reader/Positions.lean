/-
# Reader.Positions -- the value checks as they walk a text

`is_valid_floating_point_value`, `is_valid_complex_value`, `parse_fixed_digits`
and `is_valid_time_point_value` of `reader.cpp` read characters by position.
`Mmxisf.Values` has the same checks over what is left of the text, where no
position can be wrong.  Here the positions are kept: a result is `none` as soon
as a character outside the text is read, and the theorems `..At_eq` say that none
ever is, and that the verdict is the one of `Values`.
-/
import Mmxisf.Values

namespace Mmxisf.Reader

set_option autoImplicit false

/-! ## Reading by position -/

/-- `text[position]`. -/
def characterAt (text : Text) (position : Nat) : Option Byte := text[position]?

/-- `position < text.size() && test(text[position])`. -/
def nextIs (test : Byte → Bool) (text : Text) (position : Nat) : Option Bool :=
  if position < text.length then (characterAt text position).map test else some false

/-- `while (position < text.size() && is_ascii_digit(text[position])) ++position`. -/
def skipDigits (text : Text) : Nat → Nat → Option Nat
  | 0, position => some position
  | fuel + 1, position => do
      let more ← nextIs isAsciiDigit text position
      if more then skipDigits text fuel (position + 1) else some position

/-- `text.remove_prefix(1)`, where the text has a character. -/
def removeFirst : Text → Option Text
  | [] => none
  | _ :: rest => some rest

/-! ## Floating point -/

/-- The fraction from a position on: whether it has digits, and where it ends;
`none` inside is the return of the function. -/
def fractionAt (text : Text) (position : Nat) : Option (Option (Bool × Nat)) := do
  let point ← nextIs (· = ch '.') text position
  if point then
    let fractionStart := position + 1
    let stop ← skipDigits text text.length fractionStart
    return if stop = fractionStart then none else some (true, stop)
  else return some (false, position)

/-- The exponent from a position on, and where it ends. -/
def exponentAt (text : Text) (position : Nat) : Option (Option Nat) := do
  let announced ← nextIs (fun c => c = ch 'e' || c = ch 'E') text position
  if announced then
    let signed ← nextIs (fun c => c = ch '+' || c = ch '-') text (position + 1)
    let exponentStart := if signed then position + 2 else position + 1
    let stop ← skipDigits text text.length exponentStart
    return if stop = exponentStart then none else some stop
  else return some position

/-- The loop of `is_valid_floating_point_value`, after the sign. -/
def unsignedLiteralAt (text : Text) : Option Bool := do
  let position ← skipDigits text text.length 0
  match ← fractionAt text position with
  | none => return false
  | some (hasFractionDigits, afterFraction) =>
      if position = 0 ∧ hasFractionDigits = false then return false
      match ← exponentAt text afterFraction with
      | none => return false
      | some stop => return stop = text.length

def isValidFloatingPointValueAt (text : Text) : Option Bool := do
  let text := trimXmlWhitespace text
  if isNonFiniteName text then return true
  if text = [] then return false
  let first ← characterAt text 0
  let unsigned ← if first = ch '+' ∨ first = ch '-' then removeFirst text else some text
  if unsigned = [] then return false
  unsignedLiteralAt unsigned

/-- `text.find(',', position)`, where the position is in the text or at its end. -/
def findComma (text : Text) (position : Nat) : Option (Option Nat) :=
  if position > text.length then none
  else some (((text.drop position).findIdx? (· = ch ',')).map (position + ·))

def isValidComplexValueAt (text : Text) : Option Bool := do
  let text := trimXmlWhitespace text
  if text.length < 5 then return false
  let first ← characterAt text 0
  if first ≠ ch '(' then return false
  let last ← characterAt text (text.length - 1)
  if last ≠ ch ')' then return false
  let inner := (text.drop 1).dropLast
  match ← findComma inner 0 with
  | none => return false
  | some separator =>
      match ← findComma inner (separator + 1) with
      | some _ => return false
      | none =>
          let real ← isValidFloatingPointValueAt (inner.take separator)
          if real = false then return false
          isValidFloatingPointValueAt (inner.drop (separator + 1))

/-! ## Points in time -/

/-- The loop of `parse_fixed_digits`; the inner `none` is its `false`. -/
def fixedDigitsFrom (text : Text) (position : Nat) : Nat → Nat → Nat → Option (Option Nat)
  | 0, _, value => some (some value)
  | count + 1, index, value => do
      let character ← characterAt text (position + index)
      if isAsciiDigit character = false then return none
      fixedDigitsFrom text position count (index + 1) (value * 10 + digitValue character)

def parseFixedDigitsAt (text : Text) (position count : Nat) : Option (Option Nat) :=
  if position > text.length ∨ count > text.length - position then some none
  else fixedDigitsFrom text position count 0 0

/-- The characters at the positions pass their tests, read one after the other
until one does not. -/
def matchesAt (text : Text) : List (Nat × (Byte → Bool)) → Option Bool
  | [] => some true
  | (position, test) :: rest => do
      let character ← characterAt text position
      if test character then matchesAt text rest else return false

/-- The separators of a point in time. -/
def timeSeparators : List (Nat × (Byte → Bool)) :=
  [(4, (· = ch '-')), (7, (· = ch '-')), (10, fun c => c = ch 'T' || c = ch 't'),
    (13, (· = ch ':')), (16, (· = ch ':'))]

/-- The fields that are there, read one after the other until one is not. -/
def fieldsAt (text : Text) : List (Nat × Nat) → Option (Option (List Nat))
  | [] => some (some [])
  | (position, count) :: rest => do
      match ← parseFixedDigitsAt text position count with
      | none => return none
      | some value =>
          match ← fieldsAt text rest with
          | none => return none
          | some values => return some (value :: values)

def timeFields : List (Nat × Nat) := [(0, 4), (5, 2), (8, 2), (11, 2), (14, 2), (17, 2)]

/-- The calendar checks on the six fields. -/
def isCalendarDate : List Nat → Bool
  | [year, month, day, hour, minute, second] =>
      if month = 0 ∨ month > monthLengths.length then false
      else day ≠ 0 && day ≤ maximumDay year month && hour ≤ 23 && minute ≤ 59 && second ≤ 60
  | _ => false

/-- The zone from a position on. -/
def timeZoneAt (text : Text) (position : Nat) : Option Bool := do
  if position = text.length then return true
  let character ← characterAt text position
  if character = ch 'Z' ∨ character = ch 'z' then return position + 1 = text.length
  if character ≠ ch '+' ∧ character ≠ ch '-' then return false
  if text.length - position ≠ 6 then return false
  let colon ← characterAt text (position + 3)
  if colon ≠ ch ':' then return false
  match ← parseFixedDigitsAt text (position + 1) 2 with
  | none => return false
  | some hour =>
      match ← parseFixedDigitsAt text (position + 4) 2 with
      | none => return false
      | some minute => return hour ≤ 23 && minute ≤ 59

def isValidTimePointValueAt (text : Text) : Option Bool := do
  let text := trimXmlWhitespace text
  if text.length < 19 then return false
  let separated ← matchesAt text timeSeparators
  if separated = false then return false
  match ← fieldsAt text timeFields with
  | none => return false
  | some fields =>
      if isCalendarDate fields = false then return false
      match ← fractionAt text 19 with
      | none => return false
      | some (_, position) => timeZoneAt text position

/-! ## No position is outside the text -/

section

variable {text : Text} {position : Nat}

theorem nextIs_eq (test : Byte → Bool) (text : Text) (position : Nat) :
    nextIs test text position = some ((text.drop position).head?.any test) := by
  unfold nextIs characterAt
  rw [List.head?_drop]
  split
  · rename_i inside
    rw [List.getElem?_eq_getElem inside]
    rfl
  · rename_i outside
    rw [List.getElem?_eq_none (Nat.le_of_not_lt outside)]
    rfl

/-- A character that is next is in the text. -/
theorem drop_cons {c : Byte} {tail : Text} (rest : text.drop position = c :: tail) :
    text.drop (position + 1) = tail ∧ position < text.length := by
  constructor
  · rw [← List.tail_drop, rest]
    rfl
  · have length := congrArg List.length rest
    rw [List.length_drop, List.length_cons] at length
    omega

/-- The loop stops after the digits that are next. -/
theorem skipDigits_eq : ∀ {fuel position : Nat}, text.length - position ≤ fuel →
    skipDigits text fuel position =
      some (position + ((text.drop position).takeWhile isAsciiDigit).length)
  | 0, position, enough => by
      rw [skipDigits, List.drop_eq_nil_of_le (by omega)]
      rfl
  | fuel + 1, position, enough => by
      rw [skipDigits, nextIs_eq]
      cases rest : text.drop position with
      | nil => rfl
      | cons c tail =>
          obtain ⟨next, inside⟩ := drop_cons rest
          by_cases digit : isAsciiDigit c = true
          · have later := @skipDigits_eq fuel (position + 1) (by omega)
            simp only [List.head?_cons, Option.any_some, digit, Option.bind_eq_bind,
              Option.bind_some, if_true, List.takeWhile_cons, List.length_cons]
            rw [later, next]
            congr 1
            omega
          · simp [digit]

/-- What is left after the digits. -/
theorem drop_skipDigits (text : Text) (position : Nat) :
    text.drop (position + ((text.drop position).takeWhile isAsciiDigit).length) =
      (text.drop position).dropWhile isAsciiDigit := by
  rw [← List.drop_drop]
  conv_lhs => rw [← List.takeWhile_append_dropWhile (p := isAsciiDigit) (l := text.drop position)]
  rw [List.drop_append_of_le_length (by simp)]
  simp

theorem skipDigits_length (text : Text) (position : Nat) :
    skipDigits text text.length position =
      some (position + ((text.drop position).takeWhile isAsciiDigit).length) :=
  skipDigits_eq (Nat.sub_le _ _)

theorem takeWhile_inside (inside : position ≤ text.length) :
    position + ((text.drop position).takeWhile isAsciiDigit).length ≤ text.length := by
  have short : ((text.drop position).takeWhile isAsciiDigit).length ≤ (text.drop position).length :=
    (List.takeWhile_sublist _).length_le
  rw [List.length_drop] at short
  omega

/-- The digits from a position on, and what follows them. -/
theorem skipped_digits (inside : position ≤ text.length) :
    ∃ stop, skipDigits text text.length position = some stop ∧ stop ≤ text.length ∧
      text.drop stop = (text.drop position).dropWhile isAsciiDigit ∧
      (stop = position ↔ (text.drop position).takeWhile isAsciiDigit = []) := by
  refine ⟨_, skipDigits_length text position, takeWhile_inside inside,
    drop_skipDigits text position, ?_⟩
  rw [← List.length_eq_zero_iff]
  omega

/-- The fraction on positions is the one on what is left. -/
theorem fractionAt_eq (inside : position ≤ text.length) :
    ∃ found, fractionAt text position = some found ∧
      found.map (fun part => (part.1, text.drop part.2)) = scanFraction (text.drop position) ∧
      ∀ part ∈ found, part.2 ≤ text.length := by
  unfold fractionAt scanFraction
  rw [nextIs_eq]
  cases rest : text.drop position with
  | nil => exact ⟨some (false, position), rfl, by simp [rest], by simpa using inside⟩
  | cons c tail =>
      obtain ⟨next, before⟩ := drop_cons rest
      by_cases point : c = ch '.'
      · obtain ⟨stop, skipped, beyond, left, empty⟩ := @skipped_digits text (position + 1)
          before
        rw [next] at left empty
        simp only [List.head?_cons, Option.any_some, point, decide_true, Option.bind_eq_bind,
          Option.bind_some, if_true, skipped, List.drop_one, List.tail_cons]
        by_cases none : stop = position + 1
        · refine ⟨Option.none, by rw [if_pos none]; rfl, ?_, by simp⟩
          rw [if_pos (empty.mp none)]
          rfl
        · refine ⟨some (true, stop), by rw [if_neg none]; rfl, ?_, by simpa using beyond⟩
          rw [if_neg (mt empty.mpr none), ← left]
          rfl
      · refine ⟨some (false, position), ?_, ?_, by simpa using inside⟩
        · simp [point]
        · simp [point, rest]

/-- The exponent on positions is the one on what is left. -/
theorem exponentAt_eq (inside : position ≤ text.length) :
    ∃ found, exponentAt text position = some found ∧
      found.map (text.drop ·) = scanExponent (text.drop position) ∧
      ∀ stop ∈ found, stop ≤ text.length := by
  unfold exponentAt scanExponent
  rw [nextIs_eq, nextIs_eq]
  cases rest : text.drop position with
  | nil => exact ⟨some position, rfl, by simp [rest], by simpa using inside⟩
  | cons c tail =>
      obtain ⟨next, before⟩ := drop_cons rest
      by_cases announced : c = ch 'e' ∨ c = ch 'E'
      · obtain ⟨start, starts, within, unsigned⟩ : ∃ start,
            start = (if ((text.drop (position + 1)).head?.any
              fun c => c = ch '+' || c = ch '-') = true then position + 2 else position + 1) ∧
            start ≤ text.length ∧ text.drop start = dropSign tail := by
          refine ⟨_, rfl, ?_⟩
          rw [next]
          unfold dropSign
          cases tail with
          | nil => exact ⟨before, next⟩
          | cons d more =>
              obtain ⟨after, inside'⟩ := drop_cons next
              by_cases signed : d = ch '+' ∨ d = ch '-'
              · simp [signed, after]
                omega
              · simp [signed, next]
                omega
        obtain ⟨stop, skipped, beyond, left, empty⟩ := @skipped_digits text _ within
        rw [unsigned] at left empty
        have isAnnounced : (decide (c = ch 'e') || decide (c = ch 'E')) = true := by
          simpa using announced
        simp only [List.head?_cons, Option.any_some, isAnnounced, Option.bind_eq_bind,
          Option.bind_some, if_true, ← starts, skipped, Option.some.injEq, announced,
          List.drop_one, List.tail_cons]
        by_cases none : stop = start
        · refine ⟨Option.none, by rw [if_pos none]; rfl, ?_, by simp⟩
          rw [if_pos (empty.mp none)]
          rfl
        · refine ⟨some stop, by rw [if_neg none]; rfl, ?_, by simpa using beyond⟩
          rw [if_neg (mt empty.mpr none), ← left]
          rfl
      · refine ⟨some position, ?_, ?_, by simpa using inside⟩
        · simp [announced]
        · simp [announced, rest]

theorem drop_eq_nil_iff' (inside : position ≤ text.length) :
    text.drop position = [] ↔ position = text.length := by
  rw [List.drop_eq_nil_iff]
  omega

theorem unsignedLiteralAt_eq (text : Text) :
    unsignedLiteralAt text = some (isUnsignedDecimalLiteral text) := by
  obtain ⟨start, skipped, inside, left, empty⟩ :=
    @skipped_digits text 0 (Nat.zero_le _)
  rw [List.drop_zero] at left empty
  obtain ⟨fraction, found, follows, within⟩ := fractionAt_eq inside
  rw [left] at follows
  unfold unsignedLiteralAt isUnsignedDecimalLiteral
  simp only [skipped, found, ← follows, Option.bind_eq_bind, Option.bind_some]
  cases fraction with
  | none => rfl
  | some part =>
      obtain ⟨hasFraction, afterFraction⟩ := part
      obtain ⟨exponent, found, follows, _⟩ := exponentAt_eq (within _ rfl)
      simp only [Option.map_some, ← follows, found, empty]
      by_cases bare : text.takeWhile isAsciiDigit = [] ∧ hasFraction = false
      · rw [if_pos bare, if_pos bare]
        rfl
      · rw [if_neg bare, if_neg bare]
        cases exponent with
        | none => rfl
        | some stop =>
            rename_i beyond
            simp only [Option.map_some, drop_eq_nil_iff' (beyond stop rfl)]
            rfl

/-- No position of the floating-point check is outside the text. -/
theorem isValidFloatingPointValueAt_eq (text : Text) :
    isValidFloatingPointValueAt text = some (isValidFloatingPointValue text) := by
  unfold isValidFloatingPointValueAt isValidFloatingPointValue
  generalize trimXmlWhitespace text = core
  by_cases name : isNonFiniteName core = true
  · simp [name]
  · cases core with
    | nil => simp [name]
    | cons c tail =>
        simp only [name, characterAt]
        by_cases signed : c = ch '+' ∨ c = ch '-'
        · simp [signed, removeFirst, dropSign, unsignedLiteralAt_eq]
          by_cases bare : tail = []
          · simp [bare]
          · simp [bare]
        · simp [signed, dropSign, unsignedLiteralAt_eq]

/-- The first comma, and what stands before and after it. -/
theorem findIdx?_comma (text : Text) :
    (text.findIdx? (· = ch ',') = none ∧ text.dropWhile (· ≠ ch ',') = []) ∨
      ∃ separator, text.findIdx? (· = ch ',') = some separator ∧ separator < text.length ∧
        text.takeWhile (· ≠ ch ',') = text.take separator ∧
        text.dropWhile (· ≠ ch ',') = ch ',' :: text.drop (separator + 1) := by
  induction text with
  | nil => exact .inl ⟨rfl, rfl⟩
  | cons c rest ih =>
      by_cases comma : c = ch ','
      · right
        exact ⟨0, by simp [List.findIdx?_cons, comma], by simp, by simp [comma], by simp [comma]⟩
      · obtain ⟨none, gone⟩ | ⟨separator, found, inside, before, after⟩ := ih
        · left
          simp only [List.findIdx?_cons, comma, decide_false, Bool.false_eq_true, if_false, none]
          refine ⟨rfl, ?_⟩
          rw [List.dropWhile_cons_of_pos (by simpa using comma), gone]
        · right
          refine ⟨separator + 1, ?_, by simpa using inside, ?_, ?_⟩
          · simp [List.findIdx?_cons, comma, found]
          · rw [List.takeWhile_cons_of_pos (by simpa using comma), before, List.take_succ_cons]
          · rw [List.dropWhile_cons_of_pos (by simpa using comma), after, List.drop_succ_cons]

/-- A search from a position inside the text is one in what is left of it. -/
theorem findComma_eq {text : Text} {position : Nat} (inside : position ≤ text.length) :
    findComma text position =
      some (((text.drop position).findIdx? (· = ch ',')).map (position + ·)) :=
  if_neg (Nat.not_lt.mpr inside)

/-- No position of the complex check is outside the text. -/
theorem isValidComplexValueAt_eq (text : Text) :
    isValidComplexValueAt text = some (isValidComplexValue text) := by
  unfold isValidComplexValueAt isValidComplexValue isComplexOf
  generalize trimXmlWhitespace text = core
  by_cases short : core.length < 5
  · simp [short]
  have first : characterAt core 0 = core.head? := List.head?_eq_getElem?.symm
  have last : characterAt core (core.length - 1) = core.getLast? := List.getLast?_eq_getElem?.symm
  obtain ⟨opening, head⟩ : ∃ c, core.head? = some c := by
    cases core with
    | nil => simp at short
    | cons c tail => exact ⟨c, rfl⟩
  obtain ⟨closing, back⟩ : ∃ c, core.getLast? = some c := by
    have some : core ≠ [] := by
      rintro rfl
      simp at short
    exact ⟨_, List.getLast?_eq_some_getLast some⟩
  simp only [first, last, head, back, short]
  by_cases opens : opening = ch '('
  · by_cases closes : closing = ch ')'
    · simp only [opens, closes]
      generalize (core.drop 1).dropLast = inner
      obtain ⟨none, gone⟩ | ⟨separator, found, inside, before, after⟩ := findIdx?_comma inner
      · have start : findComma inner 0 = some Option.none := by
          rw [findComma_eq (Nat.zero_le _), List.drop_zero, none, Option.map_none]
        rw [gone]
        simp [start]
      · have start : findComma inner 0 = some (some separator) := by
          rw [findComma_eq (Nat.zero_le _), List.drop_zero, found, Option.map_some, Nat.zero_add]
        have later := findComma_eq (show separator + 1 ≤ inner.length from inside)
        rw [after, before]
        have again : (inner.drop (separator + 1)).contains (ch ',') =
            ((inner.drop (separator + 1)).findIdx? (· = ch ',')).isSome := by
          rw [List.findIdx?_isSome, Bool.eq_iff_iff, List.contains_iff_mem, List.any_eq_true]
          simp
        dsimp only
        rw [again]
        cases second : (inner.drop (separator + 1)).findIdx? (· = ch ',') with
        | none =>
            cases real : isValidFloatingPointValue (inner.take separator) <;>
              simp [start, later, second, isValidFloatingPointValueAt_eq, real]
        | some _ => simp [start, later, second]
    · simp [opens, closes]
  · simp [opens]

theorem fixedDigitsFrom_eq : ∀ {count index value : Nat}, position + index + count ≤ text.length →
    fixedDigitsFrom text position count index value =
      some (if ((text.drop (position + index)).take count).all isAsciiDigit = true then
        some (((text.drop (position + index)).take count).foldl
          (fun value c => value * 10 + digitValue c) value)
      else none)
  | 0, index, value, inside => by simp [fixedDigitsFrom]
  | count + 1, index, value, inside => by
      have before : position + index < text.length := by omega
      have rest := List.drop_eq_getElem_cons before
      have later (value : Nat) := @fixedDigitsFrom_eq count (index + 1) value (by omega)
      rw [fixedDigitsFrom, characterAt, List.getElem?_eq_getElem before]
      rw [← Nat.add_assoc] at later
      rw [rest, List.take_succ_cons, List.all_cons, List.foldl_cons]
      cases digit : isAsciiDigit text[position + index] with
      | false => simp [digit]
      | true => simp [digit, later]

theorem parseFixedDigitsAt_eq (text : Text) (position count : Nat) :
    parseFixedDigitsAt text position count = some (parseFixedDigits text position count) := by
  unfold parseFixedDigitsAt parseFixedDigits
  by_cases outside : position > text.length ∨ count > text.length - position
  · rw [if_pos outside, if_pos outside]
  · rw [if_neg outside, if_neg outside, fixedDigitsFrom_eq (by omega)]
    rfl

theorem matchesAt_eq : ∀ {tests : List (Nat × (Byte → Bool))},
    (∀ test ∈ tests, test.1 < text.length) →
      matchesAt text tests = some (tests.all fun test => text[test.1]?.any test.2)
  | [], _ => rfl
  | (position, test) :: rest, inside => by
      rw [List.forall_mem_cons] at inside
      have later := matchesAt_eq inside.2
      rw [matchesAt, characterAt, List.getElem?_eq_getElem inside.1]
      cases passed : test text[position] with
      | false => simp [passed, List.getElem?_eq_getElem inside.1]
      | true => simp [passed, later, List.getElem?_eq_getElem inside.1]

theorem fieldsAt_eq (text : Text) : ∀ fields : List (Nat × Nat),
    fieldsAt text fields = some (fields.mapM fun field => parseFixedDigits text field.1 field.2)
  | [] => rfl
  | (position, count) :: rest => by
      rw [fieldsAt, parseFixedDigitsAt_eq, List.mapM_cons, fieldsAt_eq text rest]
      cases parseFixedDigits text position count with
      | none => rfl
      | some value =>
          simp only [Option.bind_eq_bind, Option.bind_some]
          cases rest.mapM fun field => parseFixedDigits text field.1 field.2 <;> rfl

/-- The calendar checks, on the fields that were read. -/
theorem isCalendarTime_eq (text : Text) :
    isCalendarTime text =
      (timeFields.mapM fun field => parseFixedDigits text field.1 field.2).any isCalendarDate := by
  unfold isCalendarTime timeFields
  simp only [List.mapM_cons, List.mapM_nil]
  cases parseFixedDigits text 0 4 with
  | none => rfl
  | some year =>
      cases parseFixedDigits text 5 2 with
      | none => rfl
      | some month =>
          cases parseFixedDigits text 8 2 with
          | none => rfl
          | some day =>
              cases parseFixedDigits text 11 2 with
              | none => rfl
              | some hour =>
                  cases parseFixedDigits text 14 2 with
                  | none => rfl
                  | some minute => cases parseFixedDigits text 17 2 <;> rfl

theorem parseFixedDigits_drop (text : Text) {start : Nat} (inside : start ≤ text.length)
    (position count : Nat) :
    parseFixedDigits (text.drop start) position count =
      parseFixedDigits text (start + position) count := by
  unfold parseFixedDigits
  rw [List.drop_drop, List.length_drop]
  have same : (position > text.length - start ∨ count > text.length - start - position) ↔
      (start + position > text.length ∨ count > text.length - (start + position)) := by omega
  simp only [same]

theorem timeZoneAt_eq (inside : position ≤ text.length) :
    timeZoneAt text position = some (isTimeZone (text.drop position)) := by
  unfold timeZoneAt isTimeZone
  cases rest : text.drop position with
  | nil => simp [(drop_eq_nil_iff' inside).mp rest]
  | cons c tail =>
      obtain ⟨next, before⟩ := drop_cons rest
      have length : tail.length = text.length - (position + 1) := by
        rw [← next, List.length_drop]
      have character : characterAt text position = some c := by
        have head := congrArg List.head? rest
        rwa [List.head?_drop] at head
      have zone (at' count : Nat) : parseFixedDigits tail at' count =
          parseFixedDigits text (position + 1 + at') count := by
        rw [← next, parseFixedDigits_drop text before]
      have more : ¬ position = text.length := by omega
      simp only [more, if_false, character, Option.bind_eq_bind, Option.bind_some, zone]
      by_cases utc : c = ch 'Z' ∨ c = ch 'z'
      · rw [if_pos utc, if_pos utc]
        have ended : position + 1 = text.length ↔ tail = [] := by
          rw [← List.length_eq_zero_iff]
          omega
        simp [ended]
      · rw [if_neg utc, if_neg utc]
        by_cases signed : c ≠ ch '+' ∧ c ≠ ch '-'
        · simp [signed]
        by_cases six : text.length - position ≠ 6
        · have five : tail.length ≠ 5 := by omega
          simp [signed, six, five]
        · have five : tail.length = 5 := by omega
          have colon : characterAt text (position + 3) = tail[2]? := by
            rw [← next, List.getElem?_drop]
            rfl
          obtain ⟨third, found⟩ : ∃ d, tail[2]? = some d :=
            ⟨_, List.getElem?_eq_getElem (by omega)⟩
          simp only [signed, six, five, colon, found, parseFixedDigitsAt_eq, Option.bind_some]
          by_cases separated : third = ch ':'
          · rw [separated]
            cases parseFixedDigits text (position + 1) 2 with
            | none => simp
            | some hour => cases parseFixedDigits text (position + 4) 2 <;> simp
          · simp [separated]

/-- No position of the time point check is outside the text. -/
theorem isValidTimePointValueAt_eq (text : Text) :
    isValidTimePointValueAt text = some (isValidTimePointValue text) := by
  unfold isValidTimePointValueAt isValidTimePointValue
  generalize trimXmlWhitespace text = core
  by_cases short : core.length < 19
  · simp [short]
  have separators : ∀ test ∈ timeSeparators, test.1 < core.length := by
    have positions : ∀ position ∈ timeSeparators.map (·.1), position < 19 := by decide
    intro test member
    have below := positions test.1 (List.mem_map_of_mem member)
    omega
  have character (position : Nat) (early : position < 19) : ∃ c, core[position]? = some c :=
    ⟨_, List.getElem?_eq_getElem (by omega)⟩
  obtain ⟨c4, at4⟩ := character 4 (by decide)
  obtain ⟨c7, at7⟩ := character 7 (by decide)
  obtain ⟨c10, at10⟩ := character 10 (by decide)
  obtain ⟨c13, at13⟩ := character 13 (by decide)
  obtain ⟨c16, at16⟩ := character 16 (by decide)
  have separated := matchesAt_eq separators
  obtain ⟨fraction, found, follows, within⟩ :=
    @fractionAt_eq core 19 (Nat.le_of_not_lt short)
  dsimp only
  rw [isCalendarTime_eq, separated, fieldsAt_eq, found, ← follows, if_neg short]
  simp only [timeSeparators, List.all_cons, List.all_nil, Bool.and_true, at4, at7, at10, at13, at16,
    Option.any_some, ne_eq, Option.some.injEq, short, decide_false, Bool.false_or, decide_not,
    Option.bind_eq_bind, Option.bind_some]
  generalize decide (c4 = ch '-') = dash
  generalize decide (c7 = ch '-') = secondDash
  generalize (decide (c10 = ch 'T')) = upper
  generalize (decide (c10 = ch 't')) = lower
  generalize decide (c13 = ch ':') = colon
  generalize decide (c16 = ch ':') = secondColon
  have negated : (!dash || !secondDash || !upper && !lower || !colon || !secondColon) =
      !(dash && (secondDash && ((upper || lower) && (colon && secondColon)))) := by
    revert dash secondDash upper lower colon secondColon
    decide
  rw [negated]
  cases dash && (secondDash && ((upper || lower) && (colon && secondColon))) with
  | false => rfl
  | true =>
      simp only [Bool.not_true, Bool.false_eq_true, Bool.true_eq_false, if_false]
      cases timeFields.mapM fun field => parseFixedDigits core field.1 field.2 with
      | none => rfl
      | some fields =>
          cases calendar : isCalendarDate fields with
          | false => simp [calendar]
          | true =>
              cases fraction with
              | none => simp [calendar]
              | some part => simp [calendar, timeZoneAt_eq (within part rfl)]

end

end Mmxisf.Reader
