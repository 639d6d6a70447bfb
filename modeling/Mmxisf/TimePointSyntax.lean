/-
# TimePointSyntax -- which texts are points in time

`is_valid_time_point_value` takes digits from fixed positions and compares them
with the calendar; the zone begins where the fraction, of any length, ends.
Here the texts are those of a grammar over the numbers of a date, a time of day
and an offset, with the days that a month of the proleptic Gregorian calendar
has.  The two agree on every text, and no position outside it is read
(`timePointSyntax`).
-/
import Mmxisf.FloatingPointSyntax
import Mmxisf.IntegerSyntax

namespace Mmxisf

set_option autoImplicit false

open Library (positional foldl_positional)
open Reader (isTimeZone isValidTimePointValue isValidTimePointValueAt)

/-! ## The grammar -/

/-- So many decimal digits, and the number that they denote. -/
structure IsField (count value : Nat) (text : Text) : Prop where
  length : text.length = count
  decimal : text.all isAsciiDigit = true
  denotes : numberOf 10 text = value

/-- Every fourth year, but of the hundreds only every fourth. -/
def IsLeapYear (year : Nat) : Prop := 4 ∣ year ∧ (100 ∣ year → 400 ∣ year)

/-- The days of a month in a year. -/
inductive HasDays (year : Nat) : Nat → Nat → Prop
  | long {month : Nat} (isLong : month ∈ [1, 3, 5, 7, 8, 10, 12]) : HasDays year month 31
  | short {month : Nat} (isShort : month ∈ [4, 6, 9, 11]) : HasDays year month 30
  | leap (isLeap : IsLeapYear year) : HasDays year 2 29
  | common (isCommon : ¬ IsLeapYear year) : HasDays year 2 28

/-- A date that the calendar has. -/
inductive IsDate : Text → Prop
  | date {year month day days : Nat} {yearText monthText dayText : Text}
      (isYear : IsField 4 year yearText) (isMonth : IsField 2 month monthText)
      (isDay : IsField 2 day dayText) (hasDays : HasDays year month days)
      (exists' : 1 ≤ day ∧ day ≤ days) :
      IsDate (yearText ++ ch '-' :: (monthText ++ ch '-' :: dayText))

/-- A time of day, of a minute that may have a leap second. -/
inductive IsTimeOfDay : Text → Prop
  | time {hour minute second : Nat} {hourText minuteText secondText : Text}
      (isHour : IsField 2 hour hourText) (isMinute : IsField 2 minute minuteText)
      (isSecond : IsField 2 second secondText)
      (bounds : hour ≤ 23 ∧ minute ≤ 59 ∧ second ≤ 60) :
      IsTimeOfDay (hourText ++ ch ':' :: (minuteText ++ ch ':' :: secondText))

inductive IsFraction : Text → Prop
  | absent : IsFraction []
  | present {digits : Text} (isDigits : IsDigits digits) : IsFraction (ch '.' :: digits)

inductive IsZone : Text → Prop
  | absent : IsZone []
  | universal {marker : Byte} (isMarker : marker = ch 'Z' ∨ marker = ch 'z') : IsZone [marker]
  | offset {sign : Byte} {hour minute : Nat} {hourText minuteText : Text}
      (isSign : sign = ch '+' ∨ sign = ch '-') (isHour : IsField 2 hour hourText)
      (isMinute : IsField 2 minute minuteText) (bounds : hour ≤ 23 ∧ minute ≤ 59) :
      IsZone (sign :: (hourText ++ ch ':' :: minuteText))

/-- The texts of points in time. -/
inductive IsTimePoint : Text → Prop
  | point {date time fraction zone : Text} {marker : Byte} (isDate : IsDate date)
      (isMarker : marker = ch 'T' ∨ marker = ch 't') (isTime : IsTimeOfDay time)
      (isFraction : IsFraction fraction) (isZone : IsZone zone) :
      IsTimePoint (date ++ marker :: (time ++ (fraction ++ zone)))

/-! ## Fields -/

section

variable {text field : Text} {position count value : Nat}

theorem foldl_digitValue (decimal : field.all isAsciiDigit = true) :
    field.foldl (fun value c => value * 10 + digitValue c) 0 = numberOf 10 field := by
  have read := @foldl_positional 10 (field.map digitNumber) 0
  rw [Nat.zero_mul, Nat.zero_add, List.foldl_map] at read
  rw [numberOf, ← read]
  apply List.foldl_ext
  intro value c member
  have digit : digitNumber c = c.toNat - 48 := if_pos (List.all_eq_true.mp decimal c member)
  rw [digit]
  rfl

/-- The digits at a position are read when there are as many. -/
theorem parseFixedDigits_iff : parseFixedDigits text position count = some value ↔
    position + count ≤ text.length ∧ IsField count value ((text.drop position).take count) := by
  unfold parseFixedDigits
  by_cases outside : position > text.length ∨ count > text.length - position
  · rw [if_pos outside]
    constructor
    · rintro ⟨⟩
    · rintro ⟨inside, -⟩
      omega
  · rw [if_neg outside]
    have long : ((text.drop position).take count).length = count := by
      rw [List.length_take, List.length_drop]
      omega
    constructor
    · intro read
      by_cases decimal : ((text.drop position).take count).all isAsciiDigit = true
      · simp only [decimal, if_true, Option.some.injEq] at read
        refine ⟨by omega, long, decimal, ?_⟩
        rw [← foldl_digitValue decimal, read]
      · simp only [decimal, Bool.false_eq_true] at read
        cases read
    · rintro ⟨-, isField⟩
      have denotes := isField.denotes
      rw [← foldl_digitValue isField.decimal] at denotes
      simp only [isField.decimal, if_true, denotes]

theorem IsField.read (isField : IsField count value field)
    (here : (text.drop position).take count = field) (inside : position + count ≤ text.length) :
    parseFixedDigits text position count = some value := by
  rw [← here] at isField
  exact parseFixedDigits_iff.mpr ⟨inside, isField⟩

/-- What is read at a position stands there. -/
theorem field_split (read : parseFixedDigits text position count = some value) :
    ∃ field, IsField count value field ∧ text.drop position = field ++ text.drop
    (position + count) := by
  obtain ⟨-, isField⟩ := parseFixedDigits_iff.mp read
  refine ⟨_, isField, ?_⟩
  rw [← List.drop_drop, List.take_append_drop]

theorem character_split {c : Byte} (there : text[position]? = some c) :
    text.drop position = c :: text.drop (position + 1) := by
  obtain ⟨inside, same⟩ := List.getElem?_eq_some_iff.mp there
  rw [List.drop_eq_getElem_cons inside, same]

/-- A field of two digits, or of four. -/
theorem IsField.two (isField : IsField 2 value field) : ∃ a b, field = [a, b] :=
  List.length_eq_two.mp isField.length

theorem IsField.four (isField : IsField 4 value field) : ∃ a b c d, field = [a, b, c, d] := by
  rcases field with _ | ⟨a, _ | ⟨b, _ | ⟨c, _ | ⟨d, _ | ⟨e, rest⟩⟩⟩⟩⟩
  all_goals first | exact ⟨_, _, _, _, rfl⟩ | cases isField.length

end

/-! ## The calendar -/

theorem isLeapYear_iff (year : Nat) : isLeapYear year = true ↔ IsLeapYear year := by
  unfold isLeapYear IsLeapYear
  simp only [Bool.and_eq_true, decide_eq_true_eq, Bool.or_eq_true, ne_eq, decide_not,
    Bool.not_eq_true', decide_eq_false_iff_not]
  omega

/-- The month lengths of the source are those of the calendar. -/
theorem hasDays_iff (year month days : Nat) : HasDays year month days ↔
    (1 ≤ month ∧ month ≤ 12) ∧ maximumDay year month = days := by
  unfold maximumDay
  constructor
  · intro hasDays
    cases hasDays with
    | long isLong =>
        simp only [List.mem_cons, List.not_mem_nil, or_false] at isLong
        rcases isLong with rfl | rfl | rfl | rfl | rfl | rfl | rfl <;> simp [monthLengths]
    | short isShort =>
        simp only [List.mem_cons, List.not_mem_nil, or_false] at isShort
        rcases isShort with rfl | rfl | rfl | rfl <;> simp [monthLengths]
    | leap isLeap => exact ⟨by decide, if_pos ⟨rfl, (isLeapYear_iff year).mpr isLeap⟩⟩
    | common isCommon =>
        exact ⟨by decide, if_neg fun both => isCommon ((isLeapYear_iff year).mp both.2)⟩
  · rintro ⟨⟨low, high⟩, rfl⟩
    by_cases february : month = 2
    · subst february
      by_cases isLeap : isLeapYear year = true
      · rw [if_pos ⟨rfl, isLeap⟩]
        exact .leap ((isLeapYear_iff year).mp isLeap)
      · rw [if_neg fun both => isLeap both.2]
        exact .common fun leap => isLeap ((isLeapYear_iff year).mpr leap)
    · rw [if_neg fun both => february both.1]
      interval_cases month
      all_goals first | exact .long (by decide) | exact .short (by decide) |
        exact absurd rfl february

/-! ## The verdict -/

section

variable {text : Text}

/-- The zone of the source is that of the grammar. -/
theorem isTimeZone_iff : isTimeZone text = true ↔ IsZone text := by
  constructor
  · intro accepted
    cases text with
    | nil => exact .absent
    | cons first rest =>
        unfold isTimeZone at accepted
        dsimp only at accepted
        by_cases isMarker : first = ch 'Z' ∨ first = ch 'z'
        · rw [if_pos isMarker, decide_eq_true_eq] at accepted
          rw [accepted]
          exact .universal isMarker
        rw [if_neg isMarker] at accepted
        by_cases other : (first ≠ ch '+' ∧ first ≠ ch '-') ∨ rest.length ≠ 5 ∨
            rest[2]? ≠ some (ch ':')
        · rw [if_pos other] at accepted
          cases accepted
        rw [if_neg other] at accepted
        simp only [not_or, not_and_or, not_not] at other
        obtain ⟨isSign, long, colon⟩ := other
        cases isHour : parseFixedDigits rest 0 2 with
        | none => simp [isHour] at accepted
        | some hour =>
            cases isMinute : parseFixedDigits rest 3 2 with
            | none => simp [isHour, isMinute] at accepted
            | some minute =>
                simp only [isHour, isMinute, Bool.and_eq_true, decide_eq_true_eq] at accepted
                obtain ⟨hourText, hourField, at0⟩ := field_split isHour
                obtain ⟨minuteText, minuteField, at3⟩ := field_split isMinute
                have done : rest.drop (3 + 2) = [] := List.drop_eq_nil_of_le (by omega)
                rw [List.drop_zero, character_split colon, at3, done, List.append_nil] at at0
                rw [at0]
                exact .offset isSign hourField minuteField accepted
  · intro zone
    cases zone with
    | absent => rfl
    | universal isMarker => exact (if_pos isMarker).trans rfl
    | @offset sign hour minute hourText minuteText isSign isHour isMinute bounds =>
        obtain ⟨a, b, rfl⟩ := isHour.two
        obtain ⟨c, d, rfl⟩ := isMinute.two
        have readHour : parseFixedDigits [a, b, ch ':', c, d] 0 2 = some hour :=
          isHour.read rfl (by simp)
        have readMinute : parseFixedDigits [a, b, ch ':', c, d] 3 2 = some minute :=
          isMinute.read rfl (by simp)
        show isTimeZone (sign :: [a, b, ch ':', c, d]) = true
        unfold isTimeZone
        dsimp only
        rcases isSign with rfl | rfl
        all_goals
          rw [if_neg (by decide), if_neg (by simp), readHour, readMinute]
          simp [bounds]

/-- What stands after the seconds: a fraction and a zone. -/
theorem suffix_iff :
    (∃ found rest, scanFraction text = some (found, rest) ∧ isTimeZone rest = true) ↔
    ∃ fraction zone, text = fraction ++ zone ∧ IsFraction fraction ∧ IsZone zone := by
  constructor
  · rintro ⟨found, rest, scanned, accepted⟩
    have isZone := isTimeZone_iff.mp accepted
    unfold scanFraction at scanned
    by_cases point : text.head? = some (ch '.')
    · obtain ⟨tail, rfl⟩ := List.head?_eq_some_iff.mp point
      rw [if_pos point, List.drop_one, List.tail_cons] at scanned
      by_cases empty : tail.takeWhile isAsciiDigit = []
      · simp [empty] at scanned
      · simp only [empty, if_false, Option.some.injEq, Prod.mk.injEq] at scanned
        obtain ⟨-, rfl⟩ := scanned
        refine ⟨ch '.' :: tail.takeWhile isAsciiDigit, _, ?_,
          .present (isDigits_takeWhile empty), isZone⟩
        rw [List.cons_append, List.takeWhile_append_dropWhile]
    · rw [if_neg point, Option.some.injEq, Prod.mk.injEq] at scanned
      obtain ⟨-, rfl⟩ := scanned
      exact ⟨[], text, rfl, .absent, isZone⟩
  · rintro ⟨fraction, zone, rfl, isFraction, isZone⟩
    have accepted := isTimeZone_iff.mpr isZone
    have other : zone.head?.all (fun c => !isAsciiDigit c) = true ∧ zone.head? ≠ some (ch '.') := by
      cases isZone with
      | absent => exact ⟨rfl, by simp⟩
      | universal isMarker => rcases isMarker with rfl | rfl <;> exact ⟨rfl, by decide⟩
      | offset isSign => rcases isSign with rfl | rfl <;> exact ⟨rfl, by simp; decide⟩
    cases isFraction with
    | absent => exact ⟨false, zone, if_neg other.2, accepted⟩
    | @present digits isDigits =>
        obtain ⟨taken, left⟩ := takeWhile_digits isDigits.digits other.1
        refine ⟨true, zone, ?_, accepted⟩
        unfold scanFraction
        simp only [List.cons_append, List.head?_cons, if_true, List.drop_one, List.tail_cons, taken,
          left, isDigits.nonempty, if_false]

/-- The six fields, and the calendar on them. -/
theorem isCalendarTime_iff : isCalendarTime text = true ↔ ∃ year month day hour minute second,
    parseFixedDigits text 0 4 = some year ∧ parseFixedDigits text 5 2 = some month ∧
      parseFixedDigits text 8 2 = some day ∧ parseFixedDigits text 11 2 = some hour ∧
      parseFixedDigits text 14 2 = some minute ∧ parseFixedDigits text 17 2 = some second ∧
      (∃ days, HasDays year month days ∧ 1 ≤ day ∧ day ≤ days) ∧
      hour ≤ 23 ∧ minute ≤ 59 ∧ second ≤ 60 := by
  unfold isCalendarTime
  constructor
  · intro accepted
    split at accepted
    · rename_i year month day hour minute second isYear isMonth isDay isHour isMinute isSecond
      split at accepted
      · cases accepted
      · rename_i regular
        have twelve : monthLengths.length = 12 := rfl
        simp only [Bool.and_eq_true, decide_eq_true_eq] at accepted
        obtain ⟨⟨⟨⟨positive, last⟩, isHour'⟩, isMinute'⟩, isSecond'⟩ := accepted
        refine ⟨year, month, day, hour, minute, second, isYear, isMonth, isDay, isHour, isMinute,
          isSecond, ⟨maximumDay year month, ?_, by omega, last⟩, isHour', isMinute', isSecond'⟩
        exact (hasDays_iff _ _ _).mpr ⟨by omega, rfl⟩
    · cases accepted
  · rintro ⟨year, month, day, hour, minute, second, isYear, isMonth, isDay, isHour, isMinute,
      isSecond, ⟨days, hasDays, positive, last⟩, isHour', isMinute', isSecond'⟩
    obtain ⟨regular, rfl⟩ := (hasDays_iff _ _ _).mp hasDays
    have twelve : monthLengths.length = 12 := rfl
    simp only [isYear, isMonth, isDay, isHour, isMinute, isSecond]
    rw [if_neg (by omega)]
    simp only [Bool.and_eq_true, decide_eq_true_eq]
    exact ⟨⟨⟨⟨by omega, last⟩, isHour'⟩, isMinute'⟩, isSecond'⟩

/-- The separators at their positions. -/
def IsSeparated (text : Text) : Prop :=
  ∃ marker, (marker = ch 'T' ∨ marker = ch 't') ∧ text[4]? = some (ch '-') ∧
    text[7]? = some (ch '-') ∧ text[10]? = some marker ∧ text[13]? = some (ch ':') ∧
    text[16]? = some (ch ':')

/-- The checks of the source on the text without the whitespace around it. -/
theorem verdict_iff (text : Text) : isValidTimePointValue text = true ↔
    (19 ≤ (trimXmlWhitespace text).length ∧ IsSeparated (trimXmlWhitespace text)) ∧
      isCalendarTime (trimXmlWhitespace text) = true ∧
      ∃ found rest, scanFraction ((trimXmlWhitespace text).drop 19) = some (found, rest) ∧
        isTimeZone rest = true := by
  unfold isValidTimePointValue IsSeparated
  generalize trimXmlWhitespace text = core
  constructor
  · intro accepted
    dsimp only at accepted
    split at accepted
    · cases accepted
    rename_i separated
    split at accepted
    · cases accepted
    rename_i calendar
    split at accepted
    · cases accepted
    rename_i found rest scanned
    refine ⟨?_, by simpa using calendar, found, rest, scanned, accepted⟩
    simp only [Bool.or_eq_true, Bool.and_eq_true, decide_eq_true_eq, not_or, not_and_or, ne_eq,
      not_not, Nat.not_lt] at separated
    obtain ⟨⟨⟨⟨⟨long, at4⟩, at7⟩, at10⟩, at13⟩, at16⟩ := separated
    refine ⟨long, ?_⟩
    rcases at10 with upper | lower
    · exact ⟨ch 'T', .inl rfl, at4, at7, upper, at13, at16⟩
    · exact ⟨ch 't', .inr rfl, at4, at7, lower, at13, at16⟩
  · rintro ⟨⟨long, marker, isMarker, at4, at7, at10, at13, at16⟩, calendar, found, rest, scanned,
      accepted⟩
    have passes : ¬ core.length < 19 := by omega
    simp only [at4, at7, at10, at13, at16, passes, calendar, scanned, accepted]
    rcases isMarker with rfl | rfl <;> simp

/-- The verdict on a point in time, by the grammar of its core. -/
theorem isValidTimePointValue_iff (text : Text) : isValidTimePointValue text = true ↔
    ∃ core, Trimmed text core ∧ IsTimePoint core := by
  rw [exists_trimmed_iff, verdict_iff]
  generalize trimXmlWhitespace text = core
  rw [suffix_iff, isCalendarTime_iff]
  constructor
  · rintro ⟨⟨-, marker, isMarker, at4, at7, at10, at13, at16⟩,
      ⟨year, month, day, hour, minute, second, isYear, isMonth, isDay, isHour, isMinute, isSecond,
        ⟨days, hasDays, exists'⟩, bounds⟩, fraction, zone, rest, isFraction, isZone⟩
    obtain ⟨yearText, yearField, at0⟩ := field_split isYear
    obtain ⟨monthText, monthField, at5⟩ := field_split isMonth
    obtain ⟨dayText, dayField, at8⟩ := field_split isDay
    obtain ⟨hourText, hourField, at11⟩ := field_split isHour
    obtain ⟨minuteText, minuteField, at14⟩ := field_split isMinute
    obtain ⟨secondText, secondField, at17⟩ := field_split isSecond
    have isDate := IsDate.date yearField monthField dayField hasDays exists'
    have isTime := IsTimeOfDay.time hourField minuteField secondField bounds
    have whole : core = yearText ++ ch '-' :: (monthText ++ ch '-' :: dayText) ++ marker ::
        (hourText ++ ch ':' :: (minuteText ++ ch ':' :: secondText) ++ (fraction ++ zone)) := by
      rw [List.drop_zero, character_split at4, at5, character_split at7, at8, character_split at10,
        at11, character_split at13, at14, character_split at16, at17, rest] at at0
      rw [at0]
      simp only [List.append_assoc, List.cons_append]
    rw [whole]
    exact .point isDate isMarker isTime isFraction isZone
  · intro point
    cases point with
    | @point date time fraction zone marker isDate isMarker isTime isFraction isZone =>
        cases isDate with
        | @date year month day days yearText monthText dayText isYear isMonth isDay
            hasDays exists' =>
        cases isTime with
        | @time hour minute second hourText minuteText secondText isHour isMinute isSecond bounds =>
        obtain ⟨y1, y2, y3, y4, rfl⟩ := isYear.four
        obtain ⟨m1, m2, rfl⟩ := isMonth.two
        obtain ⟨d1, d2, rfl⟩ := isDay.two
        obtain ⟨h1, h2, rfl⟩ := isHour.two
        obtain ⟨n1, n2, rfl⟩ := isMinute.two
        obtain ⟨s1, s2, rfl⟩ := isSecond.two
        constructor
        · constructor
          · simp
          · exact ⟨marker, isMarker, rfl, rfl, rfl, rfl, rfl⟩
        constructor
        · exact ⟨year, month, day, hour, minute, second, isYear.read rfl (by simp),
            isMonth.read rfl (by simp), isDay.read rfl (by simp), isHour.read rfl (by simp),
            isMinute.read rfl (by simp), isSecond.read rfl (by simp),
            ⟨days, hasDays, exists'⟩, bounds⟩
        · exact ⟨fraction, zone, rfl, isFraction, isZone⟩

end

/-- The points in time that a reader takes are those of the grammar, and the
check that decides reads no position outside the text. -/
theorem timePointSyntax (text : Text) :
    isValidTimePointValueAt text = some (isValidTimePointValue text) ∧
      (isValidTimePointValue text = true ↔ ∃ core, Trimmed text core ∧ IsTimePoint core) := by
  constructor
  · exact Reader.isValidTimePointValueAt_eq text
  · exact isValidTimePointValue_iff text

end Mmxisf
