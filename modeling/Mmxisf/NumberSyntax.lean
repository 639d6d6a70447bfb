/-
# NumberSyntax -- the numbers that are extracted and those that are scanned

Image bounds and the numbers of ancillary elements are extracted from a stream,
after a leading `+` was removed; Property values are scanned.  Extraction takes
two kinds of text that the scanner refuses: a second sign after a leading `+`,
which the stream reads as its own, and a point without a digit after it.  On the
numbers that are taken these are the only differences (`numberSyntax`).
-/
import Mmxisf.FloatingPointSyntax
import Mmxisf.Reader.Accepted

namespace Mmxisf

set_option autoImplicit false

open Reader (parseFiniteDouble parseFiniteTuple parseBounds splitColons)

/-! ## What a stream reads -/

/-- `D+(.D*)?|.D+`: a point may end the mantissa. -/
inductive IsStreamMantissa : Text → Prop
  | strict {mantissa : Text} (isMantissa : IsMantissa mantissa) : IsStreamMantissa mantissa
  | trailing {digits : Text} (isDigits : IsDigits digits) : IsStreamMantissa (digits ++ [ch '.'])

/-- An optional sign and a decimal literal, and nothing else. -/
structure IsStreamNumber (text : Text) : Prop where
  parts : ∃ sign mantissa exponent, text = sign ++ (mantissa ++ exponent) ∧ IsSign sign ∧
    IsStreamMantissa mantissa ∧ IsExponent exponent

/-- A platform whose streams read decimal literals, as they do in the classic
locale without skipping whitespace. -/
structure ClassicStreams where
  platform : Platform
  reads : ∀ text value, platform.extractDouble text = some value → IsStreamNumber text

/-- A text that is taken as a number: by itself, as a half of bounds, or as a
component of a tuple. -/
inductive TakenAsNumber (platform : Platform) : Text → Prop
  | double {text : Text} {value : Double}
      (accepted : parseFiniteDouble platform text = some value) :
      TakenAsNumber platform text
  | bound {whole text : Text} {bounds : Double × Double}
      (accepted : parseBounds platform whole = .ok bounds)
      (half : text ∈ splitColons whole) : TakenAsNumber platform text
  | component {count : Nat} {whole text : Text} {values : List Double}
      (accepted : parseFiniteTuple platform count whole = some values)
      (part : text ∈ splitColons whole) : TakenAsNumber platform text

structure TakenNumber where
  streams : ClassicStreams
  text : Text
  taken : TakenAsNumber streams.platform text

/-! ## The two differences -/

/-- A leading `+`, and a sign after it. -/
def HasSecondSign (core : Text) : Prop :=
  core.head? = some (ch '+') ∧ ((core.drop 1).head? = some (ch '+') ∨
    (core.drop 1).head? = some (ch '-'))

/-- The first point has no digit after it. -/
def HasBarePoint (core : Text) : Prop :=
  ∃ rest, core.dropWhile (· ≠ ch '.') = ch '.' :: rest ∧ rest.head?.any isAsciiDigit = false

/-- What is read of a list of parts is read of each part. -/
theorem mapM_member {α β : Type} {f : α → Option β} {part : α} :
    ∀ {parts : List α} {values : List β}, parts.mapM f = some values → part ∈ parts →
      ∃ value, f part = some value := by
  intro parts
  induction parts with
  | nil =>
      intro values _ member
      cases member
  | cons first rest ih =>
      intro values read member
      simp only [List.mapM_cons, Option.bind_eq_bind, Option.bind_eq_some_iff] at read
      obtain ⟨value, isFirst, tail, isRest, -⟩ := read
      rcases List.mem_cons.mp member with rfl | later
      · exact ⟨value, isFirst⟩
      · exact ih isRest later

theorem TakenAsNumber.isDouble {platform : Platform} {text : Text}
    (taken : TakenAsNumber platform text) : ∃ value, parseFiniteDouble platform text =
    some value := by
  cases taken with
  | @double _ value accepted => exact ⟨value, accepted⟩
  | @bound whole _ bounds accepted half =>
      unfold parseBounds at accepted
      split at accepted
      · rename_i low high halves
        split at accepted
        · rename_i lower upper isLow isHigh
          rw [halves, List.mem_cons, List.mem_singleton] at half
          rcases half with rfl | rfl
          · exact ⟨lower, isLow⟩
          · exact ⟨upper, isHigh⟩
        · cases accepted
      · cases accepted
  | @component count whole _ values accepted part =>
      unfold parseFiniteTuple at accepted
      dsimp only at accepted
      split at accepted
      · cases accepted
      · exact mapM_member accepted part

/-- What is left of the core without a leading `+` is a stream's number. -/
theorem TakenNumber.streamNumber (number : TakenNumber) :
    IsStreamNumber (if (trimXmlWhitespace number.text).head? = some (ch '+') then
      (trimXmlWhitespace number.text).drop 1 else trimXmlWhitespace number.text) := by
  obtain ⟨value, accepted⟩ := number.taken.isDouble
  unfold parseFiniteDouble at accepted
  dsimp only at accepted
  generalize (if (trimXmlWhitespace number.text).head? = some (ch '+') then
      (trimXmlWhitespace number.text).drop 1 else trimXmlWhitespace number.text) = digits at *
  split at accepted
  · cases accepted
  · rw [Option.filter_eq_some_iff] at accepted
    exact number.streams.reads _ value accepted.1

/-! ## Names and literals -/

/-- Past its sign a name begins with a letter. -/
theorem name_letter {text : Text}
    (isName : text ∈ ["NaN", "+Inf", "-Inf", "nan", "-nan", "inf", "-inf"].map lit) :
    (dropSign text).head?.any isAsciiDigit = false ∧ (dropSign text).head? ≠ some (ch '.') ∧
      (dropSign text).head? ≠ some (ch '+') ∧ (dropSign text).head? ≠ some (ch '-') := by
  simp only [List.map_cons, List.map_nil, List.mem_cons, List.not_mem_nil, or_false] at isName
  rcases isName with rfl | rfl | rfl | rfl | rfl | rfl | rfl <;> decide

/-- A floating-point number is a name or, past its sign, a literal. -/
theorem isFloatingPoint_iff {text : Text} : IsFloatingPoint text ↔
    text ∈ ["NaN", "+Inf", "-Inf", "nan", "-nan", "inf", "-inf"].map lit ∨
      IsUnsignedLiteral (dropSign text) := by
  constructor
  · intro number
    cases number with
    | name isName => exact .inl isName
    | literal isSign isLiteral =>
        rw [dropSign_append isSign isLiteral.unsigned.2]
        exact .inr isLiteral
  · rintro (isName | isLiteral)
    · exact .name isName
    · obtain ⟨sign, isSign, split⟩ := dropSign_split text
      rw [split]
      exact .literal isSign isLiteral

/-- A second sign makes no number. -/
theorem HasSecondSign.refused {core : Text} (second : HasSecondSign core) :
    ¬ IsFloatingPoint core := by
  obtain ⟨first, signed⟩ := second
  have rest : dropSign core = core.drop 1 := if_pos (.inl first)
  rw [isFloatingPoint_iff, rest]
  rintro (isName | isLiteral)
  · obtain ⟨-, -, noPlus, noMinus⟩ := name_letter isName
    rw [rest] at noPlus noMinus
    exact signed.elim noPlus noMinus
  · exact signed.elim isLiteral.unsigned.2.1 isLiteral.unsigned.2.2

/-! ## The first point -/

theorem noPoint_cons {c : Byte} (other : c ≠ ch '.') (rest : Text) :
    (c :: rest).dropWhile (· ≠ ch '.') = rest.dropWhile (· ≠ ch '.') := by
  rw [List.dropWhile_cons]
  simp [other]

theorem noPoint_digits {digits rest : Text} (all : digits.all isAsciiDigit = true) :
    (digits ++ rest).dropWhile (· ≠ ch '.') = rest.dropWhile (· ≠ ch '.') := by
  induction digits with
  | nil => rfl
  | cons d digits ih =>
      rw [List.all_cons, Bool.and_eq_true] at all
      have other : d ≠ ch '.' := by
        rintro rfl
        exact absurd all.1 (by decide)
      rw [List.cons_append, noPoint_cons other]
      exact ih all.2

theorem noPoint_sign {sign rest : Text} (isSign : IsSign sign) :
    (sign ++ rest).dropWhile (· ≠ ch '.') = rest.dropWhile (· ≠ ch '.') := by
  cases isSign with
  | absent => rfl
  | plus => exact noPoint_cons (by decide) rest
  | minus => exact noPoint_cons (by decide) rest

theorem noPoint_exponent {exponent : Text} (isExponent : IsExponent exponent) :
    exponent.dropWhile (· ≠ ch '.') = [] := by
  cases isExponent with
  | absent => rfl
  | @present marker sign digits isMarker isSign isDigits =>
      have other : marker ≠ ch '.' := by
        rcases isMarker with rfl | rfl <;> decide
      have noMore := @noPoint_digits digits [] isDigits.digits
      rw [List.append_nil] at noMore
      rw [List.cons_append, noPoint_cons other, noPoint_sign isSign, noMore]
      rfl

/-- A point, and whether there is a digit after it. -/
theorem hasBarePoint_point (rest : Text) :
    HasBarePoint (ch '.' :: rest) ↔ rest.head?.any isAsciiDigit = false := by
  unfold HasBarePoint
  rw [List.dropWhile_cons_of_neg (by decide)]
  constructor
  · rintro ⟨tail, same, bare⟩
    cases same
    exact bare
  · intro bare
    exact ⟨rest, rfl, bare⟩

/-- The mantissas of the grammar have a digit after their point, the others do
not. -/
theorem signed_iff {sign mantissa exponent : Text} (isSign : IsSign sign)
    (isMantissa : IsStreamMantissa mantissa) (isExponent : IsExponent exponent) :
    IsFloatingPoint (sign ++ (mantissa ++ exponent)) ↔
      ¬ HasBarePoint (sign ++ (mantissa ++ exponent)) := by
  have same : HasBarePoint (sign ++ (mantissa ++ exponent)) ↔
      HasBarePoint (mantissa ++ exponent) := by
    unfold HasBarePoint
    rw [noPoint_sign isSign]
  have afterPoint {fraction : Text} (isFraction : IsDigits fraction) :
      ¬ HasBarePoint (ch '.' :: (fraction ++ exponent)) := by
    obtain ⟨c, head, digit⟩ := isFraction.head exponent
    rw [hasBarePoint_point, head, Option.any_some, digit]
    decide
  have afterDigits {digits rest : Text} (isDigits : IsDigits digits) :
      HasBarePoint (digits ++ rest) ↔ HasBarePoint rest := by
    unfold HasBarePoint
    rw [noPoint_digits isDigits.digits]
  rw [same]
  cases isMantissa with
  | strict isMantissa =>
      have number := IsFloatingPoint.literal isSign ⟨_, _, rfl, isMantissa, isExponent⟩
      constructor
      · intro _
        cases isMantissa with
        | whole isDigits =>
            rw [afterDigits isDigits]
            rintro ⟨rest, point, -⟩
            rw [noPoint_exponent isExponent] at point
            cases point
        | both isDigits isFraction =>
            rw [List.append_assoc, afterDigits isDigits]
            exact afterPoint isFraction
        | fraction isFraction => exact afterPoint isFraction
      · intro _
        exact number
  | @trailing digits isDigits =>
      have bare : HasBarePoint (digits ++ [ch '.'] ++ exponent) := by
        rw [List.append_assoc, afterDigits isDigits]
        apply (hasBarePoint_point exponent).mpr
        have noDigit := isExponent.head.1
        cases first : exponent.head? with
        | none => rfl
        | some c => simpa [first] using noDigit
      constructor
      · intro number
        exfalso
        rw [List.append_assoc, isFloatingPoint_iff,
          dropSign_append isSign (isDigits.unsigned _)] at number
        rcases number with isName | isLiteral
        · obtain ⟨noDigit, -⟩ := name_letter isName
          obtain ⟨c, head, digit⟩ := isDigits.head ([ch '.'] ++ exponent)
          rw [dropSign_append isSign (isDigits.unsigned _), head, Option.any_some, digit] at noDigit
          cases noDigit
        · have accepted := isUnsignedDecimalLiteral_iff.mpr isLiteral
          have noFraction : scanFraction ([ch '.'] ++ exponent) = none := by
            have noDigit := isExponent.head.1
            refine (if_pos rfl).trans (if_pos ?_)
            show exponent.takeWhile isAsciiDigit = []
            cases exponent with
            | nil => rfl
            | cons c rest =>
                have stops : isAsciiDigit c = false := by simpa using noDigit
                exact List.takeWhile_cons_of_neg (by simp [stops])
          obtain ⟨-, left⟩ := @takeWhile_digits digits ([ch '.'] ++ exponent) isDigits.digits rfl
          unfold isUnsignedDecimalLiteral at accepted
          simp only [left, noFraction] at accepted
          cases accepted
      · intro noBare
        exact absurd bare noBare

theorem IsStreamMantissa.unsigned {mantissa : Text} (isMantissa : IsStreamMantissa mantissa)
    (exponent : Text) : (mantissa ++ exponent).head? ≠ some (ch '+') ∧
      (mantissa ++ exponent).head? ≠ some (ch '-') := by
  cases isMantissa with
  | strict isMantissa =>
      have isLiteral : IsUnsignedLiteral (mantissa ++ []) := ⟨_, _, rfl, isMantissa, .absent⟩
      rw [List.append_nil] at isLiteral
      obtain ⟨nonempty, unsigned⟩ := isLiteral.unsigned
      rwa [List.head?_append_of_ne_nil _ nonempty]
  | trailing isDigits =>
      rw [List.append_assoc]
      exact isDigits.unsigned _

/-- A number that an attribute is read as is a floating-point text, unless it
has a second sign or a point without a digit after it. -/
theorem numberSyntax (number : TakenNumber) :
    Reader.isValidFloatingPointValue number.text = true ↔
      ¬ HasSecondSign (trimXmlWhitespace number.text) ∧
        ¬ HasBarePoint (trimXmlWhitespace number.text) := by
  rw [isValidFloatingPointValue_iff, exists_trimmed_iff]
  have stream := number.streamNumber
  generalize trimXmlWhitespace number.text = core at stream ⊢
  by_cases leading : core.head? = some (ch '+')
  · obtain ⟨rest, rfl⟩ := List.head?_eq_some_iff.mp leading
    rw [if_pos leading, List.drop_one, List.tail_cons] at stream
    obtain ⟨sign, mantissa, exponent, rfl, isSign, isMantissa, isExponent⟩ := stream.parts
    cases isSign with
    | absent =>
        have noSecond : ¬ HasSecondSign (ch '+' :: ([] ++ (mantissa ++ exponent))) := by
          rintro ⟨-, signed⟩
          exact signed.elim (isMantissa.unsigned exponent).1 (isMantissa.unsigned exponent).2
        have verdict := signed_iff .plus isMantissa isExponent
        constructor
        · intro accepted
          exact ⟨noSecond, verdict.mp accepted⟩
        · intro regular
          exact verdict.mpr regular.2
    | plus =>
        have second : HasSecondSign (ch '+' :: ([ch '+'] ++ (mantissa ++ exponent))) :=
          ⟨rfl, .inl rfl⟩
        exact ⟨fun accepted => absurd accepted second.refused,
          fun regular => absurd second regular.1⟩
    | minus =>
        have second : HasSecondSign (ch '+' :: ([ch '-'] ++ (mantissa ++ exponent))) :=
          ⟨rfl, .inr rfl⟩
        exact ⟨fun accepted => absurd accepted second.refused,
          fun regular => absurd second regular.1⟩
  · rw [if_neg leading] at stream
    obtain ⟨sign, mantissa, exponent, rfl, isSign, isMantissa, isExponent⟩ := stream.parts
    have verdict := signed_iff isSign isMantissa isExponent
    constructor
    · intro accepted
      exact ⟨fun second => leading second.1, verdict.mp accepted⟩
    · intro regular
      exact verdict.mpr regular.2

/-- Streams that read `1.`, and no other text. -/
def pointStreams : ClassicStreams where
  platform := { Reader.reporting [] with
    extractDouble := fun text => if text = lit "1." then some Double.one else none }
  reads := by
    intro text value read
    obtain rfl : text = lit "1." := by
      by_contra other
      simp [other] at read
    exact ⟨[], [ch '1'] ++ [ch '.'], [], by decide, .absent,
      .trailing ⟨by decide, by decide⟩, .absent⟩

/-- `1.` is taken for a number and is no floating-point text. -/
theorem trailing_point_taken :
    ¬ ∀ number : TakenNumber, Reader.isValidFloatingPointValue number.text = true := by
  intro always
  have accepted : parseFiniteDouble pointStreams.platform (lit "1.") = some Double.one := by decide
  have refused : Reader.isValidFloatingPointValue (lit "1.") = false := by decide
  have taken := always ⟨pointStreams, lit "1.", .double accepted⟩
  rw [refused] at taken
  cases taken

end Mmxisf
