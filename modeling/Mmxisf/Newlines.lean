/-
# Newlines -- end-of-line normalisation keeps what is valid

A parser reads CR LF, and a CR alone, as one LF before it looks at anything else
(`normalizeNewlines`).  `escape_xml` leaves CR and LF as they are, so this happens to
the values that a writer emits.  An entry that the writer accepted is valid after it
too (`ValidEntry.delivered`): a valid value has whitespace only around it, or around
the parts of a complex number.
-/
import Mathlib.Data.List.TakeWhile
import Mmxisf.MetadataAgreement

namespace Mmxisf

set_option autoImplicit false

open Writer (MetadataWriteEntry)

/-! ## Normalisation -/

/-- A text after `afterReturn`, a CR before it. -/
def newlinesFrom : Bool → Text → Text
  | _, [] => []
  | afterReturn, c :: rest =>
      if c = ch '\r' then ch '\n' :: newlinesFrom true rest
      else if c = ch '\n' ∧ afterReturn = true then newlinesFrom false rest
      else c :: newlinesFrom false rest

/-- End-of-line normalisation of XML 1.0. -/
def normalizeNewlines (text : Text) : Text := newlinesFrom false text

theorem newlinesFrom_dark {c : Byte} (dark : isXmlWhitespace c = false) (afterReturn : Bool)
    (rest : Text) : newlinesFrom afterReturn (c :: rest) = c :: newlinesFrom false rest := by
  have notReturn : c ≠ ch '\r' := by
    rintro rfl
    exact absurd dark (by decide)
  have notFeed : c ≠ ch '\n' := by
    rintro rfl
    exact absurd dark (by decide)
  rw [newlinesFrom, if_neg notReturn, if_neg fun both => notFeed both.1]

theorem newlinesFrom_append {c : Byte} (dark : isXmlWhitespace c = false) (rest : Text) :
    ∀ (text : Text) (afterReturn : Bool), newlinesFrom afterReturn (text ++ c :: rest) =
      newlinesFrom afterReturn text ++ c :: newlinesFrom false rest
  | [], afterReturn => newlinesFrom_dark dark afterReturn rest
  | d :: text, afterReturn => by
      rw [List.cons_append, newlinesFrom, newlinesFrom, newlinesFrom_append dark rest text,
        newlinesFrom_append dark rest text]
      split_ifs <;> rfl

theorem Dark.newlinesFrom {text : Text} (dark : Dark text) (afterReturn : Bool) (rest : Text) :
    Mmxisf.newlinesFrom afterReturn (text ++ rest) =
      text ++ Mmxisf.newlinesFrom (if text = [] then afterReturn else false) rest := by
  induction text generalizing afterReturn with
  | nil => rfl
  | cons c text ih =>
      rw [List.cons_append, newlinesFrom_dark (dark c List.mem_cons_self),
        ih fun d member => dark d (List.mem_cons_of_mem _ member), ite_self, List.cons_append,
        if_neg (List.cons_ne_nil c text)]

theorem Dark.newlines {text : Text} (dark : Dark text) : normalizeNewlines text = text := by
  have all := dark.newlinesFrom false []
  rwa [List.append_nil, Mmxisf.newlinesFrom, List.append_nil] at all

/-- Whitespace stays whitespace. -/
theorem newlinesFrom_white {text : Text} (white : text.all isXmlWhitespace = true)
    (afterReturn : Bool) : (newlinesFrom afterReturn text).all isXmlWhitespace = true := by
  induction text generalizing afterReturn with
  | nil => rfl
  | cons c rest ih =>
      rw [List.all_cons, Bool.and_eq_true] at white
      rw [newlinesFrom]
      split_ifs
      · rw [List.all_cons, ih white.2]
        rfl
      · exact ih white.2 false
      · rw [List.all_cons, white.1, ih white.2]
        rfl

/-- Nothing but CR and LF comes from CR and LF. -/
theorem mem_newlinesFrom {c : Byte} (notFeed : c ≠ ch '\n') :
    ∀ {text : Text} {afterReturn : Bool}, c ∈ newlinesFrom afterReturn text → c ∈ text
  | [], _, member => member
  | d :: rest, afterReturn, member => by
      rw [newlinesFrom] at member
      split_ifs at member
      · rcases List.mem_cons.mp member with same | later
        · exact absurd same notFeed
        · exact List.mem_cons_of_mem _ (mem_newlinesFrom notFeed later)
      · exact List.mem_cons_of_mem _ (mem_newlinesFrom notFeed member)
      · rcases List.mem_cons.mp member with rfl | later
        · exact List.mem_cons_self
        · exact List.mem_cons_of_mem _ (mem_newlinesFrom notFeed later)

/-! ## Trimmed texts -/

/-- A text is its trimmed form between whitespace. -/
theorem trim_parts (text : Text) : ∃ before after : Text, before.all isXmlWhitespace = true ∧
    after.all isXmlWhitespace = true ∧ text = before ++ trimXmlWhitespace text ++ after := by
  refine ⟨text.takeWhile isXmlWhitespace,
    ((text.dropWhile isXmlWhitespace).reverse.takeWhile isXmlWhitespace).reverse,
    List.all_takeWhile, ?_, ?_⟩
  · rw [List.all_reverse]
    exact List.all_takeWhile
  · unfold trimXmlWhitespace
    rw [List.append_assoc, ← List.reverse_append, List.takeWhile_append_dropWhile,
      List.reverse_reverse, List.takeWhile_append_dropWhile]

/-- Whitespace around a text that begins and ends without is trimmed. -/
theorem trim_between {before text after : Text} {first last : Byte}
    (white : before.all isXmlWhitespace = true) (whiteAfter : after.all isXmlWhitespace = true)
    (head : text.head? = some first) (tail : text.getLast? = some last)
    (dark : isXmlWhitespace first = false) (darkLast : isXmlWhitespace last = false) :
    trimXmlWhitespace (before ++ text ++ after) = text := by
  have skip {front : Text} (all : front.all isXmlWhitespace = true) {rest : Text} {c : Byte}
      (head : rest.head? = some c) (dark : isXmlWhitespace c = false) :
      (front ++ rest).dropWhile isXmlWhitespace = rest := by
    rw [List.dropWhile_append_of_pos (List.all_eq_true.mp all)]
    obtain ⟨d, rest, rfl⟩ : ∃ d more, rest = d :: more := by
      cases rest with
      | nil => cases head
      | cons d more => exact ⟨d, more, rfl⟩
    obtain rfl := Option.some.inj head
    rw [List.dropWhile_cons_of_neg (by rw [dark]; decide)]
  have front : (text ++ after).head? = some first := by
    cases text with
    | nil => cases head
    | cons d more => exact head
  unfold trimXmlWhitespace
  rw [List.append_assoc, skip white front dark, List.reverse_append,
    skip (by rwa [List.all_reverse]) (by rwa [List.head?_reverse]) darkLast, List.reverse_reverse]

/-- A trimmed text without whitespace is the same after normalisation. -/
theorem trim_newlines {text : Text} (dark : Dark (trimXmlWhitespace text)) :
    trimXmlWhitespace (normalizeNewlines text) = trimXmlWhitespace text := by
  obtain ⟨before, after, white, whiteAfter, parts⟩ := trim_parts text
  generalize trimXmlWhitespace text = trimmed at dark parts
  subst parts
  cases trimmed with
  | nil =>
      have all : (normalizeNewlines (before ++ [] ++ after)).all isXmlWhitespace = true := by
        apply newlinesFrom_white
        rw [List.append_nil, List.all_append, white, whiteAfter]
        rfl
      unfold trimXmlWhitespace
      rw [List.dropWhile_eq_nil_iff.mpr (List.all_eq_true.mp all)]
      rfl
  | cons c rest =>
      have first := dark c List.mem_cons_self
      have later : Dark rest := fun d member => dark d (List.mem_cons_of_mem _ member)
      obtain ⟨last, tail⟩ : ∃ last, (c :: rest).getLast? = some last :=
        ⟨_, List.getLast?_eq_some_getLast (List.cons_ne_nil c rest)⟩
      have shape : normalizeNewlines (before ++ c :: rest ++ after) = newlinesFrom false before ++
          (c :: rest) ++ newlinesFrom (if rest = [] then false else false) after := by
        unfold normalizeNewlines
        rw [List.append_assoc, List.cons_append, newlinesFrom_append first, later.newlinesFrom,
          List.append_assoc, List.cons_append]
      rw [shape]
      exact trim_between (newlinesFrom_white white _) (newlinesFrom_white whiteAfter _)
        rfl tail first
        (dark last (List.mem_of_getLast? tail))

/-- A validator that looks at the trimmed text only accepts what it accepted. -/
theorem Tight.newlines {isValid : Text → Bool} (tight : Tight isValid) {text : Text}
    (accepted : isValid text = true) : isValid (normalizeNewlines text) = true := by
  rwa [tight.trimmed (trim_newlines (tight.dark accepted))]

/-! ## Complex numbers -/

theorem complex_newlines {isFloatingPoint : Text → Bool} (nonempty : isFloatingPoint [] = false)
    (part : ∀ {text : Text}, isFloatingPoint text = true →
      isFloatingPoint (normalizeNewlines text) = true) {text : Text}
    (accepted : isComplexOf isFloatingPoint text = true) :
    isComplexOf isFloatingPoint (normalizeNewlines text) = true := by
  obtain ⟨before, after, white, whiteAfter, parts⟩ := trim_parts text
  unfold isComplexOf at accepted
  dsimp only at accepted
  generalize trimXmlWhitespace text = trimmed at accepted parts
  subst parts
  split at accepted
  · cases accepted
  rename_i form
  simp only [Bool.or_eq_true, decide_eq_true_eq, not_or, not_not, ne_eq, Nat.not_lt] at form
  obtain ⟨⟨-, opens⟩, closes⟩ := form
  obtain ⟨inner, rfl⟩ : ∃ inner, trimmed = ch '(' :: (inner ++ [ch ')']) := by
    obtain ⟨front, rfl⟩ := List.getLast?_eq_some_iff.mp closes
    cases front with
    | nil => cases opens
    | cons c inner =>
        obtain rfl : c = ch '(' := Option.some.inj opens
        exact ⟨inner, rfl⟩
  rw [List.drop_succ_cons, List.drop_zero, List.dropLast_concat] at accepted
  have comma : inner.dropWhile (· ≠ ch ',') ≠ [] := by
    intro none
    rw [none] at accepted
    cases accepted
  obtain ⟨d, imaginary, found⟩ := List.exists_cons_of_ne_nil comma
  have isComma : d = ch ',' := by
    have head := List.head?_dropWhile_not (fun c => decide (c ≠ ch ',')) inner
    rw [found, List.head?_cons] at head
    simpa using head
  subst isComma
  rw [found] at accepted
  simp only [Bool.and_eq_true, Bool.not_eq_true', List.contains_eq_mem, decide_eq_false_iff_not]
    at accepted
  obtain ⟨⟨single, real⟩, isImaginary⟩ := accepted
  have split' := List.takeWhile_append_dropWhile (p := fun c => decide (c ≠ ch ',')) (l := inner)
  rw [found] at split'
  have noComma : ch ',' ∉ inner.takeWhile (· ≠ ch ',') := by
    intro member
    have other := List.mem_takeWhile_imp member
    simp at other
  generalize inner.takeWhile (· ≠ ch ',') = realPart at *
  subst split'
  have darkOpen : isXmlWhitespace (ch '(') = false := by decide
  have darkClose : isXmlWhitespace (ch ')') = false := by decide
  have darkComma : isXmlWhitespace (ch ',') = false := by decide
  -- the parts are separated by characters that normalisation leaves alone
  have shape : normalizeNewlines
      (before ++ ch '(' :: (realPart ++ ch ',' :: imaginary ++ [ch ')']) ++
      after) = newlinesFrom false before ++
        (ch '(' :: (normalizeNewlines realPart ++ ch ',' :: normalizeNewlines imaginary ++
          [ch ')'])) ++
        newlinesFrom false after := by
    unfold normalizeNewlines
    rw [List.append_assoc, List.cons_append, newlinesFrom_append darkOpen, List.append_assoc,
      List.append_assoc, List.cons_append, newlinesFrom_append darkComma, List.append_assoc]
    simp only [List.cons_append, List.nil_append, List.append_assoc]
    rw [newlinesFrom_append darkClose]
  have trimmed := @trim_between (newlinesFrom false before)
    (ch '(' :: (normalizeNewlines realPart ++ ch ',' :: normalizeNewlines imaginary ++ [ch ')'])) _
    (ch '(') (ch ')')
    (newlinesFrom_white white _) (newlinesFrom_white whiteAfter false) rfl
    (by rw [← List.cons_append, List.getLast?_concat]) darkOpen darkClose
  have realAfter := part real
  have imaginaryAfter := part isImaginary
  have noCommaAfter : ch ',' ∉ normalizeNewlines realPart := fun member =>
    noComma (mem_newlinesFrom (by decide) member)
  have singleAfter : ch ',' ∉ normalizeNewlines imaginary := fun member =>
    single (mem_newlinesFrom (by decide) member)
  have someReal : normalizeNewlines realPart ≠ [] := by
    intro none
    rw [none, nonempty] at realAfter
    cases realAfter
  have someImaginary : normalizeNewlines imaginary ≠ [] := by
    intro none
    rw [none, nonempty] at imaginaryAfter
    cases imaginaryAfter
  unfold isComplexOf
  rw [shape, trimmed]
  generalize normalizeNewlines realPart = first, normalizeNewlines imaginary = second at *
  have firstLength := List.length_pos_iff.mpr someReal
  have secondLength := List.length_pos_iff.mpr someImaginary
  have passes : ∀ c ∈ first, decide (c ≠ ch ',') = true := fun c member =>
    decide_eq_true fun same => noCommaAfter (same ▸ member)
  dsimp only
  rw [if_neg, List.drop_succ_cons, List.drop_zero, List.dropLast_concat,
    List.takeWhile_append_of_pos passes, List.dropWhile_append_of_pos passes]
  · simp [realAfter, imaginaryAfter, singleAfter]
  · simp only [List.length_cons, List.length_append, List.length_nil, List.head?_cons,
      Bool.or_eq_true, decide_eq_true_eq, not_or, Nat.not_lt, not_not, ne_eq]
    refine ⟨⟨by omega, trivial⟩, ?_⟩
    rw [← List.cons_append, List.getLast?_concat]

/-! ## Entries -/

theorem scalar_newlines {type value : Text}
    (valid : Reader.isValidScalarOrComplexValue type value = true) :
    Reader.isValidScalarOrComplexValue type (normalizeNewlines value) = true := by
  unfold Reader.isValidScalarOrComplexValue at valid ⊢
  cases kind : Reader.classifyPropertyValueKind type with
  | boolean =>
      rw [kind] at valid
      exact boolean_tight.newlines valid
  | signedInteger =>
      rw [kind] at valid
      exact (integer_tight true _).newlines valid
  | unsignedInteger =>
      rw [kind] at valid
      exact (integer_tight false _).newlines valid
  | floatingPoint =>
      rw [kind] at valid
      exact floatingPoint_tight.newlines valid
  | complex =>
      rw [kind] at valid
      exact @complex_newlines Reader.isValidFloatingPointValue (by decide)
        (fun accepted => floatingPoint_tight.newlines accepted) value valid
  | other =>
      rw [kind] at valid
      exact valid

/-- An entry as the parser delivers its texts, before attribute-value normalisation. -/
def delivered (entry : MetadataWriteEntry) : MetadataWriteEntry :=
  { entry with
    value := normalizeNewlines entry.value
    comment := normalizeNewlines entry.comment
    format := normalizeNewlines entry.format }

theorem DirectValue.newlines {type value : Text} (valid : DirectValue type value) :
    DirectValue type (normalizeNewlines value) := by
  cases valid with
  | string => exact .string _
  | timePoint canonical =>
      rw [(dark_of_canonical canonical).newlines]
      exact .timePoint canonical
  | scalar category valid =>
      rw [scalar_agrees] at valid
      exact .scalar category (by rw [scalar_agrees]; exact scalar_newlines valid)

/-- A valid entry is valid as it is delivered. -/
theorem ValidEntry.delivered {entry : MetadataWriteEntry} (valid : ValidEntry entry) :
    ValidEntry (Mmxisf.delivered entry) := by
  cases valid with
  | fitsKeyword kind image name => exact .fitsKeyword kind image name
  | direct kind form name unit value => exact .direct kind form name unit value.newlines
  | block kind form name unit extents =>
      refine .block kind form name unit ?_
      cases extents with
      | vector category length => exact .vector category length
      | matrix category length => exact .matrix category length

end Mmxisf
