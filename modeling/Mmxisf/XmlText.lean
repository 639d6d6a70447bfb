/-
# XmlText -- which texts a writer takes, and what escaping makes of them

A header is a concatenation of texts that `escape_xml` made, each after
`is_valid_xml_utf8`.  Here a text is the encoding of a sequence of characters
that XML has; the check accepts just these, its loop reads no position outside
the text, and escaping keeps a text one of them, without markup, from which the
entities give the text back (`xmlText`).
-/
import Mmxisf.Library.Utf8
import Mmxisf.Reader.Positions
import Mmxisf.Writer.Texts

namespace Mmxisf.Writer

set_option autoImplicit false

open Library (bytes_inj codePoint_bounds encode_one encode_two encode_three encode_four exists_char)
open Reader (characterAt)

/-! ## The characters of XML -/

/-- No control character but the three of whitespace, and none of the two code
points that are no characters.  Surrogates are no `Char`. -/
structure IsXmlChar (c : Char) : Prop where
  control : c.toNat < 0x20 → c.toNat = 0x09 ∨ c.toNat = 0x0a ∨ c.toNat = 0x0d
  character : c.toNat ≠ 0xfffe ∧ c.toNat ≠ 0xffff

/-- The encoding of characters that XML has. -/
def IsXmlText (text : Text) : Prop :=
  ∃ characters : List Char, (∀ c ∈ characters, IsXmlChar c) ∧
    text = characters.flatMap String.utf8EncodeChar

/-! ## The loop, by position -/

/-- The inner loop; the inner `none` is a byte that continues nothing. -/
def continueCodePointAt (text : Text) : Nat → Nat → Nat → Option (Option Nat)
  | 0, _, codePoint => some (some codePoint)
  | count + 1, position, codePoint => do
      let byte ← characterAt text position
      if byte &&& 0xc0 ≠ 0x80 then return none
      continueCodePointAt text count (position + 1) (codePoint * 64 + (byte &&& 0x3f).toNat)

/-- The loop from an index on; `none` is a read outside the text, or a loop that
takes more rounds than there are bytes. -/
def isValidXmlUtf8FromAt (text : Text) : Nat → Nat → Option Bool
  | 0, index => if index < text.length then none else some true
  | fuel + 1, index => do
      if ¬ index < text.length then return true
      let lead ← characterAt text index
      match leadByte lead with
      | none => return false
      | some (bits, continuationCount) =>
          if continuationCount > text.length - index - 1 then return false
          match ← continueCodePointAt text continuationCount (index + 1) bits with
          | none => return false
          | some codePoint =>
              if isIllFormed continuationCount codePoint then return false
              if isXmlCharacter codePoint = false then return false
              isValidXmlUtf8FromAt text fuel (index + (continuationCount + 1))

def isValidXmlUtf8At (text : Text) : Option Bool := isValidXmlUtf8FromAt text text.length 0

section

variable {text rest after : Text} {lead : Byte} {index count bits codePoint : Nat}

/-- The inner loop reads what is announced, of a text that is long enough. -/
theorem continueCodePointAt_eq (inside : count ≤ text.length - index) :
    continueCodePointAt text count index codePoint =
      some ((continueCodePoint count codePoint (text.drop index)).map Prod.fst) := by
  induction count generalizing index codePoint with
  | zero => rfl
  | succ count ih =>
      have here : index < text.length := by omega
      have next : text.drop index = text[index] :: text.drop (index + 1) :=
        List.drop_eq_getElem_cons here
      rw [next]
      simp only [continueCodePointAt, continueCodePoint, characterAt, List.getElem?_eq_getElem here,
        Option.bind_eq_bind, Option.bind_some]
      split
      · rfl
      · exact ih (by omega)

/-- What the inner loop leaves. -/
theorem continueCodePoint_rest {value : Nat}
    (continued : continueCodePoint count codePoint rest = some (value, after)) :
    after = rest.drop count := by
  induction count generalizing codePoint rest with
  | zero =>
      obtain ⟨-, rfl⟩ := Prod.mk.inj (Option.some.inj continued)
      rfl
  | succ count ih =>
      cases rest with
      | nil => cases continued
      | cons byte rest =>
          unfold continueCodePoint at continued
          split at continued
          · cases continued
          · exact ih continued

/-- The loop reads no position outside the text. -/
theorem isValidXmlUtf8FromAt_eq : ∀ {fuel index : Nat}, text.length - index ≤ fuel →
    isValidXmlUtf8FromAt text fuel index = some (isValidXmlUtf8From fuel (text.drop index)) := by
  intro fuel
  induction fuel with
  | zero =>
      intro index enough
      have done : ¬ index < text.length := by omega
      have nothing : text.drop index = [] := List.drop_eq_nil_of_le (by omega)
      rw [isValidXmlUtf8FromAt, if_neg done, nothing]
      rfl
  | succ fuel ih =>
      intro index enough
      by_cases here : index < text.length
      · have next : text.drop index = text[index] :: text.drop (index + 1) :=
          List.drop_eq_getElem_cons here
        rw [isValidXmlUtf8FromAt, if_neg (not_not.mpr here), next]
        simp only [isValidXmlUtf8From, characterAt, List.getElem?_eq_getElem here,
          Option.bind_eq_bind, Option.bind_some]
        cases announced : leadByte text[index] with
        | none => rfl
        | some both =>
            obtain ⟨bits, continuationCount⟩ := both
            have same : text.length - index - 1 = (text.drop (index + 1)).length := by
              rw [List.length_drop]
              omega
            simp only [same]
            by_cases short : continuationCount > (text.drop (index + 1)).length
            · rw [if_pos short, if_pos short]
              rfl
            · rw [if_neg short, if_neg short,
                continueCodePointAt_eq (by rw [List.length_drop] at short; omega)]
              cases continued : continueCodePoint continuationCount bits
                (text.drop (index + 1)) with
              | none => rfl
              | some both =>
                  obtain ⟨codePoint, after⟩ := both
                  have left := continueCodePoint_rest continued
                  rw [List.drop_drop] at left
                  simp only [Option.map_some, Option.bind_some]
                  split
                  · rfl
                  split
                  · rfl
                  · rw [ih (by omega), left]
                    congr 3
                    omega
      · have nothing : text.drop index = [] := List.drop_eq_nil_of_le (by omega)
        rw [isValidXmlUtf8FromAt, if_pos here, nothing]
        rfl

end

/-! ## Bytes as numbers -/

theorem continuation_nat : ∀ n < 256, (n &&& 0xc0 = 0x80 ↔ 0x80 ≤ n ∧ n < 0xc0) := by decide +kernel

theorem isContinuation_iff (byte : Byte) :
    byte &&& 0xc0 = 0x80 ↔ 0x80 ≤ byte.toNat ∧ byte.toNat < 0xc0 := by
  rw [← continuation_nat _ byte.toNat_lt, ← UInt8.toNat_inj, UInt8.toNat_and]
  exact Iff.rfl

/-- A mask of low bits. -/
theorem and_mask (byte mask : Byte) (width : Nat) (low : mask.toNat = 2 ^ width - 1) :
    (byte &&& mask).toNat = byte.toNat % 2 ^ width := by
  rw [UInt8.toNat_and, low, Nat.and_two_pow_sub_one_eq_mod]

/-- The four kinds of lead bytes, and the bits that each has. -/
theorem leadByte_iff {lead : Byte} {bits count : Nat} : leadByte lead = some (bits, count) ↔
    (count = 0 ∧ lead.toNat < 0x80 ∧ bits = lead.toNat) ∨
    (count = 1 ∧ (0xc2 ≤ lead.toNat ∧ lead.toNat ≤ 0xdf) ∧ bits = lead.toNat - 0xc0) ∨
    (count = 2 ∧ (0xe0 ≤ lead.toNat ∧ lead.toNat ≤ 0xef) ∧ bits = lead.toNat - 0xe0) ∨
    (count = 3 ∧ (0xf0 ≤ lead.toNat ∧ lead.toNat ≤ 0xf4) ∧ bits = lead.toNat - 0xf0) := by
  have five := and_mask lead 0x1f 5 rfl
  have four := and_mask lead 0x0f 4 rfl
  have three := and_mask lead 0x07 3 rfl
  have bound := lead.toNat_lt
  unfold leadByte
  simp only [UInt8.lt_iff_toNat_lt, UInt8.le_iff_toNat_le, five, four, three]
  simp only [UInt8.reduceToNat]
  split
  · simp only [Option.some.injEq, Prod.mk.injEq]
    omega
  split
  · simp only [Option.some.injEq, Prod.mk.injEq]
    omega
  split
  · simp only [Option.some.injEq, Prod.mk.injEq]
    omega
  split
  · simp only [Option.some.injEq, Prod.mk.injEq]
    omega
  · simp only [reduceCtorEq, false_iff]
    omega

/-- The continuation bytes are read from the front, six bits of each. -/
theorem continueCodePoint_iff {count bits codePoint : Nat} {rest after : Text} :
    continueCodePoint count bits rest = some (codePoint, after) ↔
      ∃ tails, rest = tails ++ after ∧ tails.length = count ∧
        (∀ byte ∈ tails, 0x80 ≤ byte.toNat ∧ byte.toNat < 0xc0) ∧
        codePoint = tails.foldl (fun value byte => value * 64 + byte.toNat % 64) bits := by
  induction count generalizing bits rest with
  | zero =>
      simp only [continueCodePoint, Option.some.injEq, Prod.mk.injEq]
      constructor
      · rintro ⟨rfl, rfl⟩
        exact ⟨[], rfl, rfl, by simp, rfl⟩
      · rintro ⟨tails, rfl, empty, -, rfl⟩
        rw [List.length_eq_zero_iff.mp empty]
        exact ⟨rfl, rfl⟩
  | succ count ih =>
      cases rest with
      | nil =>
          constructor
          · rintro ⟨⟩
          · rintro ⟨tails, whole, long, -⟩
            have lengths := congrArg List.length whole
            rw [List.length_append, List.length_nil] at lengths
            omega
      | cons byte rest =>
          have low := and_mask byte 0x3f 6 rfl
          unfold continueCodePoint
          by_cases continues : byte &&& 0xc0 = 0x80
          · rw [if_neg (not_not.mpr continues), ih, low]
            have range := (isContinuation_iff byte).mp continues
            constructor
            · rintro ⟨tails, rfl, rfl, ranges, rfl⟩
              exact ⟨byte :: tails, rfl, rfl, List.forall_mem_cons.mpr ⟨range, ranges⟩, rfl⟩
            · rintro ⟨tails, whole, long, ranges, rfl⟩
              cases tails with
              | nil => cases long
              | cons first tails =>
                  obtain ⟨rfl, rfl⟩ := List.cons.inj whole
                  exact ⟨tails, rfl, Nat.succ.inj long, (List.forall_mem_cons.mp ranges).2, rfl⟩
          · rw [if_pos continues]
            constructor
            · rintro ⟨⟩
            · rintro ⟨tails, whole, long, ranges, -⟩
              cases tails with
              | nil => cases long
              | cons first tails =>
                  obtain ⟨rfl, rfl⟩ := List.cons.inj whole
                  exact absurd ((isContinuation_iff byte).mpr (List.forall_mem_cons.mp ranges).1)
                    continues

/-! ## One round -/

/-- The checks on a code point are those on a character. -/
theorem isXmlCharacter_iff (c : Char) : isXmlCharacter c.toNat = true ↔ IsXmlChar c := by
  have valid := codePoint_bounds c
  unfold isXmlCharacter
  simp only [Bool.or_eq_true, Bool.and_eq_true, decide_eq_true_eq]
  constructor
  · intro inRange
    constructor <;> omega
  · rintro ⟨control, character⟩
    omega

theorem isIllFormed_iff {count codePoint : Nat} : isIllFormed count codePoint = false ↔
    ((count = 2 → 0x800 ≤ codePoint) ∧ (count = 3 → 0x10000 ≤ codePoint)) ∧
      (codePoint < 0xd800 ∨ 0xdfff < codePoint ∧ codePoint < 0x110000) := by
  unfold isIllFormed
  simp only [Bool.or_eq_false_iff, Bool.and_eq_false_iff, decide_eq_false_iff_not]
  omega

/-- What one round takes: a lead byte, its continuation bytes, and their checks. -/
def TakesCharacter (text after : Text) (codePoint : Nat) : Prop :=
  ∃ lead rest bits count, text = lead :: rest ∧ leadByte lead = some (bits, count) ∧
    continueCodePoint count bits rest = some (codePoint, after) ∧
    isIllFormed count codePoint = false

/-- A round takes the encoding of the character of its code point. -/
theorem takesCharacter_iff (c : Char) (text after : Text) :
    TakesCharacter text after c.toNat ↔ text = String.utf8EncodeChar c ++ after := by
  have valid := codePoint_bounds c
  constructor
  · rintro ⟨lead, rest, bits, count, rfl, announced, continued, wellFormed⟩
    obtain ⟨tails, rfl, long, ranges, value⟩ := continueCodePoint_iff.mp continued
    obtain ⟨shortest, -⟩ := isIllFormed_iff.mp wellFormed
    rw [← List.cons_append]
    congr 1
    apply bytes_inj
    rcases leadByte_iff.mp announced with ⟨one, range, low⟩ | ⟨two, range, low⟩ |
      ⟨three, range, low⟩ |
      ⟨four, range, low⟩
    · subst one
      rw [List.length_eq_zero_iff.mp long] at value ⊢
      rw [List.foldl_nil, low] at value
      rw [encode_one (by omega), value]
      rfl
    · subst two
      obtain ⟨b, rfl⟩ := List.length_eq_one_iff.mp long
      simp only [List.foldl_cons, List.foldl_nil] at value
      simp only [List.mem_cons, List.not_mem_nil, or_false, forall_eq] at ranges
      rw [encode_two (by omega)]
      simp only [List.map_cons, List.map_nil, List.cons.injEq, and_true]
      omega
    · subst three
      obtain ⟨b, d, rfl⟩ := List.length_eq_two.mp long
      simp only [List.foldl_cons, List.foldl_nil] at value
      simp only [List.forall_mem_cons, List.not_mem_nil, false_implies, implies_true, and_true]
        at ranges
      have least := shortest.1 rfl
      rw [encode_three (by omega)]
      simp only [List.map_cons, List.map_nil, List.cons.injEq, and_true]
      omega
    · subst four
      obtain ⟨b, d, e, rfl⟩ := List.length_eq_three.mp long
      simp only [List.foldl_cons, List.foldl_nil] at value
      simp only [List.forall_mem_cons, List.not_mem_nil, false_implies, implies_true, and_true]
        at ranges
      have least := shortest.2 rfl
      rw [encode_four (by omega)]
      simp only [List.map_cons, List.map_nil, List.cons.injEq, and_true]
      omega
  · rintro rfl
    -- a lead byte and continuation bytes of the right numbers make a round
    have takes {lead : Byte} {tails : Text} {bits : Nat}
        (encoded : String.utf8EncodeChar c = lead :: tails)
        (announced : leadByte lead = some (bits, tails.length))
        (ranges : ∀ byte ∈ tails, 0x80 ≤ byte.toNat ∧ byte.toNat < 0xc0)
        (value : c.toNat = tails.foldl (fun value byte => value * 64 + byte.toNat % 64) bits)
        (shortest : (tails.length = 2 → 0x800 ≤ c.toNat) ∧ (tails.length = 3 → 0x10000 ≤ c.toNat)) :
        TakesCharacter (String.utf8EncodeChar c ++ after) after c.toNat := by
      refine ⟨lead, tails ++ after, bits, tails.length,
        by rw [encoded, List.cons_append], announced,
        ?_, isIllFormed_iff.mpr ⟨shortest, valid⟩⟩
      exact continueCodePoint_iff.mpr ⟨tails, rfl, rfl, ranges, value⟩
    by_cases one : c.toNat < 0x80
    · have encoded := encode_one one
      simp only [List.map_eq_cons_iff, List.map_eq_nil_iff] at encoded
      obtain ⟨a, tails, encoded, first, rfl⟩ := encoded
      refine takes encoded (leadByte_iff.mpr (.inl ⟨rfl, by omega, rfl⟩)) ?_ ?_ ?_
      · simp
      · exact first.symm
      · simp
    by_cases two : c.toNat < 0x800
    · have encoded := encode_two (c := c) (by omega)
      simp only [List.map_eq_cons_iff, List.map_eq_nil_iff] at encoded
      obtain ⟨a, _, encoded, first, b, _, rfl, second, rfl⟩ := encoded
      refine takes encoded (leadByte_iff.mpr (.inr (.inl ⟨rfl, by omega, rfl⟩))) ?_ ?_ ?_
      · simp
        omega
      · simp only [List.foldl_cons, List.foldl_nil]
        omega
      · simp
    by_cases three : c.toNat < 0x10000
    · have encoded := encode_three (c := c) (by omega)
      simp only [List.map_eq_cons_iff, List.map_eq_nil_iff] at encoded
      obtain ⟨a, _, encoded, first, b, _, rfl, second, d, _, rfl, third, rfl⟩ := encoded
      refine takes encoded (leadByte_iff.mpr (.inr (.inr (.inl ⟨rfl, by omega, rfl⟩)))) ?_ ?_ ?_
      · simp
        omega
      · simp only [List.foldl_cons, List.foldl_nil]
        omega
      · simp
        omega
    · have encoded := encode_four (c := c) (by omega)
      simp only [List.map_eq_cons_iff, List.map_eq_nil_iff] at encoded
      obtain ⟨a, _, encoded, first, b, _, rfl, second, d, _, rfl, third, e, _, rfl, fourth, rfl⟩ :=
        encoded
      refine takes encoded (leadByte_iff.mpr (.inr (.inr (.inr ⟨rfl, by omega, rfl⟩)))) ?_ ?_ ?_
      · simp
        omega
      · simp only [List.foldl_cons, List.foldl_nil]
        omega
      · simp
        omega

/-! ## The language -/

theorem isXmlText_cons (c : Char) (isXmlChar : IsXmlChar c) {after : Text}
    (isXmlText : IsXmlText after) :
    IsXmlText (String.utf8EncodeChar c ++ after) := by
  obtain ⟨characters, all, rfl⟩ := isXmlText
  exact ⟨c :: characters, List.forall_mem_cons.mpr ⟨isXmlChar, all⟩, rfl⟩

/-- A round and what it leaves to the later ones. -/
theorem isValidXmlUtf8From_succ {fuel : Nat} {lead : Byte} {rest : Text} :
    isValidXmlUtf8From (fuel + 1) (lead :: rest) = true ↔ ∃ codePoint after,
      TakesCharacter (lead :: rest) after codePoint ∧ isXmlCharacter codePoint = true ∧
        isValidXmlUtf8From fuel after = true := by
  rw [isValidXmlUtf8From]
  constructor
  · intro accepted
    split at accepted
    · cases accepted
    rename_i bits count announced
    split at accepted
    · cases accepted
    split at accepted
    · cases accepted
    rename_i codePoint after continued
    split at accepted
    · cases accepted
    rename_i wellFormed
    split at accepted
    · cases accepted
    rename_i isCharacter
    exact ⟨codePoint, after, ⟨lead, rest, bits, count, rfl, announced, continued,
      by simpa using wellFormed⟩,
      by simpa using isCharacter, accepted⟩
  · rintro ⟨codePoint, after, ⟨lead', rest', bits, count, whole, announced, continued, wellFormed⟩,
      isCharacter, accepted⟩
    obtain ⟨rfl, rfl⟩ := List.cons.inj whole
    have long : ¬ count > rest.length := by
      obtain ⟨tails, rfl, rfl, -⟩ := continueCodePoint_iff.mp continued
      rw [List.length_append]
      omega
    simp only [announced, long, continued, wellFormed, isCharacter, accepted, if_false,
      Bool.false_eq_true, Bool.true_eq_false]

theorem isValidXmlUtf8From_iff : ∀ {fuel : Nat} {text : Text}, text.length ≤ fuel →
    (isValidXmlUtf8From fuel text = true ↔ IsXmlText text) := by
  intro fuel
  induction fuel with
  | zero =>
      intro text enough
      obtain rfl : text = [] := List.eq_nil_of_length_eq_zero (by omega)
      exact ⟨fun _ => ⟨[], by simp, rfl⟩, fun _ => rfl⟩
  | succ fuel ih =>
      intro text enough
      cases text with
      | nil => exact ⟨fun _ => ⟨[], by simp, rfl⟩, fun _ => rfl⟩
      | cons lead rest =>
          rw [isValidXmlUtf8From_succ]
          constructor
          · rintro ⟨codePoint, after, takes, isCharacter, accepted⟩
            have valid : codePoint < 0xd800 ∨ 0xdfff < codePoint ∧ codePoint < 0x110000 := by
              obtain ⟨lead, rest, bits, count, -, -, -, wellFormed⟩ := takes
              exact (isIllFormed_iff.mp wellFormed).2
            obtain ⟨c, rfl⟩ := exists_char valid
            have split := (takesCharacter_iff c _ _).mp takes
            have shorter : after.length ≤ fuel := by
              have lengths := congrArg List.length split
              have positive := Char.utf8Size_pos c
              rw [List.length_append, String.length_utf8EncodeChar] at lengths
              omega
            rw [split]
            exact isXmlText_cons c ((isXmlCharacter_iff c).mp isCharacter)
              ((ih shorter).mp accepted)
          · rintro ⟨characters, all, whole⟩
            cases characters with
            | nil => cases whole
            | cons c characters =>
                rw [List.flatMap_cons] at whole
                rw [List.forall_mem_cons] at all
                have shorter : (characters.flatMap String.utf8EncodeChar).length ≤ fuel := by
                  have lengths := congrArg List.length whole
                  have positive := Char.utf8Size_pos c
                  rw [List.length_append, String.length_utf8EncodeChar] at lengths
                  omega
                exact ⟨c.toNat, _, (takesCharacter_iff c _ _).mpr whole,
                  (isXmlCharacter_iff c).mpr all.1,
                  (ih shorter).mpr ⟨characters, all.2, rfl⟩⟩

theorem isValidXmlUtf8_iff (text : Text) : isValidXmlUtf8 text = true ↔ IsXmlText text :=
  isValidXmlUtf8From_iff (Nat.le_refl _)

/-! ## Escaping -/

/-- The entities of XML that escaping introduces, and what they stand for. -/
def entities : List (Text × Byte) :=
  [(lit "&amp;", ch '&'), (lit "&lt;", ch '<'), (lit "&gt;", ch '>'), (lit "&quot;", ch '"')]

/-- The entities of a text expanded from its front, `skip` characters of one
still to come. -/
def expandFrom : Nat → Text → Text
  | _, [] => []
  | skip + 1, _ :: rest => expandFrom skip rest
  | 0, c :: rest =>
      match entities.find? (fun entity => entity.1.isPrefixOf (c :: rest)) with
      | some (name, character) => character :: expandFrom (name.length - 1) rest
      | none => c :: expandFrom 0 rest

def expandEntities (text : Text) : Text := expandFrom 0 text

/-- The characters that escaping replaces. -/
def IsMarkup (c : Byte) : Prop := c = ch '&' ∨ c = ch '<' ∨ c = ch '>' ∨ c = ch '"'

section

variable {text : Text} {c : Byte} {inAttribute : Bool}

theorem escapeCharacter_plain (plain : ¬ IsMarkup c) : escapeCharacter inAttribute c = [c] := by
  unfold IsMarkup at plain
  simp only [not_or] at plain
  obtain ⟨notAnd, notLess, notGreater, notQuote⟩ := plain
  unfold escapeCharacter
  rw [if_neg notAnd, if_neg notLess, if_neg notGreater, if_neg notQuote]

/-- No character's replacement has markup, and none in an attribute a quote. -/
theorem escapeCharacter_free (c : Byte) (inAttribute : Bool) :
    ch '<' ∉ escapeCharacter inAttribute c ∧ ch '>' ∉ escapeCharacter inAttribute c ∧
      (inAttribute = true → ch '"' ∉ escapeCharacter inAttribute c) := by
  by_cases markup : IsMarkup c
  · rcases markup with rfl | rfl | rfl | rfl <;> cases inAttribute <;> decide
  · rw [escapeCharacter_plain markup]
    unfold IsMarkup at markup
    simp only [not_or] at markup
    obtain ⟨-, notLess, notGreater, notQuote⟩ := markup
    simp only [List.mem_singleton]
    exact ⟨Ne.symm notLess, Ne.symm notGreater, fun _ => Ne.symm notQuote⟩

/-- Expanding undoes the replacement of a character. -/
theorem expand_escapeCharacter (c : Byte) (inAttribute : Bool) (rest : Text) :
    expandFrom 0 (escapeCharacter inAttribute c ++ rest) = c :: expandFrom 0 rest := by
  have plain {c : Byte} (other : c ≠ ch '&') : expandFrom 0 (c :: rest) = c ::
      expandFrom 0 rest := by
    have begins : ∀ entity ∈ entities, ∃ name, entity.1 = ch '&' :: name := by
      simp only [entities, List.forall_mem_cons]
      exact ⟨⟨_, rfl⟩, ⟨_, rfl⟩, ⟨_, rfl⟩, ⟨_, rfl⟩, by simp⟩
    have none : entities.find? (fun entity => entity.1.isPrefixOf (c :: rest)) = none := by
      rw [List.find?_eq_none]
      intro entity member isPrefix
      obtain ⟨name, whole⟩ := begins entity member
      rw [whole, List.isPrefixOf_cons_cons, Bool.and_eq_true, beq_iff_eq] at isPrefix
      exact other isPrefix.1.symm
    rw [expandFrom, none]
  by_cases markup : IsMarkup c
  · rcases markup with rfl | rfl | rfl | rfl
    · rfl
    · rfl
    · rfl
    · cases inAttribute with
      | false => exact plain (by decide)
      | true => rfl
  · rw [escapeCharacter_plain markup]
    exact plain fun isAnd => markup (.inl isAnd)

theorem isXmlText_append {first second : Text} (isFirst : IsXmlText first)
    (isSecond : IsXmlText second) : IsXmlText (first ++ second) := by
  obtain ⟨characters, all, rfl⟩ := isFirst
  obtain ⟨more, all', rfl⟩ := isSecond
  refine ⟨characters ++ more, ?_, by rw [List.flatMap_append]⟩
  intro c member
  exact (List.mem_append.mp member).elim (all c) (all' c)

/-- The replacement of markup is a text of its own. -/
theorem isXmlText_markup (markup : IsMarkup c) : IsXmlText (escapeCharacter inAttribute c) := by
  apply (isValidXmlUtf8_iff _).mp
  rcases markup with rfl | rfl | rfl | rfl <;> cases inAttribute <;> decide

/-- The bytes of a character beyond the first 128 are no markup. -/
theorem encoded_plain {c : Char} (large : ¬ c.toNat < 0x80) :
    ∀ byte ∈ String.utf8EncodeChar c, ¬ IsMarkup byte := by
  have high : ∀ byte ∈ String.utf8EncodeChar c, 0x80 ≤ byte.toNat := by
    intro byte member
    have number := List.mem_map_of_mem (f := UInt8.toNat) member
    by_cases two : c.toNat < 0x800
    · rw [encode_two (by omega)] at number
      simp only [List.mem_cons, List.not_mem_nil, or_false] at number
      omega
    by_cases three : c.toNat < 0x10000
    · rw [encode_three (by omega)] at number
      simp only [List.mem_cons, List.not_mem_nil, or_false] at number
      omega
    · rw [encode_four (by omega)] at number
      simp only [List.mem_cons, List.not_mem_nil, or_false] at number
      omega
  intro byte member markup
  have beyond := high byte member
  rcases markup with rfl | rfl | rfl | rfl <;> exact absurd beyond (by decide)

theorem isXmlText_escapeChar {c : Char} (isXmlChar : IsXmlChar c) :
    IsXmlText ((String.utf8EncodeChar c).flatMap (escapeCharacter inAttribute)) := by
  have whole : IsXmlText (String.utf8EncodeChar c) := by
    have single := @isXmlText_cons c isXmlChar [] ⟨[], by simp, rfl⟩
    rwa [List.append_nil] at single
  have unchanged (plain : ∀ byte ∈ String.utf8EncodeChar c, ¬ IsMarkup byte) :
      (String.utf8EncodeChar c).flatMap (escapeCharacter inAttribute) =
      String.utf8EncodeChar c := by
    rw [List.flatMap_congr fun byte member => escapeCharacter_plain (plain byte member)]
    exact List.flatMap_singleton' _
  by_cases small : c.toNat < 0x80
  · have encoded := encode_one small
    simp only [List.map_eq_cons_iff, List.map_eq_nil_iff] at encoded
    obtain ⟨byte, _, encoded, -, rfl⟩ := encoded
    by_cases markup : IsMarkup byte
    · rw [encoded, List.flatMap_singleton]
      exact isXmlText_markup markup
    · rw [unchanged]
      · exact whole
      · rw [encoded]
        simpa using markup
  · rw [unchanged (encoded_plain small)]
    exact whole

theorem isXmlText_escape (isXmlText : IsXmlText text) :
    IsXmlText (text.flatMap (escapeCharacter inAttribute)) := by
  obtain ⟨characters, all, rfl⟩ := isXmlText
  induction characters with
  | nil => exact ⟨[], by simp, rfl⟩
  | cons c characters ih =>
      rw [List.forall_mem_cons] at all
      rw [List.flatMap_cons, List.flatMap_append]
      exact isXmlText_append (isXmlText_escapeChar all.1) (ih all.2)

theorem expand_escape (text : Text) (inAttribute : Bool) :
    expandEntities (text.flatMap (escapeCharacter inAttribute)) = text := by
  unfold expandEntities
  induction text with
  | nil => rfl
  | cons c text ih => rw [List.flatMap_cons, expand_escapeCharacter, ih]

end

/-- What escaping owes for a text that it takes. -/
structure Escapes (text : Text) (inAttribute : Bool) (output : Text) : Prop where
  accepted : isValidXmlUtf8 output = true
  noLess : ch '<' ∉ output
  noGreater : ch '>' ∉ output
  noQuote : inAttribute = true → ch '"' ∉ output
  expands : expandEntities output = text

theorem escapes_of_valid {text : Text} (valid : isValidXmlUtf8 text = true) (inAttribute : Bool) :
    Escapes text inAttribute (text.flatMap (escapeCharacter inAttribute)) := by
  constructor
  · exact (isValidXmlUtf8_iff _).mpr (isXmlText_escape ((isValidXmlUtf8_iff text).mp valid))
  · rw [List.mem_flatMap]
    rintro ⟨c, -, member⟩
    exact (escapeCharacter_free c inAttribute).1 member
  · rw [List.mem_flatMap]
    rintro ⟨c, -, member⟩
    exact (escapeCharacter_free c inAttribute).2.1 member
  · intro quoted
    rw [List.mem_flatMap]
    rintro ⟨c, -, member⟩
    exact (escapeCharacter_free c inAttribute).2.2 quoted member
  · exact expand_escape text inAttribute

/-- The texts that a writer takes are the encodings of the characters of XML, no
position outside a text is read, and what escaping makes of a text that is taken
is one again, has no markup, and is the text once its entities are expanded. -/
theorem xmlText (text : Text) :
    isValidXmlUtf8At text = some (isValidXmlUtf8 text) ∧
    (isValidXmlUtf8 text = true ↔ IsXmlText text) ∧
    ∀ inAttribute, if isValidXmlUtf8 text = true then
        ∃ output, escapeXml text inAttribute = .ok output ∧ Escapes text inAttribute output
      else (escapeXml text inAttribute).isOk = false := by
  refine ⟨?_, isValidXmlUtf8_iff text, ?_⟩
  · have whole := @isValidXmlUtf8FromAt_eq text text.length 0 (by omega)
    rwa [List.drop_zero] at whole
  · intro inAttribute
    split
    · rename_i valid
      refine ⟨_, ?_, escapes_of_valid valid inAttribute⟩
      simp [escapeXml, valid, reject]
    · rename_i refused
      rw [Bool.not_eq_true] at refused
      simp only [escapeXml, refused, reject, if_true]
      rfl

end Mmxisf.Writer
