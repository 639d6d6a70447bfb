/-
# TidyTexts -- the texts that XML leaves alone

A text of visible ASCII characters other than the four that are escaped is the same
before and after escaping, in a header and as a parser reports it (`Tidy`).  Numbers,
identifiers, type names and the texts that describe a block are all tidy.
-/
import Mmxisf.Descriptors
import Mmxisf.Newlines
import Mmxisf.StoredBlocks

namespace Mmxisf

set_option autoImplicit false

open Writer (Plain decimal)

/-- Visible in ASCII, and not escaped. -/
def isTidy (c : Byte) : Bool :=
  33 ≤ c && c ≤ 126 && c ≠ ch '&' && c ≠ ch '<' && c ≠ ch '>' && c ≠ ch '"'

def Tidy (text : Text) : Prop := text.all isTidy = true

instance instDecidableTidy (text : Text) : Decidable (Tidy text) :=
  inferInstanceAs (Decidable (text.all isTidy = true))

/-! ## What becomes of them -/

section

variable {text more : Text}

theorem tidy_iff : Tidy text ↔ ∀ c ∈ text, isTidy c = true := List.all_eq_true

theorem Tidy.nil : Tidy [] := rfl

theorem Tidy.append (tidy : Tidy text) (tidyMore : Tidy more) : Tidy (text ++ more) := by
  unfold Tidy at tidy tidyMore ⊢
  rw [List.all_append, tidy, tidyMore]
  rfl

theorem Tidy.cons {c : Byte} (first : isTidy c = true) (tidy : Tidy text) : Tidy (c :: text) := by
  unfold Tidy at tidy ⊢
  rw [List.all_cons, first, tidy]
  rfl

theorem Tidy.flatMap {α : Type} {items : List α} {textOf : α → Text}
    (tidy : ∀ item ∈ items, Tidy (textOf item)) : Tidy (items.flatMap textOf) := by
  rw [tidy_iff]
  intro c member
  obtain ⟨item, there, member⟩ := List.mem_flatMap.mp member
  exact tidy_iff.mp (tidy item there) c member

/-- The bytes one by one. -/
theorem isTidy_of {isMember : Byte → Bool}
    (known : ∀ n < 256, isMember (UInt8.ofNat n) = true → isTidy (UInt8.ofNat n) = true) {c : Byte}
    (member : isMember c = true) : isTidy c = true := by
  rw [← UInt8.ofNat_toNat (x := c)] at member ⊢
  exact known c.toNat c.toNat_lt member

theorem tidy_of {isMember : Byte → Bool}
    (known : ∀ n < 256, isMember (UInt8.ofNat n) = true → isTidy (UInt8.ofNat n) = true)
    (all : text.all isMember = true) : Tidy text :=
  tidy_iff.mpr fun c member => isTidy_of known (List.all_eq_true.mp all c member)

theorem isTidy_parts {c : Byte} (tidy : isTidy c = true) :
    (33 ≤ c.toNat ∧ c.toNat ≤ 126) ∧ c ≠ ch '&' ∧ c ≠ ch '<' ∧ c ≠ ch '>' ∧ c ≠ ch '"' := by
  simp only [isTidy, Bool.and_eq_true, decide_eq_true_eq, UInt8.le_iff_toNat_le] at tidy
  obtain ⟨⟨⟨⟨⟨low, high⟩, ampersand⟩, less⟩, greater⟩, quote⟩ := tidy
  exact ⟨⟨low, high⟩, ampersand, less, greater, quote⟩

theorem Tidy.plain (tidy : Tidy text) : Plain text :=
  Writer.plain_of_forall fun c member => (isTidy_parts (tidy_iff.mp tidy c member)).2

theorem Tidy.dark (tidy : Tidy text) : Dark text := by
  intro c member
  obtain ⟨⟨low, -⟩, -⟩ := isTidy_parts (tidy_iff.mp tidy c member)
  have apart : ∀ d : Byte, d.toNat < 33 → c ≠ d := by
    rintro d small rfl
    omega
  have blank := apart (ch ' ') (by decide)
  have tab := apart (ch '\t') (by decide)
  have feed := apart (ch '\n') (by decide)
  have carriage := apart (ch '\r') (by decide)
  simp [isXmlWhitespace, blank, tab, feed, carriage]

/-- What a parser makes of the value of an attribute. -/
def attributeText (text : Text) : Text := normalizeValue (normalizeNewlines text)

theorem Tidy.attributeText (tidy : Tidy text) : Mmxisf.attributeText text = text := by
  rw [Mmxisf.attributeText, tidy.dark.newlines, tidy.dark.normalize]

/-- A tidy text is valid XML. -/
theorem Tidy.legal (tidy : Tidy text) : Writer.isValidXmlUtf8 text = true := by
  have walk : ∀ (text : Text) (fuel : Nat), Tidy text → text.length ≤ fuel →
      Writer.isValidXmlUtf8From fuel text = true := by
    intro text
    induction text with
    | nil =>
        intro fuel _ _
        unfold Writer.isValidXmlUtf8From
        rfl
    | cons c rest ih =>
        intro fuel tidy enough
        obtain ⟨fuel, rfl⟩ : ∃ less, fuel = less + 1 := by
          rw [List.length_cons] at enough
          exact ⟨fuel - 1, by omega⟩
        unfold Tidy at tidy
        rw [List.all_cons, Bool.and_eq_true] at tidy
        obtain ⟨⟨low, high⟩, -⟩ := isTidy_parts tidy.1
        have ascii : Writer.leadByte c = some (c.toNat, 0) := by
          have small : c < 128 := by
            rw [UInt8.lt_iff_toNat_lt]
            exact Nat.lt_of_le_of_lt high (by decide)
          exact if_pos small
        have legal : Writer.isIllFormed 0 c.toNat = false ∧
            Writer.isXmlCharacter c.toNat = true := by
          constructor
          · have inRange : ¬ c.toNat > 1114111 := by omega
            have notSurrogate : ¬ 55296 ≤ c.toNat := by omega
            simp [Writer.isIllFormed, inRange, notSurrogate]
          · have visible : 32 ≤ c.toNat ∧ c.toNat ≤ 55295 := by omega
            simp [Writer.isXmlCharacter, visible]
        rw [Writer.isValidXmlUtf8From, ascii]
        simp only [Writer.continueCodePoint, legal.1, legal.2]
        exact ih fuel tidy.2 (by simpa using enough)
  exact walk text _ tidy le_rfl

end

/-! ## Which texts they are -/

theorem decimal_tidy (n : Nat) : Tidy (decimal n) :=
  tidy_of (by decide +kernel) (Writer.decimal_digits n)

theorem attachmentLocation_tidy (offset size : Nat) :
    Tidy (Writer.attachmentLocation offset size) := by
  have start : Tidy (lit "attachment:") := by decide
  exact ((start.append (decimal_tidy offset)).append (by decide)).append (decimal_tidy size)

theorem classified_tidy {type : Text} (classified : classifyPropertyType type ≠ .unknown) :
    Tidy type := by
  have scalar : ∀ type ∈ scalarAndComplexTypes, Tidy type := by decide
  have vector : ∀ type ∈ vectorTypes, Tidy type := by decide
  have matrix : ∀ type ∈ matrixTypes, Tidy type := by decide
  unfold classifyPropertyType at classified
  by_cases isScalar : type ∈ scalarAndComplexTypes
  · exact scalar type isScalar
  by_cases isString : type = lit "String"
  · rw [isString]
    decide
  by_cases isTime : type = lit "TimePoint"
  · rw [isTime]
    decide
  by_cases isVector : type ∈ vectorTypes
  · exact vector type isVector
  by_cases isMatrix : type ∈ matrixTypes
  · exact matrix type isMatrix
  · simp [isScalar, isString, isTime, isVector, isMatrix] at classified

theorem keywordName_tidy {name : Text} (valid : Writer.isValidFitsKeywordName name = true) :
    Tidy name := by
  simp only [Writer.isValidFitsKeywordName, Bool.and_eq_true] at valid
  exact tidy_of (by decide +kernel) valid.2

theorem identifier_tidy {name : Text} (valid : Writer.isValidPropertyIdentifier name = true) :
    Tidy name := by
  have continues {c : Byte} (continues : Writer.isIdentifierContinue c = true) : isTidy c = true :=
    isTidy_of (by decide +kernel) continues
  have colon : isTidy (ch ':') = true := by decide
  have walk : ∀ (name : Text) (expectStart : Bool),
      Writer.identifierVerdict (name.foldlM Writer.identifierRound expectStart) = true →
      Tidy name := by
    intro name
    induction name with
    | nil => exact fun _ _ => Tidy.nil
    | cons c rest ih =>
        intro expectStart valid
        rw [List.foldlM_cons] at valid
        cases round : Writer.identifierRound expectStart c with
        | none =>
            rw [round] at valid
            cases valid
        | some next =>
            rw [round] at valid
            refine Tidy.cons ?_ (ih next valid)
            unfold Writer.identifierRound at round
            by_cases isColon : c = ch ':'
            · rw [isColon]
              exact colon
            · rw [if_neg isColon] at round
              have start : Writer.isIdentifierStart c = true →
                  Writer.isIdentifierContinue c = true :=
                fun start => by simp [Writer.isIdentifierContinue, start]
              apply continues
              cases expectStart <;> simp at round
              · exact round.1
              · exact start round.1
  unfold Writer.isValidPropertyIdentifier at valid
  split at valid
  · cases valid
  · exact walk name true valid

theorem imageIdentifier_tidy {id : Text} (valid : Writer.isValidImageIdentifier id = true) :
    Tidy id := by
  let allowed (c : Byte) : Bool := c = ch '_' || isAsciiLetter c || isAsciiDigit c
  have known : ∀ n < 256, allowed (UInt8.ofNat n) = true → isTidy (UInt8.ofNat n) = true := by
    decide +kernel
  unfold Writer.isValidImageIdentifier at valid
  split at valid
  · cases valid
  · rename_i first
    cases id with
    | nil => exact Tidy.nil
    | cons c rest =>
        refine Tidy.cons (@isTidy_of allowed known c ?_) (tidy_of known valid)
        by_cases underscore : c = ch '_'
        · simp [allowed, underscore]
        · have letter : isAsciiLetter c = true := by simpa [underscore] using first
          simp [allowed, letter]

theorem parsedDigit_digit {text : Text} {position count value i : Nat} {c : Byte}
    (parsed : parseFixedDigits text position count = some value) (low : position ≤ i)
    (high : i < position + count) (there : text[i]? = some c) : isAsciiDigit c = true := by
  unfold parseFixedDigits at parsed
  split at parsed
  · cases parsed
  · dsimp only at parsed
    split at parsed
    · rename_i digits
      apply List.all_eq_true.mp digits c
      apply List.mem_of_getElem? (i := i - position)
      rw [List.getElem?_take, if_pos (by omega), List.getElem?_drop, Nat.add_sub_cancel' low, there]
    · cases parsed

theorem canonical_tidy {text : Text} (canonical : Writer.isCanonicalUtcTime text = true) :
    Tidy text := by
  have digit {c : Byte} (digit : isAsciiDigit c = true) : isTidy c = true :=
    isTidy_of (by decide +kernel) digit
  unfold Writer.isCanonicalUtcTime at canonical
  split at canonical
  · cases canonical
  rename_i form
  simp only [Bool.or_eq_true, decide_eq_true_eq, not_or, not_not, ne_eq] at form
  obtain ⟨⟨⟨⟨⟨⟨length, dash⟩, dash'⟩, separator⟩, colon⟩, colon'⟩, zone⟩ := form
  have at' {i : Nat} {c d : Byte} (there : text[i]? = some c) (known : text[i]? = some d)
      (tidy : isTidy d = true) : isTidy c = true := by
    rw [there, Option.some.injEq] at known
    rwa [known]
  unfold isCalendarTime at canonical
  split at canonical
  · rename_i year month day hour minute second isYear isMonth isDay isHour isMinute isSecond
    refine tidy_iff.mpr fun c member => ?_
    obtain ⟨i, there⟩ := List.getElem?_of_mem member
    have inside := (List.getElem?_eq_some_iff.mp there).1
    have place : i = 4 ∨ i = 7 ∨ i = 10 ∨ i = 13 ∨ i = 16 ∨ i = 19 ∨ i < 4 ∨ (5 ≤ i ∧ i < 7) ∨
        (8 ≤ i ∧ i < 10) ∨ (11 ≤ i ∧ i < 13) ∨ (14 ≤ i ∧ i < 16) ∨ (17 ≤ i ∧ i < 19) := by omega
    rcases place with rfl | rfl | rfl | rfl | rfl | rfl | low | range | range | range |
      range | range
    · exact at' there dash (by decide)
    · exact at' there dash' (by decide)
    · exact at' there separator (by decide)
    · exact at' there colon (by decide)
    · exact at' there colon' (by decide)
    · exact at' there zone (by decide)
    · exact digit (parsedDigit_digit isYear (Nat.zero_le i) (by omega) there)
    · exact digit (parsedDigit_digit isMonth range.1 range.2 there)
    · exact digit (parsedDigit_digit isDay range.1 range.2 there)
    · exact digit (parsedDigit_digit isHour range.1 range.2 there)
    · exact digit (parsedDigit_digit isMinute range.1 range.2 there)
    · exact digit (parsedDigit_digit isSecond range.1 range.2 there)
  · cases canonical

/-! ## The description of a block -/

/-- The texts that a header has of a block are tidy. -/
structure TidyBlock (block : Writer.PreparedBlock) : Prop where
  compression : Tidy block.compression
  subblocks : Tidy block.subblocks
  checksum : Tidy block.checksum

theorem TidyBlock.plain {block : Writer.PreparedBlock} (tidy : TidyBlock block) : block.Plain :=
  ⟨tidy.compression.plain, tidy.subblocks.plain, tidy.checksum.plain⟩

theorem compressionText_tidy (request : Writer.BlockPrepareRequest) :
    Tidy (Writer.compressionText request) := by
  have named : Tidy (Writer.compressionName request.compression) := by
    cases request.compression <;> decide
  have shuffled : Tidy (if request.byteShuffle = true then lit "+sh" else []) := by
    cases request.byteShuffle <;> decide
  have item : Tidy (if request.byteShuffle = true then lit ":" ++
      decimal request.itemSize else []) := by
    cases request.byteShuffle
    · exact Tidy.nil
    · exact Tidy.append (by decide) (decimal_tidy _)
  exact (((named.append shuffled).append (by decide)).append (decimal_tidy _)).append item

theorem subblocksText_tidy (sizes : List (Nat × Nat)) : Tidy (Writer.subblocksText sizes) := by
  have field (pair : Nat × Nat) : Tidy (subblockField pair) :=
    (decimal_tidy _).append (Tidy.cons (by decide) (decimal_tidy _))
  unfold Writer.subblocksText
  split
  · rename_i several
    cases sizes with
    | nil => exact Tidy.nil
    | cons first rest =>
        rw [appendSubblocks_eq (List.cons_ne_nil first rest), List.map_cons, join_cons]
        refine (field first).append (Tidy.flatMap fun text member => Tidy.cons (by decide) ?_)
        obtain ⟨pair, -, rfl⟩ := List.mem_map.mp member
        exact field pair
  · exact Tidy.nil

theorem checksumText_tidy (platform : Platform) (algorithm : ChecksumAlgorithm) (bytes : Bytes) :
    Tidy (Writer.checksumText platform algorithm bytes) := by
  have named : Tidy (Writer.checksumName algorithm) := by cases algorithm <;> decide
  have digit : ∀ value < 16, isTidy (Writer.checksumDigit value) = true := by decide
  refine (named.append (by decide)).append (Tidy.flatMap fun byte _ => ?_)
  have small := byte.toNat_lt
  exact Tidy.cons (digit _ (by omega)) (Tidy.cons (digit _ (by omega)) Tidy.nil)

theorem tidyBlock_of_stored {platform : Platform} {codecs : Writer.Codecs}
    {options : Writer.WriterOptions} {payload : Writer.Payload} {block : Writer.PreparedBlock}
    {content : Bytes} (stored : Writer.StoredAs platform codecs options payload block content) :
    TidyBlock block := by
  have checksum : Tidy block.checksum := by
    rw [stored.checksum]
    split
    · exact Tidy.nil
    · exact checksumText_tidy ..
  by_cases plain : payload.compression = .none
  · obtain ⟨-, compression, subblocks⟩ := stored.plain plain
    exact ⟨compression ▸ Tidy.nil, subblocks ▸ Tidy.nil, checksum⟩
  · obtain ⟨chunks, -, -, compression, subblocks⟩ := stored.coded plain
    exact ⟨compression ▸ compressionText_tidy _, subblocks ▸ subblocksText_tidy _, checksum⟩

end Mmxisf
