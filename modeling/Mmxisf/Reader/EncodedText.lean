/-
# Reader.EncodedText -- the decoder of encoded blocks

The text of an encoded block comes in pieces, with whitespace anywhere.  The
handler keeps a quartet or a nibble between characters and appends each byte to
the block that is open.  Here that is taken apart: `decodeEmbeddedText_eq` says
that the handler is a decoder of its own (`feedAll`) whose bytes are added to one
block, and `decoded_of_feedAll` that the decoder, started afresh and closed with
nothing left over, computes what the whole text stands for (`decodedText`).
-/
import Mmxisf.Library.BaseEncoding
import Mmxisf.Reader.Handlers

namespace Mmxisf.Reader

set_option autoImplicit false

/-! ## Alphabets -/

/-- The character of a sextet. -/
def base64Digit (n : Nat) : Byte :=
  if n < 26 then UInt8.ofNat (n + 65)
  else if n < 52 then UInt8.ofNat (n - 26 + 97)
  else if n < 62 then UInt8.ofNat (n - 52 + 48)
  else if n = 62 then ch '+'
  else ch '/'

def hexDigit (n : Nat) : Byte := if n < 10 then UInt8.ofNat (n + 48) else UInt8.ofNat (n - 10 + 97)

def base64Alphabet : Library.Alphabet 64 where
  digit := base64Digit
  value := base64Value
  padding := ch '='
  value_digit := by decide
  value_padding := by decide

def hexAlphabet : Library.Alphabet 16 where
  digit := hexDigit
  value := lowercaseHexValue
  padding := ch '='
  value_digit := by decide
  value_padding := by decide

/-- The bytes that the text of an encoded block stands for. -/
def decodedText (base64 : Bool) (text : Text) : Option Bytes :=
  if base64 then base64Alphabet.decode64 (text.filter fun c => !isXmlWhitespace c)
  else hexAlphabet.decode16 (text.filter fun c => !isXmlWhitespace c)

/-! ## The decoder -/

structure Decoder where
  base64 : Bool
  quartet : List Nat
  complete : Bool
  highNibble : Option Nat
  deriving DecidableEq, Repr

namespace Decoder

def initial (base64 : Bool) : Decoder := ⟨base64, [], false, none⟩

/-- The bytes of a full quartet, and whether it has padding. -/
def quartetBytes (q0 q1 q2 q3 : Nat) : Option (Bytes × Bool) :=
  if q0 = base64Padding ∨ q1 = base64Padding then none
  else if q2 = base64Padding then
    if q3 ≠ base64Padding ∨ q1 % 16 ≠ 0 then none else some ([UInt8.ofNat (q0 * 4 + q1 / 16)], true)
  else if q3 = base64Padding then
    if q2 % 4 ≠ 0 then none
    else some ([UInt8.ofNat (q0 * 4 + q1 / 16), UInt8.ofNat (q1 * 16 + q2 / 4)], true)
  else some ([UInt8.ofNat (q0 * 4 + q1 / 16), UInt8.ofNat (q1 * 16 + q2 / 4),
    UInt8.ofNat (q2 * 64 + q3)], false)

/-- What stands for a character in a quartet. -/
def sextet (c : Byte) : Option Nat := if c = ch '=' then some base64Padding else base64Value c

def feedBase64 (decoder : Decoder) (c : Byte) : Option (Decoder × Bytes) :=
  if decoder.complete then none
  else
    match sextet c with
    | none => none
    | some value =>
        match decoder.quartet with
        | [q0, q1, q2] =>
            (quartetBytes q0 q1 q2 value).map fun made =>
              ({ decoder with quartet := [], complete := made.2 }, made.1)
        | quartet => some ({ decoder with quartet := quartet ++ [value] }, [])

def feedHex (decoder : Decoder) (c : Byte) : Option (Decoder × Bytes) :=
  match lowercaseHexValue c, decoder.highNibble with
  | none, _ => none
  | some nibble, none => some ({ decoder with highNibble := some nibble }, [])
  | some nibble, some high =>
      some ({ decoder with highNibble := none }, [UInt8.ofNat (high * 16 + nibble)])

def feed (decoder : Decoder) (c : Byte) : Option (Decoder × Bytes) :=
  if decoder.base64 then decoder.feedBase64 c else decoder.feedHex c

/-- The decoder and the bytes after a piece of text. -/
def feedAll : Decoder → Text → Option (Decoder × Bytes)
  | decoder, [] => some (decoder, [])
  | decoder, c :: rest =>
      if isXmlWhitespace c then feedAll decoder rest
      else
        (decoder.feed c).bind fun first =>
          (feedAll first.1 rest).map fun after => (after.1, first.2 ++ after.2)

/-- A quartet or a pair of digits is open. -/
def isIncomplete (decoder : Decoder) : Bool :=
  if decoder.base64 then decoder.quartet ≠ [] else decoder.highNibble.isSome

theorem feedAll_append (decoder : Decoder) (first second : Text) :
    decoder.feedAll (first ++ second) = (decoder.feedAll first).bind fun after =>
      (after.1.feedAll second).map fun last => (last.1, after.2 ++ last.2) := by
  induction first generalizing decoder with
  | nil => simp [feedAll]
  | cons c rest ih =>
      simp only [List.cons_append, feedAll, ih]
      split
      · rfl
      · cases decoder.feed c with
        | none => rfl
        | some made =>
            simp only [Option.bind_some]
            cases made.1.feedAll rest with
            | none => rfl
            | some after =>
                simp only [Option.bind_some, Option.map_some, Option.map_map]
                cases after.1.feedAll second <;> simp

theorem feedAll_filter (decoder : Decoder) (text : Text) :
    decoder.feedAll (text.filter fun c => !isXmlWhitespace c) = decoder.feedAll text := by
  induction text generalizing decoder with
  | nil => rfl
  | cons c rest ih =>
      cases space : isXmlWhitespace c with
      | true => simp [feedAll, space, ih]
      | false => simp [feedAll, space, ih]

/-! ## What the text stands for -/

theorem base64Value_lt {c : Byte} {n : Nat} (found : base64Value c = some n) : n < 64 := by
  have bytes : ∀ (low high : Char), ch low ≤ c ∧ c ≤ ch high →
      (ch low).toNat ≤ c.toNat ∧ c.toNat ≤ (ch high).toNat := fun _ _ within =>
    ⟨UInt8.le_iff_toNat_le.mp within.1, UInt8.le_iff_toNat_le.mp within.2⟩
  unfold base64Value at found
  split_ifs at found with upper lower digit plus slash
  · have within := bytes 'A' 'Z' (by simpa [isUpperLetter] using upper)
    have low : (ch 'A').toNat = 65 := by decide
    have high : (ch 'Z').toNat = 90 := by decide
    simp only [Option.some.injEq] at found
    omega
  · have within := bytes 'a' 'z' lower
    have low : (ch 'a').toNat = 97 := by decide
    have high : (ch 'z').toNat = 122 := by decide
    simp only [Option.some.injEq] at found
    omega
  · have within := bytes '0' '9' (by simpa [isAsciiDigit] using digit)
    have low : (ch '0').toNat = 48 := by decide
    have high : (ch '9').toNat = 57 := by decide
    simp only [Option.some.injEq] at found
    omega
  · simp only [Option.some.injEq] at found
    omega
  · simp only [Option.some.injEq] at found
    omega

theorem sextet_padding {c : Byte} (found : sextet c = some base64Padding) : c = ch '=' := by
  unfold sextet at found
  split at found
  · assumption
  · exact absurd (base64Value_lt found) (by decide)

theorem sextet_digit {c : Byte} {n : Nat} (found : sextet c = some n) (digit : n ≠ base64Padding) :
    c ≠ ch '=' ∧ base64Value c = some n := by
  unfold sextet at found
  split at found
  · exact absurd (Option.some.inj found).symm digit
  · rename_i other
    exact ⟨other, found⟩

theorem feedAll_cons {decoder decoder' : Decoder} {c : Byte} {rest : Text} {bytes : Bytes}
    (visible : isXmlWhitespace c = false)
    (run : decoder.feedAll (c :: rest) = some (decoder', bytes)) :
    ∃ next first after, decoder.feed c = some (next, first) ∧
      next.feedAll rest = some (decoder', after) ∧ bytes = first ++ after := by
  rw [feedAll, visible, if_neg Bool.false_ne_true] at run
  obtain ⟨⟨next, first⟩, fed, run⟩ := Option.bind_eq_some_iff.mp run
  obtain ⟨⟨last, after⟩, rest, same⟩ := Option.map_eq_some_iff.mp run
  rw [Prod.mk.injEq] at same
  obtain ⟨rfl, rfl⟩ := same
  exact ⟨next, first, after, fed, rest, rfl⟩

/-- Fewer than three digits wait in the quartet. -/
theorem feed_waiting {decoder next : Decoder} {c : Byte} {first : Bytes}
    (isBase64 : decoder.base64 = true) (short : decoder.quartet.length < 3)
    (fed : decoder.feed c = some (next, first)) :
    ∃ n, sextet c = some n ∧ decoder.complete = false ∧ first = [] ∧
      next = { decoder with quartet := decoder.quartet ++ [n] } := by
  rw [feed, isBase64, if_pos rfl, feedBase64] at fed
  cases complete : decoder.complete with
  | true => simp [complete] at fed
  | false =>
      rw [complete, if_neg Bool.false_ne_true] at fed
      cases value : sextet c with
      | none => simp [value] at fed
      | some n =>
          simp only [value] at fed
          split at fed
          · rename_i full
            rw [full] at short
            simp at short
          · simp only [Option.some.injEq, Prod.mk.injEq] at fed
            exact ⟨n, rfl, rfl, fed.2.symm, fed.1.symm⟩

/-- The fourth digit empties the quartet. -/
theorem feed_full {decoder next : Decoder} {c : Byte} {first : Bytes} {q0 q1 q2 : Nat}
    (isBase64 : decoder.base64 = true) (full : decoder.quartet = [q0, q1, q2])
    (fed : decoder.feed c = some (next, first)) :
    ∃ q3 padded, sextet c = some q3 ∧ quartetBytes q0 q1 q2 q3 = some (first, padded) ∧
      next = { decoder with quartet := [], complete := padded } := by
  rw [feed, isBase64, if_pos rfl, feedBase64] at fed
  split at fed
  · cases fed
  · cases value : sextet c with
    | none => simp [value] at fed
    | some q3 =>
        simp only [value, full] at fed
        obtain ⟨⟨made, padded⟩, bytes, same⟩ := Option.map_eq_some_iff.mp fed
        rw [Prod.mk.injEq] at same
        obtain ⟨rfl, rfl⟩ := same
        exact ⟨q3, padded, rfl, bytes, rfl⟩

/-- After padding there is no more text. -/
theorem feedAll_complete {decoder decoder' : Decoder} {text : Text} {bytes : Bytes}
    (isBase64 : decoder.base64 = true) (complete : decoder.complete = true)
    (visible : ∀ c ∈ text, isXmlWhitespace c = false)
    (run : decoder.feedAll text = some (decoder', bytes)) : text = [] ∧ bytes = [] := by
  cases text with
  | nil =>
      rw [feedAll, Option.some.injEq, Prod.mk.injEq] at run
      exact ⟨rfl, run.2.symm⟩
  | cons c rest =>
      obtain ⟨next, first, after, fed, -⟩ := feedAll_cons (visible c List.mem_cons_self) run
      rw [feed, isBase64, if_pos rfl, feedBase64, complete, if_pos rfl] at fed
      cases fed

theorem decode64_of_feedAll : ∀ {text : Text} {decoder : Decoder} {bytes : Bytes},
    (∀ c ∈ text, isXmlWhitespace c = false) →
      (initial true).feedAll text = some (decoder, bytes) → decoder.quartet = [] →
      base64Alphabet.decode64 text = some bytes
  | [], decoder, bytes, visible, run, empty => by
      rw [feedAll, Option.some.injEq, Prod.mk.injEq] at run
      rw [Library.Alphabet.decode64, run.2]
  | [a], decoder, bytes, visible, run, empty => by
      simp only [List.mem_cons, forall_eq_or_imp] at visible
      obtain ⟨_, _, _, fed, run, rfl⟩ := feedAll_cons visible.1 run
      obtain ⟨q0, first, -, rfl, rfl⟩ := feed_waiting rfl (by decide) fed
      simp only [feedAll, Option.some.injEq, Prod.mk.injEq] at run
      simp [← run.1, initial] at empty
  | [a, b], decoder, bytes, visible, run, empty => by
      simp only [List.mem_cons, forall_eq_or_imp] at visible
      obtain ⟨_, _, _, fed, run, rfl⟩ := feedAll_cons visible.1 run
      obtain ⟨q0, first, -, rfl, rfl⟩ := feed_waiting rfl (by decide) fed
      obtain ⟨_, _, _, fed, run, rfl⟩ := feedAll_cons visible.2.1 run
      obtain ⟨q1, second, -, rfl, rfl⟩ := feed_waiting rfl (by simp [initial]) fed
      simp only [feedAll, Option.some.injEq, Prod.mk.injEq] at run
      simp [← run.1, initial] at empty
  | [a, b, c], decoder, bytes, visible, run, empty => by
      simp only [List.mem_cons, forall_eq_or_imp] at visible
      obtain ⟨_, _, _, fed, run, rfl⟩ := feedAll_cons visible.1 run
      obtain ⟨q0, first, -, rfl, rfl⟩ := feed_waiting rfl (by decide) fed
      obtain ⟨_, _, _, fed, run, rfl⟩ := feedAll_cons visible.2.1 run
      obtain ⟨q1, second, -, rfl, rfl⟩ := feed_waiting rfl (by simp [initial]) fed
      obtain ⟨_, _, _, fed, run, rfl⟩ := feedAll_cons visible.2.2.1 run
      obtain ⟨q2, third, -, rfl, rfl⟩ := feed_waiting rfl (by simp [initial]) fed
      simp only [feedAll, Option.some.injEq, Prod.mk.injEq] at run
      simp [← run.1, initial] at empty
  | a :: b :: c :: d :: rest, decoder, bytes, visible, run, empty => by
      simp only [List.mem_cons, forall_eq_or_imp] at visible
      obtain ⟨visibleA, visibleB, visibleC, visibleD, visible⟩ := visible
      obtain ⟨_, _, _, fed, run, rfl⟩ := feedAll_cons visibleA run
      obtain ⟨q0, first, -, rfl, rfl⟩ := feed_waiting rfl (by decide) fed
      obtain ⟨_, _, _, fed, run, rfl⟩ := feedAll_cons visibleB run
      obtain ⟨q1, second, -, rfl, rfl⟩ := feed_waiting rfl (by simp [initial]) fed
      obtain ⟨_, _, _, fed, run, rfl⟩ := feedAll_cons visibleC run
      obtain ⟨q2, third, -, rfl, rfl⟩ := feed_waiting rfl (by simp [initial]) fed
      obtain ⟨_, made, after, fed, run, rfl⟩ := feedAll_cons visibleD run
      obtain ⟨q3, padded, fourth, quartet, rfl⟩ := feed_full rfl rfl fed
      unfold quartetBytes at quartet
      split_ifs at quartet with early noThird bad noFourth bad'
      all_goals
        rw [Option.some.injEq, Prod.mk.injEq] at quartet
        obtain ⟨rfl, rfl⟩ := quartet
        rw [not_or] at early
        obtain ⟨-, valueA⟩ := sextet_digit first early.1
        obtain ⟨-, valueB⟩ := sextet_digit second early.2
      · rw [not_or, not_not, not_not] at bad
        obtain ⟨noFourth, aligned⟩ := bad
        subst noThird noFourth
        obtain ⟨rfl, rfl⟩ := feedAll_complete rfl rfl visible run
        simp [Library.Alphabet.decode64, base64Alphabet, valueA, valueB, sextet_padding third,
          sextet_padding fourth, aligned]
      · rw [not_not] at bad'
        subst noFourth
        obtain ⟨rfl, rfl⟩ := feedAll_complete rfl rfl visible run
        obtain ⟨digitC, valueC⟩ := sextet_digit third noThird
        simp [Library.Alphabet.decode64, base64Alphabet, valueA, valueB, valueC, digitC,
          sextet_padding fourth, bad']
      · obtain ⟨digitC, valueC⟩ := sextet_digit third noThird
        obtain ⟨digitD, valueD⟩ := sextet_digit fourth noFourth
        have rest := decode64_of_feedAll visible run empty
        simp only [base64Alphabet] at rest
        simp [Library.Alphabet.decode64, base64Alphabet, valueA, valueB, valueC, valueD, digitC,
          digitD, rest]

theorem decode16_of_feedAll : ∀ {text : Text} {decoder : Decoder} {bytes : Bytes},
    (∀ c ∈ text, isXmlWhitespace c = false) →
      (initial false).feedAll text = some (decoder, bytes) → decoder.highNibble = none →
      hexAlphabet.decode16 text = some bytes
  | [], decoder, bytes, visible, run, empty => by
      rw [feedAll, Option.some.injEq, Prod.mk.injEq] at run
      rw [Library.Alphabet.decode16, run.2]
  | [a], decoder, bytes, visible, run, empty => by
      simp only [List.mem_cons, forall_eq_or_imp] at visible
      obtain ⟨_, _, _, fed, more, rfl⟩ := feedAll_cons visible.1 run
      rw [feed, initial, if_neg Bool.false_ne_true, feedHex] at fed
      cases value : lowercaseHexValue a with
      | none => simp [value] at fed
      | some high =>
          simp only [value, Option.some.injEq, Prod.mk.injEq] at fed
          simp only [feedAll, Option.some.injEq, Prod.mk.injEq] at more
          simp [← more.1, ← fed.1] at empty
  | a :: b :: rest, decoder, bytes, visible, run, empty => by
      simp only [List.mem_cons, forall_eq_or_imp] at visible
      obtain ⟨visibleA, visibleB, visible⟩ := visible
      obtain ⟨_, _, _, fed, more, rfl⟩ := feedAll_cons visibleA run
      rw [feed, initial, if_neg Bool.false_ne_true, feedHex] at fed
      cases valueA : lowercaseHexValue a with
      | none => simp [valueA] at fed
      | some high =>
          simp only [valueA, Option.some.injEq, Prod.mk.injEq] at fed
          obtain ⟨rfl, rfl⟩ := fed
          obtain ⟨_, _, _, fed, last, rfl⟩ := feedAll_cons visibleB more
          rw [feed, if_neg Bool.false_ne_true, feedHex] at fed
          cases valueB : lowercaseHexValue b with
          | none => simp [valueB] at fed
          | some low =>
              simp only [valueB, Option.some.injEq, Prod.mk.injEq] at fed
              obtain ⟨rfl, rfl⟩ := fed
              have rest := decode16_of_feedAll visible last empty
              simp only [hexAlphabet] at rest
              simp [Library.Alphabet.decode16, hexAlphabet, valueA, valueB, rest]

/-- A decoder that starts afresh and ends with nothing left over computes what the
text stands for. -/
theorem decoded_of_feedAll {base64 : Bool} {text : Text} {decoder : Decoder} {bytes : Bytes}
    (run : (initial base64).feedAll text = some (decoder, bytes))
    (closed : decoder.isIncomplete = false) (same : decoder.base64 = base64) :
    decodedText base64 text = some bytes := by
  rw [← feedAll_filter] at run
  have visible : ∀ c ∈ text.filter fun c => !isXmlWhitespace c, isXmlWhitespace c = false := by
    simp
  subst same
  cases kind : decoder.base64 with
  | true =>
      rw [kind] at run
      rw [decodedText, if_pos rfl]
      exact decode64_of_feedAll visible run (by simpa [isIncomplete, kind] using closed)
  | false =>
      rw [kind] at run
      rw [decodedText, if_neg Bool.false_ne_true]
      exact decode16_of_feedAll visible run (by simpa [isIncomplete, kind] using closed)

end Decoder

/-! ## The handler -/

section

variable {options : ReaderOptions} {state state' : XmlBuilder}

def decoderOf (state : XmlBuilder) : Decoder :=
  ⟨state.embeddedEncoding ≠ .hex, state.base64Quartet, state.base64Complete, state.hexHighNibble⟩

/-- The state with its decoder elsewhere. -/
def withDecoder (state : XmlBuilder) (decoder : Decoder) (count : Nat) : XmlBuilder :=
  { state with
    base64Quartet := decoder.quartet
    base64Complete := decoder.complete
    hexHighNibble := decoder.highNibble
    encodedBlockBytes := count }

/-- The block that decoded bytes go to. -/
def openBlock (state : XmlBuilder) : Option Bytes :=
  match state.inlineMetadataIndex, state.inlineIccProfileIndex, state.embeddedThumbnailIndex with
  | some index, _, _ => state.inlineMetadataBlocks[index]?
  | none, some index, _ => state.inlineIccProfileBlocks[index]?
  | none, none, some index => state.embeddedThumbnailBlocks[index]?
  | none, none, none => state.embeddedBlocks[state.embeddedImageIndex.getD 0]?

/-- The bytes that the block may have. -/
def openBlockLimit (options : ReaderOptions) (state : XmlBuilder) : Nat :=
  match state.inlineMetadataIndex, state.inlineIccProfileIndex, state.embeddedThumbnailIndex with
  | some _, _, _ => options.maxSerializedPropertyBytes
  | none, some _, _ => options.maxSerializedIccProfileBytes
  | none, none, some _ => options.maxSerializedThumbnailBytes
  | none, none, none => options.maxDecodedImageBytes

/-- The state with more bytes in the block. -/
def addBytes (state : XmlBuilder) (bytes : Bytes) : XmlBuilder :=
  match state.inlineMetadataIndex, state.inlineIccProfileIndex, state.embeddedThumbnailIndex with
  | some index, _, _ =>
      { state with inlineMetadataBlocks := state.inlineMetadataBlocks.modify index (· ++ bytes) }
  | none, some index, _ =>
      { state with
        inlineIccProfileBlocks := state.inlineIccProfileBlocks.modify index (· ++ bytes) }
  | none, none, some index =>
      { state with
        embeddedThumbnailBlocks := state.embeddedThumbnailBlocks.modify index (· ++ bytes) }
  | none, none, none =>
      { state with
        embeddedBlocks := state.embeddedBlocks.modify (state.embeddedImageIndex.getD 0)
          (· ++ bytes) }

/-- Some bytes are added, within the limit. -/
structure Appended (options : ReaderOptions) (state : XmlBuilder) (bytes : Bytes)
    (state' : XmlBuilder) : Prop where
  within : bytes ≠ [] → ∀ block, openBlock state = some block →
    block.length + bytes.length ≤ openBlockLimit options state
  same : state' = addBytes state bytes

/-- Some bytes are added, and the decoder moves on. -/
def Fed (options : ReaderOptions) (state : XmlBuilder) (decoder : Decoder) (bytes : Bytes)
    (state' : XmlBuilder) : Prop :=
  decoder.base64 = (decoderOf state).base64 ∧
    ∃ added count, Appended options state bytes added ∧ state' = withDecoder added decoder count

theorem modify_append (blocks : List Bytes) (index : Nat) (first second : Bytes) :
    (blocks.modify index (· ++ first)).modify index (· ++ second) =
      blocks.modify index (· ++ (first ++ second)) := by
  rw [List.modify_modify_eq]
  congr 1
  funext block
  simp

theorem modify_nil (blocks : List Bytes) (index : Nat) :
    blocks.modify index (· ++ []) = blocks := by
  simp only [List.append_nil]
  exact List.modify_id ..

theorem addBytes_nil : addBytes state [] = state := by
  unfold addBytes
  split <;> simp only [modify_nil]

theorem addBytes_append (first second : Bytes) :
    addBytes (addBytes state first) second = addBytes state (first ++ second) := by
  cases property : state.inlineMetadataIndex with
  | some index => simp [addBytes, property, modify_append]
  | none =>
      cases profile : state.inlineIccProfileIndex with
      | some index => simp [addBytes, property, profile, modify_append]
      | none =>
          cases thumbnail : state.embeddedThumbnailIndex <;>
            simp [addBytes, property, profile, thumbnail, modify_append]

theorem addBytes_withDecoder (decoder : Decoder) (count : Nat) (bytes : Bytes) :
    addBytes (withDecoder state decoder count) bytes =
      withDecoder (addBytes state bytes) decoder count := by
  cases property : state.inlineMetadataIndex with
  | some index => simp [addBytes, withDecoder, property]
  | none =>
      cases profile : state.inlineIccProfileIndex with
      | some index => simp [addBytes, withDecoder, property, profile]
      | none =>
          cases thumbnail : state.embeddedThumbnailIndex <;>
            simp [addBytes, withDecoder, property, profile, thumbnail]

theorem openBlock_addBytes (bytes : Bytes) :
    openBlock (addBytes state bytes) = (openBlock state).map (· ++ bytes) ∧
      openBlockLimit options (addBytes state bytes) = openBlockLimit options state ∧
      decoderOf (addBytes state bytes) = decoderOf state := by
  cases property : state.inlineMetadataIndex with
  | some index => simp [openBlock, openBlockLimit, decoderOf, addBytes, property]
  | none =>
      cases profile : state.inlineIccProfileIndex with
      | some index => simp [openBlock, openBlockLimit, decoderOf, addBytes, property, profile]
      | none =>
          cases thumbnail : state.embeddedThumbnailIndex <;>
            simp [openBlock, openBlockLimit, decoderOf, addBytes, property, profile, thumbnail]

theorem Appended.nil : Appended options state [] state :=
  ⟨fun impossible => absurd rfl impossible, addBytes_nil.symm⟩

theorem Appended.trans {middle : XmlBuilder} {first second : Bytes}
    (before : Appended options state first middle)
    (after : Appended options middle second state') :
    Appended options state (first ++ second) state' := by
  obtain ⟨within, rfl⟩ := before
  obtain ⟨within', rfl⟩ := after
  obtain ⟨block, limit, -⟩ := @openBlock_addBytes options state first
  refine ⟨fun some open_ found => ?_, addBytes_append first second⟩
  rw [block, limit, found] at within'
  cases second with
  | nil =>
      rw [List.append_nil] at some ⊢
      exact within some open_ found
  | cons c rest =>
      have total := within' (List.cons_ne_nil c rest) (open_ ++ first) rfl
      simpa [Nat.add_assoc] using total

theorem appendInlineByte_eq {value : Nat}
    (run : appendInlineByte options state value = .ok state') :
    Appended options state [UInt8.ofNat value] state' := by
  unfold appendInlineByte at run
  cases property : state.inlineMetadataIndex with
  | some index =>
      simp only [property, bind_eq_ok, reject_eq_ok, pure, Except.pure, Except.ok.injEq] at run
      obtain ⟨_, room, rfl⟩ := run
      refine ⟨fun _ block found => ?_, by simp [addBytes, property, appendTo]⟩
      simp only [openBlock, property] at found
      rw [List.getD_eq_getElem?_getD, found, Option.getD_some] at room
      simp only [openBlockLimit, property, List.length_singleton]
      omega
  | none =>
      cases profile : state.inlineIccProfileIndex with
      | some index =>
          simp only [property, profile, bind_eq_ok, reject_eq_ok, pure, Except.pure,
            Except.ok.injEq] at run
          obtain ⟨_, room, rfl⟩ := run
          refine ⟨fun _ block found => ?_, by simp [addBytes, property, profile, appendTo]⟩
          simp only [openBlock, property, profile] at found
          rw [List.getD_eq_getElem?_getD, found, Option.getD_some] at room
          simp only [openBlockLimit, property, profile, List.length_singleton]
          omega
      | none =>
          cases thumbnail : state.embeddedThumbnailIndex
          all_goals
            simp only [property, profile, thumbnail, bind_eq_ok, reject_eq_ok, pure, Except.pure,
              Except.ok.injEq] at run
            obtain ⟨_, room, rfl⟩ := run
            refine ⟨fun _ block found => ?_,
              by simp [addBytes, property, profile, thumbnail, appendTo]⟩
            simp only [openBlock, property, profile, thumbnail] at found
            rw [List.getD_eq_getElem?_getD, found, Option.getD_some] at room
            simp only [openBlockLimit, property, profile, thumbnail, List.length_singleton]
            omega

theorem decodeBase64Quartet_eq {q0 q1 q2 q3 : Nat} (fresh : state.base64Complete = false)
    (run : decodeBase64Quartet options state q0 q1 q2 q3 = .ok state') :
    ∃ bytes padded added, Decoder.quartetBytes q0 q1 q2 q3 = some (bytes, padded) ∧
      Appended options state bytes added ∧ state' = { added with base64Complete := padded } := by
  have kept {bytes : Bytes} {added : XmlBuilder} (appended : Appended options state bytes added) :
      added = { added with base64Complete := false } := by
    have same : added.base64Complete = false := by
      rw [← fresh, appended.same]
      exact congrArg Decoder.complete
        (@openBlock_addBytes options state bytes).2.2
    rw [← same]
  unfold decodeBase64Quartet at run
  unfold Decoder.quartetBytes
  simp only [bind_eq_ok, reject_eq_ok] at run
  obtain ⟨_, early, first, append, run⟩ := run
  have one := appendInlineByte_eq append
  rw [if_neg early]
  obtain ⟨noThird, run⟩ | ⟨third, run⟩ := ite_eq_ok run
  · simp only [bind_eq_ok, reject_eq_ok, pure, Except.pure, Except.ok.injEq] at run
    obtain ⟨_, bad, rfl⟩ := run
    rw [if_pos noThird, if_neg bad]
    exact ⟨_, true, first, rfl, one, rfl⟩
  · simp only [bind_eq_ok] at run
    obtain ⟨second, append, run⟩ := run
    have two := one.trans (appendInlineByte_eq append)
    rw [if_neg third]
    obtain ⟨noFourth, run⟩ | ⟨fourth, run⟩ := ite_eq_ok run
    · simp only [bind_eq_ok, reject_eq_ok, pure, Except.pure, Except.ok.injEq] at run
      obtain ⟨_, bad, rfl⟩ := run
      rw [if_pos noFourth, if_neg bad]
      exact ⟨_, true, second, rfl, two, rfl⟩
    · have three := two.trans (appendInlineByte_eq run)
      rw [if_neg fourth]
      exact ⟨_, false, state', rfl, three, kept three⟩

/-- What bytes do not change. -/
theorem Appended.decoder {bytes : Bytes} (appended : Appended options state bytes state') :
    state'.embeddedEncoding = state.embeddedEncoding ∧
      state'.base64Quartet = state.base64Quartet ∧
      state'.base64Complete = state.base64Complete ∧
      state'.hexHighNibble = state.hexHighNibble ∧
      state'.encodedBlockBytes = state.encodedBlockBytes := by
  rw [appended.same]
  unfold addBytes
  split <;> exact ⟨rfl, rfl, rfl, rfl, rfl⟩

theorem decodeBase64Character_eq {c : Byte} (isBase64 : (decoderOf state).base64 = true)
    (run : decodeBase64Character options state c = .ok state') :
    ∃ decoder bytes, (decoderOf state).feed c = some (decoder, bytes) ∧
      Fed options state decoder bytes state' := by
  simp only [decodeBase64Character, bind_eq_ok, reject_eq_ok, orFail_eq_ok,
    Bool.not_eq_true] at run
  obtain ⟨_, fresh, value, digit, run⟩ := run
  have sextet : Decoder.sextet c = some value := digit
  rw [Decoder.feed, isBase64, if_pos rfl, Decoder.feedBase64, show (decoderOf state).complete =
    false from fresh, if_neg Bool.false_ne_true, sextet]
  split at run
  · rename_i q0 q1 q2 full
    simp only [bind_eq_ok, pure, Except.pure, Except.ok.injEq] at run
    obtain ⟨decoded, decode, rfl⟩ := run
    obtain ⟨bytes, padded, added, made, appended, rfl⟩ := decodeBase64Quartet_eq fresh decode
    obtain ⟨-, -, -, nibble, count⟩ := appended.decoder
    refine ⟨{ decoderOf state with quartet := [], complete := padded }, bytes, ?_, rfl, added,
      added.encodedBlockBytes, appended, ?_⟩
    · simp [decoderOf, full, made]
    · rw [withDecoder]
      simp only [decoderOf, ← nibble]
  · rename_i short
    simp only [pure, Except.pure, Except.ok.injEq] at run
    subst run
    refine ⟨{ decoderOf state with quartet := state.base64Quartet ++ [value] }, [], ?_, rfl, state,
      state.encodedBlockBytes, .nil, rfl⟩
    simp only [decoderOf, fresh]

theorem decodeHexCharacter_eq {c : Byte} (isHex : (decoderOf state).base64 = false)
    (run : decodeHexCharacter options state c = .ok state') :
    ∃ decoder bytes, (decoderOf state).feed c = some (decoder, bytes) ∧
      Fed options state decoder bytes state' := by
  simp only [decodeHexCharacter, bind_eq_ok, orFail_eq_ok] at run
  obtain ⟨nibble, digit, run⟩ := run
  rw [Decoder.feed, isHex, if_neg Bool.false_ne_true, Decoder.feedHex, digit]
  cases high : state.hexHighNibble with
  | none =>
      simp only [high, pure, Except.pure, Except.ok.injEq] at run
      subst run
      exact ⟨{ decoderOf state with highNibble := some nibble }, [], by simp [decoderOf, high], rfl,
        state, state.encodedBlockBytes, .nil, rfl⟩
  | some value =>
      simp only [high, bind_eq_ok, pure, Except.pure, Except.ok.injEq] at run
      obtain ⟨added, append, rfl⟩ := run
      have appended := appendInlineByte_eq append
      obtain ⟨-, quartet, complete, -, count⟩ := appended.decoder
      refine ⟨{ decoderOf state with highNibble := none }, _, by simp [decoderOf, high], rfl, added,
        added.encodedBlockBytes, appended, ?_⟩
      rw [withDecoder]
      simp only [decoderOf, ← quartet, ← complete]

theorem Fed.trans {middle : XmlBuilder} {first second : Bytes} {decoder decoder' : Decoder}
    (before : Fed options state decoder first middle)
    (after : Fed options middle decoder' second state') :
    Fed options state decoder' (first ++ second) state' := by
  obtain ⟨kind, added, count, appended, rfl⟩ := before
  obtain ⟨kind', added', count', ⟨within, same⟩, rfl⟩ := after
  rw [addBytes_withDecoder] at same
  subst same
  have encoding := appended.decoder.1
  refine ⟨?_, addBytes added second, count', appended.trans ⟨within, rfl⟩, rfl⟩
  rw [kind']
  simp only [decoderOf, withDecoder, encoding]

/-- The decoder has moved. -/
theorem Fed.decoderOf_eq {bytes : Bytes} {decoder : Decoder}
    (fed : Fed options state decoder bytes state') : decoderOf state' = decoder := by
  obtain ⟨kind, added, count, appended, rfl⟩ := fed
  have encoding := appended.decoder.1
  simp only [decoderOf, withDecoder, encoding]
  rw [show decide (state.embeddedEncoding ≠ .hex) = decoder.base64 from kind.symm]

/-- The handler is the decoder, with its bytes added to the open block. -/
theorem decodeEmbeddedText_eq {text : Text}
    (run : decodeEmbeddedText options state text = .ok state') :
    ∃ decoder bytes, (decoderOf state).feedAll text = some (decoder, bytes) ∧
      Fed options state decoder bytes state' := by
  induction text generalizing state with
  | nil =>
      rw [decodeEmbeddedText, Except.ok.injEq] at run
      subst run
      exact ⟨_, [], rfl, rfl, state, state.encodedBlockBytes, .nil, rfl⟩
  | cons c rest ih =>
      rw [decodeEmbeddedText] at run
      rw [Decoder.feedAll]
      obtain ⟨space, run⟩ | ⟨visible, run⟩ := ite_eq_ok run
      · rw [if_pos space]
        exact ih run
      · rw [if_neg visible]
        simp only [bind_eq_ok, reject_eq_ok] at run
        obtain ⟨_, room, next, decode, run⟩ := run
        have counted : Fed options state (decoderOf state) [] (withDecoder state (decoderOf state)
            (state.encodedBlockBytes + 1)) :=
          ⟨rfl, state, state.encodedBlockBytes + 1, .nil, rfl⟩
        obtain ⟨decoder, first, fed, step⟩ : ∃ decoder bytes,
            (decoderOf state).feed c = some (decoder, bytes) ∧
              Fed options (withDecoder state (decoderOf state) (state.encodedBlockBytes + 1))
                decoder bytes next := by
          obtain ⟨hex, decode⟩ | ⟨base64, decode⟩ := ite_eq_ok decode
          · exact decodeHexCharacter_eq (by simpa [decoderOf, withDecoder] using hex) decode
          · exact decodeBase64Character_eq (by simpa [decoderOf, withDecoder] using base64) decode
        obtain ⟨decoder', second, run, more⟩ := ih run
        rw [step.decoderOf_eq] at run
        refine ⟨decoder', first ++ second, ?_, (counted.trans step).trans more⟩
        rw [fed, Option.bind_some, run]
        rfl

end

end Mmxisf.Reader
