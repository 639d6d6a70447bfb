/-
# Reader.EncodedAccepts -- what the decoder of encoded blocks accepts

`Reader.EncodedText` says what an accepted text was decoded to.  Here is the other
direction: a text that stands for bytes is accepted, as long as the limits allow
it, and the state it leaves is known (`decodeEmbeddedText_ok`).  With the laws of
the two alphabets there is one text for each string of bytes
(`decodedText_eq_some`).
-/
import Mmxisf.Reader.EncodedText

namespace Mmxisf.Reader

set_option autoImplicit false

/-- A text without its whitespace. -/
def stripped (text : Text) : Text := text.filter fun c => !isXmlWhitespace c

/-- The one text of a string of bytes in either encoding. -/
def encodedText (base64 : Bool) (bytes : Bytes) : Text :=
  if base64 then base64Alphabet.encode64 bytes else hexAlphabet.encode16 bytes

/-! ## Alphabets -/

theorem base64Alphabet_exact : base64Alphabet.IsExact := by
  have all : ∀ i < 256, (base64Value (UInt8.ofNat i)).all
      (fun n => decide (n < 64 ∧ base64Digit n = UInt8.ofNat i)) = true := by decide +kernel
  intro c n found
  have here := all c.toNat c.toNat_lt
  rw [UInt8.ofNat_toNat, show base64Value c = some n from found, Option.all_some,
    decide_eq_true_eq] at here
  exact here

theorem hexAlphabet_exact : hexAlphabet.IsExact := by
  have all : ∀ i < 256, (lowercaseHexValue (UInt8.ofNat i)).all
      (fun n => decide (n < 16 ∧ hexDigit n = UInt8.ofNat i)) = true := by decide +kernel
  intro c n found
  have here := all c.toNat c.toNat_lt
  rw [UInt8.ofNat_toNat, show lowercaseHexValue c = some n from found, Option.all_some,
    decide_eq_true_eq] at here
  exact here

/-- A text stands for bytes exactly when it is their encoding, up to whitespace. -/
theorem decodedText_eq_some {base64 : Bool} {text : Text} {bytes : Bytes} :
    decodedText base64 text = some bytes ↔ stripped text = encodedText base64 bytes := by
  unfold decodedText encodedText
  cases base64 with
  | true =>
      rw [if_pos rfl, if_pos rfl]
      constructor
      · exact fun decoded => (base64Alphabet.encode64_of_decode64 base64Alphabet_exact decoded).symm
      · intro same
        rw [show (text.filter fun c => !isXmlWhitespace c) = _ from same]
        exact base64Alphabet.decode64_encode64 bytes
  | false =>
      rw [if_neg Bool.false_ne_true, if_neg Bool.false_ne_true]
      constructor
      · exact fun decoded => (hexAlphabet.encode16_of_decode16 hexAlphabet_exact decoded).symm
      · intro same
        rw [show (text.filter fun c => !isXmlWhitespace c) = _ from same]
        exact hexAlphabet.decode16_encode16 bytes

namespace Decoder

theorem sextet_of_value {c : Byte} {n : Nat} (found : base64Value c = some n) :
    sextet c = some n := by
  unfold sextet
  split
  · rename_i padding
    rw [padding, show base64Value (ch '=') = none by decide] at found
    cases found
  · exact found

theorem value_ne_padding {c : Byte} {n : Nat} (found : base64Value c = some n) :
    n ≠ base64Padding := by
  have small := base64Value_lt found
  unfold base64Padding
  omega

/-- Four characters that make a quartet. -/
theorem feedAll_quartet {a b c d : Byte} {rest : Text} {q0 q1 q2 q3 : Nat} {made : Bytes}
    {padded : Bool} (visible : ∀ x ∈ [a, b, c, d], isXmlWhitespace x = false)
    (first : sextet a = some q0) (second : sextet b = some q1) (third : sextet c = some q2)
    (fourth : sextet d = some q3) (bytes : quartetBytes q0 q1 q2 q3 = some (made, padded)) :
    (initial true).feedAll (a :: b :: c :: d :: rest) =
      (feedAll { initial true with complete := padded } rest).map fun after =>
        (after.1, made ++ after.2) := by
  simp only [List.mem_cons, List.not_mem_nil, or_false, forall_eq_or_imp, forall_eq] at visible
  obtain ⟨visibleA, visibleB, visibleC, visibleD⟩ := visible
  simp [feedAll, feed, feedBase64, initial, visibleA, visibleB, visibleC, visibleD, first, second,
    third, fourth, bytes, Option.map_map, Function.comp_def]

theorem feedAll_of_decode64 : ∀ {text : Text} {bytes : Bytes},
    (∀ c ∈ text, isXmlWhitespace c = false) → base64Alphabet.decode64 text = some bytes →
      ∃ decoder, (initial true).feedAll text = some (decoder, bytes) ∧ decoder.quartet = [] ∧
        decoder.base64 = true
  | [], bytes, _, decoded => by
      rw [Library.Alphabet.decode64, Option.some.injEq] at decoded
      exact ⟨initial true, by rw [feedAll, decoded], rfl, rfl⟩
  | [_], _, _, decoded => by cases decoded
  | [_, _], _, _, decoded => by cases decoded
  | [_, _, _], _, _, decoded => by cases decoded
  | a :: b :: c :: d :: rest, bytes, visible, decoded => by
      have four : ∀ x ∈ [a, b, c, d], isXmlWhitespace x = false := fun x member =>
        visible x (List.mem_append_left rest member)
      have later : ∀ x ∈ rest, isXmlWhitespace x = false := fun x member =>
        visible x (List.mem_append_right [a, b, c, d] member)
      rw [Library.Alphabet.decode64] at decoded
      simp only [Option.bind_eq_bind, Option.bind_eq_some_iff] at decoded
      obtain ⟨x, valueA, y, valueB, decoded⟩ := decoded
      have first := sextet_of_value valueA
      have second := sextet_of_value valueB
      have early : ¬ (x = base64Padding ∨ y = base64Padding) := by
        rw [not_or]
        exact ⟨value_ne_padding valueA, value_ne_padding valueB⟩
      split at decoded
      · rename_i paddedC
        split at decoded
        · rename_i padded
          obtain ⟨paddedD, zero, rfl⟩ := padded
          cases decoded
          have quartet : quartetBytes x y base64Padding base64Padding =
              some ([UInt8.ofNat (x * 4 + y / 16)], true) := by
            rw [quartetBytes, if_neg early, if_pos rfl, if_neg (by simp [zero])]
          refine ⟨{ initial true with complete := true }, ?_, rfl, rfl⟩
          rw [feedAll_quartet four first second (if_pos paddedC) (if_pos paddedD) quartet]
          rfl
        · cases decoded
      · simp only [Option.bind_eq_some_iff] at decoded
        obtain ⟨z, valueC, decoded⟩ := decoded
        have third := sextet_of_value valueC
        have notThird := value_ne_padding valueC
        split at decoded
        · rename_i paddedD
          split at decoded
          · rename_i padded
            obtain ⟨zero, rfl⟩ := padded
            cases decoded
            have quartet : quartetBytes x y z base64Padding =
                some ([UInt8.ofNat (x * 4 + y / 16), UInt8.ofNat (y * 16 + z / 4)], true) := by
              rw [quartetBytes, if_neg early, if_neg notThird, if_pos rfl, if_neg (by simp [zero])]
            refine ⟨{ initial true with complete := true }, ?_, rfl, rfl⟩
            rw [feedAll_quartet four first second third (if_pos paddedD) quartet]
            rfl
          · cases decoded
        · simp only [Option.bind_eq_some_iff, Option.some.injEq] at decoded
          obtain ⟨w, valueD, more, decoded, rfl⟩ := decoded
          have fourth := sextet_of_value valueD
          have quartet : quartetBytes x y z w =
              some ([UInt8.ofNat (x * 4 + y / 16), UInt8.ofNat (y * 16 + z / 4),
                UInt8.ofNat (z * 64 + w)], false) := by
            rw [quartetBytes, if_neg early, if_neg notThird, if_neg (value_ne_padding valueD)]
          obtain ⟨decoder, run, empty, kind⟩ := feedAll_of_decode64 later decoded
          refine ⟨decoder, ?_, empty, kind⟩
          rw [feedAll_quartet four first second third fourth quartet,
            show { initial true with complete := false } = initial true from rfl, run]
          rfl

theorem feedAll_of_decode16 : ∀ {text : Text} {bytes : Bytes},
    (∀ c ∈ text, isXmlWhitespace c = false) → hexAlphabet.decode16 text = some bytes →
      (initial false).feedAll text = some (initial false, bytes)
  | [], bytes, _, decoded => by
      rw [Library.Alphabet.decode16, Option.some.injEq] at decoded
      rw [feedAll, decoded]
  | [_], _, _, decoded => by cases decoded
  | a :: b :: rest, bytes, visible, decoded => by
      simp only [List.mem_cons, forall_eq_or_imp] at visible
      obtain ⟨visibleA, visibleB, later⟩ := visible
      rw [Library.Alphabet.decode16] at decoded
      simp only [Option.bind_eq_bind, Option.bind_eq_some_iff, Option.some.injEq] at decoded
      obtain ⟨x, valueA, y, valueB, more, decoded, rfl⟩ := decoded
      have run := feedAll_of_decode16 later decoded
      have first : lowercaseHexValue a = some x := valueA
      have second : lowercaseHexValue b = some y := valueB
      have back : (⟨false, [], false, none⟩ : Decoder) = initial false := rfl
      simp [feedAll, feed, feedHex, initial, visibleA, visibleB, first, second]
      simp [back, run]

/-- What stands for bytes is decoded to them, with nothing left over. -/
theorem feedAll_of_decoded {base64 : Bool} {text : Text} {bytes : Bytes}
    (decoded : decodedText base64 text = some bytes) :
    ∃ decoder, (initial base64).feedAll text = some (decoder, bytes) ∧
      decoder.isIncomplete = false := by
  have visible : ∀ c ∈ text.filter fun c => !isXmlWhitespace c, isXmlWhitespace c = false := by
    simp
  unfold decodedText at decoded
  rw [← feedAll_filter]
  cases base64 with
  | true =>
      rw [if_pos rfl] at decoded
      obtain ⟨decoder, run, empty, kind⟩ := feedAll_of_decode64 visible decoded
      exact ⟨decoder, run, by simp [isIncomplete, kind, empty]⟩
  | false =>
      rw [if_neg Bool.false_ne_true] at decoded
      exact ⟨_, feedAll_of_decode16 visible decoded, rfl⟩

end Decoder

/-! ## The handler -/

section

variable {options : ReaderOptions} {state state' : XmlBuilder}

/-- The open block takes so many bytes more. -/
def HasRoom (options : ReaderOptions) (state : XmlBuilder) (count : Nat) : Prop :=
  ∃ block, openBlock state = some block ∧ block.length + count ≤ openBlockLimit options state

theorem HasRoom.mono {less more : Nat} (smaller : less ≤ more)
    (room : HasRoom options state more) : HasRoom options state less := by
  obtain ⟨block, found, within⟩ := room
  exact ⟨block, found, by omega⟩

theorem HasRoom.after {bytes : Bytes} {count : Nat}
    (room : HasRoom options state (bytes.length + count)) :
    HasRoom options (addBytes state bytes) count := by
  obtain ⟨block, found, within⟩ := room
  obtain ⟨grown, limit, -⟩ := @openBlock_addBytes options state bytes
  refine ⟨block ++ bytes, by rw [grown, found]; rfl, ?_⟩
  rw [limit, List.length_append]
  omega

theorem appendInlineByte_ok {value : Nat} (room : HasRoom options state 1) :
    appendInlineByte options state value = .ok (addBytes state [UInt8.ofNat value]) := by
  obtain ⟨block, found, within⟩ := room
  unfold appendInlineByte
  unfold openBlock at found
  unfold openBlockLimit at within
  have accepted {blocks : List Bytes} {index limit : Nat} (there : blocks[index]? = some block)
      (small : block.length + 1 ≤ limit) : ¬ (blocks.getD index []).length ≥ limit := by
    rw [List.getD_eq_getElem?_getD, there, Option.getD_some]
    omega
  cases property : state.inlineMetadataIndex with
  | some index =>
      simp only [property] at found within
      simp only [property, reject, addBytes, appendTo, if_neg (accepted found within)]
      rfl
  | none =>
      cases profile : state.inlineIccProfileIndex with
      | some index =>
          simp only [property, profile] at found within
          simp only [property, profile, reject, addBytes, appendTo,
            if_neg (accepted found within)]
          rfl
      | none =>
          cases thumbnail : state.embeddedThumbnailIndex <;>
            · simp only [property, profile, thumbnail] at found within
              simp only [property, profile, thumbnail, reject, addBytes, appendTo,
                if_neg (accepted found within)]
              rfl

theorem decodeBase64Quartet_ok {q0 q1 q2 q3 : Nat} {bytes : Bytes} {padded : Bool}
    (fresh : state.base64Complete = false)
    (made : Decoder.quartetBytes q0 q1 q2 q3 = some (bytes, padded))
    (room : HasRoom options state bytes.length) :
    decodeBase64Quartet options state q0 q1 q2 q3 =
      .ok { addBytes state bytes with base64Complete := padded } := by
  have kept (bytes : Bytes) : (addBytes state bytes).base64Complete = false := by
    rw [← fresh]
    exact congrArg Decoder.complete (@openBlock_addBytes options state bytes).2.2
  unfold Decoder.quartetBytes at made
  unfold decodeBase64Quartet
  split_ifs at made with early third bad fourth bad'
  all_goals
    rw [Option.some.injEq, Prod.mk.injEq] at made
    obtain ⟨rfl, rfl⟩ := made
    have one := @appendInlineByte_ok _ _ (q0 * 4 + q1 / 16) (room.mono (by simp))
    simp only [reject, if_neg early, one, bind, Except.bind, pure, Except.pure]
  · simp only [if_pos third, if_neg bad]
  · have two := @appendInlineByte_ok _ _ (q1 * 16 + q2 / 4)
      (@HasRoom.after _ _ [UInt8.ofNat (q0 * 4 + q1 / 16)] 1 room)
    simp only [if_neg third, two, if_pos fourth, if_neg bad', addBytes_append]
    rfl
  · have two := @appendInlineByte_ok _ _ (q1 * 16 + q2 / 4)
      (@HasRoom.after _ _ [UInt8.ofNat (q0 * 4 + q1 / 16)] 1 (room.mono (by simp)))
    rw [addBytes_append] at two
    have three := @appendInlineByte_ok _ _ (q2 * 64 + q3)
      (@HasRoom.after _ _ ([UInt8.ofNat (q0 * 4 + q1 / 16)] ++ [UInt8.ofNat (q1 * 16 + q2 / 4)]) 1
        room)
    rw [addBytes_append] at three
    simp only [if_neg third, two, if_neg fourth, three]
    rw [← kept]
    rfl

/-- Bytes leave the decoder alone. -/
theorem addBytes_fields (state : XmlBuilder) (bytes : Bytes) :
    (addBytes state bytes).embeddedEncoding = state.embeddedEncoding ∧
      (addBytes state bytes).base64Quartet = state.base64Quartet ∧
      (addBytes state bytes).base64Complete = state.base64Complete ∧
      (addBytes state bytes).hexHighNibble = state.hexHighNibble ∧
      (addBytes state bytes).encodedBlockBytes = state.encodedBlockBytes := by
  unfold addBytes
  split <;> exact ⟨rfl, rfl, rfl, rfl, rfl⟩

/-- A block that is open stays open while it is decoded. -/
theorem isEncodedBlockOpen_decoded (bytes : Bytes) (decoder : Decoder) (count : Nat) :
    isEncodedBlockOpen (withDecoder (addBytes state bytes) decoder count) =
      isEncodedBlockOpen state := by
  show isEncodedBlockOpen (addBytes state bytes) = _
  unfold addBytes
  split <;> rfl

theorem decodeBase64Character_ok {c : Byte} {decoder : Decoder} {bytes : Bytes}
    (isBase64 : (decoderOf state).base64 = true)
    (fed : (decoderOf state).feed c = some (decoder, bytes))
    (room : HasRoom options state bytes.length) :
    decodeBase64Character options state c =
      .ok (withDecoder (addBytes state bytes) decoder state.encodedBlockBytes) := by
  obtain ⟨-, -, -, nibble, count⟩ := addBytes_fields state bytes
  rw [Decoder.feed, isBase64, if_pos rfl, Decoder.feedBase64] at fed
  split at fed
  · cases fed
  · rename_i open_
    have fresh : state.base64Complete = false := by simpa [decoderOf] using open_
    cases digit : Decoder.sextet c with
    | none => simp [digit] at fed
    | some value =>
        have found : (if c = ch '=' then some base64Padding else base64Value c) = some value :=
          digit
        simp only [digit] at fed
        unfold decodeBase64Character
        simp only [reject, fresh, Bool.false_eq_true, if_false, found, orFail, bind, Except.bind,
          pure, Except.pure]
        split at fed
        · rename_i q0 q1 q2 full
          obtain ⟨⟨made, padded⟩, quartet, same⟩ := Option.map_eq_some_iff.mp fed
          rw [Prod.mk.injEq] at same
          obtain ⟨rfl, rfl⟩ := same
          rw [show state.base64Quartet = [q0, q1, q2] from full]
          simp only [decodeBase64Quartet_ok fresh quartet room]
          rw [withDecoder]
          simp only [decoderOf, ← nibble, ← count]
        · rename_i other
          simp only [Option.some.injEq, Prod.mk.injEq] at fed
          obtain ⟨rfl, rfl⟩ := fed
          rw [addBytes_nil]
          split
          · rename_i q0 q1 q2 full
            exact absurd full (other q0 q1 q2)
          · simp only [withDecoder, decoderOf, fresh]

theorem decodeHexCharacter_ok {c : Byte} {decoder : Decoder} {bytes : Bytes}
    (isHex : (decoderOf state).base64 = false)
    (fed : (decoderOf state).feed c = some (decoder, bytes))
    (room : HasRoom options state bytes.length) :
    decodeHexCharacter options state c =
      .ok (withDecoder (addBytes state bytes) decoder state.encodedBlockBytes) := by
  obtain ⟨-, quartet, complete, -, count⟩ := addBytes_fields state bytes
  rw [Decoder.feed, isHex, if_neg Bool.false_ne_true, Decoder.feedHex] at fed
  cases digit : lowercaseHexValue c with
  | none => simp [digit] at fed
  | some nibble =>
      unfold decodeHexCharacter
      simp only [digit, orFail, bind, Except.bind, pure, Except.pure]
      cases high : state.hexHighNibble with
      | none =>
          have none_ : (decoderOf state).highNibble = none := high
          simp only [digit, none_, Option.some.injEq, Prod.mk.injEq] at fed
          obtain ⟨rfl, rfl⟩ := fed
          rw [addBytes_nil]
          simp only [withDecoder, decoderOf]
      | some value =>
          have some_ : (decoderOf state).highNibble = some value := high
          simp only [digit, some_, Option.some.injEq, Prod.mk.injEq] at fed
          obtain ⟨rfl, rfl⟩ := fed
          simp only [appendInlineByte_ok room]
          rw [withDecoder]
          simp only [decoderOf, ← quartet, ← complete, ← count]

/-- One character that is no whitespace. -/
theorem decodeCharacter_ok {c : Byte} {decoder : Decoder} {bytes : Bytes}
    (fed : (decoderOf state).feed c = some (decoder, bytes))
    (room : HasRoom options state bytes.length) :
    (if state.embeddedEncoding = .hex then decodeHexCharacter options state c
      else decodeBase64Character options state c) =
      .ok (withDecoder (addBytes state bytes) decoder state.encodedBlockBytes) := by
  by_cases hex : state.embeddedEncoding = .hex
  · rw [if_pos hex]
    exact decodeHexCharacter_ok (by simpa [decoderOf] using hex) fed room
  · rw [if_neg hex]
    exact decodeBase64Character_ok (by simpa [decoderOf] using hex) fed room

/-- The decoder keeps its encoding. -/
theorem Decoder.feed_base64 {decoder next : Decoder} {c : Byte} {bytes : Bytes}
    (fed : decoder.feed c = some (next, bytes)) : next.base64 = decoder.base64 := by
  cases kind : decoder.base64 with
  | true =>
      rw [feed, kind, if_pos rfl, feedBase64] at fed
      split at fed
      · cases fed
      · cases digit : sextet c with
        | none => simp [digit] at fed
        | some value =>
            simp only [digit] at fed
            split at fed
            · obtain ⟨made, -, same⟩ := Option.map_eq_some_iff.mp fed
              rw [Prod.mk.injEq] at same
              rw [← same.1]
              exact kind
            · rw [Option.some.injEq, Prod.mk.injEq] at fed
              rw [← fed.1]
              exact kind
  | false =>
      rw [feed, kind, if_neg Bool.false_ne_true, feedHex] at fed
      split at fed
      · cases fed
      · rw [Option.some.injEq, Prod.mk.injEq] at fed
        rw [← fed.1]
        exact kind
      · rw [Option.some.injEq, Prod.mk.injEq] at fed
        rw [← fed.1]
        exact kind

/-- What the decoder takes, the handler takes, as far as the limits go. -/
theorem decodeEmbeddedText_ok {text : Text} {decoder : Decoder} {bytes : Bytes}
    (fed : (decoderOf state).feedAll text = some (decoder, bytes))
    (room : HasRoom options state bytes.length)
    (within : state.encodedBlockBytes + (stripped text).length ≤ options.maxEncodedBlockBytes) :
    decodeEmbeddedText options state text =
      .ok (withDecoder (addBytes state bytes) decoder
        (state.encodedBlockBytes + (stripped text).length)) := by
  induction text generalizing state bytes with
  | nil =>
      rw [Decoder.feedAll, Option.some.injEq, Prod.mk.injEq] at fed
      obtain ⟨rfl, rfl⟩ := fed
      rw [addBytes_nil]
      rfl
  | cons c rest ih =>
      rw [Decoder.feedAll] at fed
      rw [decodeEmbeddedText]
      by_cases space : isXmlWhitespace c = true
      · have skipped : stripped (c :: rest) = stripped rest := by simp [stripped, space]
        rw [if_pos space] at fed ⊢
        rw [skipped] at within ⊢
        exact ih fed room within
      · have taken : stripped (c :: rest) = c :: stripped rest := by simp [stripped, space]
        rw [if_neg space] at fed ⊢
        rw [taken, List.length_cons] at within ⊢
        obtain ⟨⟨next, first⟩, one, fed⟩ := Option.bind_eq_some_iff.mp fed
        obtain ⟨⟨last, more⟩, later, same⟩ := Option.map_eq_some_iff.mp fed
        rw [Prod.mk.injEq] at same
        obtain ⟨rfl, rfl⟩ := same
        rw [List.length_append] at room
        have counted := @decodeCharacter_ok options
          (withDecoder state (decoderOf state) (state.encodedBlockBytes + 1)) c next first one
          (room.mono (Nat.le_add_right _ _))
        rw [addBytes_withDecoder] at counted
        have reached : decoderOf (withDecoder (addBytes state first) next
            (state.encodedBlockBytes + 1)) = next := by
          rw [decoderOf]
          simp only [withDecoder, (addBytes_fields state first).1]
          rw [show decide (state.embeddedEncoding ≠ .hex) = next.base64 from
            (Decoder.feed_base64 one).symm]
        have done := @ih (withDecoder (addBytes state first) next (state.encodedBlockBytes + 1))
          more
          (by rw [reached]; exact later) room.after
          (by simp only [withDecoder]; omega)
        simp only [reject, if_neg (show ¬ state.encodedBlockBytes ≥ options.maxEncodedBlockBytes by
          omega), bind, Except.bind]
        refine (congrArg (fun x => Except.bind x fun state =>
          decodeEmbeddedText options state _) counted).trans (done.trans ?_)
        rw [addBytes_withDecoder, addBytes_append]
        simp only [withDecoder, Except.ok.injEq]
        rw [show state.encodedBlockBytes + 1 + (stripped rest).length =
          state.encodedBlockBytes + ((stripped rest).length + 1) by omega]

theorem decodeCharacter_count {c : Byte}
    (run : (if state.embeddedEncoding = .hex then decodeHexCharacter options state c
      else decodeBase64Character options state c) = .ok state') :
    state'.encodedBlockBytes = state.encodedBlockBytes := by
  obtain ⟨-, run⟩ | ⟨-, run⟩ := ite_eq_ok run
  · simp only [decodeHexCharacter, bind_eq_ok, orFail_eq_ok] at run
    obtain ⟨nibble, -, run⟩ := run
    split at run
    · cases run
      rfl
    · simp only [bind_eq_ok, pure, Except.pure, Except.ok.injEq] at run
      obtain ⟨added, append, rfl⟩ := run
      exact (appendInlineByte_eq append).decoder.2.2.2.2
  · simp only [decodeBase64Character, bind_eq_ok, reject_eq_ok, orFail_eq_ok,
      Bool.not_eq_true] at run
    obtain ⟨_, fresh, value, -, run⟩ := run
    split at run
    · simp only [bind_eq_ok, pure, Except.pure, Except.ok.injEq] at run
      obtain ⟨decoded, decode, rfl⟩ := run
      obtain ⟨_, _, added, -, appended, rfl⟩ := decodeBase64Quartet_eq fresh decode
      exact appended.decoder.2.2.2.2
    · cases run
      rfl

/-- Every character that is no whitespace is counted, and the count stays within
the limit. -/
theorem decodeEmbeddedText_count {text : Text}
    (run : decodeEmbeddedText options state text = .ok state') :
    state'.encodedBlockBytes = state.encodedBlockBytes + (stripped text).length ∧
      (stripped text ≠ [] → state'.encodedBlockBytes ≤ options.maxEncodedBlockBytes) := by
  induction text generalizing state with
  | nil =>
      rw [decodeEmbeddedText, Except.ok.injEq] at run
      subst run
      exact ⟨rfl, fun impossible => absurd rfl impossible⟩
  | cons c rest ih =>
      rw [decodeEmbeddedText] at run
      obtain ⟨space, run⟩ | ⟨space, run⟩ := ite_eq_ok run
      · have skipped : stripped (c :: rest) = stripped rest := by simp [stripped, space]
        rw [skipped]
        exact ih run
      · have taken : stripped (c :: rest) = c :: stripped rest := by simp [stripped, space]
        simp only [bind_eq_ok, reject_eq_ok] at run
        obtain ⟨_, room, next, decode, run⟩ := run
        have one : next.encodedBlockBytes = state.encodedBlockBytes + 1 :=
          @decodeCharacter_count options
            { state with encodedBlockBytes := state.encodedBlockBytes + 1 } next c decode
        obtain ⟨count, within⟩ := ih run
        rw [taken, List.length_cons]
        refine ⟨by omega, fun _ => ?_⟩
        cases more : stripped rest with
        | nil =>
            rw [more, List.length_nil] at count
            omega
        | cons d later => exact within (by rw [more]; exact List.cons_ne_nil d later)

/-- Text in two pieces is text in one. -/
theorem decodeEmbeddedText_append (first second : Text) :
    decodeEmbeddedText options state (first ++ second) =
      decodeEmbeddedText options state first >>= fun middle =>
        decodeEmbeddedText options middle second := by
  induction first generalizing state with
  | nil => rfl
  | cons c rest ih =>
      rw [List.cons_append, decodeEmbeddedText, decodeEmbeddedText]
      split
      · exact ih
      · simp only [ih, bind_assoc]

end

end Mmxisf.Reader
