/-
# EncodedBlocks -- the decoder accepts one spelling for each string of bytes

An inline Property, an inline ICCProfile or a Data element has just started, after
any header events; its text comes in any pieces, and its end tag.  The handlers
accept this exactly when the text without its whitespace is the encoding of some
bytes that fit, and the block of the element is then these bytes
(`EncodedExactly`).  Nothing of an earlier element is left in the decoder or in the
block (`EncodedStart.Fresh`).
-/
import Mmxisf.Reader.BlockText
import Mmxisf.Reader.EncodedAccepts

namespace Mmxisf.Reader

set_option autoImplicit false

variable {options : ReaderOptions} {platform : Platform}

/-- An encoded element that has just started, in a header that was accepted so
far. -/
structure EncodedStart (options : ReaderOptions) (platform : Platform) where
  earlier : ParserRun options platform
  name : Text
  attributes : List (Text × Text)
  state : XmlBuilder
  starts : startElement options platform earlier.state name attributes = .ok state
  encoded : isEncoded (tagOf name attributes) = true

/-- An image that is open, and what comes before it. -/
def imageBegins : List XmlEvent :=
  .declaration (some (lit "1.0")) (some (lit "UTF-8")) (-1) ::
    .startElement (kXisfNamespace ++ separator :: lit "xisf") [(lit "version", lit "1.0")] ::
    .startElement (kXisfNamespace ++ separator :: lit "Image") [(lit "geometry", lit "1:1:1"),
      (lit "sampleFormat", lit "UInt8"), (lit "colorSpace", lit "Gray"),
      (lit "location", lit "embedded")] :: []

def imageOpen : ParserRun {} (reporting []) where
  events := imageBegins
  state := valueOf (handleEvents {} (reporting []) {} imageBegins) (by decide +kernel)
  outline := (followAll {} imageBegins).get (by decide +kernel)
  run := valueOf_eq _ _
  nested := (Option.some_get _).symm

/-- Its Data element. -/
example : EncodedStart {} (reporting []) where
  earlier := imageOpen
  name := kXisfNamespace ++ separator :: lit "Data"
  attributes := [(lit "encoding", lit "base64")]
  state := valueOf (startElement {} (reporting []) imageOpen.state
    (kXisfNamespace ++ separator :: lit "Data") [(lit "encoding", lit "base64")])
    (by decide +kernel)
  starts := valueOf_eq _ _
  encoded := by decide +kernel

namespace EncodedStart

def base64 (start : EncodedStart options platform) : Bool :=
  isBase64 (tagOf start.name start.attributes)

/-- The text of the element, in the pieces that it comes in, and its end tag. -/
def content (start : EncodedStart options platform) (texts : List Text) : List XmlEvent :=
  texts.map .characterData ++ [.endElement start.name]

/-- The handlers accept the element with this text. -/
def Accepts (start : EncodedStart options platform) (texts : List Text) : Prop :=
  ∃ closed, handleEvents options platform start.state (start.content texts) = .ok closed

/-- What an encoded element finds: an empty block, and a decoder with nothing in
it. -/
structure Fresh (start : EncodedStart options platform) : Prop where
  encoding : start.state.embeddedEncoding = if start.base64 then .base64 else .hex
  decoder : decoderOf start.state = Decoder.initial start.base64
  count : start.state.encodedBlockBytes = 0
  block : storedBlock start.state (openPlace start.state) = some []

end EncodedStart

/-- The element is accepted exactly with the encodings of the bytes that fit, and
its block is these bytes. -/
structure EncodedExactly (start : EncodedStart options platform) : Prop where
  /-- Nothing is left of an earlier element. -/
  fresh : start.Fresh
  accepts : ∀ texts, start.Accepts texts ↔ ∃ bytes,
    stripped texts.flatten = encodedText start.base64 bytes ∧
      (stripped texts.flatten).length ≤ options.maxEncodedBlockBytes ∧
      bytes.length ≤ openBlockLimit options start.state
  stored : ∀ texts closed,
    handleEvents options platform start.state (start.content texts) = .ok closed →
      ∃ bytes, stripped texts.flatten = encodedText start.base64 bytes ∧
        storedBlock closed (openPlace start.state) = some bytes ∧
        ∀ place, place ≠ openPlace start.state →
          storedBlock closed place = storedBlock start.state place
  /-- Decoding undoes encoding, wherever whitespace is inserted. -/
  roundTrip : ∀ bytes texts, stripped texts.flatten = encodedText start.base64 bytes →
    (stripped texts.flatten).length ≤ options.maxEncodedBlockBytes →
    bytes.length ≤ openBlockLimit options start.state →
      ∃ closed, handleEvents options platform start.state (start.content texts) = .ok closed ∧
        storedBlock closed (openPlace start.state) = some bytes

section

variable {outline : HeaderOutline} {state state' identified : XmlBuilder} {tag : XmlTag}
  {top : HeaderFrame} {below : List HeaderFrame}

/-! ## The start of an element -/

/-- An element that opens a block counts its characters anew. -/
theorem Opened.encodedBlockBytes {parent : Text}
    (none_open : isEncodedBlockOpen identified = false)
    (opened : Opened options platform identified (tag.context parent) state')
    (inside : isEncodedBlockOpen state' = true) : state'.encodedBlockBytes = 0 := by
  have closed {P : Prop} (still : isEncodedBlockOpen identified = true) : P := by
    rw [none_open] at still
    cases still
  cases opened with
  | unhandled unknown equal =>
      subst equal
      exact closed inside
  | table isXisf named run =>
      obtain ⟨rows, columns, -, -, -, -, rfl⟩ := startTable_eq run
      exact closed inside
  | tableStructure isXisf named run =>
      obtain ⟨-, -, ⟨-, -, rfl⟩ | ⟨-, -, -, rfl⟩⟩ := startStructure_eq run
      · exact closed inside
      · exact closed inside
  | field isXisf named run =>
      obtain ⟨-, -, -, -, rfl⟩ := startField_eq run
      exact closed inside
  | row isXisf named run =>
      obtain ⟨-, -, -, -, rfl⟩ := startRow_eq run
      exact closed inside
  | cell isXisf named run =>
      obtain ⟨block, form, length, rows, columns, -, -, -, -, -, -, -, -, rfl⟩ := startCell_eq run
      exact closed inside
  | ancillary isXisf which named run =>
      obtain ⟨-, -, -, -, -, rfl⟩ := startAncillary_eq run
      exact closed inside
  | metadata isXisf named run =>
      obtain ⟨-, -, rfl⟩ := startMetadata_eq run
      exact closed inside
  | thumbnail isXisf named run =>
      obtain ⟨location, image, -, -, -, -, -, -, rfl⟩ := startThumbnail_eq run
      exact closed inside
  | image isXisf named run =>
      obtain ⟨location, image, -, -, -, -, -, rfl⟩ := startImage_eq run
      exact closed inside
  | iccProfile isXisf named run =>
      obtain ⟨location, located, -, -, -, ⟨outside, rfl⟩ | ⟨inline, -, rfl⟩⟩ :=
        startIccProfile_eq run
      · exact closed inside
      · rfl
  | data isXisf named run =>
      obtain ⟨base64, encoding, ⟨index, owned, unseen, rfl⟩ | ⟨index, -, owned, unseen, rfl⟩⟩ :=
        startData_eq run
      · rfl
      · rfl
  | entry isXisf named run =>
      obtain ⟨entry, of, -, -, -, -, -, made⟩ := startMetadataEntry_eq run
      rcases made with ⟨isText, rfl⟩ | ⟨-, property, inline, -, rfl⟩ | ⟨-, outside, rfl⟩
      · exact closed inside
      · rfl
      · exact closed inside

theorem openBlock_eq (state : XmlBuilder) :
    openBlock state = storedBlock state (openPlace state) := by
  unfold openBlock openPlace
  split <;> simp only [*, storedBlock]

namespace EncodedStart

/-- The run up to the start tag. -/
def run (start : EncodedStart options platform) : ParserRun options platform where
  events := start.earlier.events ++ [.startElement start.name start.attributes]
  state := start.state
  outline := start.earlier.outline.start (tagOf start.name start.attributes)
  run := by
    rw [handleEvents_append, start.earlier.run]
    show (startElement options platform start.earlier.state start.name start.attributes >>= _) = _
    rw [start.starts]
    rfl
  nested := by
    rw [followAll_append, start.earlier.nested]
    rfl

theorem opened (start : EncodedStart options platform) :
    start.run.outline.opened =
      (start.earlier.outline.fresh (tagOf start.name start.attributes)).toFrame ::
        start.earlier.outline.opened := rfl

theorem isOpen (start : EncodedStart options platform) :
    isEncodedBlockOpen start.state = true := by
  by_contra closed
  have shape := start.run.shape
  have plain := shape.encodes.none_open shape.stacked (Bool.not_eq_true _ ▸ closed) _
    (by rw [start.opened]; exact List.mem_cons_self)
  cases plain.symm.trans start.encoded

theorem fresh (start : EncodedStart options platform) : start.Fresh := by
  have shape : Shape start.run.outline start.state := start.run.shape
  have held : BlocksHold start.run.outline start.state := start.run.holds preserved_blocksHold
  -- the element itself writes to the place that is open, so the place is there
  have writes : decodedPlace start.run.outline
      (start.earlier.outline.fresh (tagOf start.name start.attributes)) =
        some (openPlace start.state) :=
    shape.openPlace_eq start.opened start.encoded
  have writer : start.earlier.outline.fresh (tagOf start.name start.attributes) ∈
      writers start.run.outline (openPlace start.state) := by
    apply List.mem_filter.mpr
    refine ⟨?_, decide_eq_true writes⟩
    show _ ∈ (start.earlier.outline.start _).elements
    rw [Library.Outline.start_elements]
    exact List.mem_append_right _ (List.mem_singleton_self _)
  have holds : ∃ block, storedBlock start.state (openPlace start.state) = some block ∧
      BlockHolds start.run.outline start.state
        (start.earlier.outline.fresh (tagOf start.name start.attributes)) block := by
    cases stored : storedBlock start.state (openPlace start.state) with
    | none =>
        rw [held.absent _ stored] at writer
        cases writer
    | some block =>
        rcases held.written _ _ stored with ⟨none, -⟩ | ⟨element, one, holds⟩
        · rw [none] at writer
          cases writer
        · rw [one, List.mem_singleton] at writer
          subst writer
          exact ⟨block, rfl, holds⟩
  obtain ⟨block, stored, holds⟩ := holds
  rw [BlockHolds, start.opened, List.head?_cons, if_pos rfl] at holds
  obtain ⟨encoding, fed⟩ := holds
  have nothing : (Decoder.initial start.base64, ([] : Bytes)) = (decoderOf start.state, block) :=
    Option.some.inj fed
  rw [Prod.mk.injEq] at nothing
  obtain ⟨decoder, rfl⟩ := nothing
  refine ⟨encoding, decoder.symm, ?_, stored⟩
  have before := start.earlier.shape
  have started := startElement_eq start.starts
  rw [before.stacked.context] at started
  obtain ⟨identified, checked, opened⟩ := started.branch
  have closed : isEncodedBlockOpen identified = false :=
    checked.blocks.2.trans started.encoded
  exact opened.encodedBlockBytes closed start.isOpen

end EncodedStart

/-! ## The text -/

/-- The pieces of text of an open block are one text. -/
theorem handleEvents_texts (inside : isEncodedBlockOpen state = true) (texts : List Text) :
    handleEvents options platform state (texts.map .characterData) =
      decodeEmbeddedText options state texts.flatten := by
  induction texts generalizing state with
  | nil => rfl
  | cons text rest ih =>
      rw [List.map_cons, handleEvents, List.flatten_cons, decodeEmbeddedText_append]
      have piece : handleEvent options platform state (.characterData text) =
          decodeEmbeddedText options state text := by
        rw [handleEvent, characterData, if_pos inside]
        split
        · rename_i empty
          rw [empty, decodeEmbeddedText]
        · rfl
      rw [piece]
      cases run : decodeEmbeddedText options state text with
      | error e => rfl
      | ok next =>
          obtain ⟨decoder, bytes, -, -, added, count, ⟨-, rfl⟩, rfl⟩ := decodeEmbeddedText_eq run
          exact ih (by rw [isEncodedBlockOpen_decoded]; exact inside)

/-- Text opens and closes nothing. -/
theorem followAll_texts (texts : List Text) : ∃ last,
    followAll outline (texts.map .characterData) = some last ∧ last.opened = outline.opened := by
  induction texts generalizing outline with
  | nil => exact ⟨outline, rfl, rfl⟩
  | cons text rest ih =>
      obtain ⟨last, follows, same⟩ := @ih (outline.append text)
      refine ⟨last, follows, same.trans ?_⟩
      exact Library.Outline.append_opened ..

/-! ## The end -/

/-- The sequence that is open is the decoder's. -/
theorem isSequenceIncomplete_eq (some_ : state.embeddedEncoding ≠ .none) :
    isSequenceIncomplete state = (decoderOf state).isIncomplete := by
  unfold isSequenceIncomplete Decoder.isIncomplete decoderOf
  cases encoding : state.embeddedEncoding with
  | none => exact absurd encoding some_
  | base64 => simp
  | hex => simp

/-- An encoded element may end exactly where no sequence is open. -/
theorem closeElement_encoded (shape : Shape outline state) (opened : outline.opened = top :: below)
    (inside : isEncodedBlockOpen state = true) (encoded : isEncoded top.tag = true) :
    (∃ closed, closeElement state top.tag.isXisf top.tag.name = .ok closed) ↔
      isSequenceIncomplete state = false := by
  constructor
  · rintro ⟨closed, run⟩
    exact Closed.complete shape opened encoded (closeElement_eq run)
  · intro complete
    have accepted : ¬ isSequenceIncomplete state = true := by
      rw [complete]
      exact Bool.false_ne_true
    simp only [isEncoded, Bool.or_eq_true, decide_eq_true_eq] at encoded
    rcases encoded with (data | property) | iccProfile
    · obtain ⟨isXisf, named⟩ := (XmlTag.kind_eq (by decide)).mp data
      have notProperty : state.inlineMetadataIndex = none := by
        rw [shape.encodes.property, innermostIndex, opened]
        simp [isInlineProperty, data]
      have notProfile : state.inlineIccProfileIndex = none := by
        rw [shape.encodes.iccProfile, innermostIndex, opened]
        simp [isInlineIccProfile, data]
      have owned : ¬ (state.embeddedImageIndex.isNone = true ∧
          state.embeddedThumbnailIndex.isNone = true) := by
        rintro ⟨noImage, noThumbnail⟩
        rw [Option.isNone_iff_eq_none] at noImage noThumbnail
        rw [isEncodedBlockOpen_false.mpr ⟨noImage, notProperty, notProfile, noThumbnail⟩] at inside
        cases inside
      unfold closeElement endData reject
      rw [isXisf, show top.tag.name = lit "Data" from named, if_neg (by decide), if_pos rfl,
        if_neg owned, if_neg accepted]
      exact ⟨_, rfl⟩
    · obtain ⟨isXisf, named⟩ := (XmlTag.kind_eq (by decide)).mp (isInlineProperty_kind _ property).1
      unfold closeElement endProperty reject
      rw [isXisf, show top.tag.name = lit "Property" from named, if_neg (by decide),
        if_neg (by decide), if_neg (by decide), if_pos rfl, if_neg accepted]
      split
      · exact ⟨_, rfl⟩
      · exact ⟨_, rfl⟩
    · obtain ⟨isXisf, named⟩ :=
        (XmlTag.kind_eq (by decide)).mp (isInlineIccProfile_kind _ iccProfile).1
      unfold closeElement endIccProfile reject
      rw [isXisf, show top.tag.name = lit "ICCProfile" from named, if_neg (by decide),
        if_neg (by decide), if_pos rfl, if_neg accepted]
      split
      · exact ⟨_, rfl⟩
      · exact ⟨_, rfl⟩

end

/-! ## The element -/

namespace EncodedStart

variable (start : EncodedStart options platform) {texts : List Text} {closed : XmlBuilder}

/-- After the text of the element the end tag is all that is left. -/
theorem handleEvents_content (texts : List Text) :
    handleEvents options platform start.state (start.content texts) =
      decodeEmbeddedText options start.state texts.flatten >>= fun state =>
        endElement state start.name := by
  unfold content
  rw [handleEvents_append, handleEvents_texts start.isOpen]
  cases decodeEmbeddedText options start.state texts.flatten with
  | error e => rfl
  | ok state =>
      show (endElement state start.name >>= fun closed => .ok closed) = endElement state start.name
      cases endElement state start.name <;> rfl

/-- The end tag is accepted exactly when the decoder is done. -/
theorem endElement_iff {decoder : Decoder} {bytes : Bytes} {count : Nat}
    (kind : decoder.base64 = start.base64)
    (run : decodeEmbeddedText options start.state texts.flatten =
      .ok (withDecoder (addBytes start.state bytes) decoder count)) :
    (∃ closed, endElement (withDecoder (addBytes start.state bytes) decoder count) start.name =
      .ok closed) ↔ decoder.isIncomplete = false := by
  obtain ⟨last, follows, opened⟩ := @followAll_texts start.run.outline texts
  have parsed := (@preserved_shape options platform).run start.run.shape start.run.shape
    ((handleEvents_texts start.isOpen texts).trans run) follows
  rw [start.opened] at opened
  have inside := (@isEncodedBlockOpen_decoded start.state bytes decoder count).trans start.isOpen
  have encoding : (withDecoder (addBytes start.state bytes) decoder count).embeddedEncoding =
      start.state.embeddedEncoding := (addBytes_fields start.state bytes).1
  have some_ : (withDecoder (addBytes start.state bytes) decoder count).embeddedEncoding ≠
      .none := by
    rw [encoding, start.fresh.encoding]
    split <;> exact nofun
  have reached : decoderOf (withDecoder (addBytes start.state bytes) decoder count) = decoder := by
    have same : decide (start.state.embeddedEncoding ≠ .hex) = decoder.base64 := by
      rw [kind]
      exact congrArg Decoder.base64 start.fresh.decoder
    rw [decoderOf, encoding, same]
    rfl
  have closes := closeElement_encoded parsed.1 opened inside start.encoded
  rw [isSequenceIncomplete_eq some_, reached] at closes
  rw [← closes]
  constructor
  · rintro ⟨closed, ended⟩
    simp only [endElement, bind_eq_ok] at ended
    obtain ⟨middle, close, -⟩ := ended
    exact ⟨middle, close⟩
  · rintro ⟨middle, close⟩
    refine ⟨popElement middle, ?_⟩
    exact congrArg (· >>= fun state => pure (popElement state)) close

/-- What an accepted text was decoded to. -/
theorem decoded (run : handleEvents options platform start.state (start.content texts) =
    .ok closed) : ∃ decoder bytes count,
      decodeEmbeddedText options start.state texts.flatten =
        .ok (withDecoder (addBytes start.state bytes) decoder count) ∧
      endElement (withDecoder (addBytes start.state bytes) decoder count) start.name = .ok closed ∧
      stripped texts.flatten = encodedText start.base64 bytes ∧
      (stripped texts.flatten).length ≤ options.maxEncodedBlockBytes ∧
      bytes.length ≤ openBlockLimit options start.state := by
  rw [handleEvents_content, bind_eq_ok] at run
  obtain ⟨middle, decode, ended⟩ := run
  obtain ⟨decoder, bytes, fed, kind, added, count, ⟨within, rfl⟩, rfl⟩ :=
    decodeEmbeddedText_eq decode
  obtain ⟨counted, limited⟩ := decodeEmbeddedText_count decode
  have fresh := start.fresh
  have sameKind : decoder.base64 = start.base64 := by
    rw [kind, fresh.decoder]
    rfl
  have complete := (start.endElement_iff sameKind decode).mp ⟨closed, ended⟩
  rw [fresh.decoder] at fed
  refine ⟨decoder, bytes, count, decode, ended, ?_, ?_, ?_⟩
  · exact decodedText_eq_some.mp (Decoder.decoded_of_feedAll fed complete sameKind)
  · rw [fresh.count, Nat.zero_add] at counted
    cases texts : stripped texts.flatten with
    | nil => exact Nat.zero_le _
    | cons c rest =>
        rw [texts] at counted limited
        rw [← counted]
        exact limited (List.cons_ne_nil c rest)
  · cases bytes with
    | nil => exact Nat.zero_le _
    | cons b rest =>
        have room := within (List.cons_ne_nil b rest) [] (by rw [openBlock_eq, fresh.block])
        rwa [List.length_nil, Nat.zero_add] at room

/-- The encoding of bytes that fit is decoded to them. -/
theorem accepted {bytes : Bytes}
    (encoding : stripped texts.flatten = encodedText start.base64 bytes)
    (short : (stripped texts.flatten).length ≤ options.maxEncodedBlockBytes)
    (room : bytes.length ≤ openBlockLimit options start.state) :
    ∃ closed, handleEvents options platform start.state (start.content texts) = .ok closed := by
  have fresh := start.fresh
  obtain ⟨decoder, fed, complete⟩ := Decoder.feedAll_of_decoded (decodedText_eq_some.mpr encoding)
  have decode := @decodeEmbeddedText_ok options start.state texts.flatten decoder bytes
    (by rw [fresh.decoder]; exact fed)
    ⟨[], by rw [openBlock_eq, fresh.block], by rwa [List.length_nil, Nat.zero_add]⟩
    (by rw [fresh.count, Nat.zero_add]; exact short)
  obtain ⟨decoder', bytes', fed', kind, -⟩ := decodeEmbeddedText_eq decode
  rw [fresh.decoder, fed, Option.some.injEq, Prod.mk.injEq] at fed'
  obtain ⟨rfl, rfl⟩ := fed'
  have sameKind : decoder.base64 = start.base64 := by
    rw [kind, fresh.decoder]
    rfl
  obtain ⟨closed, ended⟩ := (start.endElement_iff sameKind decode).mpr complete
  refine ⟨closed, ?_⟩
  rw [handleEvents_content, decode]
  exact ended

/-- The end tag leaves the blocks as they are. -/
theorem storedBlock_ended (state : XmlBuilder)
    (ended : endElement state start.name = .ok closed) :
    storedBlock closed = storedBlock state := by
  obtain ⟨middle, close, rfl⟩ := endElement_eq ended
  have same : blockPart (popElement middle) = blockPart state := by
    cases close <;> rfl
  exact (storedBlock_congr same).1

/-- The block of the element is what its text stands for, and no other changes. -/
theorem stored_of (run : handleEvents options platform start.state (start.content texts) =
    .ok closed) : ∃ bytes, stripped texts.flatten = encodedText start.base64 bytes ∧
      storedBlock closed (openPlace start.state) = some bytes ∧
      ∀ place, place ≠ openPlace start.state →
        storedBlock closed place = storedBlock start.state place := by
  obtain ⟨decoder, bytes, count, -, ended, encoding, -, -⟩ := start.decoded run
  have stored (place : DecodedPlace) : storedBlock closed place =
      if place = openPlace start.state then (storedBlock start.state place).map (· ++ bytes)
      else storedBlock start.state place := by
    rw [start.storedBlock_ended _ ended, ← storedBlock_addBytes]
    cases place <;> rfl
  refine ⟨bytes, encoding, ?_, fun place apart => ?_⟩
  · rw [stored, if_pos rfl, start.fresh.block]
    rfl
  · rw [stored, if_neg apart]

end EncodedStart

/-- A string of bytes has one text. -/
theorem encodedText_injective {base64 : Bool} {bytes bytes' : Bytes}
    (same : encodedText base64 bytes = encodedText base64 bytes') : bytes = bytes' := by
  unfold encodedText at same
  split at same
  · have decoded := base64Alphabet.decode64_encode64 bytes
    rw [same, base64Alphabet.decode64_encode64] at decoded
    exact (Option.some.inj decoded).symm
  · have decoded := hexAlphabet.decode16_encode16 bytes
    rw [same, hexAlphabet.decode16_encode16] at decoded
    exact (Option.some.inj decoded).symm

theorem encodedExactly (start : EncodedStart options platform) : EncodedExactly start where
  fresh := start.fresh
  accepts texts := by
    constructor
    · rintro ⟨closed, run⟩
      obtain ⟨-, bytes, -, -, -, encoding, short, room⟩ := start.decoded run
      exact ⟨bytes, encoding, short, room⟩
    · rintro ⟨bytes, encoding, short, room⟩
      exact start.accepted encoding short room
  stored texts closed run := start.stored_of run
  roundTrip bytes texts encoding short room := by
    obtain ⟨closed, run⟩ := start.accepted encoding short room
    obtain ⟨found, same, stored, -⟩ := start.stored_of run
    obtain rfl := encodedText_injective (same.symm.trans encoding)
    exact ⟨closed, run, stored⟩

end Mmxisf.Reader
