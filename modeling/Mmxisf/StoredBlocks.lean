/-
# StoredBlocks -- what a writer stores in a block, a reader gets back

`prepare_block` cuts a payload into chunks, shuffles each across the whole payload,
and compresses them one by one; the reader decompresses the subblocks and scatters
them into one buffer.  Where decompression undoes compression (`CodecLaws`) the
payload comes back from what was stored, whatever the codec, the item size and the
size of the chunks, and nothing but a limit of the reader can stop it
(`storedBlock_restored`).  The codecs have limits of their own, which no setting
changes: a chunk for zlib must not be larger than 2 GiB (`ChunksDecode`).
-/
import Mmxisf.Descriptors
import Mmxisf.Reader.BlockReads
import Mmxisf.Shuffle
import Mmxisf.Writer.UnitBytes

namespace Mmxisf

set_option autoImplicit false

open Library (gathered scatter slice Gates)
open Reader (Passes ReaderOptions CompressionSubblock unshuffledPosition)
open Writer (Codecs Payload StoredAs SerializedAs ChunksEncoded subblockSizes WriterOptions)

/-! ## Codecs and digests -/

/-- The decompressor of what a codec makes. -/
def decoderOf : CompressionCodec → CompressionCodec
  | .lz4hc => .lz4
  | codec => codec

/-- What the libraries document: a decompressor that is given the size of the input
returns the input, within the window that a Zstandard frame asks for; zlib and LZ4 do
not expand their input by more; and digests have their size. -/
structure CodecLaws (platform : Platform) (codecs : Codecs) where
  /-- The logarithm of the window of a Zstandard frame. -/
  window : Bytes → Nat
  restores : ∀ {codec : CompressionCodec} {input output : Bytes} {windowLog : Nat},
    codecs.outputs codec input output → (codec = .zstd → window output ≤ windowLog) →
      platform.decompress (decoderOf codec) output input.length windowLog = ⟨true, input⟩
  bounded : ∀ {codec : CompressionCodec} {input output : Bytes},
    codecs.outputs codec input output → codec ≠ .zstd →
      output.length ≤ input.length + input.length / 255 + 16
  digests : ∀ (algorithm : ChecksumAlgorithm) (bytes : Bytes), algorithm ≠ .none →
    (platform.digest algorithm bytes).length = digestBytes algorithm

/-- An error of a limit, when a chunk is too large for a decompressor. -/
def Oversized (fits : Prop) (e : Error) : Prop := Reader.IsLimit e ∧ ¬ fits

/-- The chunks of a payload are not too large for the decompressors. -/
def ChunksDecode (options : WriterOptions) (payload : Payload) : Prop :=
  payload.compression = .zlib →
    min options.compressionSubblockBytes payload.bytes.length ≤ 2 * 1024 * 1024 * 1024

section

variable {platform : Platform} {codecs : Codecs} {options : WriterOptions} {payload : Payload}
  {ω : Type} {settings : ω → ReaderOptions}

/-- The window limit of a reader is one that Zstandard takes, and no frame asks for
more. -/
structure CodecLaws.Admits (laws : CodecLaws platform codecs) (maxZstdWindowBytes : Nat) :
    Prop where
  size : 1024 ≤ maxZstdWindowBytes
  singleBit : Reader.hasSingleBit maxZstdWindowBytes = true
  accepted : platform.acceptsWindowLog (Nat.log2 maxZstdWindowBytes) = true
  within : ∀ {input output : Bytes}, codecs.outputs .zstd input output →
    laws.window output ≤ Nat.log2 maxZstdWindowBytes

/-- The largest buffers that a decompressor takes. -/
def decoderLimit : CompressionCodec → Nat
  | .zlib => Reader.kMaxUInt
  | _ => Reader.kMaxInt

theorem decompressed_output (laws : CodecLaws platform codecs) {codec : CompressionCodec}
    {input output : Bytes} {maxZstdWindowBytes : Nat}
    (admits : codec = .zstd → laws.Admits maxZstdWindowBytes) (compressed : codec ≠ .none)
    (encoded : codecs.outputs codec input output) {fits : Prop}
    (within : fits → codec ≠ .zstd →
      output.length ≤ decoderLimit codec ∧ input.length ≤ decoderLimit codec) :
    Gates (Oversized fits)
      (Reader.decompressed platform codec output input.length maxZstdWindowBytes) (.ok input) := by
  have restored {windowLog : Nat} {mismatch : String}
      (window : codec = .zstd → laws.window output ≤ windowLog) :
      Reader.decompressedBy platform (decoderOf codec) output input.length windowLog mismatch =
        .ok input := by
    rw [Reader.decompressedBy, laws.restores encoded window, reject, if_neg (by simp)]
    rfl
  have small {limit : Nat} {message : String}
      (within : fits → output.length ≤ limit ∧ input.length ≤ limit) : Gates (Oversized fits)
        (reject (output.length > limit ∨ input.length > limit) .resourceLimit message)
        (.ok ()) := by
    by_cases beyond : output.length > limit ∨ input.length > limit
    · rw [reject, if_pos beyond]
      refine .stopped ⟨.inl rfl, fun fits => ?_⟩
      have within := within fits
      omega
    · rw [reject, if_neg beyond]
      exact .refl _
  cases codec with
  | none => exact absurd rfl compressed
  | zlib =>
      exact .andThen (@small Reader.kMaxUInt _ fun fits => within fits (by decide))
        (.inl (restored (by rintro ⟨⟩)))
  | lz4 | lz4hc =>
      exact .andThen (@small Reader.kMaxInt _ fun fits => within fits (by decide))
        (.inl (restored (by rintro ⟨⟩)))
  | zstd =>
      have admits := admits rfl
      have window : ¬ (maxZstdWindowBytes < 1024 ∨
          Reader.hasSingleBit maxZstdWindowBytes = false) := by
        rw [not_or, Nat.not_lt, Bool.not_eq_false]
        exact ⟨admits.size, admits.singleBit⟩
      refine .inl ?_
      unfold Reader.decompressed
      dsimp only
      rw [reject, if_neg window, reject, admits.accepted]
      exact restored fun _ => admits.within encoded

/-! ## Chunks -/

/-- What is compressed of a payload from an offset on. -/
def Writer.Payload.remaining (payload : Payload) (offset : Nat) : Bytes :=
  if payload.byteShuffle = true then
    gathered (unshuffledPosition payload.itemSize payload.bytes.length) payload.bytes offset
      (payload.bytes.length - offset)
  else payload.bytes.drop offset

/-- A chunk is the beginning of what is left. -/
theorem chunk_append {offset size : Nat} {input : Bytes}
    (item : payload.byteShuffle = true → payload.itemSize ≠ 0)
    (inside : offset + size ≤ payload.bytes.length)
    (made : payload.chunk offset size = .ok input) :
    input.length = size ∧ input ++ payload.remaining (offset + size) =
      payload.remaining offset := by
  unfold Writer.Payload.chunk at made
  unfold Writer.Payload.remaining
  by_cases shuffled : payload.byteShuffle = true
  · rw [if_pos shuffled, shuffledRange_eq (item shuffled) inside, Except.ok.injEq] at made
    subst made
    have within : ∀ i, offset ≤ i → i < offset + size →
        unshuffledPosition payload.itemSize payload.bytes.length i < payload.bytes.length :=
      fun i _ high => (Reader.unshuffledPosition_permutes _ _).inside i (by omega)
    refine ⟨Library.length_gathered within, ?_⟩
    rw [if_pos shuffled, if_pos shuffled, Library.gathered_append]
    congr 1
    omega
  · rw [if_neg shuffled, Except.ok.injEq] at made
    subst made
    refine ⟨Library.length_slice inside, ?_⟩
    rw [if_neg shuffled, if_neg shuffled, slice, ← List.drop_drop]
    exact List.take_append_drop _ _

/-- Every chunk takes some of the payload. -/
theorem chunkSize_pos (limit : 0 < Writer.chunkLimit payload.compression
    options.compressionSubblockBytes) {offset : Nat} (more : offset < payload.bytes.length) :
    0 < payload.chunkSize options offset ∧
      offset + payload.chunkSize options offset ≤ payload.bytes.length := by
  unfold Writer.Payload.chunkSize
  omega

/-- The sizes of chunks add up, and none is empty. -/
theorem chunks_fit (limit : 0 < Writer.chunkLimit payload.compression
    options.compressionSubblockBytes) {offset : Nat} {chunks : List (Bytes × Nat)}
    (encoded : ChunksEncoded codecs options payload offset chunks)
    (room : payload.bytes.length ≤ u64Max)
      (roomAfter : (chunks.map Prod.fst).flatten.length ≤ u64Max) :
    (offset ≤ payload.bytes.length →
        ((chunks.map subblockSizes).map Prod.snd).sum = payload.bytes.length - offset) ∧
      ((chunks.map subblockSizes).map Prod.fst).sum = (chunks.map Prod.fst).flatten.length ∧
      ∀ sizes ∈ chunks.map subblockSizes, SizesFit sizes := by
  induction encoded with
  | done all => exact ⟨fun before => by simp; omega, rfl, by simp⟩
  | @chunk offset input output rest more made encoded later ih =>
      obtain ⟨positive, inside⟩ := chunkSize_pos limit more
      simp only [List.map_cons, List.flatten_cons, List.length_append] at roomAfter ⊢
      obtain ⟨before, after, fit⟩ := ih (by omega)
      have some : 0 < output.length := List.length_pos_iff.mpr (codecs.nonempty encoded)
      refine ⟨fun _ => ?_, ?_, ?_⟩
      · rw [List.sum_cons, before inside]
        show payload.chunkSize options offset + _ = _
        omega
      · rw [List.sum_cons, after]
        rfl
      · rw [List.forall_mem_cons]
        exact ⟨⟨⟨some, by show output.length ≤ _; omega⟩, positive,
          by show payload.chunkSize options offset ≤ _; omega⟩, fit⟩

/-- A chunk and its output are within the limits of the decompressor. -/
theorem chunk_decodes (laws : CodecLaws platform codecs) (decode : ChunksDecode options payload)
    {offset : Nat} {input output : Bytes}
    (encoded : codecs.outputs payload.compression input output)
    (size : input.length = payload.chunkSize options offset)
    (notZstd : payload.compression ≠ .zstd) (compressed : payload.compression ≠ .none) :
    output.length ≤ decoderLimit payload.compression ∧
      input.length ≤ decoderLimit payload.compression := by
  have bound := laws.bounded encoded notZstd
  unfold Writer.Payload.chunkSize at size
  unfold ChunksDecode at decode
  cases codec : payload.compression with
  | none => exact absurd codec compressed
  | zstd => exact absurd codec notZstd
  | zlib =>
      rw [codec] at size
      simp only [Writer.chunkLimit, u64Max] at size
      simp only [decoderLimit, Reader.kMaxUInt]
      have small := decode codec
      omega
  | lz4 | lz4hc =>
      rw [codec] at size
      simp only [Writer.chunkLimit, Writer.kLz4MaxInputSize] at size
      simp only [decoderLimit, Reader.kMaxInt]
      omega

/-- The subblocks decompress to what was compressed. -/
theorem decompressedPieces_encoded (laws : CodecLaws platform codecs) {maxZstdWindowBytes : Nat}
    (limit : 0 < Writer.chunkLimit payload.compression options.compressionSubblockBytes)
    (admits : payload.compression = .zstd → laws.Admits maxZstdWindowBytes)
    {fits : Prop} (decode : fits → ChunksDecode options payload)
    (compressed : payload.compression ≠ .none)
    (item : payload.byteShuffle = true → payload.itemSize ≠ 0) {offset : Nat}
    {chunks : List (Bytes × Nat)}
    (encoded : ChunksEncoded codecs options payload offset chunks) (before : Bytes) :
    ∃ pieces : List Bytes, pieces.flatten = payload.remaining offset ∧
      Gates (Oversized fits) (Reader.decompressedPieces platform
        (before ++ (chunks.map Prod.fst).flatten) payload.compression maxZstdWindowBytes
        ((chunks.map subblockSizes).map subblockOf) before.length) (.ok pieces) := by
  induction encoded generalizing before with
  | done all =>
      refine ⟨[], ?_, .refl _⟩
      unfold Writer.Payload.remaining
      split
      · rw [Nat.sub_eq_zero_of_le all]
        rfl
      · rw [List.drop_eq_nil_of_le all]
        rfl
  | @chunk offset input output rest more made encoded later ih =>
      obtain ⟨-, inside⟩ := chunkSize_pos limit more
      obtain ⟨length, whole⟩ := chunk_append item inside made
      obtain ⟨pieces, joined, restored⟩ := ih (before ++ output)
      refine ⟨input :: pieces, by rw [List.flatten_cons, joined, whole], ?_⟩
      simp only [List.map_cons, List.flatten_cons] at restored ⊢
      rw [List.append_assoc, List.length_append] at restored
      have own : slice (before ++ (output ++ (rest.map Prod.fst).flatten)) before.length
          output.length = output := by
        rw [slice, List.drop_left, List.take_left]
      have first := decompressed_output laws admits compressed encoded fun fits notZstd =>
        chunk_decodes laws (decode fits) encoded length notZstd compressed
      rw [Reader.decompressedPieces]
      show Gates _ (Reader.decompressed platform payload.compression
        (slice _ before.length output.length) (payload.chunkSize options offset)
        maxZstdWindowBytes >>= _) _
      rw [own, ← length]
      exact .andThen first (.andThen restored (.refl _))

/-! ## Blocks -/

/-- The scattered pieces are the payload. -/
theorem assembled_remaining {plan : Reader.CompressionPlan}
    (shuffled : plan.byteShuffled = payload.byteShuffle)
    (item : payload.byteShuffle = true → plan.itemSize = payload.itemSize) :
    Reader.assembled plan 0 (payload.remaining 0) (Reader.zeros payload.bytes.length) =
      payload.bytes := by
  have length : (Reader.zeros payload.bytes.length).length = payload.bytes.length :=
    List.length_replicate
  unfold Reader.assembled Writer.Payload.remaining
  rw [shuffled]
  by_cases isShuffled : payload.byteShuffle = true
  · rw [if_pos isShuffled, if_pos isShuffled, item isShuffled, length, Nat.sub_zero]
    exact (Reader.unshuffledPosition_permutes _ _).scatter_gathered rfl length
  · rw [if_neg isShuffled, if_neg isShuffled, List.drop_zero, Library.overwrite_all length]

theorem blockBytes_encoded (laws : CodecLaws platform codecs) {readerOptions : ReaderOptions}
    (limit : 0 < Writer.chunkLimit payload.compression options.compressionSubblockBytes)
    (admits : payload.compression = .zstd → laws.Admits readerOptions.maxZstdWindowBytes)
    {fits : Prop} (decode : fits → ChunksDecode options payload)
    (compressed : payload.compression ≠ .none)
    (item : payload.byteShuffle = true → payload.itemSize ≠ 0) {chunks : List (Bytes × Nat)}
    (encoded : ChunksEncoded codecs options payload 0 chunks)
    (total : ((chunks.map subblockSizes).map Prod.snd).sum = payload.bytes.length) :
    Gates (Oversized fits) (Reader.blockBytes platform
        (compressedPlan payload.request (chunks.map subblockSizes) readerOptions)
        (chunks.map Prod.fst).flatten) (.ok payload.bytes) := by
  obtain ⟨pieces, joined, restored⟩ :=
    decompressedPieces_encoded laws limit admits decode compressed
    item encoded []
  have size : Reader.uncompressedTotal ((chunks.map subblockSizes).map subblockOf) =
      payload.bytes.length := by
    rw [Reader.uncompressedTotal, List.map_map, ← total]
    rfl
  have coded : (compressedPlan payload.request (chunks.map subblockSizes) readerOptions).codec ≠
      .none := compressed
  have whole := @assembled_remaining payload
    (compressedPlan payload.request (chunks.map subblockSizes) readerOptions) rfl
    fun shuffled => if_pos shuffled
  have mapped := restored.map fun pieces => Reader.assembled
    (compressedPlan payload.request (chunks.map subblockSizes) readerOptions) 0 pieces.flatten
    (Reader.zeros (Reader.uncompressedTotal ((chunks.map subblockSizes).map subblockOf)))
  rw [Reader.blockBytes, if_neg coded, Reader.decodedBytes, Reader.decodedUpTo]
  refine cast (congrArg (Gates _ _) ?_) mapped
  rw [Except.map, joined, size, whole]

end

/-- What the checks of a writer make sure of before a payload is stored. -/
structure Storable (options : WriterOptions) (payload : Payload) : Prop where
  room : payload.bytes.length ≤ u64Max
  item : payload.byteShuffle = true → payload.itemSize ≠ 0 ∧ payload.itemSize ≤ u64Max
  compressed : payload.compression ≠ .none → payload.bytes ≠ [] ∧
    0 < Writer.chunkLimit payload.compression options.compressionSubblockBytes

/-- What a reader plans for a stored block: its bytes as they are, or the chunks that were
compressed. -/
inductive PlannedAs {ω : Type} (codecs : Codecs) (options : WriterOptions) (payload : Payload)
    (content : Bytes) (settings : ω → ReaderOptions) : (ω → Reader.CompressionPlan) → Prop
  | plain (none : payload.compression = .none) (whole : content = payload.bytes) :
      PlannedAs codecs options payload content settings
        fun _ => { uncompressedSize := payload.bytes.length }
  | coded {chunks : List (Bytes × Nat)} (some : payload.compression ≠ .none)
      (limit : 0 < Writer.chunkLimit payload.compression options.compressionSubblockBytes)
      (encoded : ChunksEncoded codecs options payload 0 chunks)
      (whole : content = (chunks.map Prod.fst).flatten)
      (total : ((chunks.map subblockSizes).map Prod.snd).sum = payload.bytes.length) :
      PlannedAs codecs options payload content settings
        fun o => compressedPlan payload.request (chunks.map subblockSizes) (settings o)

/-- Readers with room plan a block of this size from its descriptors. -/
def PlansBlock {ω : Type} (settings : ω → ReaderOptions) (block : Writer.PreparedBlock)
    (serializedBytes : Nat) (payload : Payload) (plan : ω → Reader.CompressionPlan) : Prop :=
  ∀ (expected : Option Nat) (maxSerializedBytes maxDecodedBytes : ω → Nat),
    (∀ size, expected = some size → size = payload.bytes.length) →
    (∀ o, (settings o).room ≤ maxSerializedBytes o) →
    (∀ o, (settings o).room ≤ maxDecodedBytes o) →
      Passes settings (fun o => Reader.parseCompressionPlan block.compression block.subblocks
        serializedBytes expected (settings o) payload.itemSize (maxSerializedBytes o)
        (maxDecodedBytes o))
        plan

/-- The checksum of a block is read from its text, and is that of the content. -/
theorem storedBlock_verified {platform : Platform} {codecs : Codecs} {options : WriterOptions}
    {payload : Payload} {block : Writer.PreparedBlock} {content : Bytes}
    (laws : CodecLaws platform codecs)
    (stored : StoredAs platform codecs options payload block content) :
    ∃ checksum : Reader.ChecksumPlan, Reader.parseChecksumPlan block.checksum = .ok checksum ∧
      (checksum.algorithm ≠ .none → Reader.digestMatches platform checksum content = true) := by
  by_cases declared : payload.checksum = .none
  · rw [stored.checksum, if_pos declared]
    exact ⟨{}, rfl, fun other => absurd rfl other⟩
  · rw [stored.checksum, if_neg declared]
    refine ⟨_, parseChecksumPlan_text declared (laws.digests _ _ declared), fun _ => ?_⟩
    simp [Reader.digestMatches]

/-- A stored block is planned from its descriptors. -/
theorem storedBlock_plans {ω : Type} {platform : Platform} {codecs : Codecs}
    {options : WriterOptions} {payload : Payload} {block : Writer.PreparedBlock} {content : Bytes}
    (storable : Storable options payload)
    (stored : StoredAs platform codecs options payload block content)
    (room : content.length ≤ u64Max) (settings : ω → ReaderOptions) :
    ∃ plan, PlannedAs codecs options payload content settings plan ∧
      PlansBlock settings block content.length payload plan := by
  by_cases plain : payload.compression = .none
  · obtain ⟨rfl, compression, subblocks⟩ := stored.plain plain
    refine ⟨_, .plain plain rfl, fun expected _ _ extent => ?_⟩
    rw [compression, subblocks]
    exact parseCompressionPlan_plain extent room
  · obtain ⟨chunks, encoded, rfl, compression, subblocks⟩ := stored.coded plain
    obtain ⟨nonempty, limit⟩ := storable.compressed plain
    obtain ⟨total, totalAfter, fit⟩ := chunks_fit limit encoded storable.room room
    have total := total (Nat.zero_le _)
    rw [Nat.sub_zero] at total
    have some : chunks.map subblockSizes ≠ [] := by
      intro none
      rw [none] at total
      exact nonempty (List.length_eq_zero_iff.mp total.symm)
    refine ⟨_, .coded plain limit encoded rfl total, fun expected _ _ extent => ?_⟩
    rw [compression, subblocks]
    exact @parseCompressionPlan_text _ settings _ _ payload.request _ _ _ plain some fit totalAfter
      total room storable.room storable.item extent

/-- Readers that plan a block from its descriptors and decode this content get the
payload, where the chunks fit, and its digest is the declared one. -/
structure Restores {ω : Type} (fits : Prop) (platform : Platform) (settings : ω → ReaderOptions)
    (block : Writer.PreparedBlock) (content : Bytes) (payload : Payload) : Prop where
  decoded : ∃ plan : ω → Reader.CompressionPlan,
    (∀ o, Gates (Oversized fits) (Reader.blockBytes platform (plan o) content)
      (.ok payload.bytes)) ∧
    (∀ o, (plan o).byteShuffled = true → payload.byteShuffle = true) ∧
    PlansBlock settings block content.length payload plan
  verified : ∃ checksum : Reader.ChecksumPlan,
    Reader.parseChecksumPlan block.checksum = .ok checksum ∧
      (checksum.algorithm ≠ .none → Reader.digestMatches platform checksum content = true)

/-- What a writer stores of a payload, a reader restores. -/
theorem storedBlock_restored {ω : Type} {platform : Platform} {codecs : Codecs}
    {options : WriterOptions} {payload : Payload} {block : Writer.PreparedBlock} {content : Bytes}
    (laws : CodecLaws platform codecs) (storable : Storable options payload)
    (stored : StoredAs platform codecs options payload block content)
    (room : content.length ≤ u64Max) {settings : ω → ReaderOptions}
    (admits : ∀ o, payload.compression = .zstd → laws.Admits (settings o).maxZstdWindowBytes)
    {fits : Prop} (decode : fits → ChunksDecode options payload) :
    Restores fits platform settings block content payload := by
  refine ⟨?_, storedBlock_verified laws stored⟩
  obtain ⟨plan, planned, parses⟩ := storedBlock_plans storable stored room settings
  cases planned with
  | plain none whole =>
      subst whole
      exact ⟨_, fun _ => .refl _, (fun _ => Bool.noConfusion), parses⟩
  | coded some limit encoded whole total =>
      subst whole
      exact ⟨_, fun o => blockBytes_encoded laws limit (admits o) decode some (fun shuffled =>
        (storable.item shuffled).1) encoded total, fun _ shuffled => shuffled, parses⟩

end Mmxisf
