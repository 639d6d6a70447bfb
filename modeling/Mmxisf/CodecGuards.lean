/-
# CodecGuards -- the subblocks of a writer and the decompressors of a reader

A decompressor refuses buffers that its library cannot address: zlib's those beyond
`uInt`, LZ4's those beyond `int` (`takenBy_iff`).  `prepare_block` cuts its chunks by the
types of the compressors instead: `uLong` for zlib, which has 64 bits where `uInt` has 32,
and `LZ4_MAX_INPUT_SIZE`.  What it emits for LZ4 and Zstandard is always taken.  What it
emits for zlib is taken exactly where every chunk of the payload and what zlib makes of
it are smaller than 4 GiB (`codecGuards`).
-/
import Mmxisf.ReferenceLibraries
import Mmxisf.Writer.Undisturbed

namespace Mmxisf

set_option autoImplicit false

open Library (Routine slice)
open Writer (BlockPrepareRequest PreparedBlock WriterOptions Payload Codecs ChunksEncoded
  subblockSizes OwnedFiles CallState Goal Path WriteOp WriteRoutine canReturn_pure canReturn_refuse
  canReturn_request canReturn_checkStop canReturn_allocate)

/-! ## The guards -/

/-- No settings make the decompressor refuse a subblock for its size: what was compressed,
and how many bytes it was. -/
def TakenBy (platform : Platform) (codec : CompressionCodec) (subblock : Bytes × Nat) : Prop :=
  ∀ maxZstdWindowBytes message,
    Reader.decompressed platform codec subblock.1 subblock.2 maxZstdWindowBytes ≠
      .error (makeError .resourceLimit message)

theorem decompressedBy_guard {platform : Platform} {codec : CompressionCodec} {input : Bytes}
    {size windowLog : Nat} {mismatch message : String} :
    Reader.decompressedBy platform codec input size windowLog mismatch ≠
      .error (makeError .resourceLimit message) := by
  unfold Reader.decompressedBy reject
  dsimp only
  split
  · rintro ⟨⟩
  · rintro ⟨⟩

/-- A guard is a comparison of two sizes with one limit, and Zstandard has none. -/
theorem takenBy_iff {platform : Platform} {codec : CompressionCodec} {subblock : Bytes × Nat} :
    TakenBy platform codec subblock ↔ codec = .zlib ∨ codec = .lz4 ∨ codec = .lz4hc →
      subblock.1.length ≤ decoderLimit codec ∧ subblock.2 ≤ decoderLimit codec := by
  have guarded {limit windowLog : Nat} {decoder : CompressionCodec} {beyond mismatch : String} :
      (∀ message, (reject (subblock.1.length > limit ∨ subblock.2 > limit) .resourceLimit
          beyond >>= fun _ => Reader.decompressedBy platform decoder subblock.1 subblock.2 windowLog
            mismatch) ≠ .error (makeError .resourceLimit message)) ↔
        subblock.1.length ≤ limit ∧ subblock.2 ≤ limit := by
    by_cases large : subblock.1.length > limit ∨ subblock.2 > limit
    · rw [reject, if_pos large]
      refine iff_of_false (fun taken => taken beyond rfl) ?_
      omega
    · rw [reject, if_neg large]
      exact iff_of_true (fun _ => decompressedBy_guard) (by omega)
  unfold TakenBy
  cases codec with
  | none => simp [Reader.decompressed, makeError]
  | zlib =>
      exact ⟨fun taken _ => guarded.mp (taken 0), fun small _ => guarded.mpr (small (.inl rfl))⟩
  | lz4 =>
      exact ⟨fun taken _ => guarded.mp (taken 0),
        fun small _ => guarded.mpr (small (.inr (.inl rfl)))⟩
  | lz4hc =>
      exact ⟨fun taken _ => guarded.mp (taken 0),
        fun small _ => guarded.mpr (small (.inr (.inr rfl)))⟩
  | zstd =>
      refine iff_of_true (fun maxZstdWindowBytes message => ?_) (by simp)
      unfold Reader.decompressed reject
      dsimp only
      split
      · rintro ⟨⟩
      · show (if _ then _ else _ : Result Unit) >>= _ ≠ _
        split
        · rintro ⟨⟩
        · exact decompressedBy_guard

/-! ## Chunks -/

section

variable {codecs : Codecs} {options : WriterOptions} {payload : Payload} {offset : Nat}
  {chunks : List (Bytes × Nat)}

/-- A chunk at an offset, with an output of the codec for it. -/
structure ChunkAt (codecs : Codecs) (options : WriterOptions) (payload : Payload)
    (offset : Nat) (input : Bytes) (chunk : Bytes × Nat) : Prop where
  inside : offset < payload.bytes.length
  made : payload.chunk offset (payload.chunkSize options offset) = .ok input
  encoded : codecs.outputs payload.compression input chunk.1
  size : chunk.2 = payload.chunkSize options offset

/-- A chunk that is not the last has the size of the limit. -/
theorem chunkSize_limit
    (more : offset + payload.chunkSize options offset < payload.bytes.length) :
    payload.chunkSize options offset =
      Writer.chunkLimit payload.compression options.compressionSubblockBytes := by
  unfold Writer.Payload.chunkSize at more ⊢
  omega

/-- Every chunk starts at a multiple of the limit. -/
theorem chunkAt_of_mem (encoded : ChunksEncoded codecs options payload offset chunks)
    (starts : offset < payload.bytes.length →
      Writer.chunkLimit payload.compression options.compressionSubblockBytes ∣ offset)
    {chunk : Bytes × Nat} (member : chunk ∈ chunks) : ∃ start input,
      Writer.chunkLimit payload.compression options.compressionSubblockBytes ∣ start ∧
        ChunkAt codecs options payload start input chunk := by
  induction encoded with
  | done all => cases member
  | @chunk offset input output rest more made encoded later ih =>
      rcases List.mem_cons.mp member with rfl | member
      · exact ⟨offset, input, starts more, more, made, encoded, rfl⟩
      · refine ih (fun inside => ?_) member
        rw [chunkSize_limit inside]
        exact (starts more).add (dvd_refl _)

/-- At every multiple of the limit there is a chunk. -/
theorem exists_chunkAt
    (encoded : ChunksEncoded codecs options payload offset chunks)
    (starts : Writer.chunkLimit payload.compression options.compressionSubblockBytes ∣ offset)
    {start : Nat} (after : offset ≤ start) (inside : start < payload.bytes.length)
    (there : Writer.chunkLimit payload.compression options.compressionSubblockBytes ∣ start) :
    ∃ chunk ∈ chunks, ∃ input, ChunkAt codecs options payload start input chunk := by
  induction encoded with
  | done all => omega
  | @chunk offset input output rest more made encoded later ih =>
      by_cases here : start = offset
      · subst here
        exact ⟨_, List.mem_cons_self, input, inside, made, encoded, rfl⟩
      · obtain ⟨i, rfl⟩ := starts
        obtain ⟨j, rfl⟩ := there
        have next : i + 1 ≤ j := by
          by_contra early
          have low := Nat.mul_le_mul_left (Writer.chunkLimit payload.compression
            options.compressionSubblockBytes) (show j ≤ i by omega)
          omega
        have beyond := Nat.mul_le_mul_left (Writer.chunkLimit payload.compression
          options.compressionSubblockBytes) next
        rw [Nat.mul_add_one] at beyond
        have size : payload.chunkSize options (Writer.chunkLimit payload.compression
            options.compressionSubblockBytes * i) =
            Writer.chunkLimit payload.compression options.compressionSubblockBytes := by
          unfold Writer.Payload.chunkSize
          omega
        rw [size] at ih
        obtain ⟨chunk, member, input, found⟩ := ih ((dvd_mul_right _ _).add (dvd_refl _)) beyond
        exact ⟨chunk, List.mem_cons_of_mem _ member, input, found⟩

end

/-! ## Requests -/

/-- A request with sizes of the source's types, and a spool of the call's own. -/
structure PrepareCall where
  platform : Platform
  codecs : Codecs
  destination : Path
  request : BlockPrepareRequest
  options : WriterOptions
  typed : request.Typed
  suffix : Text
  spool : request.spoolSuffix = lit ".mmxisf-" ++ suffix

namespace PrepareCall

variable (call : PrepareCall)

def goal : Goal := ⟨call.destination, fun _ => True⟩

def routine : WriteRoutine PreparedBlock :=
  Writer.prepareBlock call.platform call.destination call.request call.options

/-- A run that has prepared a block, after others of the call; any allocation may fail. -/
structure Run where
  owned : OwnedFiles
  state : CallState
  tracks : Writer.Tracks (fun _ => True) call.goal owned state
  block : PreparedBlock
  ownedAfter : OwnedFiles
  stateAfter : CallState
  run : Routine.Run (Writer.ofCall call.codecs (fun _ => True) call.goal) call.routine owned state
    (.ok block) ownedAfter stateAfter

/-- The subblocks that a block describes: what was compressed of each chunk, and the size
of the chunk. -/
structure Emits (block : PreparedBlock) (chunks : List (Bytes × Nat)) : Prop where
  plain : call.request.compression = .none → chunks = []
  coded : call.request.compression ≠ .none →
    ChunksEncoded call.codecs call.options call.request.payload 0 chunks ∧
      block.compression = Writer.compressionText call.request ∧
      block.subblocks = Writer.subblocksText (chunks.map subblockSizes) ∧
      block.serializedSize = (chunks.map Prod.fst).flatten.length

/-- Chunks for zlib, and what zlib makes of them, are smaller than 4 GiB. -/
structure ZlibTakes : Prop where
  chunk : min call.options.compressionSubblockBytes call.request.bytes.length ≤ Reader.kMaxUInt
  outputs : ∀ {offset input output}, offset < call.request.bytes.length →
    Writer.chunkLimit .zlib call.options.compressionSubblockBytes ∣ offset →
    call.request.payload.chunk offset (call.request.payload.chunkSize call.options offset) =
      .ok input →
    call.codecs.outputs .zlib input output → output.length ≤ Reader.kMaxUInt

/-- Every subblock that is emitted is taken. -/
def Guarded (chunks : List (Bytes × Nat)) : Prop :=
  ∀ chunk ∈ chunks, TakenBy call.platform call.request.compression chunk

end PrepareCall

/-- What is used of the compressors: LZ4 keeps to `LZ4_compressBound`, and zlib has one
output for an input. -/
structure CompressorLaws (codecs : Codecs) : Prop where
  bounded : ∀ {codec input output}, codec = .lz4 ∨ codec = .lz4hc →
    codecs.outputs codec input output → output.length ≤ input.length + input.length / 255 + 16
  single : ∀ {input output other}, codecs.outputs .zlib input output →
    codecs.outputs .zlib input other → output = other

section

variable {call : PrepareCall} {chunks : List (Bytes × Nat)} {input : Bytes} {offset : Nat}
  {chunk : Bytes × Nat}

/-- A chunk has the size that is written for it. -/
theorem ChunkAt.length (found : ChunkAt call.codecs call.options call.request.payload offset input
    chunk) : input.length = chunk.2 := by
  have item : call.request.payload.byteShuffle = true → call.request.payload.itemSize ≠ 0 := by
    intro shuffled none
    have made := found.made
    unfold Writer.Payload.chunk Writer.shuffledRange at made
    rw [if_pos shuffled, reject, if_pos (.inl none)] at made
    cases made
  have inside : offset + call.request.payload.chunkSize call.options offset ≤
      call.request.payload.bytes.length := by
    have start := found.inside
    unfold Writer.Payload.chunkSize
    omega
  exact (chunk_append item inside found.made).1.trans found.size.symm

theorem ChunkAt.size_le (found : ChunkAt call.codecs call.options call.request.payload offset
    input chunk) : chunk.2 ≤ min (Writer.chunkLimit call.request.compression
      call.options.compressionSubblockBytes) call.request.bytes.length := by
  rw [found.size]
  unfold Writer.Payload.chunkSize
  exact min_le_min le_rfl (Nat.sub_le _ _)

/-- LZ4 makes no more of a chunk than a reader takes. -/
theorem ChunkAt.taken_lz4 (laws : CompressorLaws call.codecs)
    (lz4 : call.request.compression = .lz4 ∨ call.request.compression = .lz4hc)
    (found : ChunkAt call.codecs call.options call.request.payload offset input chunk) :
    chunk.1.length ≤ Reader.kMaxInt ∧ chunk.2 ≤ Reader.kMaxInt := by
  have output := laws.bounded lz4 found.encoded
  have length := found.length
  have size := found.size_le
  have limit : Writer.chunkLimit call.request.compression call.options.compressionSubblockBytes ≤
      Writer.kLz4MaxInputSize := by
    rcases lz4 with codec | codec <;> rw [codec] <;> exact min_le_right _ _
  simp only [Writer.kLz4MaxInputSize, Reader.kMaxInt] at limit ⊢
  omega

/-- Chunks for zlib are taken exactly when they and what zlib makes of them are small. -/
theorem guarded_zlib (laws : CompressorLaws call.codecs) (zlib : call.request.compression = .zlib)
    (encoded : ChunksEncoded call.codecs call.options call.request.payload 0 chunks) :
    call.Guarded chunks ↔ call.ZlibTakes := by
  have codec : call.request.payload.compression = .zlib := zlib
  have small : call.request.bytes.length ≤ u64Max := call.typed.bytes
  have taken {chunk : Bytes × Nat} : TakenBy call.platform call.request.compression chunk ↔
      chunk.1.length ≤ Reader.kMaxUInt ∧ chunk.2 ≤ Reader.kMaxUInt := by
    rw [takenBy_iff, zlib]
    exact ⟨fun guard => guard (.inl rfl), fun small _ => small⟩
  constructor
  · intro guarded
    have at_ {start : Nat} (inside : start < call.request.bytes.length)
        (there : Writer.chunkLimit .zlib call.options.compressionSubblockBytes ∣ start) :=
      exists_chunkAt encoded (dvd_zero _) (Nat.zero_le start) inside (codec ▸ there)
    constructor
    · by_cases some : 0 < call.request.bytes.length
      · obtain ⟨chunk, member, input, found⟩ := at_ some (dvd_zero _)
        have size := found.size
        have fits := (taken.mp (guarded chunk member)).2
        unfold Writer.Payload.chunkSize at size
        rw [codec] at size
        simp only [Writer.chunkLimit, Nat.sub_zero] at size
        have same : call.request.payload.bytes = call.request.bytes := rfl
        rw [same] at size
        omega
      · omega
    · intro start input output inside there made encodes
      obtain ⟨chunk, member, other, found⟩ := at_ inside there
      have same := found.made.symm.trans made
      cases same
      have one := laws.single (codec ▸ found.encoded) encodes
      rw [← one]
      exact (taken.mp (guarded chunk member)).1
  · intro takes chunk member
    obtain ⟨start, input, there, found⟩ := chunkAt_of_mem encoded (fun _ => dvd_zero _) member
    rw [codec] at there
    have size := found.size_le
    have least := takes.chunk
    rw [zlib] at size
    simp only [Writer.chunkLimit] at size
    refine taken.mpr ⟨takes.outputs found.inside there found.made (codec ▸ found.encoded), ?_⟩
    omega

/-- What is emitted is taken exactly when it is not for zlib, or zlib takes it. -/
theorem guarded_iff (laws : CompressorLaws call.codecs)
    (encoded : ChunksEncoded call.codecs call.options call.request.payload 0 chunks) :
    call.Guarded chunks ↔ (call.request.compression = .zlib → call.ZlibTakes) := by
  by_cases zlib : call.request.compression = .zlib
  · rw [guarded_zlib laws zlib encoded]
    exact ⟨fun takes _ => takes, fun takes => takes zlib⟩
  · refine iff_of_true (fun chunk member => takenBy_iff.mpr ?_) fun isZlib => absurd isZlib zlib
    intro coded
    have lz4 := coded.resolve_left zlib
    obtain ⟨start, input, -, found⟩ := chunkAt_of_mem encoded (fun _ => dvd_zero _) member
    have taken := found.taken_lz4 laws lz4
    rcases lz4 with codec | codec <;> rw [codec] <;> exact taken

end

/-! ## Runs -/

theorem PrepareCall.Run.emits {call : PrepareCall} (run : call.Run) :
    ∃ chunks, call.Emits run.block chunks := by
  have working : call.goal.Working (call.goal.destination ++ call.request.spoolSuffix) :=
    ⟨call.suffix, congrArg _ call.spool⟩
  have ended := Routine.run_of_wp (Writer.prepareBlock_ends call.typed working run.tracks) run.run
  obtain ⟨content, ready⟩ : ∃ content, Writer.Ready call.platform call.codecs call.options
      call.request.payload run.block content run.stateAfter := by
    cases ended with
    | ok known => exact known.2
  by_cases plain : call.request.compression = .none
  · exact ⟨[], fun _ => rfl, fun coded => absurd plain coded⟩
  · obtain ⟨chunks, encoded, rfl, compression, subblocks⟩ := ready.stored.coded plain
    exact ⟨chunks, fun none => absurd none plain,
      fun _ => ⟨encoded, compression, subblocks, ready.stored.size⟩⟩

/-! ## Some runs -/

/-- The world of a call whose allocations may fail. -/
abbrev PrepareCall.world (call : PrepareCall) :=
  Writer.ofCall call.codecs (fun _ => True) call.goal

/-- The routine may return this value in this world. -/
abbrev PrepareCall.CanReturn {α : Type} (call : PrepareCall) (x : WriteRoutine α) (value : α) :
    Prop :=
  Writer.CanReturn call.codecs (fun _ => True) call.goal x value

/-- A request for zlib that is one chunk, and an output of zlib within the budgets. -/
structure OneChunk (call : PrepareCall) (output : Bytes) : Prop where
  codec : call.request.compression = .zlib
  plain : call.request.byteShuffle = false
  checksum : call.request.checksum = .none
  itemSize : call.request.itemSize ≠ 0
  some : call.request.bytes ≠ []
  chunk : call.request.bytes.length ≤ call.options.compressionSubblockBytes
  subblocks : 0 < call.options.maxCompressionSubblocks
  encoded : call.codecs.outputs .zlib call.request.bytes output
  bound : output.length ≤ call.platform.compressBound .zlib call.request.bytes.length
  serialized : output.length ≤ call.request.maxSerializedBytes
  cumulative : output.length ≤ call.request.maxCumulativeRemaining

namespace OneChunk

variable {call : PrepareCall} {output : Bytes}

theorem limit (one : OneChunk call output) : call.request.bytes.length ≤
    Writer.chunkLimit call.request.compression call.options.compressionSubblockBytes := by
  rw [one.codec]
  exact le_min one.chunk call.typed.bytes

/-- The loop has one round. -/
def chunks (call : PrepareCall) (output : Bytes) : Writer.CompressedChunks where
  subblocks := [(output.length, call.request.bytes.length)]
  storage := output
  inputOffset := call.request.bytes.length
  serializedSoFar := output.length

theorem compresses (one : OneChunk call output) {budget : Nat} (enough : output.length ≤ budget) :
    call.CanReturn (Writer.compressBytes call.platform call.request.bytes call.request.compression
      budget) output := by
  have positive := List.length_pos_iff.mpr (call.codecs.nonempty one.encoded)
  have fits : output.length ≤ Writer.boundedCapacity
      (call.platform.compressBound .zlib call.request.bytes.length) budget := by
    have typed := one.serialized.trans call.typed.maxSerializedBytes
    have bound := one.bound
    unfold Writer.boundedCapacity
    omega
  have answers (s : CallState) : call.world.reply s
      (.compress .zlib call.request.bytes (Writer.boundedCapacity
        (call.platform.compressBound .zlib call.request.bytes.length) budget))
      (.produced output) s := by
    refine ⟨⟨?_, rfl⟩, rfl, rfl⟩
    rintro _ ⟨⟩
    exact ⟨one.encoded, fits⟩
  have typed := call.typed.bytes
  unfold Writer.compressBytes
  rw [one.codec]
  refine .bind canReturn_checkStop (.bind (canReturn_refuse (by omega) _ _) ?_)
  refine .bind ?_ (.bind canReturn_checkStop (canReturn_pure output))
  refine .bind (canReturn_refuse (by omega) _ _) (.bind (canReturn_allocate _) ?_)
  exact .bind (canReturn_request answers) (canReturn_pure output)

theorem compressesChunk (one : OneChunk call output) :
    call.CanReturn (Writer.compressChunk call.platform call.request call.options none {})
      (chunks call output) := by
  have size : min (Writer.chunkLimit call.request.compression
      call.options.compressionSubblockBytes) (wrapSubtract call.request.bytes.length 0) =
      call.request.bytes.length := by
    rw [wrapSubtract_eq call.typed.bytes (Nat.zero_le _), Nat.sub_zero]
    exact min_eq_right one.limit
  have some := List.length_pos_iff.mpr (call.codecs.nonempty one.encoded)
  have serialized := one.serialized
  have cumulative := one.cumulative
  have whole : slice call.request.bytes 0 call.request.bytes.length = call.request.bytes :=
    Library.slice_all le_rfl
  have left : min (wrapSubtract call.request.maxSerializedBytes 0)
      (wrapSubtract call.request.maxCumulativeRemaining 0) =
      min call.request.maxSerializedBytes call.request.maxCumulativeRemaining := by
    rw [wrapSubtract_eq call.typed.maxSerializedBytes (Nat.zero_le _),
      wrapSubtract_eq call.typed.maxCumulativeRemaining (Nat.zero_le _)]
    rfl
  have small : output.length ≤ u64Max := serialized.trans call.typed.maxSerializedBytes
  have made : chunks call output = {
      subblocks := [] ++ [(output.length, call.request.bytes.length)]
      storage := output
      inputOffset := wrapAdd 0 call.request.bytes.length
      serializedSoFar := wrapAdd 0 output.length } := by
    rw [wrapAdd_eq (by rw [Nat.zero_add]; exact call.typed.bytes),
      wrapAdd_eq (by rw [Nat.zero_add]; exact small), Nat.zero_add, Nat.zero_add]
    rfl
  unfold Writer.compressChunk
  dsimp only
  rw [size, left, one.plain, if_neg Bool.false_ne_true, whole, made]
  refine .bind canReturn_checkStop (.bind (canReturn_refuse ?_ _ _) ?_)
  · exact Nat.not_le_of_lt one.subblocks
  refine .bind (canReturn_allocate _) (.bind (canReturn_pure _) ?_)
  refine .bind (canReturn_refuse (by omega) _ _) (.bind (one.compresses ?_) ?_)
  · exact le_min serialized cumulative
  exact .bind (canReturn_pure output) (.bind (canReturn_allocate _) (canReturn_pure _))

/-- The block is prepared without a spool. -/
def block (call : PrepareCall) (output : Bytes) : PreparedBlock where
  storage := output
  spoolPath := []
  serializedSize := output.length
  compression := Writer.compressionText call.request
  subblocks := Writer.subblocksText [(output.length, call.request.bytes.length)]
  checksum := []

theorem compressesChunks (one : OneChunk call output) :
    call.CanReturn (Writer.compressChunks call.platform call.request call.options none
      call.request.bytes.length {}) (chunks call output) := by
  have positive := List.length_pos_iff.mpr one.some
  obtain ⟨fuel, length⟩ := Nat.exists_eq_add_of_lt positive
  rw [Nat.zero_add] at length
  rw [length, Writer.compressChunks, if_pos positive]
  refine .bind one.compressesChunk ?_
  cases fuel with
  | zero => exact canReturn_pure _
  | succ fuel =>
      have done : ¬ (chunks call output).inputOffset < call.request.bytes.length := Nat.lt_irrefl _
      rw [Writer.compressChunks, if_neg done]
      exact canReturn_pure _

theorem prepares (one : OneChunk call output) : call.CanReturn (do
    let block ← (if call.request.compression ≠ .none then
        Writer.compressBlock call.platform call.destination call.request call.options
      else pure { serializedSize := call.request.bytes.length })
    Writer.refuse (block.serializedSize > call.request.maxSerializedBytes ∨
        block.serializedSize > call.request.maxCumulativeRemaining) .resourceLimit
      "Writer serialized block exceeds its byte budget"
    let checksum ← Writer.blockChecksum call.platform call.request block
    pure { block with checksum }) (block call output) := by
  have some := List.length_pos_iff.mpr one.some
  have serialized := one.serialized
  have cumulative := one.cumulative
  have coded : call.request.compression ≠ .none := by
    rw [one.codec]
    decide
  have compressed : call.CanReturn (Writer.compressBlock call.platform call.destination
      call.request call.options) (block call output) := by
    unfold Writer.compressBlock Writer.openBlockSpool
    rw [if_neg (Nat.not_lt_of_le one.limit)]
    refine .bind (canReturn_refuse ?_ _ _) (.bind (canReturn_pure _) ?_)
    · rintro (zero | zero)
      · have limit := one.limit
        omega
      · exact one.itemSize zero
    exact .bind one.compressesChunks (.bind (canReturn_pure ()) (.bind (canReturn_allocate _)
      (canReturn_pure _)))
  have unchecked : call.CanReturn (Writer.blockChecksum call.platform call.request
      (block call output)) [] := by
    unfold Writer.blockChecksum
    rw [if_neg (not_not.mpr one.checksum)]
    exact canReturn_pure _
  have within : ¬ ((block call output).serializedSize > call.request.maxSerializedBytes ∨
      (block call output).serializedSize > call.request.maxCumulativeRemaining) := by
    show ¬ (output.length > _ ∨ output.length > _)
    omega
  rw [if_pos coded]
  exact .bind compressed (.bind (canReturn_refuse within _ _) (.bind unchecked (canReturn_pure _)))

/-- Some run prepares the block. -/
theorem exists_run (one : OneChunk call output) :
    ∃ run : call.Run, run.block = block call output := by
  have tracks : Writer.Tracks (fun _ => True) call.goal {} {} := by
    refine ⟨List.forall_mem_nil _, List.nodup_nil, fun careful => ?_, rfl⟩
    exact absurd trivial careful.summary
  have prepared : Routine.may call.world call.routine
      (fun result _ _ => result = .ok (block call output)) {} {} := by
    unfold PrepareCall.routine Writer.prepareBlock
    rw [Routine.may_ensuring]
    apply Routine.may_mono _ (one.prepares {})
    rintro _ _ _ ⟨rfl, rfl, rfl⟩
    rfl
  obtain ⟨_, m, t, run, rfl⟩ := Routine.may_iff_run.mp prepared
  exact ⟨⟨{}, {}, tracks, _, m, t, run⟩, rfl⟩

end OneChunk

/-! ## Guards -/

/-- A block describes its subblocks, and which of them are taken. -/
structure GuardsMet (call : PrepareCall) (block : PreparedBlock) (condition : Prop) : Prop where
  emits : ∃ chunks, call.Emits block chunks
  guarded : ∀ chunks, call.Emits block chunks → (call.Guarded chunks ↔ condition)

/-- The subblocks of every block that is prepared are taken exactly when they are not for
zlib, or zlib's are small. -/
theorem codecGuards (call : PrepareCall) (laws : CompressorLaws call.codecs) (run : call.Run) :
    GuardsMet call run.block (call.request.compression = .zlib → call.ZlibTakes) := by
  refine ⟨run.emits, fun chunks emits => ?_⟩
  by_cases plain : call.request.compression = .none
  · rw [emits.plain plain, plain]
    exact iff_of_true (List.forall_mem_nil _) (by rintro ⟨⟩)
  · exact guarded_iff laws (emits.coded plain).1

theorem storingCompressors : CompressorLaws storingCodecs := by
  constructor
  · rintro codec input output - ⟨rfl, -⟩
    omega
  · rintro input output other ⟨rfl, -⟩ ⟨rfl, -⟩
    rfl

/-- A request for zlib of this many zeros in one chunk. -/
def zerosCall (platform : Platform) (codecs : Codecs) {count budget : Nat}
    (small : count ≤ u64Max) (typed : budget ≤ u64Max) : PrepareCall where
  platform := platform
  codecs := codecs
  destination := lit "unit"
  request := {
    bytes := List.replicate count 0
    itemSize := 1
    compression := .zlib
    maxSerializedBytes := budget
    maxCumulativeRemaining := budget
    spoolSuffix := lit ".mmxisf-block-0" }
  options := { compressionSubblockBytes := count }
  typed := ⟨by rwa [List.length_replicate], typed, typed⟩
  suffix := lit "block-0"
  spool := rfl

theorem zerosCall_oneChunk {platform : Platform} {codecs : Codecs} {count budget : Nat}
    {output : Bytes} (small : count ≤ u64Max) (typed : budget ≤ u64Max) (some : 0 < count)
    (encoded : codecs.outputs .zlib (List.replicate count 0) output)
    (bound : output.length ≤ platform.compressBound .zlib count)
    (fits : output.length ≤ budget) :
    OneChunk (zerosCall platform codecs small typed) output := by
  have length : (List.replicate count (0 : Byte)).length = count := List.length_replicate
  exact {
    codec := rfl
    plain := rfl
    checksum := rfl
    itemSize := Nat.one_ne_zero
    some := List.ne_nil_of_length_pos (some.trans_eq length.symm)
    chunk := length.le
    subblocks := show 0 < 65536 by decide
    encoded := encoded
    bound := bound.trans (congrArg (platform.compressBound .zlib) length.symm).le
    serialized := fits
    cumulative := fits }

/-- What zlib makes of three zeros with `Z_BEST_COMPRESSION`. -/
def deflatedZeros : Bytes := [0x78, 0xda, 0x63, 0x60, 0x60, 0, 0, 0, 3, 0, 1]

def deflatingCodecs : Codecs where
  outputs codec input output :=
    if codec = .zlib ∧ input = [0, 0, 0] then output = deflatedZeros
    else storingCodecs.outputs codec input output
  nonempty := by
    intro codec input output encoded
    split at encoded
    · rw [encoded]
      decide
    · exact storingCodecs.nonempty encoded

def inflatingPlatform : Platform := {
  referencePlatform with
  compressBound := fun _ size => size + 13
  decompress := fun codec input _ _ =>
    ⟨true, if codec = .zlib ∧ input = deflatedZeros then [0, 0, 0] else input⟩ }

theorem deflatingCompressors : CompressorLaws deflatingCodecs := by
  constructor
  · intro codec input output lz4 encoded
    have other : ¬ (codec = .zlib ∧ input = [0, 0, 0]) := by
      rintro ⟨rfl, -⟩
      rcases lz4 with zlib | zlib <;> cases zlib
    simp only [deflatingCodecs, if_neg other] at encoded
    exact storingCompressors.bounded lz4 encoded
  · intro input output other one two
    simp only [deflatingCodecs] at one two
    split at one
    · rw [if_pos ‹_›] at two
      exact one.trans two.symm
    · rw [if_neg ‹_›] at two
      exact storingCompressors.single one two

def threeZeros : PrepareCall :=
  @zerosCall inflatingPlatform deflatingCodecs 3 64 (by decide) (by decide)

theorem threeZeros_guarded : ∃ run : threeZeros.Run, GuardsMet threeZeros run.block
    (threeZeros.request.compression = .zlib → threeZeros.ZlibTakes) := by
  have encoded : deflatingCodecs.outputs .zlib (List.replicate 3 0) deflatedZeros := by
    simp [deflatingCodecs, List.replicate]
  obtain ⟨run, -⟩ := (@zerosCall_oneChunk inflatingPlatform deflatingCodecs 3 64 deflatedZeros
    (by decide) (by decide) (by decide) encoded (by decide) (by decide)).exists_run
  exact ⟨run, codecGuards threeZeros deflatingCompressors run⟩

/-- One chunk of 4 GiB for zlib is prepared, and a reader does not take it. -/
theorem fourGigabytes_notTaken : ¬ ∀ call : PrepareCall, CompressorLaws call.codecs →
    ∀ run : call.Run, GuardsMet call run.block True := by
  intro always
  have small : 4294967296 ≤ u64Max := by decide
  have length : (List.replicate 4294967296 (0 : Byte)).length = 4294967296 :=
    List.length_replicate
  have nonempty : List.replicate 4294967296 (0 : Byte) ≠ [] :=
    List.ne_nil_of_length_pos (by omega)
  obtain ⟨run, -⟩ := (@zerosCall_oneChunk referencePlatform storingCodecs 4294967296 4294967296 _
    small small (by decide) ⟨rfl, nonempty⟩ length.le length.le).exists_run
  obtain ⟨⟨chunks, emits⟩, guarded⟩ :=
    always (zerosCall referencePlatform storingCodecs small small) storingCompressors run
  have taken := (guarded chunks emits).mpr trivial
  have coded : (zerosCall referencePlatform storingCodecs small small).request.compression ≠
      .none := by rintro ⟨⟩
  have takes := (guarded_zlib storingCompressors rfl (emits.coded coded).1).mp taken
  have chunk : min 4294967296 (List.replicate 4294967296 (0 : Byte)).length ≤ 4294967295 :=
    takes.chunk
  rw [length] at chunk
  exact absurd chunk (by decide)

end Mmxisf
