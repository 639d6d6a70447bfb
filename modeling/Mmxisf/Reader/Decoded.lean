/-
# Reader.Decoded -- the values of the decoding functions

Past the serialized bytes nothing depends on the source: decompression, the byte
unshuffle and the pixel transformations have the value of a pure function of
their arguments, unless they are cancelled.  These pure functions are written
here and the routines of `Reader.Blocks` are proved to compute them, calling the
decompressor on slices of their argument only.
-/
import Mmxisf.Reader.Environment

namespace Mmxisf.Reader

set_option autoImplicit false

open Library (slice overwrite scatter)

/-! ## Decompression -/

/-- `requestDecompression`, with the platform's answer. -/
def decompressedBy (platform : Platform) (codec : CompressionCodec) (input : Bytes)
    (size windowLog : Nat) (mismatch : String) : Result Bytes := do
  let reply := platform.decompress codec input size windowLog
  reject (reply.complete = false ∨ reply.output.length ≠ size) .invalidBlock mismatch
  return reply.output

/-- `decompressSubblock`, with the platform's answer. -/
def decompressed (platform : Platform) (codec : CompressionCodec) (input : Bytes)
    (size maxZstdWindowBytes : Nat) : Result Bytes :=
  match codec with
  | .zlib => do
      reject (input.length > kMaxUInt ∨ size > kMaxUInt) .resourceLimit
        "Zlib subblock exceeds the codec size limit"
      decompressedBy platform .zlib input size 0
        "Invalid zlib stream or decompressed size mismatch"
  | .lz4 | .lz4hc => do
      reject (input.length > kMaxInt ∨ size > kMaxInt) .resourceLimit
        "LZ4 subblock exceeds the codec size limit"
      decompressedBy platform .lz4 input size 0 "Invalid LZ4 block or decompressed size mismatch"
  | .zstd => do
      reject (maxZstdWindowBytes < 1024 ∨ hasSingleBit maxZstdWindowBytes = false) .invalidArgument
        "Zstandard window limit must be a power of two of at least 1024 bytes"
      reject (platform.acceptsWindowLog (Nat.log2 maxZstdWindowBytes) = false) .invalidArgument
        "Invalid Zstandard window limit"
      decompressedBy platform .zstd input size (Nat.log2 maxZstdWindowBytes)
        "Invalid Zstandard frame or decompressed size mismatch"
  | .none => .error (makeError .internalError "Missing codec for compressed image block")

/-- What a decompressor may fail with. -/
def decompressionErrors : List Error :=
  [makeError .resourceLimit "Zlib subblock exceeds the codec size limit",
    makeError .invalidBlock "Invalid zlib stream or decompressed size mismatch",
    makeError .resourceLimit "LZ4 subblock exceeds the codec size limit",
    makeError .invalidBlock "Invalid LZ4 block or decompressed size mismatch",
    makeError .invalidArgument
      "Zstandard window limit must be a power of two of at least 1024 bytes",
    makeError .invalidArgument "Invalid Zstandard window limit",
    makeError .invalidBlock "Invalid Zstandard frame or decompressed size mismatch",
    makeError .internalError "Missing codec for compressed image block"]

theorem decompressed_error {platform : Platform} {codec : CompressionCodec} {input : Bytes}
    {size maxZstdWindowBytes : Nat} {e : Error}
    (run : decompressed platform codec input size maxZstdWindowBytes = .error e) :
    e ∈ decompressionErrors := by
  unfold decompressionErrors
  cases codec with
  | none =>
      cases run
      simp
  | zstd =>
      simp only [decompressed, decompressedBy, bind_eq_error, reject_eq_error, pure, Except.pure,
        reduceCtorEq, and_false, exists_false, or_false] at run
      obtain ⟨-, rfl⟩ | ⟨_, -, ⟨-, rfl⟩ | ⟨_, -, -, rfl⟩⟩ := run <;> simp [makeError]
  | zlib | lz4 | lz4hc =>
      simp only [decompressed, decompressedBy, bind_eq_error, reject_eq_error, pure, Except.pure,
        reduceCtorEq, and_false, exists_false, or_false] at run
      obtain ⟨-, rfl⟩ | ⟨_, -, -, rfl⟩ := run <;> simp [makeError]

theorem length_decompressed {platform : Platform} {codec : CompressionCodec} {input output : Bytes}
    {size maxZstdWindowBytes : Nat}
    (run : decompressed platform codec input size maxZstdWindowBytes = .ok output) :
    output.length = size := by
  have by_ {codec : CompressionCodec} {windowLog : Nat} {mismatch : String}
      (run : decompressedBy platform codec input size windowLog mismatch = .ok output) :
      output.length = size := by
    simp only [decompressedBy, bind_eq_ok, reject_eq_ok, pure, Except.pure, Except.ok.injEq,
      not_or, not_not] at run
    obtain ⟨_, ⟨-, length⟩, rfl⟩ := run
    exact length
  cases codec with
  | none => cases run
  | zstd =>
      simp only [decompressed, bind_eq_ok] at run
      obtain ⟨_, -, _, -, run⟩ := run
      exact by_ run
  | zlib | lz4 | lz4hc =>
      simp only [decompressed, bind_eq_ok] at run
      obtain ⟨_, -, run⟩ := run
      exact by_ run

/-- `scatter_unshuffled_bytes`, without its stops. -/
def unshuffledInto (shuffled output : Bytes) (itemSize shuffledOffset : Nat) : Result Bytes := do
  reject (itemSize = 0 ∨ shuffledOffset > output.length ∨
      shuffled.length > output.length - shuffledOffset) .invalidBlock
    "Invalid byte-shuffled block geometry"
  return scatter (unshuffledPosition itemSize output.length) shuffledOffset shuffled output

/-- `decodeSubblocks`, with the platform's answers. -/
def decodedSubblocks (platform : Platform) (serialized : Bytes) (compression : CompressionPlan) :
    List CompressionSubblock → Nat → Nat → Bytes → Result Bytes
  | [], _, _, destination => .ok destination
  | subblock :: rest, inputOffset, outputOffset, destination => do
      let decoded ← decompressed platform compression.codec
        (slice serialized inputOffset subblock.compressedSize) subblock.uncompressedSize
        compression.maxZstdWindowBytes
      let destination ←
        (if compression.byteShuffled then
          unshuffledInto decoded destination compression.itemSize outputOffset
        else .ok (overwrite destination outputOffset decoded))
      decodedSubblocks platform serialized compression rest (inputOffset + subblock.compressedSize)
        (outputOffset + subblock.uncompressedSize) destination

/-- `decode_compressed_block`, with the platform's answers. -/
def decoded (platform : Platform) (serialized : Bytes) (compression : CompressionPlan)
    (destination : Bytes) : Result Bytes :=
  decodedSubblocks platform serialized compression compression.subblocks 0 0 destination

/-- A decompressor call on a slice of `serialized`. -/
def DecompressesSlice (serialized : Bytes) (event : ReadEvent) : Prop :=
  ∃ codec start count size windowLog,
    event = .decompressed codec (slice serialized start count) size windowLog

section

variable {L : Type} {platform : Platform} {env : Environment}

theorem requestDecompression_computes (codec : CompressionCodec) (input : Bytes)
    (size windowLog : Nat) (mismatch : String) :
    Computes platform env (· = .decompressed codec input size windowLog)
      (requestDecompression (L := L) codec input size windowLog mismatch)
      (decompressedBy platform codec input size windowLog mismatch) := by
  intro l s
  unfold requestDecompression
  rw [Library.Routine.wp_bind, Library.Routine.wp_request]
  refine ⟨trivial, ?_⟩
  rintro reply t ⟨rfl, rfl⟩
  rw [Library.Routine.continueWith_ok]
  have rest : Computes (L := L) platform env (· = .decompressed codec input size windowLog) _
      (decompressedBy platform codec input size windowLog mismatch) :=
    (Computes.refuse _ _ _).bind_value fun _ _ => .pure _
  refine Library.Routine.wp_mono ?_ (rest l _)
  rintro result m t ⟨same, outcome, added, rfl, emitted⟩
  refine ⟨same, outcome, _ :: added, (List.append_cons s _ added).symm, ?_⟩
  rw [List.forall_mem_cons]
  exact ⟨rfl, emitted⟩

theorem decompressSubblock_computes (codec : CompressionCodec) (input : Bytes)
    (size maxZstdWindowBytes : Nat) :
    Computes platform env (fun event => ∃ codec windowLog,
        event = .decompressed codec input size windowLog)
      (decompressSubblock (L := L) platform codec input size maxZstdWindowBytes)
      (decompressed platform codec input size maxZstdWindowBytes) := by
  have call (codec : CompressionCodec) (windowLog : Nat) (mismatch : String) :
      Computes platform env (fun event => ∃ codec windowLog,
        event = .decompressed codec input size windowLog) _ _ :=
    (@requestDecompression_computes L platform env codec input size windowLog mismatch).mono
      fun event same => ⟨codec, windowLog, same⟩
  cases codec with
  | none => exact .fail _
  | zstd =>
      exact (Computes.refuse _ _ _).bind_value fun _ _ =>
        (Computes.refuse _ _ _).bind_value fun _ _ => call _ _ _
  | zlib => exact (Computes.refuse _ _ _).bind_value fun _ _ => call _ _ _
  | lz4 => exact (Computes.refuse _ _ _).bind_value fun _ _ => call _ _ _
  | lz4hc => exact (Computes.refuse _ _ _).bind_value fun _ _ => call _ _ _

variable {emits : ReadEvent → Prop}

theorem scatterFrom_computes (itemSize shuffledOffset : Nat) :
    ∀ (bytes : Bytes) (localOffset : Nat) (output : Bytes),
      Computes platform env emits (scatterFrom (L := L) itemSize shuffledOffset localOffset bytes
        output)
        (.ok (scatter (unshuffledPosition itemSize output.length) (shuffledOffset + localOffset)
          bytes output))
  | [], _, output => .pure output
  | byte :: rest, localOffset, output => by
      refine (Computes.checkStopAt localOffset _).bind_ok ?_
      have later := scatterFrom_computes itemSize shuffledOffset rest (localOffset + 1)
        (output.set (unshuffledPosition itemSize output.length (shuffledOffset + localOffset)) byte)
      rw [List.length_set] at later
      exact later

theorem scatterUnshuffledBytes_computes (shuffled output : Bytes) (itemSize shuffledOffset : Nat) :
    Computes platform env emits
      (scatterUnshuffledBytes (L := L) shuffled output itemSize shuffledOffset)
      (unshuffledInto shuffled output itemSize shuffledOffset) :=
  (Computes.refuse _ _ _).bind_value fun _ _ =>
    scatterFrom_computes itemSize shuffledOffset shuffled 0 output

theorem decodeSubblocks_computes (serialized : Bytes) (compression : CompressionPlan) :
    ∀ (subblocks : List CompressionSubblock) (inputOffset outputOffset : Nat)
      (destination : Bytes),
      Computes platform env (DecompressesSlice serialized)
        (decodeSubblocks (L := L) platform serialized compression subblocks inputOffset outputOffset
          destination)
        (decodedSubblocks platform serialized compression subblocks inputOffset outputOffset
          destination)
  | [], _, _, destination => .pure destination
  | subblock :: rest, inputOffset, outputOffset, destination => by
      refine (Computes.checkStop _).bind_ok ?_
      refine Computes.bind_value ?_ fun decoded _ => ?_
      · refine (decompressSubblock_computes _ _ _ _).mono ?_
        rintro event ⟨codec, windowLog, same⟩
        exact ⟨codec, inputOffset, subblock.compressedSize, _, windowLog, same⟩
      · refine Computes.bind_value ?_ fun filled _ =>
          decodeSubblocks_computes serialized compression rest _ _ filled
        split
        · exact scatterUnshuffledBytes_computes _ _ _ _
        · exact .pure _

theorem decodeCompressedBlock_computes (serialized : Bytes) (compression : CompressionPlan)
    (destination : Bytes) :
    Computes platform env (DecompressesSlice serialized)
      (decodeCompressedBlock (L := L) platform serialized compression destination)
      (decoded platform serialized compression destination) :=
  (Computes.checkStop _).bind_ok (decodeSubblocks_computes serialized compression _ 0 0 destination)

end

/-! ## Lengths -/

/-- The uncompressed sizes of subblocks, together. -/
def uncompressedTotal (subblocks : List CompressionSubblock) : Nat :=
  (subblocks.map CompressionSubblock.uncompressedSize).sum

/-- The compressed sizes of subblocks, together. -/
def compressedTotal (subblocks : List CompressionSubblock) : Nat :=
  (subblocks.map CompressionSubblock.compressedSize).sum

end Mmxisf.Reader
