/-
# Reader.Blocks -- reading, decoding and reordering the bytes of a block

The functions of `reader.cpp` between a plan and a caller's buffer.  What they
ask of the outside is an operation (`ReadOp`): bytes of the source, whether a
stop was requested, one decompressor call, one row for the sink.

A span that a function fills is the list of bytes it leaves there, so a failed
call leaves nothing: every caller returns the error and looks at no partial
output.  Offsets into the source are sums modulo `2 ^ 64` as the source has
them; positions inside a buffer are bounded by its length.
-/
import Mmxisf.Reader.Plans
import Mmxisf.Library.Program
import Mmxisf.Library.Buffer

namespace Mmxisf.Reader

set_option autoImplicit false

open Library (slice overwrite)
open Library.Routine (request collect)

/-- `ImageRowView`, with the bytes it shows. -/
structure ImageRowView where
  channelIndex : Nat
  rowIndex : Nat
  byteOrder : ByteOrder
  bytes : Bytes
  deriving DecidableEq, Repr

inductive ReadOp
  | size
  | readAt (offset size : Nat)
  | stopRequested
  | decompress (codec : CompressionCodec) (input : Bytes) (size windowLog : Nat)
  | consume (row : ImageRowView)
  deriving DecidableEq, Repr

namespace ReadOp

/-- A `read_at` reply is the bytes it stored; its count is their number. -/
abbrev Reply : ReadOp → Type
  | .size => Result UInt64
  | .readAt _ _ => Result Bytes
  | .stopRequested => Bool
  | .decompress .. => DecompressReply
  | .consume _ => Result Unit

end ReadOp

/-- A reading function with local state `L`. -/
abbrev ReadRoutine (L : Type) (α : Type) : Type :=
  Library.Routine ReadOp ReadOp.Reply L Error α

section

variable {L : Type}

/-- `if (bad) return make_error(...)`. -/
def refuse (bad : Prop) [Decidable bad] (code : ErrorCode) (message : String) :
    ReadRoutine L Unit :=
  Library.Routine.ofExcept (reject bad code message)

/-- `if (stop_token.stop_requested()) return make_error(...)`. -/
def checkStop (message : String) : ReadRoutine L Unit := do
  let stopped ← request ReadOp.stopRequested
  refuse (stopped = true) .cancelled message

/-- One `read_at`.  `annotate` is what the caller adds to an error. -/
def readAt (annotate : Error → Error) (offset size : Nat) : ReadRoutine L Bytes := do
  let reply ← request (ReadOp.readAt offset size)
  match reply with
  | .error e => Library.Routine.fail (annotate e)
  | .ok bytes =>
      if bytes = [] ∨ bytes.length > size then
        Library.Routine.fail
          (annotate (makeError .ioError "ByteSource returned an invalid short read"))
      else pure bytes

def readExact (offset size : Nat) : ReadRoutine L Bytes :=
  collect (fun total => do
    refuse (offset > u64Max - total) .overflow "ByteSource read offset overflows"
    readAt id (wrapAdd offset total) (size - total)) size

/-! ## Serialized bytes -/

/-- An error of the source is reported for this image, unless it already names
one. -/
def annotateImage (imageIndex : Nat) (e : Error) : Error :=
  { e with imageIndex := e.imageIndex.or (some imageIndex) }

def readSerializedChunk (plan : ImageReadPlan) (blockOffset size imageIndex : Nat) :
    ReadRoutine L Bytes :=
  match plan.embeddedBlock with
  | some block => do
      checkStop "Image read was cancelled"
      pure (slice block blockOffset size)
  | none => collect (fun total => do
      checkStop "Image read was cancelled"
      readAt (annotateImage imageIndex)
        (wrapAdd (wrapAdd plan.image.block.offset blockOffset) total)
        (size - total)) size

def kReadChunkBytes : Nat := 8 * 1024 * 1024

/-- `copy_serialized_image`, and the bytes that
`verify_image_checksum_streaming` hashes once it has checked for a stop. -/
def copySerializedImage (plan : ImageReadPlan) (imageIndex : Nat) : ReadRoutine L Bytes :=
  collect (fun total => readSerializedChunk plan total
    (min kReadChunkBytes (plan.serializedBytes - total)) imageIndex) plan.serializedBytes

/-- `copy_serialized_property` and `copy_serialized_icc_profile`: the block of
this size at `offset` of the source, or the one that was inline. -/
def copySerialized (inlineBlock : Option Bytes) (offset serializedBytes : Nat)
    (cancelled : String) : ReadRoutine L Bytes :=
  collect (fun total => do
    checkStop cancelled
    let chunk := min kReadChunkBytes (serializedBytes - total)
    match inlineBlock with
    | some block => pure (slice block total chunk)
    | none => readAt id (wrapAdd offset total) chunk) serializedBytes

def copySerializedProperty (plan : PropertyReadPlan) : ReadRoutine L Bytes :=
  copySerialized plan.inlineBlock plan.property.block.offset plan.serializedBytes
    "Property block read was cancelled"

def copySerializedIccProfile (plan : IccProfileReadPlan) : ReadRoutine L Bytes :=
  copySerialized plan.inlineBlock plan.profile.block.offset plan.serializedBytes
    "ICC profile read was cancelled"

/-! ## Checksums -/

/-- The digest of these bytes is the declared one. -/
def digestMatches (platform : Platform) (plan : ChecksumPlan) (serialized : Bytes) : Bool :=
  platform.digest plan.algorithm serialized = plan.expectedDigest

def verifyChecksum (platform : Platform) (plan : ChecksumPlan) (serialized : Bytes) :
    Result Unit :=
  reject (plan.algorithm ≠ .none ∧ digestMatches platform plan serialized = false)
    .checksumMismatch "Block checksum verification failed"

def verifyImageChecksumStreaming (platform : Platform) (plan : ImageReadPlan)
    (imageIndex : Nat) : ReadRoutine L Unit :=
  if plan.checksum.algorithm = .none then pure ()
  else do
    let hashed ← collect (fun offset => do
      checkStop "Image read was cancelled"
      readSerializedChunk plan offset (min kReadChunkBytes (plan.serializedBytes - offset))
        imageIndex) plan.serializedBytes
    refuse (digestMatches platform plan.checksum hashed = false) .checksumMismatch
      "Block checksum verification failed"

/-! ## Decompression -/

def kMaxUInt : Nat := 4294967295
def kMaxInt : Nat := 2147483647

/-- One decompressor call into a buffer of `size` bytes. -/
def requestDecompression (codec : CompressionCodec) (input : Bytes) (size windowLog : Nat)
    (mismatch : String) : ReadRoutine L Bytes := do
  let reply ← request (ReadOp.decompress codec input size windowLog)
  refuse (reply.complete = false ∨ reply.output.length ≠ size) .invalidBlock mismatch
  pure reply.output

def decompressZlib (input : Bytes) (size : Nat) : ReadRoutine L Bytes := do
  refuse (input.length > kMaxUInt ∨ size > kMaxUInt) .resourceLimit
    "Zlib subblock exceeds the codec size limit"
  requestDecompression .zlib input size 0 "Invalid zlib stream or decompressed size mismatch"

def decompressLz4 (input : Bytes) (size : Nat) : ReadRoutine L Bytes := do
  refuse (input.length > kMaxInt ∨ size > kMaxInt) .resourceLimit
    "LZ4 subblock exceeds the codec size limit"
  requestDecompression .lz4 input size 0 "Invalid LZ4 block or decompressed size mismatch"

/-- `std::has_single_bit`. -/
def hasSingleBit (value : Nat) : Bool := value = 2 ^ Nat.log2 value

def decompressZstd (platform : Platform) (input : Bytes) (size maxWindowBytes : Nat) :
    ReadRoutine L Bytes := do
  refuse (maxWindowBytes < 1024 ∨ hasSingleBit maxWindowBytes = false) .invalidArgument
    "Zstandard window limit must be a power of two of at least 1024 bytes"
  let windowLog := Nat.log2 maxWindowBytes
  refuse (platform.acceptsWindowLog windowLog = false) .invalidArgument
    "Invalid Zstandard window limit"
  requestDecompression .zstd input size windowLog
    "Invalid Zstandard frame or decompressed size mismatch"

def decompressSubblock (platform : Platform) (codec : CompressionCodec) (input : Bytes)
    (size maxZstdWindowBytes : Nat) : ReadRoutine L Bytes :=
  match codec with
  | .zlib => decompressZlib input size
  | .lz4 | .lz4hc => decompressLz4 input size
  | .zstd => decompressZstd platform input size maxZstdWindowBytes
  | .none => Library.Routine.fail
      (makeError .internalError "Missing codec for compressed image block")

/-! ## Byte shuffle -/

def kCancellationInterval : Nat := 1048576

/-- A stop is looked for once in so many rounds. -/
def checkStopAt (round : Nat) (message : String) : ReadRoutine L Unit :=
  if round % kCancellationInterval = 0 then checkStop message else pure ()

/-- Where byte `globalOffset` of a shuffled string of `size` bytes belongs. -/
def unshuffledPosition (itemSize size globalOffset : Nat) : Nat :=
  let itemCount := size / itemSize
  if globalOffset < itemCount * itemSize then
    let byteIndex := globalOffset / itemCount
    let itemIndex := globalOffset % itemCount
    itemIndex * itemSize + byteIndex
  else globalOffset

/-- The loop of `scatter_unshuffled_bytes`, from `localOffset` on. -/
def scatterFrom (itemSize shuffledOffset : Nat) : Nat → Bytes → Bytes → ReadRoutine L Bytes
  | _, [], output => pure output
  | localOffset, byte :: rest, output => do
      checkStopAt localOffset "Block read was cancelled"
      let position := unshuffledPosition itemSize output.length (shuffledOffset + localOffset)
      scatterFrom itemSize shuffledOffset (localOffset + 1) rest (output.set position byte)

def scatterUnshuffledBytes (shuffled output : Bytes) (itemSize shuffledOffset : Nat) :
    ReadRoutine L Bytes := do
  refuse (itemSize = 0 ∨ shuffledOffset > output.length ∨
      shuffled.length > output.length - shuffledOffset) .invalidBlock
    "Invalid byte-shuffled block geometry"
  scatterFrom itemSize shuffledOffset 0 shuffled output

/-! ## Compressed blocks -/

/-- The loop of `decode_compressed_block` over the subblocks still to come. -/
def decodeSubblocks (platform : Platform) (serialized : Bytes) (compression : CompressionPlan) :
    List CompressionSubblock → Nat → Nat → Bytes → ReadRoutine L Bytes
  | [], _, _, destination => pure destination
  | subblock :: rest, inputOffset, outputOffset, destination => do
      checkStop "Block read was cancelled"
      let input := slice serialized inputOffset subblock.compressedSize
      let decoded ← decompressSubblock platform compression.codec input subblock.uncompressedSize
        compression.maxZstdWindowBytes
      let destination ←
        (if compression.byteShuffled then
          scatterUnshuffledBytes decoded destination compression.itemSize outputOffset
        else pure (overwrite destination outputOffset decoded))
      decodeSubblocks platform serialized compression rest (inputOffset + subblock.compressedSize)
        (outputOffset + subblock.uncompressedSize) destination

def decodeCompressedBlock (platform : Platform) (serialized : Bytes)
    (compression : CompressionPlan) (destination : Bytes) : ReadRoutine L Bytes := do
  checkStop "Block read was cancelled"
  decodeSubblocks platform serialized compression compression.subblocks 0 0 destination

/-! ## Pixel layout -/

/-- A buffer of `size` zero bytes, as `std::vector<std::byte>(size)` makes it. -/
def zeros (size : Nat) : Bytes := List.replicate size 0

namespace ImageReadPlan

def pixelCount (plan : ImageReadPlan) : Nat := plan.sampleCount / plan.channels

/-- The channel of the source sample with this index. -/
def sourceChannel (plan : ImageReadPlan) (sourceIndex : Nat) : Nat :=
  match plan.image.pixelStorage with
  | .planar => sourceIndex / plan.pixelCount
  | .normal => sourceIndex % plan.channels

/-- The pixel of the source sample with this index. -/
def sourcePixel (plan : ImageReadPlan) (sourceIndex : Nat) : Nat :=
  match plan.image.pixelStorage with
  | .planar => sourceIndex % plan.pixelCount
  | .normal => sourceIndex / plan.channels

/-- The place of a source sample in the output. -/
def outputIndex (plan : ImageReadPlan) (outputStorage : PixelStorage) (sourceIndex : Nat) : Nat :=
  let channel := plan.sourceChannel sourceIndex
  let pixel := plan.sourcePixel sourceIndex
  match outputStorage with
  | .planar => channel * plan.pixelCount + pixel
  | .normal => pixel * plan.channels + channel

/-- The byte of a source sample that byte `byte` of the output sample is. -/
def inputByte (plan : ImageReadPlan) (outputByteOrder : ByteOrder) (byte : Nat) : Nat :=
  let componentOffset := byte / plan.endianComponentSize * plan.endianComponentSize
  if plan.image.byteOrder = outputByteOrder then byte
  else componentOffset + plan.endianComponentSize - byte % plan.endianComponentSize - 1

/-- The inner loop of both transformations: the sample of `source` at
`inputOffset`, its bytes in output order. -/
def orderedSample (plan : ImageReadPlan) (outputByteOrder : ByteOrder) (source : Bytes)
    (inputOffset : Nat) : Bytes :=
  (List.range plan.sampleSize).map fun byte =>
    source.getD (inputOffset + plan.inputByte outputByteOrder byte) 0

end ImageReadPlan

/-- One sample of the transformation: source sample `sourceIndex`, which is at
`inputOffset` of `source`, goes to its place in `destination`. -/
def placeSample (plan : ImageReadPlan) (outputStorage : PixelStorage)
    (outputByteOrder : ByteOrder) (source : Bytes) (inputOffset sourceIndex : Nat)
    (destination : Bytes) : Bytes :=
  overwrite destination (plan.outputIndex outputStorage sourceIndex * plan.sampleSize)
    (plan.orderedSample outputByteOrder source inputOffset)

/-- The loop of `transform_pixel_storage_from_buffer`; `count` samples are still
to come. -/
def transformFrom (plan : ImageReadPlan) (source : Bytes) (outputStorage : PixelStorage)
    (outputByteOrder : ByteOrder) : Nat → Nat → Bytes → ReadRoutine L Bytes
  | 0, _, destination => pure destination
  | count + 1, sourceIndex, destination => do
      checkStopAt sourceIndex "Image read was cancelled"
      transformFrom plan source outputStorage outputByteOrder count (sourceIndex + 1)
        (placeSample plan outputStorage outputByteOrder source (sourceIndex * plan.sampleSize)
          sourceIndex destination)

def transformPixelStorageFromBuffer (plan : ImageReadPlan) (source destination : Bytes)
    (outputStorage : PixelStorage) (outputByteOrder : ByteOrder) : ReadRoutine L Bytes :=
  transformFrom plan source outputStorage outputByteOrder plan.sampleCount 0 destination

/-- The inner loop of `transform_pixel_storage` over the samples of one chunk:
`count` of them are still to come, the next is number `localSample` of
`staging`. -/
def transformChunk (plan : ImageReadPlan) (outputStorage : PixelStorage)
    (outputByteOrder : ByteOrder) (staging : Bytes) (sourceSample : Nat) :
    Nat → Nat → Bytes → Bytes
  | 0, _, destination => destination
  | count + 1, localSample, destination =>
      transformChunk plan outputStorage outputByteOrder staging sourceSample count (localSample + 1)
        (placeSample plan outputStorage outputByteOrder staging (localSample * plan.sampleSize)
          (sourceSample + localSample) destination)

/-- The outer loop of `transform_pixel_storage`.  A chunk holds a sample, so
`fuel` as large as the number of samples is enough. -/
def transformChunks (plan : ImageReadPlan) (outputStorage : PixelStorage)
    (outputByteOrder : ByteOrder) (imageIndex : Nat) : Nat → Nat → Bytes → ReadRoutine L Bytes
  | 0, _, destination => pure destination
  | fuel + 1, sourceSample, destination =>
      if sourceSample < plan.sampleCount then do
        checkStop "Image read was cancelled"
        let chunkSamples := min (kReadChunkBytes / plan.sampleSize)
          (plan.sampleCount - sourceSample)
        let staging ← readSerializedChunk plan (wrapMultiply sourceSample plan.sampleSize)
          (chunkSamples * plan.sampleSize) imageIndex
        transformChunks plan outputStorage outputByteOrder imageIndex fuel
          (sourceSample + chunkSamples)
          (transformChunk plan outputStorage outputByteOrder staging sourceSample chunkSamples 0
            destination)
      else pure destination

def transformPixelStorage (plan : ImageReadPlan) (destination : Bytes)
    (outputStorage : PixelStorage) (outputByteOrder : ByteOrder) (imageIndex : Nat) :
    ReadRoutine L Bytes :=
  transformChunks plan outputStorage outputByteOrder imageIndex plan.sampleCount 0 destination

/-- The loop of `swap_byte_order_in_place`; `count` components are still to
come. -/
def swapFrom (componentSize : Nat) : Nat → Nat → Bytes → ReadRoutine L Bytes
  | 0, _, destination => pure destination
  | count + 1, component, destination => do
      checkStopAt component "Block read was cancelled"
      let begin := component * componentSize
      swapFrom componentSize count (component + 1)
        (overwrite destination begin (slice destination begin componentSize).reverse)

def swapByteOrderInPlace (destination : Bytes) (componentSize : Nat) : ReadRoutine L Bytes :=
  swapFrom componentSize (destination.length / componentSize) 0 destination

end

end Mmxisf.Reader
