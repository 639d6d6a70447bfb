/-
# Reader.Spans -- `read_image_into` on the bytes of its caller

`Reader.Blocks` has what a filling function leaves in its span as a value.  Here
the caller's destination is the store, written at the positions the source
writes at, and it survives an error: what a failed call left in it is there.

A source or a decompressor that was given a part of the destination and failed
may have stored anything in that part, and one that reported fewer bytes may
have stored anything after them.  `Residue` is what they leave, call by call;
nothing is assumed of it.

Each function makes the calls of the function of `Reader.Blocks` that it is
named after and leaves in the destination what that one returns (`Span.Holds`), or,
when it fails, changes nothing beyond the image (`Span.Kept`).
-/
import Mmxisf.Library.Lockstep
import Mmxisf.Reader.WholeReads

namespace Mmxisf.Reader

set_option autoImplicit false

open Library (slice overwrite)
open Library.Routine (wp ofExcept aside modifyStore count Tracks TracksRounds)

/-- The caller's destination, and how many calls were given a part of it. -/
structure Span where
  bytes : Bytes
  calls : Nat
  deriving DecidableEq, Repr

abbrev SpanRoutine (α : Type) : Type := ReadRoutine Span α

/-- What the call of this number stores in its part and does not report. -/
abbrev Residue := Nat → Bytes

namespace Span

def write (position : Nat) (piece : Bytes) (span : Span) : Span :=
  { span with bytes := overwrite span.bytes position piece }

/-- A call was given the `size` bytes at `position` and reported `stored`. -/
def leave (residue : Residue) (position size : Nat) (stored : Bytes) (span : Span) : Span where
  bytes := overwrite span.bytes position ((stored ++ residue span.calls).take size)
  calls := span.calls + 1

end Span

/-- A call that stores into the `size` bytes at `position`. -/
def storing (residue : Residue) (position size : Nat) (x : ReadRoutine Unit Bytes) :
    SpanRoutine Bytes := fun span =>
  (x ()).bind fun result =>
    match result.1 with
    | .ok stored => .done (.ok stored, span.leave residue position size stored)
    | .error e => .done (.error e, span.leave residue position size [])

/-! ## Serialized bytes -/

def readSerializedChunkInto (residue : Residue) (plan : ImageReadPlan)
    (blockOffset position size imageIndex : Nat) : SpanRoutine Nat :=
  match plan.embeddedBlock with
  | some block => do
      aside () (checkStop "Image read was cancelled")
      modifyStore (Span.write position (slice block blockOffset size))
      pure size
  | none => count (fun total => do
      aside () (checkStop "Image read was cancelled")
      let stored ← storing residue (position + total) (size - total)
        (readAt (annotateImage imageIndex)
          (wrapAdd (wrapAdd plan.image.block.offset blockOffset) total) (size - total))
      pure stored.length) size

def copySerializedImageInto (residue : Residue) (plan : ImageReadPlan) (imageIndex : Nat) :
    SpanRoutine Nat :=
  count (fun total => readSerializedChunkInto residue plan total total
    (min kReadChunkBytes (plan.serializedBytes - total)) imageIndex) plan.serializedBytes

/-! ## Compressed blocks -/

/-- The loop of `scatter_unshuffled_bytes` into the first `size` bytes. -/
def scatterFromInto (itemSize size shuffledOffset : Nat) : Nat → Bytes → SpanRoutine Unit
  | _, [] => pure ()
  | localOffset, byte :: rest => do
      aside () (checkStopAt localOffset "Block read was cancelled")
      let position := unshuffledPosition itemSize size (shuffledOffset + localOffset)
      modifyStore fun span => { span with bytes := span.bytes.set position byte }
      scatterFromInto itemSize size shuffledOffset (localOffset + 1) rest

def scatterUnshuffledBytesInto (shuffled : Bytes) (size itemSize shuffledOffset : Nat) :
    SpanRoutine Unit := do
  aside () (refuse (itemSize = 0 ∨ shuffledOffset > size ∨ shuffled.length > size - shuffledOffset)
    .invalidBlock "Invalid byte-shuffled block geometry")
  scatterFromInto itemSize size shuffledOffset 0 shuffled

/-- The loop of `decode_compressed_block` into the first `size` bytes. -/
def decodeSubblocksInto (platform : Platform) (residue : Residue) (serialized : Bytes)
    (compression : CompressionPlan) (size : Nat) :
    List CompressionSubblock → Nat → Nat → SpanRoutine Unit
  | [], _, _ => pure ()
  | subblock :: rest, inputOffset, outputOffset => do
      aside () (checkStop "Block read was cancelled")
      let input := slice serialized inputOffset subblock.compressedSize
      let decompress : ReadRoutine Unit Bytes := decompressSubblock platform compression.codec input
        subblock.uncompressedSize compression.maxZstdWindowBytes
      if compression.byteShuffled then do
        let shuffled ← aside () decompress
        scatterUnshuffledBytesInto shuffled size compression.itemSize outputOffset
      else do
        let _ ← storing residue outputOffset subblock.uncompressedSize decompress
        pure ()
      decodeSubblocksInto platform residue serialized compression size rest
        (inputOffset + subblock.compressedSize) (outputOffset + subblock.uncompressedSize)

def decodeCompressedBlockInto (platform : Platform) (residue : Residue) (serialized : Bytes)
    (compression : CompressionPlan) (size : Nat) : SpanRoutine Unit := do
  aside () (checkStop "Block read was cancelled")
  decodeSubblocksInto platform residue serialized compression size compression.subblocks 0 0

/-! ## Pixel layout -/

/-- `placeSample`, in the destination. -/
def placeSampleInto (plan : ImageReadPlan) (outputStorage : PixelStorage)
    (outputByteOrder : ByteOrder) (source : Bytes) (inputOffset sourceIndex : Nat) :
    Span → Span :=
  Span.write (plan.outputIndex outputStorage sourceIndex * plan.sampleSize)
    (plan.orderedSample outputByteOrder source inputOffset)

def transformFromInto (plan : ImageReadPlan) (source : Bytes) (outputStorage : PixelStorage)
    (outputByteOrder : ByteOrder) : Nat → Nat → SpanRoutine Unit
  | 0, _ => pure ()
  | count + 1, sourceIndex => do
      aside () (checkStopAt sourceIndex "Image read was cancelled")
      modifyStore (placeSampleInto plan outputStorage outputByteOrder source
        (sourceIndex * plan.sampleSize) sourceIndex)
      transformFromInto plan source outputStorage outputByteOrder count (sourceIndex + 1)

def transformPixelStorageFromBufferInto (plan : ImageReadPlan) (source : Bytes)
    (outputStorage : PixelStorage) (outputByteOrder : ByteOrder) : SpanRoutine Unit :=
  transformFromInto plan source outputStorage outputByteOrder plan.sampleCount 0

def transformChunkInto (plan : ImageReadPlan) (outputStorage : PixelStorage)
    (outputByteOrder : ByteOrder) (staging : Bytes) (sourceSample : Nat) :
    Nat → Nat → Span → Span
  | 0, _, span => span
  | count + 1, localSample, span =>
      transformChunkInto plan outputStorage outputByteOrder staging sourceSample count
        (localSample + 1)
        (placeSampleInto plan outputStorage outputByteOrder staging (localSample * plan.sampleSize)
          (sourceSample + localSample) span)

/-- The outer loop of `transform_pixel_storage`; the chunks are read into a
buffer of its own. -/
def transformChunksInto (plan : ImageReadPlan) (outputStorage : PixelStorage)
    (outputByteOrder : ByteOrder) (imageIndex : Nat) : Nat → Nat → SpanRoutine Unit
  | 0, _ => pure ()
  | fuel + 1, sourceSample =>
      if sourceSample < plan.sampleCount then do
        aside () (checkStop "Image read was cancelled")
        let chunkSamples := min (kReadChunkBytes / plan.sampleSize)
          (plan.sampleCount - sourceSample)
        let staging ← aside () (readSerializedChunk plan (wrapMultiply sourceSample plan.sampleSize)
          (chunkSamples * plan.sampleSize) imageIndex)
        modifyStore (transformChunkInto plan outputStorage outputByteOrder staging sourceSample
          chunkSamples 0)
        transformChunksInto plan outputStorage outputByteOrder imageIndex fuel
          (sourceSample + chunkSamples)
      else pure ()

def transformPixelStorageInto (plan : ImageReadPlan) (outputStorage : PixelStorage)
    (outputByteOrder : ByteOrder) (imageIndex : Nat) : SpanRoutine Unit :=
  transformChunksInto plan outputStorage outputByteOrder imageIndex plan.sampleCount 0

def swapFromInto (componentSize : Nat) : Nat → Nat → SpanRoutine Unit
  | 0, _ => pure ()
  | count + 1, component => do
      aside () (checkStopAt component "Block read was cancelled")
      let begin := component * componentSize
      modifyStore fun span => span.write begin (slice span.bytes begin componentSize).reverse
      swapFromInto componentSize count (component + 1)

/-! ## `read_image_into` -/

/-- `if (sample_size > 1 && ...) swap_byte_order_in_place(output, ...)`. -/
def orderPixelsInto (plan : ImageReadPlan) (outputByteOrder : ByteOrder) : SpanRoutine Unit :=
  if plan.sampleSize > 1 ∧ outputByteOrder ≠ plan.image.byteOrder then
    swapFromInto plan.endianComponentSize (plan.expectedBytes / plan.endianComponentSize) 0
  else pure ()

def decodeStagedImageInto (platform : Platform) (residue : Residue) (plan : ImageReadPlan)
    (serialized : Bytes) (outputStorage : PixelStorage) (outputByteOrder : ByteOrder) :
    SpanRoutine Unit :=
  if plan.compression.codec ≠ .none then
    if outputStorage ≠ plan.image.pixelStorage then do
      let sourcePixels ← aside () (decodeCompressedBlock platform serialized plan.compression
        (zeros plan.expectedBytes))
      transformPixelStorageFromBufferInto plan sourcePixels outputStorage outputByteOrder
    else do
      decodeCompressedBlockInto platform residue serialized plan.compression plan.expectedBytes
      orderPixelsInto plan outputByteOrder
  else if outputStorage ≠ plan.image.pixelStorage then
    transformPixelStorageFromBufferInto plan serialized outputStorage outputByteOrder
  else do
    modifyStore (Span.write 0 serialized)
    orderPixelsInto plan outputByteOrder

def fillImageInto (platform : Platform) (residue : Residue) (plan : ImageReadPlan)
    (imageIndex : Nat) (outputStorage : PixelStorage) (outputByteOrder : ByteOrder) :
    SpanRoutine Unit :=
  if needsSerializedStaging plan.compression plan.checksum then do
    let serialized ← aside () (copySerializedImage plan imageIndex)
    aside () (ofExcept (verifyChecksum platform plan.checksum serialized))
    decodeStagedImageInto platform residue plan serialized outputStorage outputByteOrder
  else if outputStorage ≠ plan.image.pixelStorage then
    transformPixelStorageInto plan outputStorage outputByteOrder imageIndex
  else do
    let _ ← copySerializedImageInto residue plan imageIndex
    orderPixelsInto plan outputByteOrder

/-- `ImageReadOptions` as a caller may pass them: `none` is a value that names no
enumerator. -/
structure RawImageReadOptions where
  pixelStorage : Option PixelStorageOutput
  byteOrder : Option ByteOrderOutput
  deriving DecidableEq, Repr

/-- The number of bytes written; the destination is the store. -/
def readImageIntoSpan (platform : Platform) (residue : Residue) (reader : Impl)
    (imageIndex : Nat) (readOptions : RawImageReadOptions) : SpanRoutine Nat := do
  let plan ← ofExcept
    (planImageRead reader.document reader.options reader.embeddedBlocks imageIndex)
  let destination ← Library.Routine.getStore
  aside () (refuse (destination.bytes.length < plan.expectedBytes) .invalidArgument
    "Destination buffer is smaller than the image block")
  let pixelStorage ← ofExcept (orFail readOptions.pixelStorage .invalidArgument
    "Invalid output pixel-storage option")
  let byteOrder ← ofExcept (orFail readOptions.byteOrder .invalidArgument
    "Invalid output byte-order option")
  fillImageInto platform residue plan imageIndex (resolvePixelStorage plan pixelStorage)
    (resolveByteOrder platform plan.image.byteOrder byteOrder)
  pure plan.expectedBytes

end Mmxisf.Reader
