/-
# Reader.GuardedPixels -- the pixel loops with the arithmetic of the machine

`Reader.Blocks` and `Reader.Reads` compute with numbers.  Here the same loops
compute as the source does, in 64 bits and on buffers of fixed size: a product
or a sum that wraps, a difference below zero, a division by zero and an index
outside its buffer are faults, and so is reaching one of the two errors that
`read_image_rows` keeps for rows that do not add up.

What the loops call and does no such arithmetic (reads, decompression, checksums, the
sink) is lifted as it is.  A read of a part of the block is one of bytes of the block,
wherever the block is (`readChunk`).
-/
import Mmxisf.Library.Guarded
import Mmxisf.Reader.Reads

namespace Mmxisf.Reader

set_option autoImplicit false

open Library (slice overwrite Guarded Exact.subtract Exact.divide Exact.remainder Exact.require)
open Library.Guarded (lift exactly)
open Library.Routine (getStore setStore request ofExcept)

abbrev GuardedRoutine (L α : Type) : Type := Guarded ReadOp ReadOp.Reply L Error α

namespace Exact64

def add (left right : Nat) : Option Nat := Library.Exact.add u64Max left right

def multiply (left right : Nat) : Option Nat := Library.Exact.multiply u64Max left right

/-- `buffer[index]`. -/
def load (buffer : Bytes) (index : Nat) : Option Byte := buffer[index]?

/-- `buffer[index] = byte`. -/
def store (buffer : Bytes) (index : Nat) (byte : Byte) : Option Bytes :=
  if index < buffer.length then some (buffer.set index byte) else none

/-- `std::copy_n` of `count` bytes. -/
def copy (source : Bytes) (sourceOffset count : Nat) (destination : Bytes) (offset : Nat) :
    Option Bytes :=
  if sourceOffset + count ≤ source.length ∧ offset + count ≤ destination.length then
    some (overwrite destination offset (slice source sourceOffset count))
  else none

end Exact64

namespace Guarded

open Exact64 (add multiply load store copy)

variable {L : Type} (plan : ImageReadPlan)

/-! ## One sample -/

/-- The channel and the pixel of a source sample. -/
def sourcePlace (pixelCount sourceIndex : Nat) : Option (Nat × Nat) :=
  match plan.image.pixelStorage with
  | .planar => do
      let channel ← Exact.divide sourceIndex pixelCount
      let pixel ← Exact.remainder sourceIndex pixelCount
      return (channel, pixel)
  | .normal => do
      let channel ← Exact.remainder sourceIndex plan.channels
      let pixel ← Exact.divide sourceIndex plan.channels
      return (channel, pixel)

def outputIndex (outputStorage : PixelStorage) (pixelCount channel pixel : Nat) : Option Nat :=
  match outputStorage with
  | .planar => do
      let first ← multiply channel pixelCount
      add first pixel
  | .normal => do
      let first ← multiply pixel plan.channels
      add first channel

def inputByte (outputByteOrder : ByteOrder) (byte : Nat) : Option Nat := do
  let component ← Exact.divide byte plan.endianComponentSize
  let componentOffset ← multiply component plan.endianComponentSize
  if plan.image.byteOrder = outputByteOrder then return byte
  let next ← add componentOffset plan.endianComponentSize
  let remainder ← Exact.remainder byte plan.endianComponentSize
  let mirrored ← Exact.subtract next remainder
  Exact.subtract mirrored 1

/-- The bytes of one sample; `count` are still to come. -/
def copySample (outputByteOrder : ByteOrder) (source : Bytes) (inputOffset outputOffset : Nat) :
    Nat → Nat → Bytes → Option Bytes
  | 0, _, destination => some destination
  | count + 1, byte, destination => do
      let chosen ← inputByte plan outputByteOrder byte
      let output ← add outputOffset byte
      let input ← add inputOffset chosen
      let value ← load source input
      let destination ← store destination output value
      copySample outputByteOrder source inputOffset outputOffset count (byte + 1) destination

/-- The body of both transformation loops: source sample `sourceIndex` is number
`inputIndex` of `source`. -/
def placeSample (outputStorage : PixelStorage) (outputByteOrder : ByteOrder) (pixelCount : Nat)
    (source : Bytes) (inputIndex sourceIndex : Nat) (destination : Bytes) : Option Bytes := do
  let (channel, pixel) ← sourcePlace plan pixelCount sourceIndex
  let index ← outputIndex plan outputStorage pixelCount channel pixel
  let inputOffset ← multiply inputIndex plan.sampleSize
  let outputOffset ← multiply index plan.sampleSize
  copySample plan outputByteOrder source inputOffset outputOffset plan.sampleSize 0 destination

/-- A part of the block; one that is not inside the block is a fault, also where the block
is attached and the file goes on. -/
def readChunk (offset size imageIndex : Nat) : GuardedRoutine L Bytes := do
  let finish ← exactly (add offset size)
  exactly (Exact.require (finish ≤ plan.serializedBytes))
  lift (readSerializedChunk plan offset size imageIndex)

/-! ## The transformation loops -/

def transformFrom (source : Bytes) (outputStorage : PixelStorage) (outputByteOrder : ByteOrder)
    (pixelCount : Nat) : Nat → Nat → Bytes → GuardedRoutine L Bytes
  | 0, _, destination => pure destination
  | count + 1, sourceIndex, destination => do
      lift (checkStopAt sourceIndex "Image read was cancelled")
      let destination ← exactly (placeSample plan outputStorage outputByteOrder pixelCount source
        sourceIndex sourceIndex destination)
      transformFrom source outputStorage outputByteOrder pixelCount count (sourceIndex + 1)
        destination

def transformPixelStorageFromBuffer (source destination : Bytes) (outputStorage : PixelStorage)
    (outputByteOrder : ByteOrder) : GuardedRoutine L Bytes := do
  let pixelCount ← exactly (Exact.divide plan.sampleCount plan.channels)
  transformFrom plan source outputStorage outputByteOrder pixelCount plan.sampleCount 0 destination

/-- The samples of one chunk, in `staging`; `count` are still to come. -/
def transformChunk (outputStorage : PixelStorage) (outputByteOrder : ByteOrder) (pixelCount : Nat)
    (staging : Bytes) (sourceSample : Nat) : Nat → Nat → Bytes → Option Bytes
  | 0, _, destination => some destination
  | count + 1, localSample, destination => do
      let sourceIndex ← add sourceSample localSample
      let destination ← placeSample plan outputStorage outputByteOrder pixelCount
        staging localSample
        sourceIndex destination
      transformChunk outputStorage outputByteOrder pixelCount staging sourceSample count
        (localSample + 1) destination

/-- The outer loop; that `fuel` runs out is a fault. -/
def transformChunks (outputStorage : PixelStorage) (outputByteOrder : ByteOrder)
    (imageIndex pixelCount maximumChunkSamples stagingBytes : Nat) :
    Nat → Nat → Bytes → GuardedRoutine L Bytes
  | 0, sourceSample, destination => do
      exactly (Exact.require (¬ sourceSample < plan.sampleCount))
      return destination
  | fuel + 1, sourceSample, destination =>
      if sourceSample < plan.sampleCount then do
        lift (checkStop "Image read was cancelled")
        let remaining ← exactly (Exact.subtract plan.sampleCount sourceSample)
        let chunkSamples := min maximumChunkSamples remaining
        let chunkBytes ← exactly (multiply chunkSamples plan.sampleSize)
        let blockOffset ← exactly (multiply sourceSample plan.sampleSize)
        exactly (Exact.require (chunkBytes ≤ stagingBytes))
        let staging ← readChunk plan blockOffset chunkBytes imageIndex
        let destination ← exactly (transformChunk plan outputStorage outputByteOrder pixelCount
          staging sourceSample chunkSamples 0 destination)
        let sourceSample ← exactly (add sourceSample chunkSamples)
        transformChunks outputStorage outputByteOrder imageIndex pixelCount maximumChunkSamples
          stagingBytes fuel sourceSample destination
      else return destination

def transformPixelStorage (destination : Bytes) (outputStorage : PixelStorage)
    (outputByteOrder : ByteOrder) (imageIndex : Nat) : GuardedRoutine L Bytes := do
  let maximumChunkSamples ← exactly (Exact.divide kReadChunkBytes plan.sampleSize)
  let maximumChunkBytes ← exactly (multiply maximumChunkSamples plan.sampleSize)
  let pixelCount ← exactly (Exact.divide plan.sampleCount plan.channels)
  transformChunks plan outputStorage outputByteOrder imageIndex pixelCount maximumChunkSamples
    (min plan.expectedBytes maximumChunkBytes) plan.sampleCount 0 destination

/-- `std::reverse` of one component. -/
def reverseComponent (componentSize component : Nat) (destination : Bytes) : Option Bytes := do
  let begin ← multiply component componentSize
  let finish ← add begin componentSize
  Exact.require (finish ≤ destination.length)
  return overwrite destination begin (slice destination begin componentSize).reverse

def swapFrom (componentSize : Nat) : Nat → Nat → Bytes → GuardedRoutine L Bytes
  | 0, _, destination => pure destination
  | count + 1, component, destination => do
      lift (checkStopAt component "Block read was cancelled")
      let destination ← exactly (reverseComponent componentSize component destination)
      swapFrom componentSize count (component + 1) destination

def swapByteOrderInPlace (destination : Bytes) (componentSize : Nat) : GuardedRoutine L Bytes := do
  let componentCount ← exactly (Exact.divide destination.length componentSize)
  swapFrom componentSize componentCount 0 destination

/-! ## Compressed blocks -/

/-- One byte of a shuffled block goes to its place. -/
def scatterByte (itemSize itemCount shuffledPrefixSize globalOffset : Nat) (byte : Byte)
    (output : Bytes) : Option Bytes :=
  if globalOffset < shuffledPrefixSize then do
    let byteIndex ← Exact.divide globalOffset itemCount
    let itemIndex ← Exact.remainder globalOffset itemCount
    let item ← multiply itemIndex itemSize
    let position ← add item byteIndex
    store output position byte
  else store output globalOffset byte

def scatterFrom (itemSize itemCount shuffledPrefixSize shuffledOffset : Nat) :
    Nat → Bytes → Bytes → GuardedRoutine L Bytes
  | _, [], output => pure output
  | localOffset, byte :: rest, output => do
      lift (checkStopAt localOffset "Block read was cancelled")
      let globalOffset ← exactly (add shuffledOffset localOffset)
      let output ← exactly (scatterByte itemSize itemCount shuffledPrefixSize
        globalOffset byte output)
      scatterFrom itemSize itemCount shuffledPrefixSize shuffledOffset (localOffset + 1) rest output

def scatterUnshuffledBytes (shuffled output : Bytes) (itemSize shuffledOffset : Nat) :
    GuardedRoutine L Bytes := do
  lift (refuse (itemSize = 0 ∨ shuffledOffset > output.length ∨
      shuffled.length > output.length - shuffledOffset) .invalidBlock
    "Invalid byte-shuffled block geometry")
  let itemCount ← exactly (Exact.divide output.length itemSize)
  let shuffledPrefixSize ← exactly (multiply itemCount itemSize)
  scatterFrom itemSize itemCount shuffledPrefixSize shuffledOffset 0 shuffled output

def decodeSubblocks (platform : Platform) (serialized : Bytes) (compression : CompressionPlan) :
    List CompressionSubblock → Nat → Nat → Bytes → GuardedRoutine L Bytes
  | [], _, _, destination => pure destination
  | subblock :: rest, inputOffset, outputOffset, destination => do
      lift (checkStop "Block read was cancelled")
      exactly (Exact.require (inputOffset + subblock.compressedSize ≤ serialized.length))
      let input := slice serialized inputOffset subblock.compressedSize
      let decoded ← lift (decompressSubblock platform compression.codec input
        subblock.uncompressedSize compression.maxZstdWindowBytes)
      let destination ←
        (if compression.byteShuffled then
          scatterUnshuffledBytes decoded destination compression.itemSize outputOffset
        else exactly (copy decoded 0 subblock.uncompressedSize destination outputOffset))
      let inputOffset ← exactly (add inputOffset subblock.compressedSize)
      let outputOffset ← exactly (add outputOffset subblock.uncompressedSize)
      decodeSubblocks platform serialized compression rest inputOffset outputOffset destination

def decodeCompressedBlock (platform : Platform) (serialized : Bytes) (compression : CompressionPlan)
    (destination : Bytes) : GuardedRoutine L Bytes := do
  lift (checkStop "Block read was cancelled")
  decodeSubblocks platform serialized compression compression.subblocks 0 0 destination

/-! ## `read_image_into` -/

def orderPixels (outputByteOrder : ByteOrder) (output : Bytes) : GuardedRoutine L Bytes :=
  if plan.sampleSize > 1 ∧ outputByteOrder ≠ plan.image.byteOrder then
    swapByteOrderInPlace output plan.endianComponentSize
  else pure output

variable (platform : Platform)

def decodeStagedImage (serialized output : Bytes) (outputStorage : PixelStorage)
    (outputByteOrder : ByteOrder) : GuardedRoutine L Bytes :=
  if plan.compression.codec ≠ .none then
    if outputStorage ≠ plan.image.pixelStorage then do
      let sourcePixels ← decodeCompressedBlock platform serialized plan.compression
        (zeros plan.expectedBytes)
      transformPixelStorageFromBuffer plan sourcePixels output outputStorage outputByteOrder
    else do
      let output ← decodeCompressedBlock platform serialized plan.compression output
      orderPixels plan outputByteOrder output
  else if outputStorage ≠ plan.image.pixelStorage then
    transformPixelStorageFromBuffer plan serialized output outputStorage outputByteOrder
  else orderPixels plan outputByteOrder (overwrite output 0 serialized)

def fillImage (imageIndex : Nat) (output : Bytes) (outputStorage : PixelStorage)
    (outputByteOrder : ByteOrder) : GuardedRoutine L Bytes :=
  if needsSerializedStaging plan.compression plan.checksum then do
    let serialized ← lift (copySerializedImage plan imageIndex)
    lift (ofExcept (verifyChecksum platform plan.checksum serialized))
    decodeStagedImage plan platform serialized output outputStorage outputByteOrder
  else if outputStorage ≠ plan.image.pixelStorage then
    transformPixelStorage plan output outputStorage outputByteOrder imageIndex
  else do
    let copied ← lift (copySerializedImage plan imageIndex)
    orderPixels plan outputByteOrder (overwrite output 0 copied)

def readImageInto (reader : Impl) (imageIndex : Nat) (destination : Bytes)
    (readOptions : ImageReadOptions) : GuardedRoutine L (Nat × Bytes) := do
  let plan ← lift (ofExcept
    (planImageRead reader.document reader.options reader.embeddedBlocks imageIndex))
  lift (refuse (destination.length < plan.expectedBytes) .invalidArgument
    "Destination buffer is smaller than the image block")
  let outputStorage := resolvePixelStorage plan readOptions.pixelStorage
  let outputByteOrder := resolveByteOrder platform plan.image.byteOrder readOptions.byteOrder
  let output ← fillImage plan platform imageIndex (destination.take plan.expectedBytes)
    outputStorage outputByteOrder
  return (plan.expectedBytes, output ++ destination.drop plan.expectedBytes)

/-! ## `read_image_rows` -/

def emitPlaneRow (context : RowContext) (channelIndex rowIndex : Nat) (bytes : Bytes) :
    GuardedRoutine RowDelivery Bytes := do
  lift (checkStop "Image read was cancelled")
  let bytes ←
    (if context.outputByteOrder ≠ context.plan.image.byteOrder then
      swapByteOrderInPlace bytes context.plan.endianComponentSize
    else pure bytes)
  let reply ← lift (request
    (ReadOp.consume ⟨channelIndex, rowIndex, context.outputByteOrder, bytes⟩))
  lift (ofExcept reply)
  let delivery ← lift getStore
  let rowsDelivered ← exactly (add delivery.rowsDelivered 1)
  let bytesDelivered ← exactly (add delivery.bytesDelivered bytes.length)
  lift (setStore { delivery with rowsDelivered, bytesDelivered })
  return bytes

/-- The pixels of one channel; `count` are still to come. -/
def splitRow (channel : Nat) (bytes : Bytes) : Nat → Nat → Bytes → Option Bytes
  | 0, _, planeRow => some planeRow
  | count + 1, pixel, planeRow => do
      let first ← multiply pixel plan.channels
      let index ← add first channel
      let sourceOffset ← multiply index plan.sampleSize
      let outputOffset ← multiply pixel plan.sampleSize
      let planeRow ← copy bytes sourceOffset plan.sampleSize planeRow outputOffset
      splitRow channel bytes count (pixel + 1) planeRow

def emitChannels (context : RowContext) : Nat → Nat → GuardedRoutine RowDelivery Unit
  | 0, _ => pure ()
  | count + 1, channel => do
      let delivery ← lift getStore
      let planeRow ← exactly (splitRow context.plan channel delivery.sourceRow context.rows.width 0
        delivery.planeRow)
      let planeRow ← emitPlaneRow context channel delivery.sourceRowOrdinal planeRow
      let delivery ← lift getStore
      lift (setStore { delivery with planeRow })
      emitChannels context count (channel + 1)

def emitSourceRow (context : RowContext) : GuardedRoutine RowDelivery Unit := do
  let delivery ← lift getStore
  match context.plan.image.pixelStorage with
  | .planar => do
      let channelIndex ← exactly (Exact.divide delivery.sourceRowOrdinal context.rows.height)
      let rowIndex ← exactly (Exact.remainder delivery.sourceRowOrdinal context.rows.height)
      let sourceRow ← emitPlaneRow context channelIndex rowIndex delivery.sourceRow
      let delivery ← lift getStore
      lift (setStore { delivery with sourceRow })
  | .normal => emitChannels context context.plan.channels 0
  let delivery ← lift getStore
  let sourceRowOrdinal ← exactly (add delivery.sourceRowOrdinal 1)
  lift (setStore { delivery with sourceRowOrdinal })

def deliverUncompressed (context : RowContext) (imageIndex : Nat) :
    Nat → Nat → GuardedRoutine RowDelivery Unit
  | 0, _ => pure ()
  | count + 1, row => do
      let offset ← exactly (multiply row context.rows.sourceRowBytes)
      let bytes ← readChunk context.plan offset context.rows.sourceRowBytes imageIndex
      let delivery ← lift getStore
      lift (setStore { delivery with sourceRow := bytes })
      lift (hashDelivered bytes)
      emitSourceRow context
      deliverUncompressed context imageIndex count (row + 1)

/-- The loop of `feed_decoded` from an offset on; that `fuel` runs out is a
fault. -/
def feedDecoded (context : RowContext) (decoded : Bytes) : Nat → Nat →
    GuardedRoutine RowDelivery Unit
  | 0, offset => exactly (Exact.require (¬ offset < decoded.length))
  | fuel + 1, offset =>
      if offset < decoded.length then do
        let delivery ← lift getStore
        let room ← exactly (Exact.subtract delivery.sourceRow.length delivery.rowFill)
        let remaining ← exactly (Exact.subtract decoded.length offset)
        let count := min room remaining
        let sourceRow ← exactly (copy decoded offset count delivery.sourceRow delivery.rowFill)
        let rowFill ← exactly (add delivery.rowFill count)
        let offset ← exactly (add offset count)
        lift (setStore { delivery with sourceRow, rowFill })
        (if rowFill = sourceRow.length then do
          emitSourceRow context
          let delivery ← lift getStore
          lift (setStore { delivery with rowFill := 0 })
        else pure ())
        feedDecoded context decoded fuel offset
      else pure ()

def deliverSubblocks (context : RowContext) (imageIndex : Nat) :
    List CompressionSubblock → Nat → GuardedRoutine RowDelivery Unit
  | [], _ => pure ()
  | subblock :: rest, serializedOffset => do
      let serialized ← readChunk context.plan serializedOffset subblock.compressedSize imageIndex
      lift (hashDelivered serialized)
      let oneSubblock : CompressionPlan :=
        { codec := context.plan.compression.codec
          byteShuffled := context.plan.compression.byteShuffled
          uncompressedSize := subblock.uncompressedSize
          itemSize := context.plan.compression.itemSize
          maxZstdWindowBytes := context.plan.compression.maxZstdWindowBytes
          subblocks := [subblock] }
      let decoded ← decodeCompressedBlock platform serialized oneSubblock
        (zeros subblock.uncompressedSize)
      feedDecoded context decoded decoded.length 0
      let serializedOffset ← exactly (add serializedOffset serialized.length)
      deliverSubblocks context imageIndex rest serializedOffset

/-- The error of an incomplete source row is unreachable. -/
def deliverCompressed (context : RowContext) (imageIndex : Nat) :
    GuardedRoutine RowDelivery Unit := do
  deliverSubblocks platform context imageIndex context.plan.compression.subblocks 0
  let delivery ← lift getStore
  exactly (Exact.require (¬ delivery.rowFill ≠ 0))

/-- The error of a row extent that does not match is unreachable. -/
def deliverRows (context : RowContext) (imageIndex : Nat) : GuardedRoutine RowDelivery Unit := do
  (if context.plan.compression.codec = .none then
    deliverUncompressed context imageIndex context.rows.sourceRowCount 0
  else deliverCompressed platform context imageIndex)
  let delivery ← lift getStore
  exactly (Exact.require (¬ (delivery.sourceRowOrdinal ≠ context.rows.sourceRowCount ∨
    delivery.rowsDelivered ≠ context.rows.planarRowCount ∨
    delivery.bytesDelivered ≠ context.plan.expectedBytes)))
  lift (checkStop "Image read was cancelled")
  lift (refuse (context.plan.checksum.algorithm ≠ .none ∧
      digestMatches platform context.plan.checksum delivery.hashed = false) .checksumMismatch
    "Block checksum changed during row delivery")

def readImageRows (reader : Impl) (imageIndex : Nat) (readOptions : ImageRowReadOptions) :
    GuardedRoutine L ImageRowReadSummary := do
  let plan ← lift (ofExcept
    (planImageRead reader.document reader.options reader.embeddedBlocks imageIndex))
  lift (refuse (readOptions.maxRowBytes = 0 ∨ readOptions.maxSubblockBytes = 0) .invalidArgument
    "Image row staging limits must be nonzero")
  lift (checkStop "Image read was cancelled")
  let outputByteOrder := resolveByteOrder platform plan.image.byteOrder readOptions.byteOrder
  let rows ← lift (ofExcept (planRows plan readOptions))
  lift (verifyImageChecksumStreaming platform plan imageIndex)
  let (_, delivery) ← Library.Guarded.within (RowDelivery.start plan rows)
    (deliverRows platform ⟨plan, rows, outputByteOrder⟩ imageIndex)
  return ⟨delivery.rowsDelivered, delivery.bytesDelivered, planVerification plan.checksum⟩

end Guarded

end Mmxisf.Reader
