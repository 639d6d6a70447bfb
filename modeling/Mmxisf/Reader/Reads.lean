/-
# Reader.Reads -- opening a unit and reading its blocks

`class Reader` of `reader.cpp`.  An `Impl` carries the proof that the header
checks were made of its document, so there is none whose attachments lie outside
the file.  The caller's allocation failures are left out; the row sink is an
operation, like the source.
-/
import Mmxisf.Reader.Blocks
import Mmxisf.Reader.Inventory

namespace Mmxisf.Reader

set_option autoImplicit false

open Library (slice overwrite)
open Library.Routine (request ofExcept within getStore setStore modifyStore)

/-- `Reader::Impl`, but for the source. -/
structure Impl where
  options : ReaderOptions
  document : Document
  embeddedBlocks : List Bytes
  inlineMetadataBlocks : List Bytes
  inlineIccProfileBlocks : List Bytes
  embeddedThumbnailBlocks : List Bytes
  wellFormed : WellFormed document

section

variable {L : Type} (platform : Platform)

/-! ## Opening -/

def kUnusedSpaceBuffer : Nat := 64 * 1024

/-- The loop of `validate_gap`; `fuel` bounds its rounds. -/
def checkZeros (offset size : Nat) : Nat → Nat → ReadRoutine L Unit
  | 0, _ => pure ()
  | fuel + 1, checked =>
      if checked < size then do
        let chunk := min kUnusedSpaceBuffer (size - checked)
        let bytes ← readExact (wrapAdd offset checked) chunk
        refuse (bytes.all (· = 0) = false) .invalidBlock
          "Unused monolithic file space must be zero-filled"
        checkZeros offset size fuel (checked + chunk)
      else pure ()

/-- `validate_gap`, with the number of bytes validated so far. -/
def validateGap (options : ReaderOptions) (validated offset size : Nat) : ReadRoutine L Nat := do
  refuse (size > options.maxUnusedSpaceBytes - min validated options.maxUnusedSpaceBytes)
    .resourceLimit "Unused-space validation exceeds its byte budget"
  checkZeros offset size size 0
  pure (validated + size)

/-- The gaps before the ranges: where the last range ended, and the bytes
validated. -/
def validateGaps (options : ReaderOptions) :
    Nat → Nat → List AttachedRange → ReadRoutine L (Nat × Nat)
  | cursor, validated, [] => pure (cursor, validated)
  | cursor, validated, range :: rest => do
      let validated ←
        (if range.offset > cursor then validateGap options validated cursor (range.offset - cursor)
        else pure validated)
      validateGaps options (wrapAdd range.offset range.size) validated rest

def validateUnusedSpaces (options : ReaderOptions) (headerEnd fileSize : Nat)
    (ranges : List AttachedRange) : ReadRoutine L Unit := do
  let (cursor, validated) ← validateGaps options headerEnd 0 ranges
  if cursor < fileSize then do
    let _ ← validateGap options validated cursor (fileSize - cursor)
    pure ()
  else pure ()

def kSignature : Bytes := lit "XISF0100"

def readLeU32 (bytes : Bytes) : Nat :=
  (bytes.getD 0 0).toNat + (bytes.getD 1 0).toNat * 256 + (bytes.getD 2 0).toNat * 65536 +
    (bytes.getD 3 0).toNat * 16777216

/-- The preamble's header length, after the checks of the preamble. -/
def checkPreamble (options : ReaderOptions) (sourceSize : Nat) (preamble : Bytes) : Result Nat := do
  reject (preamble.take 8 ≠ kSignature) .invalidSignature
    "File does not have the XISF0100 signature"
  let headerLength := readLeU32 (preamble.drop 8)
  reject (slice preamble 12 4 ≠ [0, 0, 0, 0]) .invalidPreamble
    "Reserved XISF preamble bytes must be zero"
  reject (headerLength = 0 ∨ headerLength > options.maxHeaderBytes) .headerTooLarge
    "XISF XML header length is outside the configured limit"
  reject (headerLength > sourceSize - 16) .invalidPreamble "XISF XML header extends beyond the file"
  return headerLength

def openSource (options : ReaderOptions) : ReadRoutine L Impl := do
  let reply ← request ReadOp.size
  let size ← ofExcept reply
  let sourceSize := UInt64.toNat size
  refuse (sourceSize < 16) .invalidPreamble "File is shorter than the XISF preamble"
  let preamble ← readExact 0 16
  let headerLength ← ofExcept (checkPreamble options sourceSize preamble)
  let xml ← readExact 16 headerLength
  match parsed : parseHeader platform xml options sourceSize headerLength with
  | .error e => Library.Routine.fail e
  | .ok header => do
      validateUnusedSpaces options (16 + headerLength) sourceSize header.attachedRanges
      pure {
        options
        document := header.document
        embeddedBlocks := header.embeddedBlocks
        inlineMetadataBlocks := header.inlineMetadataBlocks
        inlineIccProfileBlocks := header.inlineIccProfileBlocks
        embeddedThumbnailBlocks := header.embeddedThumbnailBlocks
        wellFormed := (wellFormed_of_parseHeader (Nat.le_of_lt_succ size.toNat_lt) parsed).1 }

/-! ## Whole images -/

structure ImageReadOptions where
  pixelStorage : PixelStorageOutput := .source
  byteOrder : ByteOrderOutput := .source
  deriving DecidableEq, Repr

inductive ChecksumVerification
  | notDeclared | verified
  deriving DecidableEq, Repr

structure RawImage where
  width : Nat
  height : Nat
  channels : Nat
  sampleFormat : SampleFormat
  orientation : Option ImageOrientation
  nominalChannelOrder : NominalChannelOrder
  lowerBound : Option Double
  upperBound : Option Double
  pixelStorage : PixelStorage
  byteOrder : ByteOrder
  checksumVerification : ChecksumVerification
  pixels : Bytes
  deriving DecidableEq, Repr

/-- A block is copied before it is used when it has a codec or a checksum. -/
def needsSerializedStaging (compression : CompressionPlan) (checksum : ChecksumPlan) : Bool :=
  compression.codec ≠ .none || checksum.algorithm ≠ .none

/-- `verified` is reported exactly when the plan has a checksum. -/
def planVerification (checksum : ChecksumPlan) : ChecksumVerification :=
  if checksum.algorithm ≠ .none then .verified else .notDeclared

/-- The end of a read that does not change the layout. -/
def orderPixels (plan : ImageReadPlan) (outputByteOrder : ByteOrder) (output : Bytes) :
    ReadRoutine L Bytes :=
  if plan.sampleSize > 1 ∧ outputByteOrder ≠ plan.image.byteOrder then
    swapByteOrderInPlace output plan.endianComponentSize
  else pure output

/-- The branches of `read_image_into` on serialized bytes that were copied and
verified. -/
def decodeStagedImage (plan : ImageReadPlan) (serialized output : Bytes)
    (outputStorage : PixelStorage) (outputByteOrder : ByteOrder) : ReadRoutine L Bytes :=
  if plan.compression.codec ≠ .none then
    if outputStorage ≠ plan.image.pixelStorage then do
      let sourcePixels ← decodeCompressedBlock platform serialized plan.compression
        (zeros plan.expectedBytes)
      transformPixelStorageFromBuffer plan sourcePixels output outputStorage outputByteOrder
    else do
      let output ← decodeCompressedBlock platform serialized plan.compression output
      orderPixels plan outputByteOrder output
  else if outputStorage ≠ plan.image.pixelStorage then
    transformPixelStorageFromBuffer plan serialized output outputStorage outputByteOrder
  else orderPixels plan outputByteOrder (overwrite output 0 serialized)

/-- The part of `read_image_into` that fills `output`. -/
def fillImage (plan : ImageReadPlan) (imageIndex : Nat) (output : Bytes)
    (outputStorage : PixelStorage) (outputByteOrder : ByteOrder) : ReadRoutine L Bytes :=
  if needsSerializedStaging plan.compression plan.checksum then do
    let serialized ← copySerializedImage plan imageIndex
    ofExcept (verifyChecksum platform plan.checksum serialized)
    decodeStagedImage platform plan serialized output outputStorage outputByteOrder
  else if outputStorage ≠ plan.image.pixelStorage then
    transformPixelStorage plan output outputStorage outputByteOrder imageIndex
  else do
    let copied ← copySerializedImage plan imageIndex
    orderPixels plan outputByteOrder (overwrite output 0 copied)

/-- The number of bytes written, and the destination with them at its front. -/
def readImageInto (reader : Impl) (imageIndex : Nat) (destination : Bytes)
    (readOptions : ImageReadOptions) : ReadRoutine L (Nat × Bytes) := do
  let plan ← ofExcept
    (planImageRead reader.document reader.options reader.embeddedBlocks imageIndex)
  refuse (destination.length < plan.expectedBytes) .invalidArgument
    "Destination buffer is smaller than the image block"
  let outputStorage := resolvePixelStorage plan readOptions.pixelStorage
  let outputByteOrder := resolveByteOrder platform plan.image.byteOrder readOptions.byteOrder
  let output ← fillImage platform plan imageIndex (destination.take plan.expectedBytes)
    outputStorage outputByteOrder
  pure (plan.expectedBytes, output ++ destination.drop plan.expectedBytes)

/-- The image that `read_image` returns with these pixels. -/
def rawImage (plan : ImageReadPlan) (readOptions : ImageReadOptions) (pixels : Bytes) :
    RawImage where
  width := axis plan.image 0
  height := axis plan.image 1
  channels := plan.channels
  sampleFormat := plan.image.sampleFormat
  orientation := plan.image.orientation
  nominalChannelOrder := plan.image.nominalChannelOrder
  lowerBound := plan.image.lowerBound
  upperBound := plan.image.upperBound
  pixelStorage := resolvePixelStorage plan readOptions.pixelStorage
  byteOrder := resolveByteOrder platform plan.image.byteOrder readOptions.byteOrder
  checksumVerification := if plan.image.checksum ≠ [] then .verified else .notDeclared
  pixels := pixels

def readImage (reader : Impl) (imageIndex : Nat) (readOptions : ImageReadOptions) :
    ReadRoutine L RawImage := do
  let plan ← ofExcept
    (planImageRead reader.document reader.options reader.embeddedBlocks imageIndex)
  checkStop "Image read was cancelled"
  let (_, pixels) ← readImageInto platform reader imageIndex (zeros plan.expectedBytes) readOptions
  pure (rawImage platform plan readOptions pixels)

/-! ## Rows -/

structure ImageRowReadOptions where
  byteOrder : ByteOrderOutput := .source
  maxRowBytes : Nat := 64 * 1024 * 1024
  maxSubblockBytes : Nat := 64 * 1024 * 1024
  deriving DecidableEq, Repr

structure ImageRowReadSummary where
  rowsDelivered : Nat
  bytesDelivered : Nat
  checksumVerification : ChecksumVerification
  deriving DecidableEq, Repr

/-- The geometry of a delivery: the sizes that `read_image_rows` computes before
it reads anything. -/
structure RowPlan where
  width : Nat
  height : Nat
  planarRowCount : Nat
  sourceRowCount : Nat
  planeRowBytes : Nat
  sourceRowBytes : Nat
  deriving DecidableEq, Repr

def planRows (plan : ImageReadPlan) (readOptions : ImageRowReadOptions) : Result RowPlan := do
  let width := axis plan.image 0
  let height := axis plan.image 1
  reject (width = 0 ∨ height = 0 ∨ plan.channels = 0) .invalidBlock
    "Image row geometry must be nonzero"
  let planarRowCount ← orFail (checkedMultiply height plan.channels) .overflow
    "Image plane-row count overflows"
  let planeRowBytes ← orFail (checkedMultiply width plan.sampleSize) .overflow
    "Image plane-row byte size overflows"
  let sourceRowBytes ← orFail
    (if plan.image.pixelStorage = .normal then checkedMultiply planeRowBytes plan.channels
      else some planeRowBytes) .overflow "Image source-row byte size overflows"
  reject (planeRowBytes > readOptions.maxRowBytes ∨ sourceRowBytes > readOptions.maxRowBytes ∨
      sourceRowBytes > u64Max ∨ planeRowBytes > u64Max) .resourceLimit
    "Image row exceeds the configured staging limit"
  reject (plan.compression.codec ≠ .none ∧
      plan.compression.subblocks.any (fun subblock =>
        subblock.compressedSize > readOptions.maxSubblockBytes ||
          subblock.uncompressedSize > readOptions.maxSubblockBytes) = true) .resourceLimit
    "Compressed image subblock exceeds the staging limit"
  reject (plan.compression.byteShuffled = true ∧ plan.compression.subblocks.length > 1)
    .unsupportedFeature
    "Row delivery is unavailable for globally shuffled multi-subblock images"
  return {
    width, height, planarRowCount
    sourceRowCount := if plan.image.pixelStorage = .planar then planarRowCount else height
    planeRowBytes, sourceRowBytes }

/-- What `read_image_rows` keeps while it delivers: its two reused row buffers,
how much of the source row is filled, the counts, and the serialized bytes that
went into the second checksum (which nothing looks at when none is declared). -/
structure RowDelivery where
  sourceRow : Bytes
  planeRow : Bytes
  rowFill : Nat
  sourceRowOrdinal : Nat
  rowsDelivered : Nat
  bytesDelivered : Nat
  hashed : Bytes
  deriving DecidableEq, Repr

/-- The delivery functions share the plan and the output byte order. -/
structure RowContext where
  plan : ImageReadPlan
  rows : RowPlan
  outputByteOrder : ByteOrder

def hashDelivered (bytes : Bytes) : ReadRoutine RowDelivery Unit :=
  modifyStore fun delivery => { delivery with hashed := delivery.hashed ++ bytes }

/-- `emit_plane_row`: the bytes are swapped in place and shown to the sink; the
buffer is returned as the swap left it. -/
def emitPlaneRow (context : RowContext) (channelIndex rowIndex : Nat) (bytes : Bytes) :
    ReadRoutine RowDelivery Bytes := do
  checkStop "Image read was cancelled"
  let bytes ←
    (if context.outputByteOrder ≠ context.plan.image.byteOrder then
      swapByteOrderInPlace bytes context.plan.endianComponentSize
    else pure bytes)
  let reply ← request
    (ReadOp.consume ⟨channelIndex, rowIndex, context.outputByteOrder, bytes⟩)
  ofExcept reply
  modifyStore fun delivery =>
    { delivery with
      rowsDelivered := delivery.rowsDelivered + 1
      bytesDelivered := delivery.bytesDelivered + bytes.length }
  pure bytes

/-- The pixels of one channel of an interleaved row, written over the plane row;
`count` pixels are still to come. -/
def splitRow (plan : ImageReadPlan) (channel : Nat) (bytes : Bytes) : Nat → Nat → Bytes → Bytes
  | 0, _, planeRow => planeRow
  | count + 1, pixel, planeRow =>
      splitRow plan channel bytes count (pixel + 1)
        (overwrite planeRow (pixel * plan.sampleSize)
          (slice bytes ((pixel * plan.channels + channel) * plan.sampleSize) plan.sampleSize))

/-- The channels of an interleaved source row; `count` are still to come. -/
def emitChannels (context : RowContext) : Nat → Nat → ReadRoutine RowDelivery Unit
  | 0, _ => pure ()
  | count + 1, channel => do
      let delivery ← getStore
      let planeRow := splitRow context.plan channel delivery.sourceRow context.rows.width 0
        delivery.planeRow
      let planeRow ← emitPlaneRow context channel delivery.sourceRowOrdinal planeRow
      modifyStore fun delivery => { delivery with planeRow := planeRow }
      emitChannels context count (channel + 1)

def emitSourceRow (context : RowContext) : ReadRoutine RowDelivery Unit := do
  let delivery ← getStore
  match context.plan.image.pixelStorage with
  | .planar => do
      let bytes ← emitPlaneRow context (delivery.sourceRowOrdinal / context.rows.height)
        (delivery.sourceRowOrdinal % context.rows.height) delivery.sourceRow
      modifyStore fun delivery => { delivery with sourceRow := bytes }
  | .normal => emitChannels context context.plan.channels 0
  modifyStore fun delivery => { delivery with sourceRowOrdinal := delivery.sourceRowOrdinal + 1 }

/-- The row loop of a block without a codec; `count` rows are still to come. -/
def deliverUncompressed (context : RowContext) (imageIndex : Nat) :
    Nat → Nat → ReadRoutine RowDelivery Unit
  | 0, _ => pure ()
  | count + 1, row => do
      let bytes ← readSerializedChunk context.plan (wrapMultiply row context.rows.sourceRowBytes)
        context.rows.sourceRowBytes imageIndex
      modifyStore fun delivery => { delivery with sourceRow := bytes }
      hashDelivered bytes
      emitSourceRow context
      deliverUncompressed context imageIndex count (row + 1)

/-- The loop of `feed_decoded` over the decoded bytes still to come; a round
takes at least one, so their number is fuel enough. -/
def feedDecoded (context : RowContext) : Nat → Bytes → ReadRoutine RowDelivery Unit
  | 0, _ => pure ()
  | fuel + 1, decoded =>
      if decoded = [] then pure ()
      else do
        let delivery ← getStore
        let count := min (delivery.sourceRow.length - delivery.rowFill) decoded.length
        setStore { delivery with
          sourceRow := overwrite delivery.sourceRow delivery.rowFill (decoded.take count)
          rowFill := delivery.rowFill + count }
        (if delivery.rowFill + count = delivery.sourceRow.length then do
          emitSourceRow context
          modifyStore fun delivery => { delivery with rowFill := 0 }
        else pure ())
        feedDecoded context fuel (decoded.drop count)

/-- The loop over the subblocks of a compressed block. -/
def deliverSubblocks (context : RowContext) (imageIndex : Nat) :
    List CompressionSubblock → Nat → ReadRoutine RowDelivery Unit
  | [], _ => pure ()
  | subblock :: rest, serializedOffset => do
      let serialized ← readSerializedChunk context.plan serializedOffset subblock.compressedSize
        imageIndex
      hashDelivered serialized
      let oneSubblock : CompressionPlan :=
        { codec := context.plan.compression.codec
          byteShuffled := context.plan.compression.byteShuffled
          uncompressedSize := subblock.uncompressedSize
          itemSize := context.plan.compression.itemSize
          maxZstdWindowBytes := context.plan.compression.maxZstdWindowBytes
          subblocks := [subblock] }
      let decoded ← decodeCompressedBlock platform serialized oneSubblock
        (zeros subblock.uncompressedSize)
      feedDecoded context decoded.length decoded
      deliverSubblocks context imageIndex rest (serializedOffset + serialized.length)

def deliverCompressed (context : RowContext) (imageIndex : Nat) :
    ReadRoutine RowDelivery Unit := do
  deliverSubblocks platform context imageIndex context.plan.compression.subblocks 0
  let delivery ← getStore
  refuse (delivery.rowFill ≠ 0) .invalidBlock "Decoded image ends with an incomplete source row"

/-- The delivery and the checks that follow it. -/
def deliverRows (context : RowContext) (imageIndex : Nat) : ReadRoutine RowDelivery Unit := do
  (if context.plan.compression.codec = .none then
    deliverUncompressed context imageIndex context.rows.sourceRowCount 0
  else deliverCompressed platform context imageIndex)
  let delivery ← getStore
  refuse (delivery.sourceRowOrdinal ≠ context.rows.sourceRowCount ∨
      delivery.rowsDelivered ≠ context.rows.planarRowCount ∨
      delivery.bytesDelivered ≠ context.plan.expectedBytes) .invalidBlock
    "Decoded image row extent does not match geometry"
  checkStop "Image read was cancelled"
  refuse (context.plan.checksum.algorithm ≠ .none ∧
      digestMatches platform context.plan.checksum delivery.hashed = false) .checksumMismatch
    "Block checksum changed during row delivery"

/-- The delivery before its first row. -/
def RowDelivery.start (plan : ImageReadPlan) (rows : RowPlan) : RowDelivery :=
  { sourceRow := zeros rows.sourceRowBytes
    planeRow := if plan.image.pixelStorage = .normal then zeros rows.planeRowBytes else []
    rowFill := 0
    sourceRowOrdinal := 0
    rowsDelivered := 0
    bytesDelivered := 0
    hashed := [] }

def readImageRows (reader : Impl) (imageIndex : Nat) (readOptions : ImageRowReadOptions) :
    ReadRoutine L ImageRowReadSummary := do
  let plan ← ofExcept
    (planImageRead reader.document reader.options reader.embeddedBlocks imageIndex)
  refuse (readOptions.maxRowBytes = 0 ∨ readOptions.maxSubblockBytes = 0) .invalidArgument
    "Image row staging limits must be nonzero"
  checkStop "Image read was cancelled"
  let outputByteOrder := resolveByteOrder platform plan.image.byteOrder readOptions.byteOrder
  let rows ← ofExcept (planRows plan readOptions)
  verifyImageChecksumStreaming platform plan imageIndex
  let (_, delivery) ← within (RowDelivery.start plan rows)
    (deliverRows platform ⟨plan, rows, outputByteOrder⟩ imageIndex)
  pure ⟨delivery.rowsDelivered, delivery.bytesDelivered, planVerification plan.checksum⟩

/-! ## Property blocks, ICC profiles and thumbnails -/

structure RawPropertyBlock where
  byteOrder : ByteOrder
  checksumVerification : ChecksumVerification
  bytes : Bytes
  deriving DecidableEq, Repr

structure RawIccProfile where
  checksumVerification : ChecksumVerification
  bytes : Bytes
  deriving DecidableEq, Repr

/-- The staging that Property blocks, ICC profiles and thumbnails share: the
serialized bytes come from `copy`, are verified, and are decoded or copied. -/
def readBlock (compression : CompressionPlan) (checksum : ChecksumPlan) (expectedBytes : Nat)
    (copy : ReadRoutine L Bytes) : ReadRoutine L Bytes :=
  if needsSerializedStaging compression checksum then do
    let serialized ← copy
    ofExcept (verifyChecksum platform checksum serialized)
    (if compression.codec ≠ .none then
      decodeCompressedBlock platform serialized compression (zeros expectedBytes)
    else pure (overwrite (zeros expectedBytes) 0 serialized))
  else do
    let copied ← copy
    pure (overwrite (zeros expectedBytes) 0 copied)

def readPropertyBlock (reader : Impl) (metadataIndex : Nat) (byteOrder : ByteOrderOutput) :
    ReadRoutine L RawPropertyBlock := do
  let plan ← ofExcept
    (planPropertyRead reader.document reader.options reader.inlineMetadataBlocks metadataIndex)
  checkStop "Property block read was cancelled"
  let outputByteOrder := resolveByteOrder platform plan.property.byteOrder byteOrder
  let bytes ← readBlock platform plan.compression plan.checksum plan.expectedBytes
    (copySerializedProperty plan)
  let bytes ←
    (if plan.layout.stringData = false ∧ plan.layout.scalarComponentSize > 1 ∧
        outputByteOrder ≠ plan.property.byteOrder then
      swapByteOrderInPlace bytes plan.layout.scalarComponentSize
    else pure bytes)
  pure ⟨outputByteOrder, planVerification plan.checksum, bytes⟩

def iccOctet (bytes : Bytes) (offset : Nat) : Nat := (bytes.getD offset 0).toNat

def validateIccProfileBytes (bytes : Bytes) : Result Unit := do
  reject (bytes.length < 128) .invalidBlock "ICC profile is shorter than its mandatory header"
  let declaredSize := iccOctet bytes 0 * 16777216 + iccOctet bytes 1 * 65536 +
    iccOctet bytes 2 * 256 + iccOctet bytes 3
  reject (declaredSize ≠ bytes.length) .invalidBlock
    "ICC profile size field does not match decoded bytes"
  reject (slice bytes 36 4 ≠ lit "acsp") .invalidBlock
    "ICC profile is missing the acsp signature"
  reject (iccOctet bytes 47 % 2 = 0) .invalidBlock
    "ICC profile embedded-profile flag is not set"

def readIccProfile (reader : Impl) (profileIndex : Nat) : ReadRoutine L RawIccProfile := do
  let plan ← ofExcept
    (planIccProfileRead reader.document reader.options reader.inlineIccProfileBlocks profileIndex)
  checkStop "ICC profile read was cancelled"
  let bytes ← readBlock platform plan.compression plan.checksum plan.expectedBytes
    (copySerializedIccProfile plan)
  ofExcept (validateIccProfileBytes bytes)
  pure ⟨planVerification plan.checksum, bytes⟩

/-- The image that `read_thumbnail` returns with these pixels. -/
def thumbnailImage (plan : ImageReadPlan) (pixels : Bytes) : RawImage where
  width := axis plan.image 0
  height := axis plan.image 1
  channels := plan.channels
  sampleFormat := plan.image.sampleFormat
  orientation := plan.image.orientation
  nominalChannelOrder := plan.image.nominalChannelOrder
  lowerBound := none
  upperBound := none
  pixelStorage := plan.image.pixelStorage
  byteOrder := plan.image.byteOrder
  checksumVerification := planVerification plan.checksum
  pixels := pixels

def readThumbnail (reader : Impl) (thumbnailIndex : Nat) : ReadRoutine L RawImage := do
  let plan ← ofExcept (planThumbnailRead reader.document reader.options
    reader.embeddedThumbnailBlocks thumbnailIndex)
  checkStop "Thumbnail read was cancelled"
  let pixels ← readBlock platform plan.compression plan.checksum plan.expectedBytes
    (copySerializedImage plan thumbnailIndex)
  pure (thumbnailImage plan pixels)

end

end Mmxisf.Reader
