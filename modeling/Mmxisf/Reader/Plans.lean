/-
# Reader.Plans -- what a block read is going to do

Before a block is read its descriptor texts are turned into a plan, and the
plan is where every size is checked: `parse_checksum_plan`,
`parse_compression_plan` and the four `plan_*_read` functions of `reader.cpp`.
-/
import Mmxisf.Reader.Handlers

namespace Mmxisf.Reader

set_option autoImplicit false

def bytesPerSample : SampleFormat → Option Nat
  | .uint8 => some 1
  | .uint16 => some 2
  | .uint32 => some 4
  | .uint64 => some 8
  | .float32 => some 4
  | .float64 => some 8
  | .complex32 => some 8
  | .complex64 => some 16
  | .unsupported => none

def endianComponentSize : SampleFormat → Option Nat
  | .uint8 => some 1
  | .uint16 => some 2
  | .uint32 | .float32 | .complex32 => some 4
  | .uint64 | .float64 | .complex64 => some 8
  | .unsupported => none

structure CompressionSubblock where
  compressedSize : Nat
  uncompressedSize : Nat
  deriving DecidableEq, Repr

structure CompressionPlan where
  codec : CompressionCodec := .none
  byteShuffled : Bool := false
  uncompressedSize : Nat := 0
  itemSize : Nat := 1
  maxZstdWindowBytes : Nat := 0
  subblocks : List CompressionSubblock := []
  deriving DecidableEq, Repr

structure ChecksumPlan where
  algorithm : ChecksumAlgorithm := .none
  expectedDigest : Bytes := []
  deriving DecidableEq, Repr

/-! ## Checksum descriptors -/

/-- A checksum algorithm by its name, with the size of its digest. -/
def checksumAlgorithm (name : Text) : Option (ChecksumAlgorithm × Nat) :=
  if name = lit "sha-1" ∨ name = lit "sha1" then some (.sha1, 20)
  else if name = lit "sha-256" ∨ name = lit "sha256" then some (.sha256, 32)
  else if name = lit "sha-512" ∨ name = lit "sha512" then some (.sha512, 64)
  else if name = lit "sha3-256" then some (.sha3_256, 32)
  else if name = lit "sha3-512" then some (.sha3_512, 64)
  else none

/-- Pairs of lowercase hexadecimal digits. -/
def decodeDigest : Text → Option Bytes
  | [] => some []
  | [_] => none
  | high :: low :: rest =>
      match lowercaseHexValue high, lowercaseHexValue low, decodeDigest rest with
      | some h, some l, some digest => some (UInt8.ofNat (h * 16 + l) :: digest)
      | _, _, _ => none

def parseChecksumPlan (checksum : Text) : Result ChecksumPlan :=
  if checksum = [] then .ok {}
  else
    match splitColons checksum with
    | [algorithm, encodedDigest] => do
        let (algorithm, digestSize) ← orFail (checksumAlgorithm algorithm) .unsupportedFeature
          "Unsupported block checksum algorithm"
        reject (encodedDigest.length ≠ digestSize * 2) .invalidBlock
          "Checksum digest has an invalid length"
        let digest ← orFail (decodeDigest encodedDigest) .invalidBlock
          "Checksum digest must use lowercase hexadecimal digits"
        return ⟨algorithm, digest⟩
    | _ => .error (makeError .invalidBlock "Invalid checksum descriptor")

/-! ## Compression descriptors -/

/-- A codec by its name, and whether its blocks are byte-shuffled. -/
def compressionCodec (name : Text) : Option (CompressionCodec × Bool) :=
  if name = lit "zlib" then some (.zlib, false)
  else if name = lit "zlib+sh" then some (.zlib, true)
  else if name = lit "lz4" then some (.lz4, false)
  else if name = lit "lz4+sh" then some (.lz4, true)
  else if name = lit "lz4hc" then some (.lz4hc, false)
  else if name = lit "lz4hc+sh" then some (.lz4hc, true)
  else if name = lit "zstd" then some (.zstd, false)
  else if name = lit "zstd+sh" then some (.zstd, true)
  else none

def parseSubblock (pair : Text) : Option CompressionSubblock :=
  match Library.split (ch ',') pair with
  | [compressed, uncompressed] =>
      match parseUnsigned compressed, parseUnsigned uncompressed with
      | some (c + 1), some (u + 1) => some ⟨c + 1, u + 1⟩
      | _, _ => none
  | _ => none

/-- The subblocks, `count` of them already read, with the totals of their
sizes. -/
def parseSubblocks (options : ReaderOptions) :
    Nat → Nat → Nat → List Text → Result (List CompressionSubblock × Nat × Nat)
  | _, totalCompressed, totalUncompressed, [] => .ok ([], totalCompressed, totalUncompressed)
  | count, totalCompressed, totalUncompressed, pair :: rest => do
      reject (count ≥ options.maxCompressedSubblocks) .resourceLimit
        "Compressed subblock count exceeds the configured limit"
      let subblock ← orFail (parseSubblock pair) .invalidBlock
        "Invalid compression subblock descriptor"
      let nextCompressed ← orFail (checkedAdd totalCompressed subblock.compressedSize) .overflow
        "Compression subblock sizes overflow"
      let nextUncompressed ← orFail (checkedAdd totalUncompressed subblock.uncompressedSize)
        .overflow "Compression subblock sizes overflow"
      let (subblocks, totals) ← parseSubblocks options (count + 1) nextCompressed nextUncompressed
        rest
      return (subblock :: subblocks, totals)

/-- The plan of a block without a codec. -/
def parseUncompressedPlan (subblocks : Text) (serializedBytes : Nat) (expectedBytes : Option Nat)
    (maxDecodedBytes : Nat) : Result CompressionPlan := do
  reject (subblocks ≠ []) .invalidBlock "Compression subblocks require a compression codec"
  reject (expectedBytes.any (· ≠ serializedBytes) = true) .invalidBlock
    "Block size does not match its declared typed extent"
  reject (serializedBytes > maxDecodedBytes) .resourceLimit
    "Decoded block exceeds the configured limit"
  return { uncompressedSize := serializedBytes }

def parseCompressionPlan (compression subblocks : Text) (serializedBytes : Nat)
    (expectedBytes : Option Nat) (options : ReaderOptions)
    (itemSize maxSerializedBytes maxDecodedBytes : Nat) : Result CompressionPlan := do
  reject (serializedBytes > maxSerializedBytes) .resourceLimit
    "Serialized block exceeds the configured limit"
  reject (serializedBytes > u64Max) .resourceLimit
    "Serialized block cannot fit in addressable memory"
  if compression = [] then
    parseUncompressedPlan subblocks serializedBytes expectedBytes maxDecodedBytes
  else do
    let tokens := splitColons compression
    reject (tokens.length > 3) .invalidBlock "Compression descriptor has too many components"
    let (codec, byteShuffled) ← orFail (compressionCodec (tokens.getD 0 [])) .unsupportedFeature
      "Unsupported image compression codec"
    reject (tokens.length ≠ if byteShuffled then 3 else 2) .invalidBlock
      "Invalid compression descriptor"
    let uncompressedSize ← orFail ((parseUnsigned (tokens.getD 1 [])).filter (· ≠ 0)) .invalidBlock
      "Invalid compression descriptor"
    reject (expectedBytes.any (· ≠ uncompressedSize) = true) .invalidBlock
      "Declared uncompressed size does not match the typed extent"
    let declaredItem ← orFail (if byteShuffled then
          (parseUnsigned (tokens.getD 2 [])).filter fun item => item ≠ 0 && item = itemSize
        else some 1) .invalidBlock "Byte-shuffle item size does not match the typed element size"
    reject (serializedBytes = 0) .invalidBlock "Compressed block cannot be empty"
    let maximumOutput := (checkedMultiply serializedBytes options.maxDecompressionRatio).getD u64Max
    reject (uncompressedSize > maximumOutput) .resourceLimit
      "Block exceeds the configured decompression ratio"
    reject (uncompressedSize > maxDecodedBytes ∨ uncompressedSize > u64Max) .resourceLimit
      "Decoded block exceeds the configured limit"
    let plan : CompressionPlan :=
      { codec, byteShuffled, uncompressedSize, itemSize := declaredItem
        maxZstdWindowBytes := options.maxZstdWindowBytes }
    if subblocks = [] then
      return { plan with subblocks := [⟨serializedBytes, uncompressedSize⟩] }
    else do
      let (parsed, totalCompressed, totalUncompressed) ←
        parseSubblocks options 0 0 0 (splitColons subblocks)
      reject (totalCompressed ≠ serializedBytes ∨ totalUncompressed ≠ uncompressedSize)
        .invalidBlock "Compression subblock totals do not match the block"
      return { plan with subblocks := parsed }

/-! ## Images and thumbnails -/

structure ImageReadPlan where
  image : ImageInfo
  embeddedBlock : Option Bytes
  channels : Nat
  sampleCount : Nat
  sampleSize : Nat
  endianComponentSize : Nat
  expectedBytes : Nat
  serializedBytes : Nat
  compression : CompressionPlan
  checksum : ChecksumPlan
  deriving DecidableEq, Repr

def axis (image : ImageInfo) (index : Nat) : Nat := image.geometry.getD index 0

/-- The number of samples of a two-dimensional image and their bytes. -/
def imageExtent (image : ImageInfo) (sampleSize : Nat) : Option (Nat × Nat) := do
  let pixels ← checkedMultiply (axis image 0) (axis image 1)
  let samples ← checkedMultiply pixels (axis image 2)
  let bytes ← checkedMultiply samples sampleSize
  return (samples, bytes)

/-- The last part of `plan_image_read` and `plan_thumbnail_read`: the block of
the image, with the limits and the message of the caller. -/
def planImageBlock (document : Document) (options : ReaderOptions) (embeddedBlock : Bytes)
    (image : ImageInfo) (sampleSize componentSize sampleCount expectedBytes : Nat)
    (maxSerializedBytes maxDecodedBytes : Nat) (beyond : String) : Result ImageReadPlan := do
  let serializedBytes :=
    if image.block.kind = .attachment then image.block.size else embeddedBlock.length
  let compression ← parseCompressionPlan image.compression image.subblocks serializedBytes
    (some expectedBytes) options sampleSize maxSerializedBytes maxDecodedBytes
  let checksum ← parseChecksumPlan image.checksum
  reject (image.block.kind = .attachment ∧ (image.block.offset > document.fileSize ∨
      image.block.size > document.fileSize - image.block.offset)) .invalidBlock beyond
  return {
    image
    embeddedBlock := if image.block.kind = .embedded then some embeddedBlock else none
    channels := axis image 2
    sampleCount, sampleSize
    endianComponentSize := componentSize
    expectedBytes, serializedBytes, compression, checksum }

def planImageRead (document : Document) (options : ReaderOptions) (embeddedBlocks : List Bytes)
    (imageIndex : Nat) : Result ImageReadPlan :=
  match document.images[imageIndex]? with
  | none => .error { makeError .invalidArgument "Image index is outside the document" with
      imageIndex := some imageIndex }
  | some image => do
      reject (image.block.kind ≠ .attachment ∧ image.block.kind ≠ .embedded) .unsupportedFeature
        "The reader only reads attachment and embedded image blocks"
      reject (image.geometry.length ≠ 3) .unsupportedFeature
        "The current reader profile only reads 2-D images"
      reject (image.colorSpace = lit "CIELab") .unsupportedFeature
        "CIELab conversion is outside the M2 reader profile"
      let sampleSize ← orFail (bytesPerSample image.sampleFormat) .unsupportedFeature
        "The reader does not decode this image sample format"
      let componentSize ← orFail (endianComponentSize image.sampleFormat) .unsupportedFeature
        "The reader does not decode this image sample format"
      reject (axis image 2 > options.maxDecodedChannels) .resourceLimit
        "Image channel count exceeds the decode limit"
      let (sampleCount, expectedBytes) ← orFail (imageExtent image sampleSize) .overflow
        "Image geometry overflows the byte-size calculation"
      reject (sampleCount > options.maxSamplesPerImage) .resourceLimit
        "Image exceeds the configured sample-count limit"
      reject (expectedBytes > options.maxDecodedImageBytes ∨ expectedBytes > u64Max) .resourceLimit
        "Image exceeds the configured decoded byte limit"
      planImageBlock document options (embeddedBlocks.getD imageIndex []) image sampleSize
        componentSize sampleCount expectedBytes options.maxSerializedImageBytes
        options.maxDecodedImageBytes "Attachment range extends beyond the source"

def planThumbnailRead (document : Document) (options : ReaderOptions)
    (embeddedBlocks : List Bytes) (thumbnailIndex : Nat) : Result ImageReadPlan :=
  match document.thumbnails[thumbnailIndex]? with
  | none => .error (makeError .invalidArgument "Thumbnail index is outside the document")
  | some thumbnail => do
      let image := thumbnail.image
      reject (image.block.kind ≠ .attachment ∧ image.block.kind ≠ .embedded) .unsupportedFeature
        "Only attachment and embedded Thumbnail blocks are readable"
      reject (image.geometry.length ≠ 3) .invalidBlock "Thumbnail geometry is not two-dimensional"
      let sampleSize ← orFail (bytesPerSample image.sampleFormat) .unsupportedFeature
        "Thumbnail sample format is not readable"
      let componentSize ← orFail (endianComponentSize image.sampleFormat) .unsupportedFeature
        "Thumbnail sample format is not readable"
      let (sampleCount, expectedBytes) ← orFail (imageExtent image sampleSize) .overflow
        "Thumbnail geometry overflows its byte size"
      reject (expectedBytes > options.maxDecodedThumbnailBytes ∨ expectedBytes > u64Max)
        .resourceLimit "Thumbnail exceeds the decoded byte limit"
      reject (image.block.kind = .embedded ∧ thumbnailIndex ≥ embeddedBlocks.length) .internalError
        "Embedded Thumbnail storage is inconsistent"
      planImageBlock document options (embeddedBlocks.getD thumbnailIndex []) image sampleSize
        componentSize sampleCount expectedBytes options.maxSerializedThumbnailBytes
        options.maxDecodedThumbnailBytes "Thumbnail attachment extends beyond the source"

/-! ## Property blocks and ICC profiles -/

structure PropertyReadPlan where
  property : MetadataEntry
  inlineBlock : Option Bytes
  layout : PropertyElementLayout
  expectedBytes : Nat
  serializedBytes : Nat
  compression : CompressionPlan
  checksum : ChecksumPlan
  deriving DecidableEq, Repr

structure IccProfileReadPlan where
  profile : IccProfileInfo
  inlineBlock : Option Bytes
  expectedBytes : Nat
  serializedBytes : Nat
  compression : CompressionPlan
  checksum : ChecksumPlan
  deriving DecidableEq, Repr

/-- Where the bytes of a Property or ICC profile are: in the document when the
block is inline, in the source otherwise; and how many they are. -/
def serializedBlock (document : Document) (block : BlockLocation) (inlineBlocks : List Bytes)
    (index : Nat) (inconsistent beyond : String) : Result (Option Bytes × Nat) :=
  if block.kind = .inlineData then do
    let bytes ← orFail inlineBlocks[index]? .internalError inconsistent
    return (some bytes, bytes.length)
  else do
    reject (block.offset > document.fileSize ∨ block.size > document.fileSize - block.offset)
      .invalidBlock beyond
    return (none, block.size)

/-- The number of elements a Property declares. -/
def elementCount (property : MetadataEntry) : Option Nat :=
  match classifyPropertyType property.type, property.length, property.rows, property.columns with
  | .vector, some length, _, _ => some length
  | .matrix, _, some rows, some columns => checkedMultiply rows columns
  | _, _, _, _ => none

def typedBytes (property : MetadataEntry) (layout : PropertyElementLayout) :
    Result (Option Nat) :=
  if layout.stringData then .ok none
  else do
    let count ← orFail (elementCount property) .invalidBlock
      "Property typed extent is incomplete or overflows"
    let bytes ← orFail (checkedMultiply count layout.elementSize) .overflow
      "Property typed extent overflows its byte size"
    return some bytes

def planPropertyRead (document : Document) (options : ReaderOptions) (inlineBlocks : List Bytes)
    (metadataIndex : Nat) : Result PropertyReadPlan :=
  match document.metadata[metadataIndex]? with
  | none => .error (makeError .invalidArgument "Metadata index is outside the document")
  | some property => do
      reject (property.kind ≠ .property ∨ property.valueForm ≠ .dataBlock) .invalidArgument
        "Metadata entry is not a block-backed Property"
      reject (property.block.kind ≠ .attachment ∧ property.block.kind ≠ .inlineData)
        .unsupportedFeature "Only attachment and inline Property blocks are readable"
      let layout ← orFail (propertyElementLayout property.type) .unsupportedFeature
        "Property binary element type is not supported"
      let typed ← typedBytes property layout
      let (inlineBlock, serializedBytes) ← serializedBlock document property.block inlineBlocks
        metadataIndex "Inline Property storage is inconsistent"
        "Property attachment range extends beyond the source"
      let compression ← parseCompressionPlan property.compression property.subblocks
        serializedBytes typed options layout.elementSize options.maxSerializedPropertyBytes
        options.maxDecodedPropertyBytes
      let checksum ← parseChecksumPlan property.checksum
      return {
        property, inlineBlock, layout
        expectedBytes := compression.uncompressedSize
        serializedBytes, compression, checksum }

def planIccProfileRead (document : Document) (options : ReaderOptions)
    (inlineBlocks : List Bytes) (profileIndex : Nat) : Result IccProfileReadPlan :=
  match document.iccProfiles[profileIndex]? with
  | none => .error (makeError .invalidArgument "ICC profile index is outside the document")
  | some profile => do
      reject (profile.block.kind ≠ .attachment ∧ profile.block.kind ≠ .inlineData)
        .unsupportedFeature "Only attachment and inline ICC profile blocks are readable"
      let (inlineBlock, serializedBytes) ← serializedBlock document profile.block inlineBlocks
        profileIndex "Inline ICC profile storage is inconsistent"
        "ICC profile attachment range extends beyond the source"
      let compression ← parseCompressionPlan profile.compression profile.subblocks serializedBytes
        none options 1 options.maxSerializedIccProfileBytes options.maxDecodedIccProfileBytes
      let checksum ← parseChecksumPlan profile.checksum
      return {
        profile, inlineBlock
        expectedBytes := compression.uncompressedSize
        serializedBytes, compression, checksum }

/-! ## Output options -/

inductive PixelStorageOutput
  | source | planar | normal
  deriving DecidableEq, Repr

inductive ByteOrderOutput
  | source | native
  deriving DecidableEq, Repr

def resolvePixelStorage (plan : ImageReadPlan) : PixelStorageOutput → PixelStorage
  | .source => plan.image.pixelStorage
  | .planar => .planar
  | .normal => .normal

def resolveByteOrder (platform : Platform) (sourceOrder : ByteOrder) : ByteOrderOutput → ByteOrder
  | .source => sourceOrder
  | .native => platform.nativeByteOrder

end Mmxisf.Reader
