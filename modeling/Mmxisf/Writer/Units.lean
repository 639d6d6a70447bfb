/-
# Writer.Units -- the checks of a unit, its layout and its header

The parts of `write_impl` that call nothing, with `make_header`, `plan_blocks` and
`align_up` of `writer.cpp`.  The vectors that the source indexes together, the
images with their blocks and the metadata with theirs, are lists of pairs; an
entry without a block keeps the default one.

`std::to_chars` fails only where its buffer is too short, and sixteen digits after
the point fit.
-/
import Mmxisf.Writer.Blocks

namespace Mmxisf.Writer

set_option autoImplicit false

/-! ## Alignment -/

def isPowerOfTwo (value : Nat) : Bool := value ≠ 0 && value &&& (value - 1) = 0

def alignUp (value alignment : Nat) : Result Nat :=
  let remainder := value &&& (alignment - 1)
  if remainder = 0 then .ok value
  else orFail (checkedAdd value (alignment - remainder)) .overflow
    "Writer attachment alignment overflows"

/-! ## Images -/

def sampleFormatDescription : SampleFormat → Text × Nat
  | .uint8 => (lit "UInt8", 1)
  | .uint16 => (lit "UInt16", 2)
  | .uint32 => (lit "UInt32", 4)
  | .float32 => (lit "Float32", 4)
  | .float64 => (lit "Float64", 8)
  | _ => ([], 0)

def formatBound (platform : Platform) (value : Double) : Result Text := do
  reject (value.isFinite = false) .invalidArgument "Writer image bounds must be finite"
  return platform.toCharsScientific value

/-- Finite bounds, the lower below the upper. -/
def boundsIncrease : Option Double → Option Double → Bool
  | some lower, some upper => lower.isFinite && upper.isFinite && lower.less upper
  | _, _ => true

/-- The three products of an image: its pixels, samples and bytes. -/
def pixelBytes (image : ImageWriteView) : Option Nat := do
  let pixels ← checkedMultiply image.width image.height
  let samples ← checkedMultiply pixels image.channels
  checkedMultiply samples (sampleFormatDescription image.sampleFormat).2

/-- One round of the image loop of `write_impl`, with the bytes of the images so
far. -/
def checkImage (options : WriterOptions) (cumulative : Nat) (image : ImageWriteView) :
    Result Nat := do
  reject ((sampleFormatDescription image.sampleFormat).1 = [] ∨ image.pixelStorage ≠ .planar ∨
      image.byteOrder ≠ .little ∨
      (image.colorSpace ≠ lit "Gray" ∧ image.colorSpace ≠ lit "RGB")) .unsupportedFeature
    ("Writer supports little-endian Planar UInt8, UInt16, UInt32, Float32, or Float64 " ++
      "Gray and RGB images")
  reject (image.byteShuffle = true ∧ image.compression = .none) .invalidArgument
    "Writer byte shuffle requires compression"
  reject (image.width = 0 ∨ image.height = 0 ∨
      image.channels ≠ (if image.colorSpace = lit "Gray" then 1 else 3)) .invalidArgument
    "Writer image geometry does not match its color space"
  reject (image.lowerBound.isSome ≠ image.upperBound.isSome) .invalidArgument
    "Writer image bounds must be provided as a pair"
  reject ((image.sampleFormat = .float32 ∨ image.sampleFormat = .float64) ∧
      image.lowerBound.isNone = true) .invalidArgument
    "Writer floating-point images require bounds"
  reject (boundsIncrease image.lowerBound image.upperBound = false) .invalidArgument
    "Writer image bounds must be finite and strictly increasing"
  let bytes ← orFail (pixelBytes image) .overflow "Writer image byte count overflows"
  reject (bytes > options.maxImageBytes) .resourceLimit "Writer image exceeds its byte budget"
  let cumulative ← orFail ((checkedAdd cumulative bytes).filter
      (· ≤ options.maxCumulativeImageBytes)) .resourceLimit
    "Writer images exceed their cumulative byte budget"
  reject (bytes ≠ image.pixels.length) .invalidArgument
    "Writer pixel span size does not match image geometry"
  return cumulative

/-- The loop over the identifiers of the images, with those before. -/
def checkImageIds : List Text → List ImageWriteView → Result Unit
  | _, [] => .ok ()
  | seen, image :: rest => do
      reject (image.id ≠ [] ∧ (isValidImageIdentifier image.id = false ∨ image.id ∈ seen))
        .invalidArgument "Writer Image id must have valid syntax and be unique"
      checkImageIds (if image.id ≠ [] then seen ++ [image.id] else seen) rest

/-! ## A unit -/

/-- What `write_impl` checks of its arguments before it touches anything; in the
end the bytes of the images. -/
def checkUnit (options : WriterOptions) (images : List ImageWriteView)
    (metadata : List MetadataWriteEntry) : Result Nat := do
  reject (images = []) .invalidArgument "Writer requires at least one image"
  reject (images.length > options.maxImages) .resourceLimit
    "Writer image count exceeds its budget"
  reject (options.maxMetadataEntries < 2 ∨ metadata.length > options.maxMetadataEntries - 2)
    .resourceLimit "Writer metadata count exceeds its budget"
  reject (isPowerOfTwo options.attachmentAlignment = false ∨ options.attachmentAlignment < 16 ∨
      options.attachmentAlignment > 1024 * 1024) .invalidArgument
    "Writer alignment must be a power of two from 16 to 1 MiB"
  reject (options.compressionSubblockBytes = 0 ∨ options.compressionSubblockBytes > u64Max)
    .invalidArgument "Writer compression subblock size must fit a nonzero size_t"
  reject (options.maxCompressionSubblocks = 0) .invalidArgument
    "Writer compression subblock count must be nonzero"
  reject (isCanonicalUtcTime options.creationTime = false) .invalidArgument
    "Writer creation time must be YYYY-MM-DDTHH:MM:SSZ"
  reject (options.creatorApplication = []) .invalidArgument
    "Writer creator application cannot be empty"
  reject (options.creatorApplication.length > options.maxMetadataValueBytes) .resourceLimit
    "Writer creator application exceeds metadata budget"
  checkImageIds [] images
  let _ ← metadata.foldlM (checkMetadataEntry options images.length) (.start images.length)
  images.foldlM (checkImage options) 0

/-- What is known of an attached block when the header is made. -/
structure PlannedBlock where
  prepared : PreparedBlock := {}
  location : BlockLocation := .empty
  deriving DecidableEq, Repr

/-- An entry with a block to attach. -/
def hasBlock (entry : MetadataWriteEntry) : Bool :=
  entry.valueForm = .dataBlock && !isEmptyPropertyContainer entry

/-! ## Layout -/

/-- What `plan_blocks` keeps: where the next block starts, how many were placed,
and the end of the last one when it was. -/
structure Layout where
  offset : Nat
  planned : Nat := 0
  finished : Option Nat := none
  deriving DecidableEq, Repr

/-- `plan_one`. -/
def planOne (alignment totalBlocks : Nat) (layout : Layout) (size : Nat) :
    Result (BlockLocation × Layout) := do
  let location : BlockLocation :=
    ⟨.attachment, layout.offset, size, attachmentLocation layout.offset size⟩
  let finish ← orFail (checkedAdd layout.offset size) .overflow "Writer file layout overflows"
  let planned := layout.planned + 1
  if planned = totalBlocks then
    return (location, { layout with planned, finished := some finish })
  else do
    let offset ← alignUp finish alignment
    return (location, { layout with offset, planned })

section

variable {α : Type} (attached : α → Bool) (alignment totalBlocks : Nat)

/-- Either loop of `plan_blocks`; it is left when the last block was placed. -/
def planEach : Layout → List (α × PlannedBlock) → Result (List (α × PlannedBlock) × Layout)
  | layout, [] => .ok ([], layout)
  | layout, (item, block) :: rest =>
      if layout.finished.isSome = true ∨ attached item = false then do
        let (planned, layout) ← planEach layout rest
        return ((item, block) :: planned, layout)
      else do
        let (location, layout) ← planOne alignment totalBlocks layout block.prepared.serializedSize
        let (planned, layout) ← planEach layout rest
        return ((item, { block with location }) :: planned, layout)

end

/-- The images and the metadata of a unit with their blocks, and the size of the
file. -/
structure UnitPlan where
  images : List (ImageWriteView × PlannedBlock)
  metadata : List (MetadataWriteEntry × PlannedBlock)
  fileSize : Nat := 0
  deriving DecidableEq, Repr

def planBlocks (alignment : Nat) (plan : UnitPlan) (firstOffset : Nat) : Result UnitPlan := do
  let totalBlocks := plan.images.length + plan.metadata.countP fun entry => hasBlock entry.1
  let (images, layout) ← planEach (fun _ => true) alignment totalBlocks { offset := firstOffset }
    plan.images
  let (metadata, layout) ← planEach hasBlock alignment totalBlocks layout plan.metadata
  let fileSize ← orFail layout.finished .internalError "Writer block planner did not finish"
  return { images, metadata, fileSize }

/-! ## The header -/

section

variable (platform : Platform)

/-- The text of an entry; only one with a block looks at it. -/
def entryXml (entry : MetadataWriteEntry × PlannedBlock) : Result Text :=
  makeMetadataXml entry.1
    (if entry.1.valueForm = .dataBlock then some (entry.2.location, entry.2.prepared) else none)

/-- The bounds of an image as an attribute, if it has both. -/
def boundsAttribute (image : ImageWriteView) : Result Text :=
  match image.lowerBound, image.upperBound with
  | some lowerBound, some upperBound => do
      let lower ← formatBound platform lowerBound
      let upper ← formatBound platform upperBound
      return xmlAttribute "bounds" (lower ++ lit ":" ++ upper)
  | _, _ => return []

/-- The element of an image, with its metadata inside. -/
def imageXml (metadata : List (MetadataWriteEntry × PlannedBlock))
    (image : (ImageWriteView × PlannedBlock) × Nat) : Result Text := do
  let ((view, block), index) := image
  let escapedId ← escapeXml view.id true
  let bounds ← boundsAttribute platform view
  let entries ← (metadata.filter fun entry => entry.1.imageIndex = some index).mapM entryXml
  return lit "<Image" ++ (if view.id ≠ [] then xmlAttribute "id" escapedId else []) ++
    xmlAttribute "geometry" (decimal view.width ++ lit ":" ++ decimal view.height ++ lit ":" ++
      decimal view.channels) ++
    xmlAttribute "sampleFormat" (sampleFormatDescription view.sampleFormat).1 ++
    xmlAttribute "colorSpace" view.colorSpace ++ xmlAttribute "pixelStorage" (lit "Planar") ++
    xmlAttribute "byteOrder" (lit "little") ++ bounds ++ preparedAttributes block.prepared ++
    xmlAttribute "location" (attachmentLocation block.location.offset block.location.size) ++
    (if entries = [] then lit "/>" else lit ">" ++ entries.flatten ++ lit "</Image>")

def makeHeader (options : WriterOptions) (plan : UnitPlan) : Result Text := do
  let escapedCreator ← escapeXml options.creatorApplication false
  let images ← plan.images.zipIdx.mapM (imageXml platform plan.metadata)
  let entries ← (plan.metadata.filter fun entry => entry.1.imageIndex.isNone).mapM entryXml
  return lit "<?xml version=\"1.0\" encoding=\"UTF-8\"?>" ++
    lit "<xisf xmlns=\"http://www.pixinsight.com/xisf\" version=\"1.0\">" ++ images.flatten ++
    lit "<Metadata><Property id=\"XISF:CreationTime\" type=\"TimePoint\" value=\"" ++
    options.creationTime ++ lit "\"/>" ++
    lit "<Property id=\"XISF:CreatorApplication\" type=\"String\">" ++ escapedCreator ++
    lit "</Property>" ++ entries.flatten ++ lit "</Metadata></xisf>"

/-- A unit whose layout agrees with its header. -/
structure SettledUnit where
  plan : UnitPlan
  header : Text
  attachmentOffset : Nat
  deriving DecidableEq, Repr

/-- The layout loop, for the iterations still to come: the header for a layout, and
the layout for where that header ends, until they agree. -/
def settleLayout (options : WriterOptions) : Nat → Nat → UnitPlan → Result SettledUnit
  | 0, _, _ => Mmxisf.fail .internalError
      (lit "Writer could not stabilize its attachment layout")
  | iterations + 1, attachmentOffset, plan => do
      let header ← makeHeader platform options plan
      let headerEnd ← orFail (checkedAdd 16 header.length) .overflow "Writer header size overflows"
      let aligned ← alignUp headerEnd options.attachmentAlignment
      if aligned = attachmentOffset then return { plan, header, attachmentOffset }
      else do
        let plan ← planBlocks options.attachmentAlignment plan aligned
        settleLayout options iterations aligned plan

def kLayoutIterations : Nat := 4

def kMaxHeaderLength : Nat := 4294967295

/-- From the prepared blocks to the header and the places of the blocks. -/
def layoutUnit (options : WriterOptions) (plan : UnitPlan) : Result SettledUnit := do
  let plan ← planBlocks options.attachmentAlignment plan options.attachmentAlignment
  let settled ← settleLayout platform options kLayoutIterations options.attachmentAlignment plan
  reject (settled.header.length > options.maxHeaderBytes ∨
      settled.header.length > kMaxHeaderLength) .resourceLimit
    "Writer header exceeds its byte budget"
  let headerEnd ← orFail (checkedAdd 16 settled.header.length) .overflow
    "Writer file layout overflows"
  reject (settled.attachmentOffset < headerEnd) .overflow "Writer file layout overflows"
  return settled

end

end Mmxisf.Writer
