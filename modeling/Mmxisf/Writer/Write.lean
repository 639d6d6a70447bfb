/-
# Writer.Write -- `write_impl`, `Writer::write_file` and `Writer::write_to`

Everything up to `prepareUnit` is done before the output is created or written to;
`emitUnit` writes and `commit` publishes.  A call is a program: it starts without
files, and its destructors run at the end, the sink objects before the cleanup
object.
-/
import Mmxisf.Writer.Units

namespace Mmxisf.Writer

set_option autoImplicit false

open Library (Program Routine)
open Library.Routine (request ofExcept ensuring)

/-- `WriteSummary`. -/
structure WriteSummary where
  fileSize : Nat
  headerLength : Nat
  imageBlock : BlockLocation
  imageBlocks : List BlockLocation
  propertyBlocks : List BlockLocation
  deriving DecidableEq, Repr

/-- The arguments of `write_impl`; a call with a sink of its caller has a scratch
stem, one without writes the destination. -/
structure WriteCall where
  destinationOrScratch : Path
  writesFile : Bool
  images : List ImageWriteView
  metadata : List MetadataWriteEntry
  options : WriterOptions
  deriving DecidableEq, Repr

namespace WriteCall

/-- `temporary`. -/
def temporary (call : WriteCall) : Path := call.destinationOrScratch ++ lit ".mmxisf-tmp"

end WriteCall

section

variable (platform : Platform) (call : WriteCall)

/-! ## Blocks -/

/-- One round of either loop over the blocks to prepare, with the serialized bytes
so far; the request is made for what remains of the limit. -/
def prepareNext (cumulative limit : Nat) (message : String)
    (request : Nat → Result BlockPrepareRequest) : WriteRoutine (PreparedBlock × Nat) := do
  refuse (cumulative > limit) .resourceLimit message
  let request ← ofExcept (request (wrapSubtract limit cumulative))
  allocate .work
  let block ← prepareBlock platform call.destinationOrScratch request call.options
  let cumulative ← ofExcept (orFail
    ((checkedAdd cumulative block.serializedSize).filter (· ≤ limit)) .resourceLimit message)
  pure (block, cumulative)

def imageRequest (index : Nat) (image : ImageWriteView) (remaining : Nat) :
    Result BlockPrepareRequest :=
  .ok {
    bytes := image.pixels
    itemSize := (sampleFormatDescription image.sampleFormat).2
    compression := image.compression
    byteShuffle := image.byteShuffle
    checksum := image.checksum
    maxSerializedBytes := call.options.maxSerializedImageBytes
    maxCumulativeRemaining := remaining
    spoolSuffix := lit ".mmxisf-block-" ++ decimal index ++ lit "-tmp" }

/-- The images from `index` on. -/
def prepareImages : Nat → Nat → List ImageWriteView →
    WriteRoutine (List (ImageWriteView × PlannedBlock))
  | _, _, [] => pure []
  | index, cumulative, image :: rest => do
      let (prepared, cumulative) ← prepareNext platform call cumulative
        call.options.maxCumulativeSerializedBytes
        "Writer images exceed their cumulative serialized-byte budget"
        (imageRequest call index image)
      let later ← prepareImages (index + 1) cumulative rest
      pure ((image, { prepared }) :: later)

def propertyRequest (index : Nat) (entry : MetadataWriteEntry) (remaining : Nat) :
    Result BlockPrepareRequest := do
  let layout ← orFail (propertyElementLayout entry.type) .internalError
    "Writer Property layout was not retained"
  return {
    bytes := entry.blockBytes
    itemSize := layout.elementSize
    compression := entry.compression
    byteShuffle := entry.byteShuffle
    checksum := entry.checksum
    maxSerializedBytes := call.options.maxSerializedPropertyBytes
    maxCumulativeRemaining := remaining
    spoolSuffix := lit ".mmxisf-property-block-" ++ decimal index ++ lit "-tmp" }

/-- The entries from `index` on. -/
def prepareMetadata : Nat → Nat → List MetadataWriteEntry →
    WriteRoutine (List (MetadataWriteEntry × PlannedBlock))
  | _, _, [] => pure []
  | index, cumulative, entry :: rest =>
      if hasBlock entry then do
        let (prepared, cumulative) ← prepareNext platform call cumulative
          call.options.maxCumulativeSerializedPropertyBytes
          "Writer Properties exceed their cumulative serialized-byte budget"
          (propertyRequest call index entry)
        let later ← prepareMetadata (index + 1) cumulative rest
        pure ((entry, { prepared }) :: later)
      else do
        let later ← prepareMetadata (index + 1) cumulative rest
        pure ((entry, {}) :: later)

/-- Everything before the output. -/
def prepareUnit : WriteRoutine SettledUnit := do
  checkStop
  refuse (call.writesFile = true ∧ call.destinationOrScratch = []) .invalidArgument
    "Writer destination cannot be empty"
  allocate .work
  let _ ← ofExcept (checkUnit call.options call.images call.metadata)
  (if call.writesFile = true then do
    let available : Bool ← request (WriteOp.isAvailable call.destinationOrScratch)
    refuse (available = false) .ioError "Writer destination already exists or cannot be checked"
    allocate .work
  else pure ())
  let images ← prepareImages platform call 0 0 call.images
  let metadata ← prepareMetadata platform call 0 0 call.metadata
  allocate .work
  ofExcept (layoutUnit platform call.options { images, metadata })

/-! ## Output -/

def openOutput : WriteRoutine Sink :=
  if call.writesFile = true then do
    let sink ← createFile call.temporary
    track call.temporary
    pure sink
  else pure .external

/-- `static_cast<std::byte>((value >> (8 * index)) & 0xff)`. -/
def headerLengthByte (value index : Nat) : Byte := UInt8.ofNat (value / 256 ^ index)

/-- `header_length`. -/
def headerLength (header : Text) : Nat := header.length % (kMaxHeaderLength + 1)

def preamble (header : Text) : Bytes :=
  lit "XISF0100" ++ (List.range 4).map (headerLengthByte (headerLength header)) ++
    List.replicate 4 0

/-- `zeros.size()`. -/
def kZeroBytes : Nat := 4096

/-- The loop that writes zeros; every round writes one. -/
def writePadding (output : Sink) : Nat → Nat → WriteRoutine Unit
  | 0, _ => pure ()
  | fuel + 1, padding =>
      if padding ≠ 0 then do
        let count := min padding kZeroBytes
        let _ ← writeAll output (List.replicate count 0)
        writePadding output fuel (padding - count)
      else pure ()

/-- The zeros before a block, and the block; where the output is then. -/
def writeBlock (output : Sink) (position : Nat) (bytes : Bytes) (block : PlannedBlock) :
    WriteRoutine Nat := do
  let padding := wrapSubtract block.location.offset position
  writePadding output padding padding
  let _ ← (if block.prepared.spoolPath = [] then
      writeAll output (if block.prepared.storage = [] then bytes else block.prepared.storage)
    else writeFileContents output block.prepared.spoolPath block.prepared.serializedSize)
  pure (wrapAdd block.location.offset block.location.size)

/-- Either loop over the blocks to write, from a position on. -/
def writeBlocks {α : Type} (output : Sink) (attached : α → Bool) (bytes : α → Bytes) :
    Nat → List (α × PlannedBlock) → WriteRoutine Nat
  | position, [] => pure position
  | position, (item, block) :: rest =>
      if attached item then do
        let position ← writeBlock output position (bytes item) block
        writeBlocks output attached bytes position rest
      else writeBlocks output attached bytes position rest

def emitUnit (output : Sink) (settled : SettledUnit) : WriteRoutine Unit := do
  let _ ← writeAll output (preamble settled.header)
  let _ ← writeAll output settled.header
  let position ← writeBlocks output (fun _ => true) ImageWriteView.pixels
    (16 + settled.header.length) settled.plan.images
  let _ ← writeBlocks output hasBlock MetadataWriteEntry.blockBytes position settled.plan.metadata
  output.flush
  if call.writesFile = true then output.close else pure ()

/-- The hard link from the temporary file to the destination. -/
def commit : WriteRoutine Unit := do
  checkStop
  if call.writesFile = true then do
    let linked : Bool ← request (WriteOp.link call.temporary call.destinationOrScratch)
    refuse (linked = false) .ioError "Unable to commit temporary XISF file"
  else pure ()

def summarize (settled : SettledUnit) : WriteSummary where
  fileSize := settled.plan.fileSize
  headerLength := headerLength settled.header
  imageBlock := (settled.plan.images.head?.map (·.2.location)).getD .empty
  imageBlocks := settled.plan.images.map (·.2.location)
  propertyBlocks := (settled.plan.metadata.filter fun entry => hasBlock entry.1).map (·.2.location)

/-- From the output on. -/
def publish (settled : SettledUnit) : WriteRoutine WriteSummary := do
  let output ← openOutput call
  emitUnit call output settled
  commit call
  allocate .summary
  pure (summarize settled)

def writeImpl : WriteRoutine WriteSummary := do
  let settled ← prepareUnit platform call
  publish call settled

/-- A call with its destructors. -/
def write : Program WriteOp WriteOp.Reply (Result WriteSummary) :=
  (ensuring (ensuring (writeImpl platform call) destroySinks) destroyCleanup {}).bind
    fun ended => .done ended.1

end

section

variable (platform : Platform) (images : List ImageWriteView) (metadata : List MetadataWriteEntry)
  (options : WriterOptions)

/-- `Writer::write_file`. -/
def writeFile (destination : Path) : Program WriteOp WriteOp.Reply (Result WriteSummary) :=
  write platform ⟨destination, true, images, metadata, options⟩

/-- `Writer::write_to`. -/
def writeTo (scratchFileStem : Path) : Program WriteOp WriteOp.Reply (Result WriteSummary) :=
  write platform ⟨scratchFileStem, false, images, metadata, options⟩

end

end Mmxisf.Writer
