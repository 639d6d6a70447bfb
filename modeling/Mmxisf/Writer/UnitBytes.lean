/-
# Writer.UnitBytes -- the bytes that a unit is meant to be

What a block is stored as (`StoredAs`): its own bytes, or for each of its chunks,
shuffled where that was asked for, an output that the codec has for it.  A unit is
the preamble, the header and the stored blocks, each where the header says that it
is, with zeros between them (`unitBytes`).  `LaidOut` says so of a sequence of bytes
without its construction.
-/
import Mmxisf.Writer.Layouts
import Mmxisf.Writer.Outside

namespace Mmxisf.Writer

set_option autoImplicit false

open Library (slice stacked laid roundUp Follows)

/-! ## Blocks -/

/-- What is stored in a block, and how. -/
structure Payload where
  bytes : Bytes
  itemSize : Nat
  compression : CompressionCodec
  byteShuffle : Bool
  checksum : ChecksumAlgorithm
  deriving DecidableEq, Repr

def BlockPrepareRequest.payload (request : BlockPrepareRequest) : Payload where
  bytes := request.bytes
  itemSize := request.itemSize
  compression := request.compression
  byteShuffle := request.byteShuffle
  checksum := request.checksum

def imagePayload (image : ImageWriteView) : Payload where
  bytes := image.pixels
  itemSize := (sampleFormatDescription image.sampleFormat).2
  compression := image.compression
  byteShuffle := image.byteShuffle
  checksum := image.checksum

def propertyPayload (entry : MetadataWriteEntry) : Payload where
  bytes := entry.blockBytes
  itemSize := ((propertyElementLayout entry.type).map (·.elementSize)).getD 0
  compression := entry.compression
  byteShuffle := entry.byteShuffle
  checksum := entry.checksum

namespace Payload

/-- A request for the payload, without limits. -/
def request (payload : Payload) : BlockPrepareRequest where
  bytes := payload.bytes
  itemSize := payload.itemSize
  compression := payload.compression
  byteShuffle := payload.byteShuffle
  checksum := payload.checksum

/-- What is compressed of a payload. -/
def chunk (payload : Payload) (offset size : Nat) : Result Bytes :=
  if payload.byteShuffle = true then shuffledRange payload.bytes payload.itemSize offset size
  else .ok (slice payload.bytes offset size)

/-- The size of the chunk at an offset. -/
def chunkSize (payload : Payload) (options : WriterOptions) (offset : Nat) : Nat :=
  min (chunkLimit payload.compression options.compressionSubblockBytes)
    (payload.bytes.length - offset)

end Payload

/-- The chunks of a payload from an offset on: an output of the codec for each, and
its size before. -/
inductive ChunksEncoded (codecs : Codecs) (options : WriterOptions) (payload : Payload) :
    Nat → List (Bytes × Nat) → Prop
  | done {offset : Nat} (all : payload.bytes.length ≤ offset) :
      ChunksEncoded codecs options payload offset []
  | chunk {offset : Nat} {input output : Bytes} {rest : List (Bytes × Nat)}
      (more : offset < payload.bytes.length)
      (made : payload.chunk offset (payload.chunkSize options offset) = .ok input)
      (encoded : codecs.outputs payload.compression input output)
      (later : ChunksEncoded codecs options payload (offset + payload.chunkSize options offset)
        rest) :
      ChunksEncoded codecs options payload offset
        ((output, payload.chunkSize options offset) :: rest)

/-- The sizes of a chunk after and before. -/
def subblockSizes (chunk : Bytes × Nat) : Nat × Nat := (chunk.1.length, chunk.2)

/-- A payload is serialized as this content, and the block describes how. -/
structure SerializedAs (codecs : Codecs) (options : WriterOptions) (payload : Payload)
    (block : PreparedBlock) (content : Bytes) : Prop where
  plain : payload.compression = .none →
    content = payload.bytes ∧ block.compression = [] ∧ block.subblocks = []
  coded : payload.compression ≠ .none → ∃ chunks, ChunksEncoded codecs options payload 0 chunks ∧
    content = (chunks.map Prod.fst).flatten ∧ block.compression = compressionText payload.request ∧
    block.subblocks = subblocksText (chunks.map subblockSizes)
  size : block.serializedSize = content.length

/-- A prepared block stores a payload as this content. -/
structure StoredAs (platform : Platform) (codecs : Codecs) (options : WriterOptions)
    (payload : Payload) (block : PreparedBlock) (content : Bytes) : Prop
    extends SerializedAs codecs options payload block content where
  checksum : block.checksum =
    if payload.checksum = .none then [] else checksumText platform payload.checksum content

/-! ## Units -/

/-- The blocks of a plan with what they store, images first. -/
def UnitPlan.blocks (plan : UnitPlan) : List (Payload × PreparedBlock) :=
  plan.images.map (fun item => (imagePayload item.1, item.2.prepared)) ++
    (plan.metadata.filter fun entry => hasBlock entry.1).map fun item =>
      (propertyPayload item.1, item.2.prepared)

theorem UnitPlan.sizes_eq (plan : UnitPlan) :
    plan.sizes = plan.blocks.map fun block => block.2.serializedSize := by
  rw [UnitPlan.sizes, UnitPlan.blocks, List.map_append, List.map_map, List.map_map]
  rfl

theorem UnitPlan.SameBlocks.blocks {plan other : UnitPlan} (same : plan.SameBlocks other) :
    other.blocks = plan.blocks := by
  have images := congrArg (List.map fun item => (imagePayload item.1, item.2)) same.images
  have attached := congrArg (List.filter fun item => hasBlock item.1) same.metadata
  rw [List.filter_map, List.filter_map] at attached
  have metadata := congrArg (List.map fun item => (propertyPayload item.1, item.2)) attached
  rw [List.map_map, List.map_map] at images metadata
  exact congrArg₂ (· ++ ·) images metadata

/-- A settled unit is that of a call, with these stored blocks. -/
structure IsUnitOf (platform : Platform) (codecs : Codecs) (call : WriteCall)
    (settled : SettledUnit) (contents : List Bytes) : Prop where
  checked : ∃ total, checkUnit call.options call.images call.metadata = .ok total
  nonempty : call.images ≠ []
  alignment : 16 ≤ call.options.attachmentAlignment
  images : settled.plan.images.map Prod.fst = call.images
  metadata : settled.plan.metadata.map Prod.fst = call.metadata
  agrees : settled.Agrees platform call.options
  stored : List.Forall₂ (fun block content =>
    StoredAs platform codecs call.options block.1 block.2 content) settled.plan.blocks contents
  header : settled.header.length ≤ kMaxHeaderLength

theorem IsUnitOf.sizes {platform : Platform} {codecs : Codecs} {call : WriteCall}
    {settled : SettledUnit} {contents : List Bytes}
    (isUnit : IsUnitOf platform codecs call settled contents) :
    settled.plan.sizes = contents.map List.length := by
  rw [UnitPlan.sizes_eq]
  have stored := isUnit.stored
  clear isUnit
  generalize settled.plan.blocks = blocks at stored
  induction stored with
  | nil => rfl
  | cons first _ ih => rw [List.map_cons, List.map_cons, ih, first.size]

/-- What comes before the blocks. -/
def SettledUnit.front (settled : SettledUnit) : Bytes := preamble settled.header ++ settled.header

def unitBytes (options : WriterOptions) (settled : SettledUnit) (contents : List Bytes) : Bytes :=
  settled.front ++ laid 0 options.attachmentAlignment settled.front.length
    settled.attachmentOffset contents

/-- Bytes that are a unit: the header after sixteen bytes, the blocks in the order of
the plan where it says, and zeros everywhere else. -/
structure LaidOut (options : WriterOptions) (settled : SettledUnit) (contents : List Bytes)
    (unit : Bytes) : Prop where
  preamble : unit.take 16 = lit "XISF0100" ++
    (List.range 4).map (fun i => UInt8.ofNat (settled.header.length / 256 ^ i)) ++
    List.replicate 4 0
  header : slice unit 16 settled.header.length = settled.header
  length : unit.length = settled.plan.fileSize
  first : (settled.plan.locations.head?.map (·.offset)) =
    some (roundUp options.attachmentAlignment (16 + settled.header.length))
  aligned : ∀ location ∈ settled.plan.locations, options.attachmentAlignment ∣ location.offset
  ordered : (settled.plan.locations.map fun location => (location.offset, location.size)).IsChain
    (Follows options.attachmentAlignment)
  sizes : settled.plan.locations.map BlockLocation.size = contents.map List.length
  texts : ∀ location ∈ settled.plan.locations,
    location.raw = attachmentLocation location.offset location.size
  blocks : ∀ placed ∈ settled.plan.locations.zip contents,
    slice unit placed.1.offset placed.1.size = placed.2
  zeros : ∀ i, 16 + settled.header.length ≤ i → i < unit.length →
    (∀ location ∈ settled.plan.locations,
      i < location.offset ∨ location.offset + location.size ≤ i) → unit[i]? = some 0

theorem length_front (settled : SettledUnit) :
    settled.front.length = 16 + settled.header.length := by
  rw [SettledUnit.front, preamble, List.length_append, List.length_append, List.length_append,
    List.length_map, List.length_range, List.length_replicate]
  rfl

section

variable {platform : Platform} {codecs : Codecs} {call : WriteCall} {settled : SettledUnit}
  {contents : List Bytes}

theorem IsUnitOf.some (isUnit : IsUnitOf platform codecs call settled contents) :
    contents ≠ [] := by
  rintro rfl
  have sizes := isUnit.sizes
  rw [List.map_nil, UnitPlan.sizes, List.append_eq_nil_iff, List.map_eq_nil_iff] at sizes
  have images := isUnit.images
  rw [sizes.1] at images
  exact isUnit.nonempty images.symm

theorem IsUnitOf.locations (isUnit : IsUnitOf platform codecs call settled contents) :
    settled.plan.locations = (stacked call.options.attachmentAlignment settled.attachmentOffset
      (contents.map List.length)).map placeOf :=
  isUnit.sizes ▸ isUnit.agrees.stacked.locations

theorem IsUnitOf.before (isUnit : IsUnitOf platform codecs call settled contents) :
    settled.front.length ≤ settled.attachmentOffset := by
  rw [isUnit.agrees.offset, length_front]
  exact Library.le_roundUp

theorem IsUnitOf.length (isUnit : IsUnitOf platform codecs call settled contents) :
    (unitBytes call.options settled contents).length = settled.plan.fileSize := by
  rw [unitBytes, List.length_append, Library.length_laid isUnit.some isUnit.before,
    isUnit.agrees.stacked.fileSize, isUnit.sizes]

/-- A unit is laid out as its header says. -/
theorem IsUnitOf.laidOut (isUnit : IsUnitOf platform codecs call settled contents) :
    LaidOut call.options settled contents (unitBytes call.options settled contents) := by
  have positive : 0 < call.options.attachmentAlignment :=
      Nat.lt_of_lt_of_le (by decide) isUnit.alignment
  have locations := isUnit.locations
  constructor
  · have fits : headerLength settled.header = settled.header.length :=
      Nat.mod_eq_of_lt (Nat.lt_succ_of_le isUnit.header)
    rw [unitBytes, SettledUnit.front, List.append_assoc, List.take_left' (by simp [preamble]; rfl),
      preamble, fits]
    rfl
  · rw [unitBytes, SettledUnit.front, List.append_assoc, slice,
      List.drop_left' (by simp [preamble]; rfl)]
    exact List.take_left' rfl
  · exact isUnit.length
  · rw [locations, ← isUnit.agrees.offset]
    obtain ⟨content, rest, rfl⟩ := List.exists_cons_of_ne_nil isUnit.some
    rfl
  · intro location member
    rw [locations] at member
    obtain ⟨range, there, rfl⟩ := List.mem_map.mp member
    refine Library.dvd_stacked positive ?_ range there
    rw [isUnit.agrees.offset]
    exact Library.dvd_roundUp positive
  · have ranges : (settled.plan.locations.map fun location => (location.offset, location.size)) =
        stacked call.options.attachmentAlignment settled.attachmentOffset
          (contents.map List.length) := by
      rw [locations, List.map_map]
      exact List.map_id _
    rw [ranges]
    exact Library.stacked_isChain positive
  · rw [locations, List.map_map]
    exact Library.stacked_sizes _ _ _
  · intro location member
    rw [locations] at member
    obtain ⟨range, -, rfl⟩ := List.mem_map.mp member
    rfl
  · intro placed member
    rw [locations, List.zip_map_left] at member
    obtain ⟨⟨range, content⟩, there, rfl⟩ := List.mem_map.mp member
    exact Library.slice_laid isUnit.before (range, content) there
  · intro i after inside outside
    refine Library.getElem?_laid isUnit.before (length_front settled ▸ after) inside ?_
    intro range member
    exact outside (placeOf range) (locations ▸ List.mem_map_of_mem member)

end

end Mmxisf.Writer
