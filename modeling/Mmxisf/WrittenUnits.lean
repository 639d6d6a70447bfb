/-
# WrittenUnits -- the file of a unit opens to its listing

The bytes that a writer publishes are the preamble, a header that describes every
block, and the blocks with zeros between them.  A reader of these bytes finds the
length of the header, reads the header to the document that lists the unit, and finds
nothing but zeros where no block is, unless one of its limits stops it.  Limits that let
in each thing the unit has do not (`openFile_suffices`), and so limits with room enough do
not (`openFile_written`).
-/
import Mathlib.Algebra.Order.BigOperators.Group.List
import Mmxisf.Reader.Opening
import Mmxisf.Reader.WholeReads
import Mmxisf.UnitDocument

namespace Mmxisf

set_option autoImplicit false

open Library (slice stacked stackEnd)
open Writer (ImageWriteView MetadataWriteEntry PlannedBlock PreparedBlock WriterOptions UnitPlan
  WriteCall Codecs SettledUnit Payload StoredAs IsUnitOf unitBytes)
open Reader (ReaderOptions Passes Suffices Tighter AttachedRange)

/-! ## What can be stored -/

theorem checkedMultiply_small {left right product : Nat}
    (fits : checkedMultiply left right = some product) : product ≤ u64Max := by
  obtain ⟨rfl, zero | small⟩ := checkedMultiply_eq_some.mp fits
  · rw [zero, Nat.zero_mul]
    exact Nat.zero_le _
  · exact small

/-- A sample of a format that can be written has a size. -/
theorem sampleFormat_size {format : SampleFormat}
    (known : (Writer.sampleFormatDescription format).1 ≠ []) :
    (Writer.sampleFormatDescription format).2 ≠ 0 ∧
      (Writer.sampleFormatDescription format).2 ≤ u64Max := by
  cases format <;> first | exact absurd rfl known | exact ⟨by decide, by decide⟩

theorem propertyLayout_size {type : Text} {layout : PropertyElementLayout}
    (known : propertyElementLayout type = some layout) :
    layout.elementSize ≠ 0 ∧ layout.elementSize ≤ u64Max := by
  unfold propertyElementLayout at known
  repeat' split at known
  all_goals cases known
  all_goals exact ⟨by decide, by decide⟩

/-- A compressed payload has chunks. -/
theorem chunkLimit_pos {codec : CompressionCodec} {subblockBytes : Nat} (some : subblockBytes ≠ 0) :
    0 < Writer.chunkLimit codec subblockBytes := by
  cases codec <;> simp only [Writer.chunkLimit, Writer.kLz4MaxInputSize, u64Max] <;> omega

section

variable {options : WriterOptions} {imageCount : Nat}

/-- The three products of an image. -/
theorem AcceptedImage.product {image : ImageWriteView} (accepted : AcceptedImage image) :
    image.pixels.length = image.width * image.height * image.channels *
      (Writer.sampleFormatDescription image.sampleFormat).2 ∧ image.pixels.length ≤ u64Max := by
  have product := accepted.pixels
  simp only [Writer.pixelBytes, Option.bind_eq_bind, Option.bind_eq_some_iff] at product
  obtain ⟨pixels, area, samples, planes, bytes⟩ := product
  obtain ⟨rfl, -⟩ := checkedMultiply_eq_some.mp area
  obtain ⟨rfl, -⟩ := checkedMultiply_eq_some.mp planes
  exact ⟨(checkedMultiply_eq_some.mp bytes).1, checkedMultiply_small bytes⟩

theorem AcceptedImage.pixels_ne_nil {image : ImageWriteView} (accepted : AcceptedImage image) :
    image.pixels ≠ [] := by
  intro none
  have length := accepted.product.1
  have zero : image.pixels.length = 0 := List.length_eq_zero_iff.mpr none
  obtain ⟨-, -, -, channels⟩ := accepted.axes
  rw [zero, eq_comm, Nat.mul_eq_zero, Nat.mul_eq_zero, Nat.mul_eq_zero] at length
  rcases length with ((width | height) | noChannels) | size
  · exact accepted.width width
  · exact accepted.height height
  · exact channels noChannels
  · exact (sampleFormat_size accepted.format).1 size

theorem AcceptedImage.storable {image : ImageWriteView} (accepted : AcceptedImage image)
    (chunks : options.compressionSubblockBytes ≠ 0) :
    Storable options (Writer.imagePayload image) :=
  ⟨accepted.product.2, fun _ => sampleFormat_size accepted.format,
    fun _ => ⟨accepted.pixels_ne_nil, chunkLimit_pos chunks⟩⟩

variable {entry : MetadataWriteEntry} {layout : PropertyElementLayout} {count : Nat}

/-- A block without bytes is that of an empty vector or matrix. -/
theorem BlockChecked.bytes_ne_nil (checked : BlockChecked entry layout count)
    (hasBlock : Writer.hasBlock entry = true) : entry.blockBytes ≠ [] := by
  intro none
  simp only [Writer.hasBlock, Bool.and_eq_true, decide_eq_true_eq, Bool.not_eq_true'] at hasBlock
  obtain ⟨form, some⟩ := hasBlock
  have counted := checked.counted
  obtain ⟨bytes, -⟩ := checkedMultiply_eq_some.mp checked.bytes
  have noBytes : entry.blockBytes.length = 0 := List.length_eq_zero_iff.mpr none
  rw [noBytes, eq_comm, Nat.mul_eq_zero] at bytes
  have zero : count = 0 := bytes.resolve_right (propertyLayout_size checked.known).1
  rw [zero] at counted
  unfold Writer.isEmptyPropertyContainer at some
  unfold Writer.elementCount at counted
  rw [if_neg (by rw [not_or, not_not, not_not]; exact ⟨form, none⟩)] at some
  cases category : classifyPropertyType entry.type with
  | vector =>
      simp only [category, bind_eq_ok, reject_eq_ok, not_or, pure, Except.pure,
        Except.ok.injEq] at counted some
      obtain ⟨_, ⟨length, -⟩, isZero⟩ := counted
      cases declared : entry.length with
      | none => exact length (by rw [declared]; rfl)
      | some n =>
          rw [declared] at isZero some
          simp at isZero some
          exact some isZero
  | matrix =>
      simp only [category, bind_eq_ok, reject_eq_ok, orFail_eq_ok, not_or] at counted some
      obtain ⟨_, ⟨-, rows, columns⟩, product⟩ := counted
      obtain ⟨isProduct, -⟩ := checkedMultiply_eq_some.mp product
      cases declaredRows : entry.rows with
      | none => exact rows (by rw [declaredRows]; rfl)
      | some n =>
          cases declaredColumns : entry.columns with
          | none => exact columns (by rw [declaredColumns]; rfl)
          | some m =>
              rw [declaredRows, declaredColumns] at some isProduct
              simp at some isProduct
              omega
  | _ => simp only [category] at counted; cases counted

theorem BlockChecked.storable (checked : BlockChecked entry layout count)
    (hasBlock : Writer.hasBlock entry = true) (chunks : options.compressionSubblockBytes ≠ 0) :
    Storable options (Writer.propertyPayload entry) := by
  have itemSize : (Writer.propertyPayload entry).itemSize = layout.elementSize := by
    unfold Writer.propertyPayload
    rw [checked.known]
    rfl
  refine ⟨checkedMultiply_small checked.bytes, fun _ => ?_, fun _ =>
    ⟨checked.bytes_ne_nil hasBlock, chunkLimit_pos chunks⟩⟩
  rw [itemSize]
  exact propertyLayout_size checked.known

end

/-- Something is stored of what is not empty. -/
theorem stored_ne_nil {platform : Platform} {codecs : Codecs} {options : WriterOptions}
    {payload : Payload} {block : PreparedBlock} {content : Bytes}
    (stored : StoredAs platform codecs options payload block content) (some : payload.bytes ≠ []) :
    content ≠ [] := by
  by_cases plain : payload.compression = .none
  · rw [(stored.plain plain).1]
    exact some
  · obtain ⟨chunks, encoded, rfl, -⟩ := stored.coded plain
    cases encoded with
    | done all => exact absurd (List.length_eq_zero_iff.mp (Nat.le_zero.mp all)) some
    | chunk more made output later =>
        rw [List.map_cons, List.flatten_cons]
        exact List.append_ne_nil_of_left_ne_nil (codecs.nonempty output) _

/-! ## Unused space -/

section

variable {ω : Type} {need : ReaderOptions} {settings : ω → ReaderOptions} {file : Bytes}
  {headerEnd : Nat}

/-- The bytes behind the header that are in no range. -/
def unusedBytes (fileSize headerEnd : Nat) (ranges : List AttachedRange) : Nat :=
  fileSize - headerEnd - (ranges.map (·.size)).sum

/-- Zeros are zeros. -/
theorem slice_zeros {offset size : Nat} (inside : offset + size ≤ file.length)
    (zero : ∀ i, offset ≤ i → i < offset + size → file[i]? = some 0) :
    (slice file offset size).all (· = 0) = true := by
  rw [List.all_eq_true]
  intro c member
  obtain ⟨i, small, rfl⟩ := List.getElem_of_mem member
  rw [Library.length_slice inside] at small
  have there := zero (offset + i) (by omega) (by omega)
  have same : (slice file offset size)[i]? = some 0 := by
    rw [Library.getElem?_slice, if_pos small]
    exact there
  rw [List.getElem?_eq_some_iff] at same
  obtain ⟨_, isZero⟩ := same
  rw [decide_eq_true_eq]
  exact isZero

/-- A gap of zeros is only too long. -/
theorem gapOf_suffices {validated offset size : Nat} (inside : offset + size ≤ file.length)
    (zero : ∀ i, offset ≤ i → i < offset + size → file[i]? = some 0)
    (room : validated + size ≤ need.maxUnusedSpaceBytes) :
    Suffices need settings (fun o => Reader.gapOf (settings o) file validated offset size)
      fun _ => validated + size := by
  refine .andThen (suffices_limit fun o there => ?_) (.andThen (suffices_check ?_) suffices_ok)
  · have more := there.maxUnusedSpaceBytes
    omega
  · rw [slice_zeros inside zero]
    exact Bool.noConfusion

/-- Ranges that were checked start at the cursor or after it. -/
theorem checkRanges_after {fileSize : Nat} (small : fileSize ≤ u64Max) :
    ∀ {ranges : List AttachedRange} {cursor : Nat},
      Reader.checkRanges headerEnd fileSize cursor ranges = .ok () →
        ∀ range ∈ ranges, cursor ≤ range.offset
  | [], _, _, _, member => nomatch member
  | first :: rest, cursor, checked, range, member => by
      simp only [Reader.checkRanges, bind_eq_ok, reject_eq_ok, not_or, Nat.not_lt] at checked
      obtain ⟨_, ⟨-, -, early, fits⟩, _, follows, later⟩ := checked
      rw [wrapAdd_eq (by omega)] at later
      rcases List.mem_cons.mp member with rfl | after
      · exact follows
      · have beyond := checkRanges_after small later range after
        omega

theorem gapsOf_suffices (small : file.length ≤ u64Max) :
    ∀ {ranges : List AttachedRange} {cursor validated : Nat},
      Reader.checkRanges headerEnd file.length cursor ranges = .ok () → cursor ≤ file.length →
        Reader.ZeroOutside file ranges cursor file.length → ∃ cursor' validated',
          (validated' ≤ need.maxUnusedSpaceBytes →
            Suffices need settings
              (fun o => Reader.gapsOf (settings o) file cursor validated ranges)
              fun _ => (cursor', validated')) ∧
            cursor' ≤ file.length ∧ Reader.ZeroOutside file [] cursor' file.length ∧
            validated ≤ validated' ∧
            validated' + (ranges.map (·.size)).sum + cursor = validated + cursor'
  | [], cursor, validated, _, inside, zero =>
      ⟨cursor, validated, fun _ => suffices_ok, inside, zero, le_rfl, rfl⟩
  | range :: rest, cursor, validated, checked, inside, zero => by
      have after := checkRanges_after small checked
      simp only [Reader.checkRanges, bind_eq_ok, reject_eq_ok, not_or, Nat.not_lt] at checked
      obtain ⟨_, ⟨-, -, early, fits⟩, _, follows, later⟩ := checked
      have within : range.offset + range.size ≤ file.length := by omega
      rw [wrapAdd_eq (by omega)] at later
      have beyond := checkRanges_after small later
      have outside : Reader.ZeroOutside file rest (range.offset + range.size) file.length := by
        intro i above below apart
        refine zero i (by omega) below (List.forall_mem_cons.mpr ⟨fun inRange => ?_, apart⟩)
        have high := inRange.2
        omega
      have before : ∀ i, cursor ≤ i → i < range.offset → file[i]? = some 0 := by
        intro i above below
        refine zero i above (by omega) fun other member inOther => ?_
        have low := inOther.1
        rcases List.mem_cons.mp member with rfl | following
        · omega
        · have start := beyond other following
          omega
      obtain ⟨cursor', validated', passes, last, zeroLast, grows, total⟩ :=
        @gapsOf_suffices small rest _ (validated + (range.offset - cursor)) later within outside
      refine ⟨cursor', validated', fun room => ?_, last, zeroLast, by omega, ?_⟩
      · unfold Reader.gapsOf
        rw [wrapAdd_eq (by omega)]
        by_cases gap : range.offset > cursor
        · exact .andThen (.ifTrue gap (gapOf_suffices (by omega)
            (fun i above below => before i above (by omega)) (by omega))) (passes room)
        · have none : validated + (range.offset - cursor) = validated := by omega
          rw [none] at passes
          exact .andThen (.ifFalse gap suffices_ok) (passes room)
      · rw [List.map_cons, List.sum_cons]
        have start := after range List.mem_cons_self
        omega

/-- Zeros outside the ranges are only too many. -/
theorem unusedOf_suffices (small : file.length ≤ u64Max) {ranges : List AttachedRange}
    (inside : headerEnd ≤ file.length)
    (checked : Reader.checkRanges headerEnd file.length headerEnd ranges = .ok ())
    (zero : Reader.ZeroOutside file ranges headerEnd file.length)
    (room : unusedBytes file.length headerEnd ranges ≤ need.maxUnusedSpaceBytes) :
    Suffices need settings (fun o => Reader.unusedOf (settings o) file headerEnd ranges)
      fun _ => () := by
  obtain ⟨cursor, validated, passes, below, rest, -, total⟩ :=
    @gapsOf_suffices _ need settings file headerEnd small ranges headerEnd 0 checked inside zero
  unfold unusedBytes at room
  refine .andThen (passes (by omega)) ?_
  dsimp only
  by_cases more : cursor < file.length
  · refine .ifTrue more (.andThen (gapOf_suffices (by omega) (fun i above early => ?_) (by omega))
      suffices_ok)
    exact rest i above (by omega) fun _ member => absurd member List.not_mem_nil
  · exact .ifFalse more suffices_ok

/-- What passes has no more bytes in gaps than the limit. -/
theorem gapsOf_room {options : ReaderOptions} (small : file.length ≤ u64Max) :
    ∀ {ranges : List AttachedRange} {cursor validated cursor' validated' : Nat},
      Reader.checkRanges headerEnd file.length cursor ranges = .ok () → cursor ≤ file.length →
        validated ≤ options.maxUnusedSpaceBytes →
        Reader.gapsOf options file cursor validated ranges = .ok (cursor', validated') →
          validated' ≤ options.maxUnusedSpaceBytes ∧ cursor' ≤ file.length ∧
            validated' + (ranges.map (·.size)).sum + cursor = validated + cursor'
  | [], cursor, validated, cursor', validated', _, inside, room, run => by
      rw [Reader.gapsOf, Except.ok.injEq, Prod.mk.injEq] at run
      obtain ⟨rfl, rfl⟩ := run
      exact ⟨room, inside, rfl⟩
  | range :: rest, cursor, validated, cursor', validated', checked, inside, room, run => by
      have start := checkRanges_after small checked range List.mem_cons_self
      simp only [Reader.checkRanges, bind_eq_ok, reject_eq_ok, not_or, Nat.not_lt] at checked
      obtain ⟨_, ⟨-, -, early, fits⟩, _, -, later⟩ := checked
      rw [wrapAdd_eq (by omega)] at later
      rw [Reader.gapsOf, wrapAdd_eq (by omega), bind_eq_ok] at run
      obtain ⟨middle, gap, run⟩ := run
      have grown : middle = validated + (range.offset - cursor) ∧
          middle ≤ options.maxUnusedSpaceBytes := by
        obtain ⟨-, gap⟩ | ⟨none, gap⟩ := ite_eq_ok gap
        · simp only [Reader.gapOf, bind_eq_ok, reject_eq_ok] at gap
          obtain ⟨-, size, -, -, same⟩ := gap
          cases same
          exact ⟨rfl, by omega⟩
        · cases gap
          exact ⟨by omega, room⟩
      obtain ⟨within, last, total⟩ := gapsOf_room small later (by omega) grown.2 run
      refine ⟨within, last, ?_⟩
      rw [List.map_cons, List.sum_cons]
      omega

theorem unusedOf_room {options : ReaderOptions} (small : file.length ≤ u64Max)
    {ranges : List AttachedRange} (inside : headerEnd ≤ file.length)
    (checked : Reader.checkRanges headerEnd file.length headerEnd ranges = .ok ())
    (run : Reader.unusedOf options file headerEnd ranges = .ok ()) :
    unusedBytes file.length headerEnd ranges ≤ options.maxUnusedSpaceBytes := by
  rw [Reader.unusedOf, bind_eq_ok] at run
  obtain ⟨⟨cursor, validated⟩, gaps, run⟩ := run
  obtain ⟨within, last, total⟩ := gapsOf_room small checked inside (Nat.zero_le _) gaps
  unfold unusedBytes
  obtain ⟨more, run⟩ | ⟨none, -⟩ := ite_eq_ok run
  · simp only [Reader.gapOf, bind_eq_ok, reject_eq_ok] at run
    obtain ⟨-, ⟨-, size, -⟩, -⟩ := run
    omega
  · omega

end

/-! ## The header of a unit -/

section

variable {platform : Platform} {codecs : Codecs} {call : WriteCall} {settled : SettledUnit}
  {contents : List Bytes}

theorem Writer.IsUnitOf.accepted (isUnit : IsUnitOf platform codecs call settled contents) :
    AcceptedUnit call.options (settled.plan.images.map Prod.fst)
      (settled.plan.metadata.map Prod.fst) := by
  obtain ⟨total, run⟩ := isUnit.checked
  rw [isUnit.images, isUnit.metadata]
  exact acceptedUnit_of_run run

theorem Writer.IsUnitOf.tidyBlock (isUnit : IsUnitOf platform codecs call settled contents)
    {block : Payload × PreparedBlock} (member : block ∈ settled.plan.blocks) :
    TidyBlock block.2 := by
  have stored := isUnit.stored
  rw [List.forall₂_iff_zip] at stored
  obtain ⟨count, each⟩ := stored
  rw [← List.map_fst_zip (Nat.le_of_eq count), List.mem_map] at member
  obtain ⟨⟨block, content⟩, both, rfl⟩ := member
  exact tidyBlock_of_stored (each both)

/-- The header of a unit is made of tags and escaped texts. -/
theorem Writer.IsUnitOf.renders (isUnit : IsUnitOf platform codecs call settled contents)
    (printed : PrintsTidy platform) :
    Renders settled.header (unitEvents platform call.options settled.plan) := by
  refine header_renders printed ⟨isUnit.accepted, fun item member => ?_,
    fun item member hasBlock => ?_⟩ isUnit.agrees.header
  · exact @IsUnitOf.tidyBlock _ _ _ _ _ isUnit (Writer.imagePayload item.1, item.2.prepared)
      (List.mem_append_left _ (List.mem_map.mpr ⟨item, member, rfl⟩))
  · exact @IsUnitOf.tidyBlock _ _ _ _ _ isUnit (Writer.propertyPayload item.1, item.2.prepared)
      (List.mem_append_right _
        (List.mem_map.mpr ⟨item, List.mem_filter.mpr ⟨member, hasBlock⟩, rfl⟩))

end

/-! ## The unit -/

/-- A unit that a writer has made of a call, and libraries that do what they document:
decompression undoes compression, numbers are read back, and a parser reports the
events that the header renders. -/
structure WrittenUnit where
  platform : Platform
  codecs : Codecs
  call : WriteCall
  settled : SettledUnit
  contents : List Bytes
  isUnit : IsUnitOf platform codecs call settled contents
  extents : ∀ entry ∈ call.metadata, ExtentsFit entry
  laws : CodecLaws platform codecs
  numbers : NumberLaws platform
  parsed : Renders settled.header (unitEvents platform call.options settled.plan) →
    Reported platform settled.header (unitEvents platform call.options settled.plan)

/-- Libraries that do what they document, a parser for the headers of these calls. -/
structure LawfulLibraries {ι : Type} (platform : Platform) (codecs : Codecs)
    (calls : ι → WriteCall) where
  laws : CodecLaws platform codecs
  numbers : NumberLaws platform
  parsed : ∀ {i : ι} {settled : SettledUnit} {contents : List Bytes},
    IsUnitOf platform codecs (calls i) settled contents →
    Renders settled.header (unitEvents platform (calls i).options settled.plan) →
    Reported platform settled.header (unitEvents platform (calls i).options settled.plan)

/-- With such libraries, what a writer has made of one of the calls. -/
def LawfulLibraries.unit {ι : Type} {platform : Platform} {codecs : Codecs} {calls : ι → WriteCall}
    {i : ι} {settled : SettledUnit} {contents : List Bytes}
    (lawful : LawfulLibraries platform codecs calls)
    (isUnit : IsUnitOf platform codecs (calls i) settled contents)
    (extents : ∀ entry ∈ (calls i).metadata, ExtentsFit entry) : WrittenUnit where
  platform := platform
  codecs := codecs
  call := calls i
  settled := settled
  contents := contents
  isUnit := isUnit
  extents := extents
  laws := lawful.laws
  numbers := lawful.numbers
  parsed := lawful.parsed isUnit

namespace WrittenUnit

variable (unit : WrittenUnit)

/-- The bytes that are published. -/
def bytes : Bytes := unitBytes unit.call.options unit.settled unit.contents

/-- A block is in the file where its description says, and stores a payload. -/
structure Holds (payload : Payload) (block : PlannedBlock) (content : Bytes) : Prop where
  stored : StoredAs unit.platform unit.codecs unit.call.options payload block.prepared content
  placed : block.location = Writer.placeOf (block.location.offset, block.location.size)
  there : slice unit.bytes block.location.offset block.location.size = content
  size : block.location.size = content.length
  inside : block.location.offset + block.location.size ≤ unit.settled.plan.fileSize

variable {unit}

theorem fileSize_small : unit.settled.plan.fileSize ≤ u64Max := unit.isUnit.agrees.stacked.small

theorem length_bytes : unit.bytes.length = unit.settled.plan.fileSize := unit.isUnit.length

theorem accepted : AcceptedUnit unit.call.options (unit.settled.plan.images.map Prod.fst)
    (unit.settled.plan.metadata.map Prod.fst) := unit.isUnit.accepted

/-! ## The blocks -/

/-- The attached blocks with what they store, in the order of the file. -/
def attached (plan : UnitPlan) : List (Payload × PlannedBlock) :=
  plan.images.map (fun item => (Writer.imagePayload item.1, item.2)) ++
    (plan.metadata.filter fun entry => Writer.hasBlock entry.1).map fun item =>
      (Writer.propertyPayload item.1, item.2)

theorem blocks_attached (plan : UnitPlan) :
    plan.blocks = (attached plan).map fun item => (item.1, item.2.prepared) := by
  rw [UnitPlan.blocks, attached, List.map_append, List.map_map, List.map_map]
  rfl

theorem locations_attached (plan : UnitPlan) :
    plan.locations = (attached plan).map fun item => item.2.location := by
  rw [UnitPlan.locations, attached, List.map_append, List.map_map, List.map_map]
  rfl

theorem holds_attached {item : Payload × PlannedBlock}
    (member : item ∈ attached unit.settled.plan) :
    ∃ content, unit.Holds item.1 item.2 content := by
  have stored := unit.isUnit.stored
  rw [blocks_attached, List.forall₂_map_left_iff, List.forall₂_iff_zip] at stored
  obtain ⟨count, each⟩ := stored
  rw [← List.map_fst_zip (Nat.le_of_eq count), List.mem_map] at member
  obtain ⟨⟨item, content⟩, both, rfl⟩ := member
  have there : (item.2.location, content) ∈ unit.settled.plan.locations.zip unit.contents := by
    rw [locations_attached, List.zip_map_left]
    exact List.mem_map.mpr ⟨(item, content), both, rfl⟩
  have own := (List.of_mem_zip there).1
  have laid := unit.isUnit.laidOut.blocks _ there
  have places := unit.isUnit.locations
  rw [places] at own
  obtain ⟨range, stackedRange, isPlace⟩ := List.mem_map.mp own
  have within := (Library.stacked_within range stackedRange).2
  have inside : range.1 + range.2 ≤ unit.settled.plan.fileSize := by
    rw [unit.isUnit.agrees.stacked.fileSize, unit.isUnit.sizes]
    exact within
  have isLocation : item.2.location = Writer.placeOf range := isPlace.symm
  have small : item.2.location.offset + item.2.location.size ≤ unit.settled.plan.fileSize := by
    rw [isLocation]
    exact inside
  refine ⟨content, each both, ?_, laid, ?_, small⟩
  · rw [isLocation]
    rfl
  · have length := congrArg List.length laid
    rw [Library.length_slice (by rw [unit.isUnit.length]; exact small)] at length
    exact length

theorem holds_image {item : ImageWriteView × PlannedBlock}
    (member : item ∈ unit.settled.plan.images) :
    ∃ content, unit.Holds (Writer.imagePayload item.1) item.2 content :=
  @holds_attached unit (Writer.imagePayload item.1, item.2)
    (List.mem_append_left _ (List.mem_map_of_mem (f := fun item : ImageWriteView × PlannedBlock =>
      (Writer.imagePayload item.1, item.2)) member))

theorem holds_entry {item : MetadataWriteEntry × PlannedBlock}
    (member : item ∈ unit.settled.plan.metadata) (hasBlock : Writer.hasBlock item.1 = true) :
    ∃ content, unit.Holds (Writer.propertyPayload item.1) item.2 content :=
  @holds_attached unit (Writer.propertyPayload item.1, item.2)
    (List.mem_append_right _ (List.mem_map_of_mem
      (f := fun item : MetadataWriteEntry × PlannedBlock => (Writer.propertyPayload item.1, item.2))
      (List.mem_filter.mpr ⟨member, hasBlock⟩)))

theorem Holds.placedBlock {payload : Payload} {block : PlannedBlock} {content : Bytes}
    (holds : unit.Holds payload block content) : PlacedBlock block := by
  have inside := holds.inside
  have small := @fileSize_small unit
  refine ⟨holds.placed, ?_, ?_⟩
  · omega
  · omega

/-! ## The header -/

theorem unitReady : UnitReady unit.call.options unit.settled.plan := by
  refine ⟨accepted, fun item member => ?_, fun item member => ?_⟩
  · obtain ⟨content, holds⟩ := holds_image member
    have own := List.mem_map_of_mem (f := Prod.fst) member
    exact ⟨accepted.image _ own, accepted.imageId _ own, tidyBlock_of_stored holds.stored,
      holds.placedBlock⟩
  · have own := List.mem_map_of_mem (f := Prod.fst) member
    have entry := accepted.entry _ own
    rw [List.length_map] at entry
    rw [unit.isUnit.metadata] at own
    refine ⟨entry, unit.extents _ own, fun hasBlock => ?_, fun hasBlock => ?_⟩
    · obtain ⟨content, holds⟩ := holds_entry member hasBlock
      exact tidyBlock_of_stored holds.stored
    · obtain ⟨content, holds⟩ := holds_entry member hasBlock
      exact holds.placedBlock

theorem reported : Reported unit.platform unit.settled.header
    (unitEvents unit.platform unit.call.options unit.settled.plan) :=
  unit.parsed (unit.isUnit.renders unit.numbers.tidy)

theorem holds_filled {item : Payload × PlannedBlock} (member : item ∈ attached unit.settled.plan) :
    item.1.bytes ≠ [] := by
  unfold attached at member
  rw [List.mem_append] at member
  rcases member with image | entry
  · obtain ⟨own, there, rfl⟩ := List.mem_map.mp image
    exact ((unitReady.images own there).accepted).pixels_ne_nil
  · obtain ⟨own, there, rfl⟩ := List.mem_map.mp entry
    obtain ⟨there, hasBlock⟩ := List.mem_filter.mp there
    have form : own.1.valueForm = .dataBlock := by
      simp only [Writer.hasBlock, Bool.and_eq_true, decide_eq_true_eq] at hasBlock
      exact hasBlock.1
    obtain ⟨layout, count, checked⟩ := (unitReady.entries own there).accepted.block form
    exact checked.bytes_ne_nil hasBlock

/-- The blocks are one after another behind the header, and none is empty. -/
theorem payloadFits : PayloadFits unit.settled.plan unit.settled.header.length := by
  have places := unit.isUnit.locations
  refine ⟨fileSize_small, unit.call.options.attachmentAlignment, unit.settled.attachmentOffset,
    unit.contents.map List.length, ?_, ?_, ?_, ?_⟩
  · rw [fileRanges, places, List.map_map]
    rfl
  · intro size member
    obtain ⟨content, there, rfl⟩ := List.mem_map.mp member
    have stored := unit.isUnit.stored
    rw [blocks_attached, List.forall₂_map_left_iff, List.forall₂_iff_zip] at stored
    obtain ⟨count, each⟩ := stored
    rw [← List.map_snd_zip (Nat.le_of_eq count.symm), List.mem_map] at there
    obtain ⟨⟨item, content⟩, both, rfl⟩ := there
    have own := holds_filled (List.of_mem_zip both).1
    exact fun none => stored_ne_nil (each both) own (List.length_eq_zero_iff.mp none)
  · rw [unit.isUnit.agrees.offset]
    exact Library.le_roundUp
  · rw [unit.isUnit.agrees.stacked.fileSize, unit.isUnit.sizes]

/-! ## The file -/

variable {ω : Type} {need : ReaderOptions} {settings : ω → ReaderOptions}

/-- Four bytes, the lowest first, are the length again. -/
theorem readLeU32_bytes {length : Nat} (small : length ≤ Writer.kMaxHeaderLength) (rest : Bytes) :
    Reader.readLeU32 ((List.range 4).map (fun i => UInt8.ofNat (length / 256 ^ i)) ++ rest) =
      length := by
  have bytes : (List.range 4).map (fun i => UInt8.ofNat (length / 256 ^ i)) =
      [UInt8.ofNat (length / 256 ^ 0), UInt8.ofNat (length / 256 ^ 1),
        UInt8.ofNat (length / 256 ^ 2),
        UInt8.ofNat (length / 256 ^ 3)] := rfl
  rw [bytes]
  unfold Reader.readLeU32
  unfold Writer.kMaxHeaderLength at small
  simp only [List.cons_append, List.getD_cons_zero, List.getD_cons_succ, UInt8.toNat_ofNat']
  omega

theorem front_le : 16 + unit.settled.header.length ≤ unit.bytes.length := by
  have front := Writer.length_front unit.settled
  unfold WrittenUnit.bytes unitBytes
  rw [List.length_append, front]
  exact Nat.le_add_right _ _

theorem header_ne_nil : unit.settled.header ≠ [] := by
  intro none
  have starts := header_starts unit.isUnit.agrees.header
  rw [none] at starts
  cases starts

theorem checkPreamble_suffices (enough : unit.settled.header.length ≤ need.maxHeaderBytes) :
    Suffices need settings (fun o => Reader.checkPreamble (settings o) unit.bytes.length
      (slice unit.bytes 0 16)) fun _ => unit.settled.header.length := by
  have front := @front_le unit
  have preamble : slice unit.bytes 0 16 = _ := unit.isUnit.laidOut.preamble
  have some := List.length_pos_iff.mpr (@header_ne_nil unit)
  have small := unit.isUnit.header
  have length := readLeU32_bytes small (List.replicate 4 0)
  rw [preamble]
  generalize hBytes : (List.range 4).map (fun i =>
    UInt8.ofNat (unit.settled.header.length / 256 ^ i)) = bytes at length
  have four : bytes.length = 4 := by
    rw [← hBytes]
    rfl
  obtain ⟨a, b, c, d, rfl⟩ : ∃ a b c d, bytes = [a, b, c, d] := List.length_eq_four.mp four
  unfold Reader.checkPreamble
  have own : Reader.readLeU32 ((lit "XISF0100" ++ [a, b, c, d] ++ List.replicate 4 0).drop 8) =
      unit.settled.header.length := length
  refine .andThen (suffices_check fun other => other rfl) ?_
  dsimp only
  rw [own]
  have limit : Suffices need settings (fun o => reject (unit.settled.header.length = 0 ∨
      unit.settled.header.length > (settings o).maxHeaderBytes) .headerTooLarge
      "XISF XML header length is outside the configured limit") fun _ => () := by
    refine .limit (fun o => ?_) fun o there => ?_
    · by_cases beyond : unit.settled.header.length = 0 ∨
          unit.settled.header.length > (settings o).maxHeaderBytes
      · rw [reject, if_pos beyond]
        exact .inr ⟨_, rfl, .inr rfl⟩
      · rw [reject, if_neg beyond]
        exact .inl rfl
    · have room := enough.trans there.maxHeaderBytes
      rw [reject, if_neg (by omega)]
  exact .andThen (suffices_check fun other => other rfl)
    (.andThen limit (.andThen (suffices_check (by omega)) suffices_ok))

/-- What the limits must let in of a file. -/
structure Fits (need : ReaderOptions) (unit : WrittenUnit) : Prop where
  length : unit.settled.header.length ≤ need.maxHeaderBytes
  header : UnitFits need unit.platform unit.call.options unit.settled.plan
  unused : unusedBytes unit.settled.plan.fileSize (16 + unit.settled.header.length)
    (fileRanges unit.settled.plan) ≤ need.maxUnusedSpaceBytes

/-- The ranges of a file are in its payload. -/
theorem ranges_checked : Reader.checkRanges (16 + unit.settled.header.length) unit.bytes.length
    (16 + unit.settled.header.length) (fileRanges unit.settled.plan) = .ok () := by
  rw [length_bytes]
  exact (@payloadFits unit).checked

/-- The bytes that are published open to the listing, where the limits let in what they have. -/
theorem openFile_suffices (enough : unit.Fits need) : Suffices need settings
    (fun o => Reader.openFile unit.platform (settings o) unit.bytes) fun _ =>
      listedHeader unit.call.options unit.settled.plan unit.settled.header.length := by
  have laidOut := unit.isUnit.laidOut
  have front := @front_le unit
  have header : slice unit.bytes 16 unit.settled.header.length = unit.settled.header :=
      laidOut.header
  have parses := @header_parses _ need settings unit.platform unit.call.options unit.settled.plan
    unit.settled.header unit.numbers unitReady payloadFits unit.isUnit.agrees.header reported
    enough.header
  have room := enough.unused
  have small := @fileSize_small unit
  rw [← @length_bytes unit] at parses room small
  have unused : Suffices need settings (fun o => Reader.unusedOf (settings o) unit.bytes
      (16 + unit.settled.header.length) (fileRanges unit.settled.plan)) fun _ => () := by
    refine unusedOf_suffices small front ranges_checked (fun i above below outside => ?_) room
    refine laidOut.zeros i above below fun location member => ?_
    have apart := outside ⟨location.offset, location.size⟩ (List.mem_map_of_mem
      (f := fun location : BlockLocation => (⟨location.offset, location.size⟩ : AttachedRange))
      member)
    unfold AttachedRange.Contains at apart
    dsimp only at apart
    omega
  unfold Reader.openFile
  refine .andThen (suffices_check (by omega)) (.andThen (checkPreamble_suffices enough.length) ?_)
  rw [header]
  exact .andThen parses (.andThen unused suffices_ok)

/-- With room enough for each thing there is enough. -/
theorem fits_roomy : ∃ bound, unit.Fits (.roomy bound) := by
  let items := unitItems unit.call.options unit.settled.plan
  let counts : List Nat := [3, 2 + unit.settled.plan.images.length + items.length,
    unit.settled.header.length, unusedBytes unit.settled.plan.fileSize
      (16 + unit.settled.header.length) (fileRanges unit.settled.plan)] ++
    unit.settled.plan.images.map (fun item => item.1.channels) ++
    unit.settled.plan.images.map
      (fun item => (imageElement unit.platform item).attributes.length) ++
    items.map (fun item => (entryElement item).attributes.length) ++
    items.map (fun item => (listedValue item.1).length)
  have large {count : Nat} (member : count ∈ counts) : count ≤ counts.sum :=
    List.le_sum_of_mem member
  have depth : 3 ≤ counts.sum := large (by simp [counts])
  have nodes : 2 + unit.settled.plan.images.length + items.length ≤ counts.sum :=
    large (by simp [counts])
  refine ⟨counts.sum, large (by simp [counts]), ?_, large (by simp [counts])⟩
  exact {
    depth := depth
    nodes := nodes
    rootAttributes := show 1 ≤ counts.sum by omega
    imageAttributes := fun item member => large (by
      simp only [counts, List.mem_append, List.mem_map]
      exact .inl (.inl (.inr ⟨item, member, rfl⟩)))
    entryAttributes := fun item member => large (by
      simp only [counts, List.mem_append, List.mem_map]
      exact .inl (.inr ⟨item, member, rfl⟩))
    images := show _ ≤ counts.sum by omega
    dimensions := show 2 ≤ counts.sum by omega
    channels := fun item member => large (by
      simp only [counts, List.mem_append, List.mem_map]
      exact .inl (.inl (.inl (.inr ⟨item, member, rfl⟩))))
    entries := show items.length ≤ counts.sum by omega
    values := fun item member => large (by
      simp only [counts, List.mem_append, List.mem_map]
      exact .inr ⟨item, member, rfl⟩) }

theorem openFile_written : Passes settings
    (fun o => Reader.openFile unit.platform (settings o) unit.bytes) fun _ =>
      listedHeader unit.call.options unit.settled.plan unit.settled.header.length := by
  obtain ⟨bound, enough⟩ := @fits_roomy unit
  exact (openFile_suffices enough).passes fun _ => Reader.tighter_roomy

/-- A file that opens has no more bytes in gaps than the limit. -/
theorem openFile_room {options : ReaderOptions} {header : Reader.ParsedHeader}
    (run : Reader.openFile unit.platform options unit.bytes = .ok header) :
    unusedBytes unit.settled.plan.fileSize (16 + unit.settled.header.length)
      (fileRanges unit.settled.plan) ≤ options.maxUnusedSpaceBytes := by
  obtain ⟨bound, enough⟩ := @fits_roomy unit
  have same := (@openFile_suffices unit Unit _ (fun _ => options) enough).only (o := ()) run
  simp only [Reader.openFile, bind_eq_ok] at run
  obtain ⟨_, -, length, preamble, read, -, _, unused, isRead⟩ := run
  cases isRead
  have isLength := (@checkPreamble_suffices unit Unit _ (fun _ => options) enough.length).only
    (o := ()) preamble
  rw [isLength, same] at unused
  have small := @fileSize_small unit
  rw [← @length_bytes unit] at small
  have room := unusedOf_room small front_le ranges_checked unused
  rwa [length_bytes] at room

end WrittenUnit

end Mmxisf
