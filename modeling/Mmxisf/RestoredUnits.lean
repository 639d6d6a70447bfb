/-
# RestoredUnits -- what is written is what is read

A reader that opens the bytes a writer has published lists the unit (`opens`), returns
for every image the pixels that were given, in the layout and byte order that are
asked for (`image_readsBack`), and for every block Property the bytes that were given
(`block_readsBack`): for every codec, item size, digest and alignment, from a source
that answers in pieces of any size.  Nothing but a limit stops it, and where no chunk
is too large for zlib a reader's limits with room enough do not.
-/
import Mmxisf.WrittenUnits

namespace Mmxisf

set_option autoImplicit false

open Library (slice mirrored Cramped Gates Yields)
open Library.Routine (wp EndsWith)
open Writer (ImageWriteView MetadataWriteEntry PlannedBlock PreparedBlock Payload StoredAs)
open Reader (ReaderOptions Passes IsLimit Impl ImageReadPlan ImageReadOptions RawImage
  RawPropertyBlock
  ReadRoutine Environment Trace PropertyReadPlan ByteOrderOutput)

/-! ## Over the file -/

section

variable {L α ω : Type}

/-- Over a source with these bytes a read can end, every execution ends with such a
value or with the error of a limit, and with such a value where the chunks fit and the
limits leave room enough. -/
structure ReadsBack (platform : Platform) (file : Bytes) (fits : Prop)
    (settings : ω → ReaderOptions) (x : ω → ReadRoutine L α) (good : α → Prop) : Prop where
  every : ∀ o l s, wp ((Environment.stable file).world platform) (x o)
    (fun result _ _ => Yields IsLimit good result) l s
  enough : fits → ∃ bound, ∀ o, bound ≤ (settings o).room → ∀ l s,
    wp ((Environment.stable file).world platform) (x o)
      (fun result _ _ => ∃ a, result = .ok a ∧ good a) l s
  some : ∀ o l s, ∃ result m t, Library.Routine.Run ((Environment.stable file).world platform) (x o)
    l s result m t

/-- An error of a limit: a chunk does not fit, or the limits have less room than the
bound. -/
def Stopped (fits : Prop) (settings : ω → ReaderOptions) (bound : Nat) (o : ω) (e : Error) : Prop :=
  IsLimit e ∧ (fits → (settings o).room < bound)

section

variable {fits : Prop} {settings : ω → ReaderOptions} {bound : Nat} {o : ω} {e : Error}

theorem Stopped.of_cramped (cramped : Cramped IsLimit (fun o => (settings o).room) bound o e) :
    Stopped fits settings bound o e :=
  ⟨cramped.1, fun _ => cramped.2⟩

theorem Stopped.of_oversized (oversized : Oversized fits e) : Stopped fits settings bound o e :=
  ⟨oversized.1, fun fits => absurd fits oversized.2⟩

theorem Stopped.mono {bound' : Nat} (within : bound ≤ bound')
    (stopped : Stopped fits settings bound o e) :
    Stopped fits settings bound' o e :=
  ⟨stopped.1, fun fits => Nat.lt_of_lt_of_le (stopped.2 fits) within⟩

end

theorem readsBack_of_wp {platform : Platform} {file : Bytes} (small : file.length ≤ u64Max)
    {fits : Prop} {settings : ω → ReaderOptions} {x : ω → ReadRoutine L α} {good : α → Prop}
    (every : ∃ bound, ∀ o l s, wp ((Environment.stable file).world platform) (x o)
      (fun result _ _ => Yields (Stopped fits settings bound o) good result) l s) :
    ReadsBack platform file fits settings x good := by
  obtain ⟨bound, every⟩ := every
  refine ⟨fun o l s => ?_, fun fits => ⟨bound, fun o roomy l s => ?_⟩, fun o l s => ?_⟩
  · refine Library.Routine.wp_mono ?_ (every o l s)
    rintro result m t (good | ⟨e, failed, stopped⟩)
    · exact .inl good
    · exact .inr ⟨e, failed, stopped.1⟩
  · refine Library.Routine.wp_mono ?_ (every o l s)
    rintro result m t (good | ⟨e, failed, stopped⟩)
    · exact good
    · exact absurd (stopped.2 fits) (Nat.not_lt_of_le roomy)
  · obtain ⟨⟨result, m⟩, t, run⟩ :=
      Library.Program.exists_run (@Environment.stable_live platform file small) (x o l) s
    exact ⟨result, m, t, run⟩

theorem ReadsBack.mono {platform : Platform} {file : Bytes} {fits : Prop}
    {settings : ω → ReaderOptions} {x : ω → ReadRoutine L α} {good good' : α → Prop}
    (also : ∀ a, good a → good' a) (reads : ReadsBack platform file fits settings x good) :
    ReadsBack platform file fits settings x good' := by
  refine ⟨fun o l s => ?_, fun fits => ?_, reads.some⟩
  · refine Library.Routine.wp_mono ?_ (reads.every o l s)
    rintro result m t (⟨a, ended, holds⟩ | stopped)
    · exact .inl ⟨a, ended, also a holds⟩
    · exact .inr stopped
  · obtain ⟨bound, enough⟩ := reads.enough fits
    refine ⟨bound, fun o roomy l s => Library.Routine.wp_mono ?_ (enough o roomy l s)⟩
    rintro result m t ⟨a, ended, holds⟩
    exact ⟨a, ended, also a holds⟩

/-- What two results have in common can be read, with room enough. -/
theorem ReadsBack.both {platform : Platform} {file : Bytes} {x : ReaderOptions → ReadRoutine L α}
    {good good' : α → Prop} {l : L} (reads : ReadsBack platform file True (fun o => o) x good)
    (readsToo : ReadsBack platform file True (fun o => o) x good') : ∃ a, good a ∧ good' a := by
  obtain ⟨bound, enough⟩ := reads.enough trivial
  have roomy := enough (.roomy bound) (Reader.ReaderOptions.room_roomy bound).ge l []
  obtain ⟨result, m, t, run⟩ := reads.some (.roomy bound) l []
  obtain ⟨a, rfl, holds⟩ := Library.Routine.run_of_wp roomy run
  rcases Library.Routine.run_of_wp (readsToo.every (.roomy bound) l []) run with
    ⟨_, ended, also⟩ | ⟨_, failed, -⟩
  · cases ended
    exact ⟨a, holds, also⟩
  · cases failed

/-- Opening the file, and a read. -/
def openAnd (platform : Platform) (options : ReaderOptions) (read : Impl → ReadRoutine L α) :
    ReadRoutine L α := do
  let reader ← Reader.openSource platform options
  read reader

end

/-! ## What is restored -/

/-- Where a sample is, in a layout. -/
def sampleAt (image : ImageWriteView) (storage : PixelStorage) (channel pixel : Nat) : Nat :=
  match storage with
  | .planar => channel * (image.width * image.height) + pixel
  | .normal => pixel * image.channels + channel

/-- The image that was given, in the layout and the byte order that were asked for. -/
structure RestoredImage (platform : Platform) (image : ImageWriteView)
    (readOptions : ImageReadOptions) (raw : RawImage) : Prop where
  width : raw.width = image.width
  height : raw.height = image.height
  channels : raw.channels = image.channels
  sampleFormat : raw.sampleFormat = image.sampleFormat
  orientation : raw.orientation = none
  nominalChannelOrder : raw.nominalChannelOrder = Reader.nominalChannelOrderOf image.colorSpace
  lowerBound : raw.lowerBound = image.lowerBound
  upperBound : raw.upperBound = image.upperBound
  pixelStorage : raw.pixelStorage = if readOptions.pixelStorage = .normal then .normal else .planar
  byteOrder : raw.byteOrder = Reader.resolveByteOrder platform .little readOptions.byteOrder
  verified : raw.checksumVerification = if image.checksum = .none then .notDeclared else .verified
  length : raw.pixels.length = image.pixels.length
  samples : ∀ channel < image.channels, ∀ pixel < image.width * image.height,
    let size := (Writer.sampleFormatDescription image.sampleFormat).2
    let sample := slice image.pixels (sampleAt image .planar channel pixel * size) size
    slice raw.pixels (sampleAt image raw.pixelStorage channel pixel * size) size =
      if raw.byteOrder = .little then sample else sample.reverse
  same : raw.pixelStorage = .planar → raw.byteOrder = .little → raw.pixels = image.pixels

/-- A digest is declared where one was asked for. -/
theorem checksum_declared {platform : Platform} {codecs : Writer.Codecs}
    {options : Writer.WriterOptions} {payload : Payload} {block : PreparedBlock} {content : Bytes}
    (stored : StoredAs platform codecs options payload block content) :
    block.checksum ≠ [] ↔ payload.checksum ≠ .none := by
  rw [stored.checksum]
  by_cases none : payload.checksum = .none
  · simp [none]
  · rw [if_neg none]
    refine ⟨fun _ => none, fun _ empty => ?_⟩
    simp [Writer.checksumText, lit] at empty

namespace WrittenUnit

variable {unit : WrittenUnit} {options : ReaderOptions} {reader : Impl}

/-! ## Opening -/

/-- The listing of the unit. -/
def listed (unit : WrittenUnit) : Reader.ParsedHeader :=
  listedHeader unit.call.options unit.settled.plan unit.settled.header.length

/-- What a reader keeps that has opened the file. -/
structure OpenedBy (unit : WrittenUnit) (options : ReaderOptions) (reader : Impl) : Prop where
  options : reader.options = options
  contents : reader.contents = unit.listed.contents

theorem OpenedBy.document (opened : unit.OpenedBy options reader) :
    reader.document = unit.listed.document :=
  congrArg (·.document) opened.contents

theorem OpenedBy.embeddedBlocks (opened : unit.OpenedBy options reader) :
    reader.embeddedBlocks = unit.listed.embeddedBlocks :=
  congrArg (·.embeddedBlocks) opened.contents

theorem OpenedBy.inlineMetadataBlocks (opened : unit.OpenedBy options reader) :
    reader.inlineMetadataBlocks = unit.listed.inlineMetadataBlocks :=
  congrArg (·.inlineMetadataBlocks) opened.contents

theorem openImpl_options {platform : Platform} {file : Bytes} {size : Nat} {small : size ≤ u64Max}
    (run : Reader.openImpl platform options file size small = .ok reader) :
    reader.options = options := by
  simp only [Reader.openImpl, bind_eq_ok] at run
  obtain ⟨_, -, _, -, run⟩ := run
  split at run
  · simp only [bind_eq_ok] at run
    obtain ⟨_, -, run⟩ := run
    cases run
    rfl
  · cases run

theorem small_bytes : unit.bytes.length ≤ u64Max := by
  rw [length_bytes]
  exact fileSize_small

/-- Opening ends with a reader of the listing, or with the error of a limit. -/
theorem openImpl_written {stops : Error → Prop} {size : Nat} (small : size ≤ u64Max)
    (same : size = unit.bytes.length)
    (written : Library.Gates stops (Reader.openFile unit.platform options unit.bytes)
      (.ok (listedHeader unit.call.options unit.settled.plan unit.settled.header.length))) :
    Yields stops (unit.OpenedBy options)
      (Reader.openImpl unit.platform options unit.bytes size small) := by
  have contents := @Reader.openImpl_contents unit.platform unit.bytes options size small same
  cases opened : Reader.openImpl unit.platform options unit.bytes size small with
  | ok reader =>
      refine .inl ⟨reader, rfl, openImpl_options opened, ?_⟩
      rw [opened] at contents
      rcases written with same | ⟨e, failed, -⟩
      · rw [same] at contents
        exact Except.ok.inj contents
      · rw [failed] at contents
        cases contents
  | error e =>
      refine .inr ⟨e, rfl, ?_⟩
      rw [opened] at contents
      rcases written with same | ⟨e', failed, limit⟩
      · rw [same] at contents
        cases contents
      · rw [failed] at contents
        cases contents
        exact limit

/-- A read of the file opens it as its bytes open. -/
theorem openSource_opens {L : Type} {stops : Error → Prop}
    (written : Gates stops (Reader.openFile unit.platform options unit.bytes) (.ok unit.listed))
    (l : L) (s : Trace) : wp ((Environment.stable unit.bytes).world unit.platform)
      (Reader.openSource (L := L) unit.platform options)
      (fun result _ _ => Yields stops (unit.OpenedBy options) result) l s := by
  have lower : unit.bytes.length < UInt64.size := Nat.lt_succ_of_le small_bytes
  have size : (UInt64.ofNat unit.bytes.length).toNat = unit.bytes.length :=
    UInt64.toNat_ofNat_of_lt lower
  have computes := @Reader.openSource_computes L unit.platform unit.bytes options _ size
  refine Library.Routine.wp_mono ?_ (computes l s)
  rintro result m t ⟨-, ended, -⟩
  rcases ended with rfl | ⟨e, -, stopped, -⟩
  · exact openImpl_written _ size written
  · cases stopped

theorem openSource_ends {L ω : Type} (settings : ω → ReaderOptions) :
    ∃ bound, ∀ o (l : L) (s : Trace),
    wp ((Environment.stable unit.bytes).world unit.platform)
      (Reader.openSource (L := L) unit.platform (settings o))
      (fun result _ _ => Yields (Cramped IsLimit (fun o => (settings o).room) bound o)
        (unit.OpenedBy (settings o)) result) l s := by
  obtain ⟨bound, written⟩ := @openFile_written unit ω settings
  exact ⟨bound, fun o => openSource_opens (written o)⟩

/-! ## Blocks -/

/-- No chunk of the unit is too large for the decompressors. -/
def Decodes (unit : WrittenUnit) : Prop :=
  ∀ item ∈ attached unit.settled.plan, ChunksDecode unit.call.options item.1

/-- A reader that takes the windows of Zstandard. -/
structure Admitted (unit : WrittenUnit) where
  options : ReaderOptions
  admits : ∀ item ∈ attached unit.settled.plan, item.1.compression = .zstd →
    unit.laws.Admits options.maxZstdWindowBytes

theorem storable_attached {item : Payload × PlannedBlock}
    (member : item ∈ attached unit.settled.plan) : Storable unit.call.options item.1 := by
  have chunks := (@accepted unit).chunks
  unfold attached at member
  rw [List.mem_append] at member
  rcases member with image | entry
  · obtain ⟨own, there, rfl⟩ := List.mem_map.mp image
    exact (unitReady.images own there).accepted.storable chunks
  · obtain ⟨own, there, rfl⟩ := List.mem_map.mp entry
    obtain ⟨there, hasBlock⟩ := List.mem_filter.mp there
    have form : own.1.valueForm = .dataBlock := by
      simp only [Writer.hasBlock, Bool.and_eq_true, decide_eq_true_eq] at hasBlock
      exact hasBlock.1
    obtain ⟨layout, count, checked⟩ := (unitReady.entries own there).accepted.block form
    exact checked.storable hasBlock chunks

/-- What the file has for a payload, restored. -/
theorem restores_attached {item : Payload × PlannedBlock}
    (member : item ∈ attached unit.settled.plan) : ∃ content,
    unit.Holds item.1 item.2 content ∧ Restores unit.Decodes unit.platform
      (@Admitted.options unit) item.2.prepared content item.1 := by
  obtain ⟨content, holds⟩ := holds_attached member
  have inside := holds.inside
  have small := @fileSize_small unit
  have room : content.length ≤ u64Max := by
    rw [← holds.size]
    omega
  exact ⟨content, holds, storedBlock_restored unit.laws (storable_attached member) holds.stored room
    (fun admitted : Admitted unit => admitted.admits item member) fun decodes =>
    decodes item member⟩

/-! ## Images -/

theorem image_attached {index : Nat} {item : ImageWriteView × PlannedBlock}
    (there : unit.settled.plan.images[index]? = some item) :
    (Writer.imagePayload item.1, item.2) ∈ attached unit.settled.plan :=
  List.mem_append_left _ (List.mem_map_of_mem
    (f := fun item : ImageWriteView × PlannedBlock => (Writer.imagePayload item.1, item.2))
    (List.mem_of_getElem? there))

/-- The plan for an image, with what its block's texts say. -/
def imagePlan (item : ImageWriteView × PlannedBlock) (compression : Reader.CompressionPlan)
    (checksum : Reader.ChecksumPlan) : ImageReadPlan where
  image := listedImage item
  embeddedBlock := none
  channels := item.1.channels
  sampleCount := item.1.width * item.1.height * item.1.channels
  sampleSize := (Writer.sampleFormatDescription item.1.sampleFormat).2
  endianComponentSize := (Writer.sampleFormatDescription item.1.sampleFormat).2
  expectedBytes := item.1.pixels.length
  serializedBytes := item.2.location.size
  compression := compression
  checksum := checksum

theorem sampleSizes {format : SampleFormat}
    (known : (Writer.sampleFormatDescription format).1 ≠ []) :
    Reader.bytesPerSample format = some (Writer.sampleFormatDescription format).2 ∧
      Reader.endianComponentSize format = some (Writer.sampleFormatDescription format).2 := by
  cases format <;> first | exact absurd rfl known | exact ⟨rfl, rfl⟩

theorem imageExtent_listed {item : ImageWriteView × PlannedBlock}
    (accepted : AcceptedImage item.1) :
    Reader.imageExtent (listedImage item) (Writer.sampleFormatDescription item.1.sampleFormat).2 =
      some (item.1.width * item.1.height * item.1.channels, item.1.pixels.length) := by
  have product := accepted.pixels
  simp only [Writer.pixelBytes, Option.bind_eq_bind, Option.bind_eq_some_iff] at product
  obtain ⟨pixels, area, samples, planes, bytes⟩ := product
  obtain ⟨rfl, -⟩ := checkedMultiply_eq_some.mp area
  obtain ⟨rfl, -⟩ := checkedMultiply_eq_some.mp planes
  have width : Reader.axis (listedImage item) 0 = item.1.width := rfl
  have height : Reader.axis (listedImage item) 1 = item.1.height := rfl
  have channels : Reader.axis (listedImage item) 2 = item.1.channels := rfl
  simp only [Reader.imageExtent, width, height, channels, Option.bind_eq_bind, area,
    Option.bind_some, planes, bytes]
  rfl

/-- The plan of an image is made, where its block is planned, unless a limit is in the
way. -/
theorem planImageRead_passes {ω : Type} {settings : ω → ReaderOptions} {index : Nat}
    {item : ImageWriteView × PlannedBlock} (there : unit.settled.plan.images[index]? = some item)
    {content : Bytes} (holds : unit.Holds (Writer.imagePayload item.1) item.2 content)
    {compression : ω → Reader.CompressionPlan} {checksum : Reader.ChecksumPlan}
    (plans : PlansBlock settings item.2.prepared content.length (Writer.imagePayload item.1)
      compression)
    (isChecksum : Reader.parseChecksumPlan item.2.prepared.checksum = .ok checksum) :
    Passes settings (fun o => Reader.planImageRead unit.listed.document (settings o)
      unit.listed.embeddedBlocks index) fun o => imagePlan item (compression o) checksum := by
  have member := List.mem_of_getElem? there
  have accepted := (unitReady.images item member).accepted
  have placed := (unitReady.images item member).placed
  have listed : unit.listed.document.images[index]? = some (listedImage item) := by
    have images : unit.listed.document.images = unit.settled.plan.images.map listedImage := rfl
    rw [images, List.getElem?_map, there]
    rfl
  have fileSize : unit.listed.document.fileSize = unit.settled.plan.fileSize := rfl
  obtain ⟨sampleSize, componentSize⟩ := sampleSizes accepted.format
  have inside : item.2.location.offset + item.2.location.size ≤ unit.settled.plan.fileSize :=
    holds.inside
  have attachment : item.2.location.kind = .attachment := by
    rw [placed.location]
  have isBlock : (listedImage item).block = item.2.location := rfl
  have plain : (listedImage item).colorSpace ≠ lit "CIELab" := by
    have same : (listedImage item).colorSpace = item.1.colorSpace := rfl
    rw [same]
    rcases accepted.colorSpace with gray | rgb
    · rw [gray]
      decide
    · rw [rgb]
      decide
  have roomy : ∀ o, (settings o).room ≤ (settings o).maxSerializedImageBytes ∧
      (settings o).room ≤ (settings o).maxDecodedImageBytes := fun o =>
    ⟨ReaderOptions.room_le (by simp [ReaderOptions.limits]),
      ReaderOptions.room_le (by simp [ReaderOptions.limits])⟩
  have isCompression := plans (some item.1.pixels.length)
    (fun o => (settings o).maxSerializedImageBytes)
    (fun o => (settings o).maxDecodedImageBytes)
    (fun size same => (Option.some.inj same).symm) (fun o => (roomy o).1)
    (fun o => (roomy o).2)
  have fits := accepted.product.2
  unfold Reader.planImageRead
  rw [listed]
  dsimp only
  refine .andThen (passes_check ?_) (.andThen (passes_check ?_) (.andThen (passes_check plain) ?_))
  · rw [isBlock, attachment]
    decide
  · exact fun other => other rfl
  refine .andThen (passes_some sampleSize) (.andThen (passes_some componentSize) ?_)
  refine .andThen (passes_atMost (by simp [ReaderOptions.limits]))
    (.andThen (passes_some (imageExtent_listed accepted)) ?_)
  refine .andThen (passes_atMost (by simp [ReaderOptions.limits]))
    (.andThen (passes_limit item.1.pixels.length fun o enough => ?_) ?_)
  · have decoded := (roomy o).2
    omega
  unfold Reader.planImageBlock
  rw [isBlock, if_pos attachment]
  have sized : item.2.location.size = content.length := holds.size
  rw [sized]
  refine .andThen isCompression ?_
  have checksumText : Reader.parseChecksumPlan (listedImage item).checksum = .ok checksum :=
    isChecksum
  rw [checksumText]
  refine .andThen passes_ok (.andThen (passes_check ?_) (.of_eq fun o => ?_))
  · rw [fileSize]
    omega
  · rw [attachment]
    unfold imagePlan
    rw [sized]
    rfl

/-- The plan of an image leads to its pixels. -/
theorem planImageRead_written {index : Nat}
    {item : ImageWriteView × PlannedBlock} (there : unit.settled.plan.images[index]? = some item) :
    ∃ content, ∃ compression : Admitted unit → Reader.CompressionPlan,
      ∃ checksum : Reader.ChecksumPlan,
      unit.Holds (Writer.imagePayload item.1) item.2 content ∧
      Passes (@Admitted.options unit) (fun other => Reader.planImageRead unit.listed.document
        other.options unit.listed.embeddedBlocks index)
        (fun other => imagePlan item (compression other) checksum) ∧
      (∀ other, Gates (Oversized unit.Decodes)
        (Reader.blockBytes unit.platform (compression other) content) (.ok item.1.pixels)) ∧
      (checksum.algorithm ≠ .none →
        Reader.digestMatches unit.platform checksum content = true) ∧
      ∀ other, (compression other).byteShuffled = true → item.1.byteShuffle = true := by
  obtain ⟨content, holds, restores⟩ := restores_attached (image_attached there)
  obtain ⟨compression, decodes, shuffles, plans⟩ := restores.decoded
  obtain ⟨checksum, isChecksum, verified⟩ := restores.verified
  exact ⟨content, compression, checksum, holds, planImageRead_passes there holds plans isChecksum,
    decodes, verified, shuffles⟩

/-- A sample with one component is reversed as a whole. -/
theorem mirrored_whole {size : Nat} (positive : 0 < size) {sample : Bytes}
    (length : sample.length = size) : mirrored size sample = sample.reverse := by
  have whole : sample.length = 1 * size := by rw [length, Nat.one_mul]
  have one := Library.slice_mirrored positive whole Nat.one_pos
  have twice := Library.length_mirrored positive whole
  rw [Nat.one_mul] at whole twice
  rw [Nat.zero_mul, slice, slice, List.drop_zero, List.drop_zero, List.take_of_length_le (by omega),
    List.take_of_length_le (by omega)] at one
  exact one

theorem sampleIndex_imagePlan {item : ImageWriteView × PlannedBlock}
    {compression : Reader.CompressionPlan} {checksum : Reader.ChecksumPlan}
    (sound : (imagePlan item compression checksum).Sound) (storage : PixelStorage)
    (channel pixel : Nat) : (imagePlan item compression checksum).sampleIndex storage
      channel pixel =
      sampleAt item.1 storage channel pixel := by
  have pixels : (imagePlan item compression checksum).pixelCount =
      item.1.width * item.1.height := sound.pixels
  unfold ImageReadPlan.sampleIndex sampleAt
  rw [pixels]
  rfl

theorem restoredImage {item : ImageWriteView × PlannedBlock} {content output : Bytes}
    {compression : Reader.CompressionPlan} {checksum : Reader.ChecksumPlan}
    (holds : unit.Holds (Writer.imagePayload item.1) item.2 content)
    (sound : (imagePlan item compression checksum).Sound) (readOptions : ImageReadOptions)
    (reference : (imagePlan item compression checksum).IsReference
      (Reader.resolvePixelStorage (imagePlan item compression checksum) readOptions.pixelStorage)
      (Reader.resolveByteOrder unit.platform .little readOptions.byteOrder) item.1.pixels output) :
    RestoredImage unit.platform item.1 readOptions
      (Reader.rawImage unit.platform (imagePlan item compression checksum) readOptions output) := by
  have storage : Reader.resolvePixelStorage (imagePlan item compression checksum)
      readOptions.pixelStorage = if readOptions.pixelStorage = .normal then .normal else
      .planar := by
    cases readOptions.pixelStorage <;> rfl
  have text : (imagePlan item compression checksum).image.checksum = item.2.prepared.checksum := rfl
  have declared : item.2.prepared.checksum ≠ [] ↔ item.1.checksum ≠ .none :=
    checksum_declared holds.stored
  refine ⟨rfl, rfl, rfl, rfl, rfl, rfl, rfl, rfl, storage, rfl, ?_, reference.length, ?_, ?_⟩
  · unfold Reader.rawImage
    dsimp only
    rw [text]
    by_cases none : item.1.checksum = .none
    · rw [if_neg (fun some => declared.mp some none), if_pos none]
    · rw [if_pos (declared.mpr none), if_neg none]
  · intro channel channelSmall pixel pixelSmall
    have pixels : (imagePlan item compression checksum).pixelCount =
        item.1.width * item.1.height := sound.pixels
    have sample := reference.sample channel channelSmall pixel (pixels ▸ pixelSmall)
    have inside := ImageReadPlan.sample_room sound
      (ImageReadPlan.sampleIndex_lt sound .planar channelSmall (pixels ▸ pixelSmall))
    have source : (imagePlan item compression checksum).image.pixelStorage = .planar := rfl
    rw [source, sampleIndex_imagePlan sound, sampleIndex_imagePlan sound] at sample
    rw [sampleIndex_imagePlan sound] at inside
    have length : (slice item.1.pixels (sampleAt item.1 .planar channel pixel *
        (imagePlan item compression checksum).sampleSize)
        (imagePlan item compression checksum).sampleSize).length =
        (imagePlan item compression checksum).sampleSize := Library.length_slice inside
    refine sample.trans ?_
    have isOrder : (Reader.rawImage unit.platform (imagePlan item compression checksum) readOptions
        output).byteOrder = Reader.resolveByteOrder unit.platform .little readOptions.byteOrder :=
        rfl
    have component : (imagePlan item compression checksum).endianComponentSize =
        (imagePlan item compression checksum).sampleSize := rfl
    have order : (imagePlan item compression checksum).image.byteOrder = .little := rfl
    unfold ImageReadPlan.orderedBytes
    rw [isOrder, order, component, mirrored_whole sound.sample_pos length]
    by_cases little : Reader.resolveByteOrder unit.platform .little readOptions.byteOrder = .little
    · rw [if_pos little.symm, if_pos little]
      rfl
    · rw [if_neg (Ne.symm little), if_neg little]
      rfl
  · intro planar little
    have isOrder : Reader.resolveByteOrder unit.platform .little readOptions.byteOrder =
        .little := little
    have isStorage : Reader.resolvePixelStorage (imagePlan item compression checksum)
        readOptions.pixelStorage = .planar := planar
    rw [isOrder, isStorage] at reference
    refine reference.unique sound ⟨rfl, fun channel _ pixel _ => ?_⟩
    exact (if_pos rfl).symm

/-- A reader that has opened the file returns the image. -/
theorem readImage_written {L : Type} {index : Nat}
    {item : ImageWriteView × PlannedBlock} (there : unit.settled.plan.images[index]? = some item)
    (readOptions : ImageReadOptions) : ∃ bound, ∀ (other : Admitted unit) (reader : Impl),
      unit.OpenedBy other.options reader → ∀ (l : L) (s : Trace),
        wp ((Environment.stable unit.bytes).world unit.platform)
          (Reader.readImage unit.platform reader index readOptions)
          (fun result _ _ => Yields (Stopped unit.Decodes Admitted.options bound other)
            (RestoredImage unit.platform item.1 readOptions) result) l s := by
  obtain ⟨content, compression, checksum, holds, ⟨bound, plans⟩, decodes, verified, -⟩ :=
    planImageRead_written there
  refine ⟨bound, fun other reader opened l s => ?_⟩
  have reads := @Reader.readImage_reads L unit.platform (.stable unit.bytes) reader index
    readOptions l s
  have plans := plans other
  beta_reduce at plans
  rw [← opened.document, ← opened.embeddedBlocks, ← opened.options] at plans
  rcases plans with planned | ⟨e, refused, cramped⟩
  · have sound := (Reader.planImageRead_sound reader.wellFormed planned).1
    rw [planned] at reads
    refine Library.Routine.wp_mono ?_ reads
    rintro result m t ⟨-, events, -, outcome⟩
    unfold Reader.PlannedOutcome at outcome
    have decodes := decodes other
    generalize compression other = coding at outcome sound decodes
    have bytesIn : (imagePlan item coding checksum).place.bytesIn unit.bytes 0
        (imagePlan item coding checksum).serializedBytes = content := holds.there
    have inFile : (imagePlan item coding checksum).place.inlineBlock = none →
        (imagePlan item coding checksum).place.offset +
          (imagePlan item coding checksum).serializedBytes ≤ unit.bytes.length := by
      intro _
      rw [length_bytes]
      exact holds.inside
    rcases outcome.ofStable inFile with ⟨declared, differs, -⟩ | ⟨-, filled, valued, rfl⟩
    · rw [bytesIn] at differs
      have same : Reader.digestMatches unit.platform checksum content = true := verified declared
      have differs : Reader.digestMatches unit.platform checksum content = false := differs
      rw [same] at differs
      cases differs
    · rw [bytesIn] at valued
      unfold Reader.ImageValue at valued
      have isCompression : (imagePlan item coding checksum).compression = coding := rfl
      rw [isCompression] at valued
      rcases decodes with decoded | ⟨e, failed, oversized⟩
      · rw [decoded] at valued
        obtain ⟨output, rfl, reference⟩ := valued
        exact .inl ⟨_, rfl, restoredImage holds sound readOptions reference⟩
      · rw [failed] at valued
        rw [valued]
        exact .inr ⟨e, rfl, .of_oversized oversized⟩
  · rw [refused] at reads
    refine Library.Routine.wp_mono ?_ reads
    rintro result m t ⟨-, events, -, failed, -⟩
    exact .inr ⟨e, failed, .of_cramped cramped⟩

/-! ## Block Properties -/

/-- What a plan for the block of an entry leads to. -/
structure PlansEntry (unit : WrittenUnit) (item : MetadataWriteEntry × PlannedBlock)
    (plan : PropertyReadPlan) : Prop where
  property : plan.property = listedEntry item
  layout : propertyElementLayout item.1.type = some plan.layout
  inFile : plan.place.inlineBlock = none →
    plan.place.offset + plan.serializedBytes ≤ unit.bytes.length
  verified : plan.checksum.algorithm ≠ .none → Reader.digestMatches unit.platform plan.checksum
    (plan.place.bytesIn unit.bytes 0 plan.serializedBytes) = true
  decodes : Gates (Oversized unit.Decodes) (Reader.blockBytes unit.platform plan.compression
    (plan.place.bytesIn unit.bytes 0 plan.serializedBytes)) (.ok item.1.blockBytes)
  declared : plan.checksum.algorithm ≠ .none ↔ item.1.checksum ≠ .none

theorem elementCount_listed {item : MetadataWriteEntry × PlannedBlock}
    {layout : PropertyElementLayout} {count : Nat} (checked : BlockChecked item.1 layout count) :
    Reader.elementCount (listedEntry item) = some count := by
  have counted := checked.counted
  have type : (listedEntry item).type = item.1.type := rfl
  have length : (listedEntry item).length = item.1.length := rfl
  have rows : (listedEntry item).rows = item.1.rows := rfl
  have columns : (listedEntry item).columns = item.1.columns := rfl
  unfold Writer.elementCount at counted
  unfold Reader.elementCount
  rw [type, length, rows, columns]
  cases category : classifyPropertyType item.1.type with
  | vector =>
      simp only [category, bind_eq_ok, reject_eq_ok, not_or, pure, Except.pure,
        Except.ok.injEq] at counted
      obtain ⟨_, ⟨some, -⟩, rfl⟩ := counted
      cases declared : item.1.length with
      | none => exact absurd (by rw [declared]; rfl) some
      | some n => rfl
  | matrix =>
      simp only [category, bind_eq_ok, reject_eq_ok, orFail_eq_ok, not_or] at counted
      obtain ⟨_, ⟨-, someRows, someColumns⟩, product⟩ := counted
      cases declaredRows : item.1.rows with
      | none => exact absurd (by rw [declaredRows]; rfl) someRows
      | some n =>
          cases declaredColumns : item.1.columns with
          | none => exact absurd (by rw [declaredColumns]; rfl) someColumns
          | some m =>
              rw [declaredRows, declaredColumns] at product
              exact product
  | _ =>
      simp only [category] at counted
      cases counted

theorem not_string {item : MetadataWriteEntry × PlannedBlock} {layout : PropertyElementLayout}
    {count : Nat} (checked : BlockChecked item.1 layout count) :
    classifyPropertyType item.1.type ≠ .string := by
  intro isString
  have counted := checked.counted
  unfold Writer.elementCount at counted
  rw [isString] at counted
  cases counted

theorem not_stringData {type : Text} {layout : PropertyElementLayout}
    (known : propertyElementLayout type = some layout)
    (notString : classifyPropertyType type ≠ .string) : layout.stringData = false := by
  unfold propertyElementLayout at known
  repeat' split at known
  · rename_i isString
    rw [isString] at notString
    exact absurd (by decide) notString
  all_goals cases known
  all_goals rfl

theorem typedBytes_listed {item : MetadataWriteEntry × PlannedBlock}
    {layout : PropertyElementLayout} {count : Nat} (checked : BlockChecked item.1 layout count) :
    Reader.typedBytes (listedEntry item) layout = .ok (some item.1.blockBytes.length) := by
  unfold Reader.typedBytes
  rw [not_stringData checked.known (not_string checked), elementCount_listed checked]
  show (orFail (checkedMultiply count layout.elementSize) .overflow
    "Property typed extent overflows its byte size" >>= fun bytes => _) = _
  rw [checked.bytes]
  rfl

theorem listed_getElem? {index : Nat} {item : MetadataWriteEntry × PlannedBlock}
    (there : (unitItems unit.call.options unit.settled.plan)[index]? = some item) :
    unit.listed.document.metadata[index]? = some (listedEntry item) ∧
      unit.listed.inlineMetadataBlocks[index]? = some [] := by
  have metadata : unit.listed.document.metadata =
      listedEntries unit.call.options unit.settled.plan := rfl
  have inline : unit.listed.inlineMetadataBlocks =
      (listedEntries unit.call.options unit.settled.plan).map fun _ => [] := rfl
  unfold listedEntries at metadata inline
  rw [metadata, inline, List.getElem?_map, List.getElem?_map, List.getElem?_map, there]
  exact ⟨rfl, rfl⟩

/-- An entry with a block is one that was given. -/
theorem mem_metadata {index : Nat} {item : MetadataWriteEntry × PlannedBlock}
    (there : (unitItems unit.call.options unit.settled.plan)[index]? = some item)
    (form : item.1.valueForm = .dataBlock) : item ∈ unit.settled.plan.metadata := by
  have member := (unitItems_perm unit.isUnit.accepted).mem_iff.mp (List.mem_of_getElem? there)
  unfold allEntries at member
  rw [List.mem_cons, List.mem_cons] at member
  rcases member with rfl | rfl | given
  · cases form
  · cases form
  · exact given

/-- An entry with a data block is listed as a Property with a data block. -/
theorem listed_isBlock {images : Nat} {item : MetadataWriteEntry × PlannedBlock}
    (ready : EntryReady images item) (form : item.1.valueForm = .dataBlock) :
    (listedEntry item).kind = .property ∧ (listedEntry item).valueForm = .dataBlock := by
  constructor
  · show item.1.kind = .property
    cases kind : item.1.kind with
    | property => rfl
    | fitsKeyword =>
        rw [(ready.accepted.fitsKeyword kind).1] at form
        cases form
  · show listedForm item.1 = .dataBlock
    unfold listedForm
    rw [form]

/-- The plan for the block of an entry, with what its texts say. -/
def entryPlan (item : MetadataWriteEntry × PlannedBlock) (layout : PropertyElementLayout)
    (inlineBlock : Option Bytes) (serializedBytes : Nat) (compression : Reader.CompressionPlan)
    (checksum : Reader.ChecksumPlan) : PropertyReadPlan where
  property := listedEntry item
  inlineBlock := inlineBlock
  layout := layout
  expectedBytes := compression.uncompressedSize
  serializedBytes := serializedBytes
  compression := compression
  checksum := checksum

theorem entry_attached {item : MetadataWriteEntry × PlannedBlock}
    (member : item ∈ unit.settled.plan.metadata) (hasBlock : Writer.hasBlock item.1 = true) :
    (Writer.propertyPayload item.1, item.2) ∈ attached unit.settled.plan :=
  List.mem_append_right _ (List.mem_map_of_mem
    (f := fun item : MetadataWriteEntry × PlannedBlock => (Writer.propertyPayload item.1, item.2))
    (List.mem_filter.mpr ⟨member, hasBlock⟩))

/-- What is listed of an attached block. -/
theorem entry_listed {item : MetadataWriteEntry × PlannedBlock}
    (member : item ∈ unit.settled.plan.metadata) (hasBlock : Writer.hasBlock item.1 = true) :
    (listedEntry item).block = item.2.location ∧ item.2.location.kind = .attachment ∧
      (listedEntry item).compression = item.2.prepared.compression ∧
      (listedEntry item).subblocks = item.2.prepared.subblocks ∧
      (listedEntry item).checksum = item.2.prepared.checksum := by
  have isPrepared : listedPrepared item = item.2.prepared := if_pos hasBlock
  have attachment : item.2.location.kind = .attachment := by
    rw [((unitReady.entries item member).placed hasBlock).location]
  rw [← isPrepared]
  exact ⟨if_pos hasBlock, attachment, rfl, rfl, rfl⟩

section

variable {ω : Type} {settings : ω → ReaderOptions} {index : Nat}
  {item : MetadataWriteEntry × PlannedBlock} {layout : PropertyElementLayout}

/-- The plan for an attached block is made, where the block is planned, unless a limit is in
the way. -/
theorem planPropertyRead_passes
    (there : (unitItems unit.call.options unit.settled.plan)[index]? = some item)
    (form : item.1.valueForm = .dataBlock) (hasBlock : Writer.hasBlock item.1 = true)
    (known : propertyElementLayout item.1.type = some layout) {content : Bytes}
    (holds : unit.Holds (Writer.propertyPayload item.1) item.2 content)
    {compression : ω → Reader.CompressionPlan} {checksum : Reader.ChecksumPlan}
    (plans : PlansBlock settings item.2.prepared content.length (Writer.propertyPayload item.1)
      compression)
    (isChecksum : Reader.parseChecksumPlan item.2.prepared.checksum = .ok checksum) :
    Passes settings (fun o => Reader.planPropertyRead unit.listed.document (settings o)
      unit.listed.inlineMetadataBlocks index)
      fun o => entryPlan item layout none item.2.location.size (compression o) checksum := by
  have member := mem_metadata there form
  have ready := unitReady.entries item member
  obtain ⟨layout', count, checked⟩ := ready.accepted.block form
  obtain rfl : layout' = layout := Option.some.inj (checked.known.symm.trans known)
  obtain ⟨isBlock, attachment, isCompressed, isCut, isDigest⟩ := entry_listed member hasBlock
  have itemSize : (Writer.propertyPayload item.1).itemSize = layout'.elementSize := by
    unfold Writer.propertyPayload
    rw [checked.known]
    rfl
  have inside : item.2.location.offset + item.2.location.size ≤ unit.settled.plan.fileSize :=
    holds.inside
  have sized : item.2.location.size = content.length := holds.size
  obtain ⟨listed, -⟩ := listed_getElem? there
  have fileSize : unit.listed.document.fileSize = unit.settled.plan.fileSize := rfl
  have isCompression := plans (some item.1.blockBytes.length)
    (fun o => (settings o).maxSerializedPropertyBytes)
    (fun o => (settings o).maxDecodedPropertyBytes)
    (fun size same => (Option.some.inj same).symm)
    (fun o => ReaderOptions.room_le (by simp [ReaderOptions.limits]))
    (fun o => ReaderOptions.room_le (by simp [ReaderOptions.limits]))
  rw [itemSize] at isCompression
  unfold Reader.planPropertyRead
  rw [listed]
  dsimp only
  refine .andThen (passes_check ?_) (.andThen (passes_check ?_)
    (.andThen (passes_some checked.known) ?_))
  · rw [not_or, not_not, not_not]
    exact listed_isBlock ready form
  · rw [isBlock, attachment]
    decide
  rw [typedBytes_listed checked]
  refine .andThen passes_ok ?_
  have located : Reader.serializedBlock unit.listed.document (listedEntry item).block
      unit.listed.inlineMetadataBlocks index "Inline Property storage is inconsistent"
      "Property attachment range extends beyond the source" = .ok (none, item.2.location.size) := by
    unfold Reader.serializedBlock
    rw [isBlock, attachment, if_neg (by decide), reject, if_neg (by omega)]
    rfl
  rw [located]
  refine .andThen passes_ok ?_
  dsimp only
  rw [isCompressed, isCut, isDigest, sized, isChecksum]
  exact .andThen isCompression (.andThen passes_ok passes_ok)

/-- An empty vector or matrix is planned as its empty inline block. -/
theorem planEmpty_passes
    (there : (unitItems unit.call.options unit.settled.plan)[index]? = some item)
    (form : item.1.valueForm = .dataBlock) (noBlock : Writer.hasBlock item.1 ≠ true)
    (known : propertyElementLayout item.1.type = some layout) :
    item.1.blockBytes = [] ∧ item.1.checksum = .none ∧
      Passes settings (fun o => Reader.planPropertyRead unit.listed.document (settings o)
        unit.listed.inlineMetadataBlocks index)
        fun _ => entryPlan item layout (some []) 0 {} {} := by
  have member := mem_metadata there form
  have ready := unitReady.entries item member
  obtain ⟨layout', count, checked⟩ := ready.accepted.block form
  obtain rfl : layout' = layout := Option.some.inj (checked.known.symm.trans known)
  have empty : Writer.isEmptyPropertyContainer item.1 = true := by
    simpa [Writer.hasBlock, form] using noBlock
  have noBytes : item.1.blockBytes = [] := by
    unfold Writer.isEmptyPropertyContainer at empty
    by_contra some
    rw [if_pos (.inr some)] at empty
    cases empty
  refine ⟨noBytes, (checked.container empty).2.2.2.2, ?_⟩
  have isBlock : (listedEntry item).block = ⟨.inlineData, 0, 0, lit "inline:base64"⟩ := by
    show listedBlock item = _
    unfold listedBlock
    rw [if_neg noBlock, if_pos form]
  have isPrepared : listedPrepared item = {} := if_neg noBlock
  obtain ⟨listed, inline⟩ := listed_getElem? there
  unfold Reader.planPropertyRead
  rw [listed]
  dsimp only
  refine .andThen (passes_check ?_) (.andThen (passes_check ?_)
    (.andThen (passes_some checked.known) ?_))
  · rw [not_or, not_not, not_not]
    exact listed_isBlock ready form
  · rw [isBlock]
    decide
  rw [typedBytes_listed checked, noBytes]
  refine .andThen passes_ok ?_
  have located : Reader.serializedBlock unit.listed.document (listedEntry item).block
      unit.listed.inlineMetadataBlocks index "Inline Property storage is inconsistent"
      "Property attachment range extends beyond the source" = .ok (some [], 0) := by
    unfold Reader.serializedBlock
    rw [isBlock, if_pos rfl, inline]
    rfl
  rw [located]
  refine .andThen passes_ok ?_
  dsimp only
  have texts : (listedEntry item).compression = [] ∧ (listedEntry item).subblocks = [] ∧
      (listedEntry item).checksum = [] := by
    have own : (listedEntry item).compression = (listedPrepared item).compression ∧
        (listedEntry item).subblocks = (listedPrepared item).subblocks ∧
        (listedEntry item).checksum = (listedPrepared item).checksum := ⟨rfl, rfl, rfl⟩
    rw [isPrepared] at own
    exact own
  rw [texts.1, texts.2.1, texts.2.2]
  have isCompression := @parseCompressionPlan_plain _ settings
    (fun o => (settings o).maxSerializedPropertyBytes)
    (fun o => (settings o).maxDecodedPropertyBytes) 0 layout'.elementSize
    (some ([] : Bytes).length) (fun _ same => (Option.some.inj same).symm) (Nat.zero_le _)
    (fun o => ReaderOptions.room_le (by simp [ReaderOptions.limits]))
    (fun o => ReaderOptions.room_le (by simp [ReaderOptions.limits]))
  exact .andThen isCompression (.andThen passes_ok passes_ok)

end

/-- The plan for the block of an entry leads to its bytes, and is made unless a limit is in
the way. -/
theorem planPropertyRead_written {index : Nat}
    {item : MetadataWriteEntry × PlannedBlock}
    (there : (unitItems unit.call.options unit.settled.plan)[index]? = some item)
    (form : item.1.valueForm = .dataBlock) : ∃ plan,
      (∀ other, unit.PlansEntry item (plan other)) ∧
      Passes (@Admitted.options unit) (fun other => Reader.planPropertyRead unit.listed.document
        other.options unit.listed.inlineMetadataBlocks index) plan := by
  have member := mem_metadata there form
  obtain ⟨layout, count, checked⟩ := (unitReady.entries item member).accepted.block form
  by_cases hasBlock : Writer.hasBlock item.1 = true
  · obtain ⟨content, holds, restores⟩ := restores_attached (entry_attached member hasBlock)
    obtain ⟨compression, decodes, -, plans⟩ := restores.decoded
    obtain ⟨checksum, isChecksum, verified⟩ := restores.verified
    obtain ⟨isBlock, attachment, -⟩ := entry_listed member hasBlock
    have inside : item.2.location.offset + item.2.location.size ≤ unit.settled.plan.fileSize :=
      holds.inside
    refine ⟨_, fun other => ⟨rfl, checked.known, fun _ => ?_, fun declared => ?_, ?_, ?_⟩,
      planPropertyRead_passes there form hasBlock checked.known holds plans isChecksum⟩
    · rw [length_bytes]
      show (listedEntry item).block.offset + item.2.location.size ≤ _
      rw [isBlock]
      exact inside
    · show Reader.digestMatches unit.platform checksum
        (slice unit.bytes ((listedEntry item).block.offset + 0) item.2.location.size) = true
      rw [isBlock, Nat.add_zero, holds.there]
      exact verified declared
    · show Gates _ (Reader.blockBytes unit.platform (compression other)
        (slice unit.bytes ((listedEntry item).block.offset + 0) item.2.location.size)) _
      rw [isBlock, Nat.add_zero, holds.there]
      exact decodes other
    · exact (Reader.parseChecksumPlan_declared isChecksum).trans (checksum_declared holds.stored)
  · obtain ⟨noBytes, noDigest, passes⟩ :=
      @planEmpty_passes unit _ (@Admitted.options unit) index item layout there form hasBlock
        checked.known
    refine ⟨_, fun other => ⟨rfl, checked.known, ?_, ?_, ?_, ?_⟩, passes⟩
    · rintro ⟨⟩
    · exact fun declared => absurd rfl declared
    · rw [noBytes]
      exact .refl _
    · exact iff_of_false (fun declared => declared rfl) (fun declared => declared noDigest)

/-- The block of an entry as it was given, in the byte order that was asked for. -/
def restoredBlock (platform : Platform) (entry : MetadataWriteEntry) (byteOrder : ByteOrderOutput) :
    RawPropertyBlock where
  byteOrder := Reader.resolveByteOrder platform entry.byteOrder byteOrder
  checksumVerification := if entry.checksum = .none then .notDeclared else .verified
  bytes :=
    if Reader.resolveByteOrder platform entry.byteOrder byteOrder = entry.byteOrder then
      entry.blockBytes
    else mirrored (((propertyElementLayout entry.type).map (·.scalarComponentSize)).getD 1)
      entry.blockBytes

/-- An element is made of components. -/
theorem propertyLayout_components {type : Text} {layout : PropertyElementLayout}
    (known : propertyElementLayout type = some layout) :
    0 < layout.scalarComponentSize ∧ ∃ n, layout.elementSize = n * layout.scalarComponentSize := by
  unfold propertyElementLayout at known
  repeat' split at known
  all_goals cases known
  all_goals exact ⟨by decide, _, (Nat.div_mul_cancel (by decide)).symm⟩

/-- Components reversed in place are reversed one by one. -/
theorem swappedFrom_eq {size count : Nat} (positive : 0 < size) {bytes : Bytes}
    (length : bytes.length = count * size) :
    Reader.swappedFrom size (bytes.length / size) 0 bytes = mirrored size bytes := by
  have components : bytes.length / size = count := by
    rw [length, Nat.mul_div_cancel _ positive]
  obtain ⟨swappedLength, pieces⟩ := Reader.swappedFrom_pieces count 0 length (by omega)
  rw [components]
  refine Library.eq_of_slices swappedLength (Library.length_mirrored positive length)
    fun k small => ?_
  rw [pieces k small, if_pos (by omega), Library.slice_mirrored positive length small]

theorem propertyBlock_restored {item : MetadataWriteEntry × PlannedBlock} {plan : PropertyReadPlan}
    (plans : unit.PlansEntry item plan) (ready : EntryReady unit.settled.plan.images.length item)
    (form : item.1.valueForm = .dataBlock) (byteOrder : ByteOrderOutput) :
    Reader.propertyBlock unit.platform plan byteOrder item.1.blockBytes =
      restoredBlock unit.platform item.1 byteOrder := by
  obtain ⟨layout, count, checked⟩ := ready.accepted.block form
  obtain rfl : plan.layout = layout := Option.some.inj (plans.layout.symm.trans checked.known)
  obtain ⟨positive, components, elementSize⟩ := propertyLayout_components checked.known
  have length : item.1.blockBytes.length =
      count * components * plan.layout.scalarComponentSize := by
    rw [(checkedMultiply_eq_some.mp checked.bytes).1, elementSize, Nat.mul_assoc]
  have notString : plan.layout.stringData = false :=
    not_stringData checked.known (not_string checked)
  have order : plan.property.byteOrder = item.1.byteOrder := by
    rw [plans.property]
    exact if_pos form
  unfold Reader.propertyBlock restoredBlock Reader.planVerification
  rw [order, checked.known, notString, Option.map_some, Option.getD_some]
  congr 1
  · by_cases declared : plan.checksum.algorithm ≠ .none
    · rw [if_pos declared, if_neg (plans.declared.mp declared)]
    · rw [if_neg declared, if_pos (not_not.mp fun some => declared (plans.declared.mpr some))]
  · by_cases same : Reader.resolveByteOrder unit.platform item.1.byteOrder byteOrder =
        item.1.byteOrder
    · rw [if_neg (fun swap => swap.2.2 same), if_pos same]
    · rw [if_neg same]
      by_cases single : plan.layout.scalarComponentSize > 1
      · rw [if_pos ⟨rfl, single, same⟩, swappedFrom_eq positive length]
      · have one : plan.layout.scalarComponentSize = 1 := by omega
        rw [if_neg (fun swap => single swap.2.1), one, Library.mirrored_one]

/-- A reader that has opened the file returns the block. -/
theorem readPropertyBlock_written {L : Type} {index : Nat}
    {item : MetadataWriteEntry × PlannedBlock}
    (there : (unitItems unit.call.options unit.settled.plan)[index]? = some item)
    (form : item.1.valueForm = .dataBlock) (byteOrder : ByteOrderOutput) :
    ∃ bound, ∀ (other : Admitted unit) (reader : Impl), unit.OpenedBy other.options reader →
      ∀ (l : L) (s : Trace), wp ((Environment.stable unit.bytes).world unit.platform)
        (Reader.readPropertyBlock unit.platform reader index byteOrder)
        (fun result _ _ => Yields (Stopped unit.Decodes Admitted.options bound other)
          (· = restoredBlock unit.platform item.1 byteOrder) result) l s := by
  have ready := unitReady.entries item (mem_metadata there form)
  obtain ⟨plan, plans, bound, gates⟩ := planPropertyRead_written there form
  refine ⟨bound, fun other reader opened l s => ?_⟩
  have reads := @Reader.readPropertyBlock_reads L unit.platform (.stable unit.bytes) reader index
    byteOrder l s
  have gated := gates other
  have plans := plans other
  beta_reduce at gated
  rw [← opened.document, ← opened.inlineMetadataBlocks, ← opened.options] at gated
  rcases gated with planned | ⟨e, refused, cramped⟩
  · rw [planned] at reads
    refine Library.Routine.wp_mono ?_ reads
    rintro result m t ⟨-, events, -, outcome⟩
    unfold Reader.PlannedOutcome at outcome
    rcases outcome.ofStable plans.inFile with ⟨declared, differs, -⟩ | ⟨-, rfl⟩
    · rw [plans.verified declared] at differs
      cases differs
    · rw [← propertyBlock_restored plans ready form byteOrder]
      rcases (plans.decodes.map _).yields with restored | ⟨e, failed, oversized⟩
      · exact .inl restored
      · exact .inr ⟨e, failed, .of_oversized oversized⟩
  · rw [refused] at reads
    refine Library.Routine.wp_mono ?_ reads
    rintro result m t ⟨-, events, -, failed, -⟩
    exact .inr ⟨e, failed, .of_cramped cramped⟩

/-! ## Opening and reading -/

theorem openAnd_ends {L α ω : Type} {fits : Prop} {settings : ω → ReaderOptions}
    {read : Impl → ReadRoutine L α} {good : α → Prop}
    (reads : ∃ bound, ∀ o reader, unit.OpenedBy (settings o) reader → ∀ l s,
      wp ((Environment.stable unit.bytes).world unit.platform) (read reader)
        (fun result _ _ => Yields (Stopped fits settings bound o) good result) l s) :
    ReadsBack unit.platform unit.bytes fits settings
      (fun o => openAnd unit.platform (settings o) read) good := by
  obtain ⟨opens, opened⟩ := @openSource_ends unit L ω settings
  obtain ⟨bound, reads⟩ := reads
  refine readsBack_of_wp small_bytes ⟨max opens bound, fun o l s => ?_⟩
  unfold openAnd
  rw [Library.Routine.wp_bind]
  refine Library.Routine.wp_mono ?_ (opened o l s)
  rintro result m t (⟨reader, rfl, opened⟩ | ⟨e, rfl, stopped⟩)
  · rw [Library.Routine.continueWith_ok]
    refine Library.Routine.wp_mono ?_ (reads o reader opened m t)
    rintro result m t (good | ⟨e, failed, stopped⟩)
    · exact .inl good
    · exact .inr ⟨e, failed, stopped.mono (Nat.le_max_right ..)⟩
  · rw [Library.Routine.continueWith_error]
    exact .inr ⟨e, rfl, .of_cramped (stopped.mono (Nat.le_max_left ..))⟩

/-- A block Property that was given. -/
structure GivenBlock (unit : WrittenUnit) where
  entry : MetadataWriteEntry
  given : entry ∈ unit.call.metadata
  form : entry.valueForm = .dataBlock

/-- Where the listing has an entry. -/
def ListedAt (unit : WrittenUnit) (index : Nat) (entry : MetadataWriteEntry) : Prop :=
  ∃ item, (unitItems unit.call.options unit.settled.plan)[index]? = some item ∧ item.1 = entry

theorem GivenBlock.listed (block : unit.GivenBlock) : ∃ index, unit.ListedAt index block.entry := by
  have given := block.given
  rw [← unit.isUnit.metadata] at given
  obtain ⟨item, member, own⟩ := List.mem_map.mp given
  have listed : item ∈ unitItems unit.call.options unit.settled.plan := by
    rw [(unitItems_perm unit.isUnit.accepted).mem_iff]
    exact List.mem_cons_of_mem _ (List.mem_cons_of_mem _ member)
  obtain ⟨index, there⟩ := List.mem_iff_getElem?.mp listed
  exact ⟨index, item, there, own⟩

theorem opens {L : Type} : ReadsBack unit.platform unit.bytes True (fun options => options)
    (fun options => openAnd (L := L) unit.platform options fun reader => pure reader.document)
    (· = listedDocument unit.call.options unit.settled.plan unit.settled.header.length) := by
  refine openAnd_ends ⟨0, fun options reader opened l s => ?_⟩
  rw [Library.Routine.wp_pure]
  exact .inl ⟨_, rfl, congrArg (·.document) opened.contents⟩

/-- The blocks of the images are in the order of the call. -/
theorem planned_image (index : Fin unit.call.images.length) :
    ∃ item, unit.settled.plan.images[index.val]? = some item ∧
    item.1 = unit.call.images.get index := by
  have there : (unit.settled.plan.images.map Prod.fst)[index.val]? =
      some (unit.call.images.get index) := by
    rw [unit.isUnit.images]
    exact List.getElem?_eq_getElem index.isLt
  rw [List.getElem?_map, Option.map_eq_some_iff] at there
  exact there

theorem image_readsBack {L : Type} (index : Fin unit.call.images.length)
    (readOptions : ImageReadOptions) :
    ReadsBack unit.platform unit.bytes unit.Decodes (@Admitted.options unit)
      (fun admitted => openAnd (L := L) unit.platform admitted.options fun reader =>
        Reader.readImage unit.platform reader index readOptions)
      (RestoredImage unit.platform (unit.call.images.get index) readOptions) := by
  obtain ⟨item, there, own⟩ := planned_image index
  rw [← own]
  exact openAnd_ends (readImage_written there readOptions)

theorem block_readsBack {L : Type} (block : unit.GivenBlock) (byteOrder : ByteOrderOutput) :
    ∃ index, unit.ListedAt index block.entry ∧
      ReadsBack unit.platform unit.bytes unit.Decodes (@Admitted.options unit)
        (fun admitted => openAnd (L := L) unit.platform admitted.options fun reader =>
          Reader.readPropertyBlock unit.platform reader index byteOrder)
        (· = restoredBlock unit.platform block.entry byteOrder) := by
  obtain ⟨index, item, there, own⟩ := block.listed
  have form : item.1.valueForm = .dataBlock := by
    rw [own]
    exact block.form
  refine ⟨index, ⟨item, there, own⟩, ?_⟩
  rw [← own]
  exact openAnd_ends (readPropertyBlock_written there form byteOrder)

end WrittenUnit

end Mmxisf
