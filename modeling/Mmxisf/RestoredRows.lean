/-
# RestoredRows -- the rows of what was written

`read_image_rows` shows the pixels that were given row by row, channel after channel,
in the byte order asked for.  What it shows is a beginning of these rows; when it
succeeds it has shown every row once; and when it fails although the staging has room,
a limit of the reader stopped it before the first row, or the sink refused the last row
it was shown (`rowsRestored`).
-/
import Mathlib.Algebra.Order.BigOperators.Group.List
import Mmxisf.ReferenceLibraries
import Mmxisf.RestoredUnits
import Mmxisf.RowAgreement

namespace Mmxisf

set_option autoImplicit false

open Library (slice mirrored Cramped Gates)
open Library.Routine (wp)
open Writer (ImageWriteView PlannedBlock)
open Reader (Impl ImageReadPlan ImageRowReadOptions ImageRowReadSummary ImageRowView IsLimit
  Environment Trace WithinRowLimits imagePixels imagePixels_eq_some rowSizes)

/-! ## The rows -/

/-- The pixels that were given, in a byte order. -/
def orderedPixels (image : ImageWriteView) (byteOrder : ByteOrder) : Bytes :=
  if byteOrder = .little then image.pixels
  else mirrored (Writer.sampleFormatDescription image.sampleFormat).2 image.pixels

/-- The row of a channel, as a sink is shown it. -/
def givenRow (image : ImageWriteView) (byteOrder : ByteOrder) (channel row : Nat) : ImageRowView :=
  let size := image.width * (Writer.sampleFormatDescription image.sampleFormat).2
  ⟨channel, row, byteOrder,
    slice (orderedPixels image byteOrder) ((channel * image.height + row) * size) size⟩

/-- Channel after channel, from the first row to the last. -/
def givenRows (image : ImageWriteView) (byteOrder : ByteOrder) : List ImageRowView :=
  (List.range image.channels).flatMap fun channel =>
    (List.range image.height).map fun row => givenRow image byteOrder channel row

/-- The staging has room for a row, a subblock and what it decodes to, and the pixels
are not shuffled: shuffled pixels in several subblocks are refused. -/
structure StagingFits (unit : WrittenUnit) (image : ImageWriteView)
    (readOptions : ImageRowReadOptions) : Prop where
  row : image.pixels.length ≤ readOptions.maxRowBytes
  decoded : image.pixels.length ≤ readOptions.maxSubblockBytes
  stored : unit.bytes.length ≤ readOptions.maxSubblockBytes
  unshuffled : image.byteShuffle = false

/-- How a read of rows ends, with the rows that were shown and the sink's answers. -/
structure RestoredRows (unit : WrittenUnit) (image : ImageWriteView)
    (readOptions : ImageRowReadOptions) (stops : Error → Prop)
    (result : Result ImageRowReadSummary) (shown : List (ImageRowView × Result Unit)) : Prop where
  first : unit.Decodes → shown.map Prod.fst <+:
    givenRows image (Reader.resolveByteOrder unit.platform .little readOptions.byteOrder)
  delivered : ∀ summary, result = .ok summary →
    shown = (givenRows image (Reader.resolveByteOrder unit.platform .little
      readOptions.byteOrder)).map
      (fun row => (row, .ok ())) ∧
    summary = ⟨image.height * image.channels, image.pixels.length,
      if image.checksum = .none then .notDeclared else .verified⟩
  stopped : ∀ e, result = .error e → unit.Decodes → StagingFits unit image readOptions →
    stops e ∨ ∃ row, shown.getLast? = some (row, .error e)

/-- A failure before the first row. -/
theorem RestoredRows.nothing {unit : WrittenUnit} {image : ImageWriteView}
    {readOptions : ImageRowReadOptions} {stops : Error → Prop} {e : Error}
    (cause : StagingFits unit image readOptions → stops e) :
    RestoredRows unit image readOptions stops (.error e) [] := by
  refine ⟨fun _ => List.nil_prefix, by simp, fun e' same _ fits => .inl ?_⟩
  rw [Except.error.injEq] at same
  exact same ▸ cause fits

namespace WrittenUnit

section

variable {unit : WrittenUnit} {item : ImageWriteView × PlannedBlock}
  {compression : Reader.CompressionPlan} {checksum : Reader.ChecksumPlan}

theorem rows_imagePlan (byteOrder : ByteOrder) :
    (deliveryOrder (imagePlan item compression checksum)).map
        (imageRow (imagePlan item compression checksum) byteOrder
          (orderedPixels item.1 byteOrder)) =
      givenRows item.1 byteOrder := by
  have order : deliveryOrder (imagePlan item compression checksum) =
      (List.range item.1.channels).flatMap fun channel =>
        (List.range item.1.height).map fun row => (channel, row) := rfl
  rw [order, List.map_flatMap]
  refine List.flatMap_congr fun channel _ => ?_
  rw [List.map_map]
  rfl

/-- The pixels in a byte order are what a planar read gives. -/
theorem orderedPixels_reference (sound : (imagePlan item compression checksum).Sound)
    (byteOrder : ByteOrder) : (imagePlan item compression checksum).IsReference .planar byteOrder
      item.1.pixels (orderedPixels item.1 byteOrder) := by
  have order : (imagePlan item compression checksum).image.byteOrder = .little := rfl
  have length : item.1.pixels.length = (imagePlan item compression checksum).sampleCount *
      (imagePlan item compression checksum).sampleSize := sound.bytes
  unfold orderedPixels
  by_cases little : byteOrder = .little
  · rw [if_pos little, little]
    exact ⟨rfl, fun channel _ pixel _ => (if_pos rfl).symm⟩
  · rw [if_neg little]
    refine ⟨(Library.length_mirrored sound.sample_pos length).trans length.symm,
      fun channel channelSmall pixel pixelSmall => ?_⟩
    have index := ImageReadPlan.sampleIndex_lt sound .planar channelSmall pixelSmall
    have inside := ImageReadPlan.sample_room sound index
    have reversed := Library.slice_mirrored sound.sample_pos length index
    have component : (imagePlan item compression checksum).endianComponentSize =
        (imagePlan item compression checksum).sampleSize := rfl
    have storage : (imagePlan item compression checksum).image.pixelStorage = .planar := rfl
    unfold ImageReadPlan.orderedBytes
    rw [order, if_neg (Ne.symm little), component, storage,
      mirrored_whole sound.sample_pos (Library.length_slice inside)]
    exact reversed

/-- Staging with room enough does not refuse the image. -/
theorem withinRowLimits {readOptions : ImageRowReadOptions}
    (sound : (imagePlan item compression checksum).Sound) (some : item.1.pixels ≠ [])
    (shuffles : compression.byteShuffled = true → item.1.byteShuffle = true)
    (inside : item.2.location.size ≤ unit.bytes.length)
    (fits : StagingFits unit item.1 readOptions) :
    WithinRowLimits (imagePlan item compression checksum) readOptions := by
  refine ⟨?_, fun coded subblock member => ?_, fun shuffled => ?_⟩
  · have total := sourceRows_total sound
    have filled := List.length_pos_iff.mpr some
    have expected : (imagePlan item compression checksum).expectedBytes = item.1.pixels.length :=
        rfl
    have rows : 0 < (rowSizes (imagePlan item compression checksum)).sourceRowCount := by
      refine Nat.pos_of_ne_zero fun none => ?_
      rw [none, Nat.zero_mul] at total
      omega
    have within := Nat.le_mul_of_pos_left
      (rowSizes (imagePlan item compression checksum)).sourceRowBytes
      rows
    rw [total, expected] at within
    exact within.trans fits.row
  · obtain ⟨compressed, uncompressed⟩ := sound.fits.compressed coded
    constructor
    · have own : subblock.compressedSize ≤ Reader.compressedTotal
          (imagePlan item compression checksum).compression.subblocks :=
        List.le_sum_of_mem (List.mem_map_of_mem member)
      rw [compressed] at own
      exact own.trans (inside.trans fits.stored)
    · have own : subblock.uncompressedSize ≤ Reader.uncompressedTotal
          (imagePlan item compression checksum).compression.subblocks :=
        List.le_sum_of_mem (List.mem_map_of_mem member)
      rw [uncompressed, sound.uncompressedSize] at own
      exact own.trans fits.decoded
  · have given := shuffles shuffled
    rw [fits.unshuffled] at given
    cases given

/-- A plan for an image of the unit, with what the block in the file leads to. -/
structure PlansRows (unit : WrittenUnit) (item : ImageWriteView × PlannedBlock)
    (compression : Reader.CompressionPlan) (checksum : Reader.ChecksumPlan) (content : Bytes) :
    Prop where
  holds : unit.Holds (Writer.imagePayload item.1) item.2 content
  some : item.1.pixels ≠ []
  sound : (imagePlan item compression checksum).Sound
  decodes : Gates (Oversized unit.Decodes) (Reader.blockBytes unit.platform compression content)
    (.ok item.1.pixels)
  verified : checksum.algorithm ≠ .none → Reader.digestMatches unit.platform checksum content = true
  shuffles : compression.byteShuffled = true → item.1.byteShuffle = true

namespace PlansRows

variable {unit : WrittenUnit} {content : Bytes} {readOptions : ImageRowReadOptions}
  {byteOrder : ByteOrder}

theorem bytesIn (plans : unit.PlansRows item compression checksum content) :
    (imagePlan item compression checksum).place.bytesIn unit.bytes 0
      (imagePlan item compression checksum).serializedBytes = content :=
  plans.holds.there

theorem inFile (plans : unit.PlansRows item compression checksum content) :
    (imagePlan item compression checksum).place.inlineBlock = none →
      (imagePlan item compression checksum).place.offset +
        (imagePlan item compression checksum).serializedBytes ≤ unit.bytes.length := by
  intro _
  rw [length_bytes]
  exact plans.holds.inside

theorem found (plans : unit.PlansRows item compression checksum content)
    (decodes : unit.Decodes) : imagePixels unit.platform (imagePlan item compression checksum)
      unit.bytes = .some item.1.pixels := by
  refine imagePixels_eq_some.mpr ⟨fun declared => ?_, ?_⟩
  · rw [plans.bytesIn]
    exact plans.verified declared
  · rw [plans.bytesIn]
    exact plans.decodes.resolve_right fun ⟨_, _, oversized⟩ => oversized.2 decodes

/-- What was obtained of the whole block has the declared digest. -/
theorem not_differs (plans : unit.PlansRows item compression checksum content) {bytes : Bytes}
    {events : Trace} (obtained : Reader.Obtained (.stable unit.bytes)
      (imagePlan item compression checksum).place
      (imagePlan item compression checksum).serializedBytes 0 bytes events)
    (whole : bytes.length = (imagePlan item compression checksum).serializedBytes)
    (declared : checksum.algorithm ≠ .none) :
    Reader.digestMatches unit.platform checksum bytes ≠ false := by
  have same := obtained.eq_bytesIn plans.inFile
  rw [whole, plans.bytesIn] at same
  rw [same, plans.verified declared]
  exact Bool.noConfusion

/-- The rows of progress are the first that were given. -/
theorem beginning (plans : unit.PlansRows item compression checksum content)
    {result : Result Unit} {serialized decoded : Bytes} {events : Trace}
    (progress : Reader.Progress unit.platform (.stable unit.bytes)
      (rowContext (imagePlan item compression checksum) byteOrder) result serialized decoded events)
    (decodes : unit.Decodes) : (consumed events).map Prod.fst <+: givenRows item.1 byteOrder := by
  have first := (progress.agrees plans.sound plans.inFile).2 _ _ (plans.found decodes)
    (orderedPixels_reference plans.sound byteOrder)
  rw [rows_imagePlan] at first
  exact first

/-- A delivery that succeeds has shown every row. -/
theorem delivered (plans : unit.PlansRows item compression checksum content) {events : Trace}
    (outcome : Reader.DeliveryOutcome unit.platform (.stable unit.bytes)
      (rowContext (imagePlan item compression checksum) byteOrder) (.ok ()) events) :
    consumed events = (givenRows item.1 byteOrder).map fun row => (row, .ok ()) := by
  cases outcome with
  | @complete serialized decoded _ progress whole decoding _ =>
      have same := progress.obtained.eq_bytesIn plans.inFile
      change serialized.length = (imagePlan item compression checksum).serializedBytes at whole
      change Reader.blockBytes unit.platform compression serialized = .ok decoded at decoding
      rw [whole] at same
      have isContent : serialized = content := same.trans plans.bytesIn
      have isPixels : decoded = item.1.pixels := by
        rw [isContent] at decoding
        rcases plans.decodes with decodes | ⟨e, failed, -⟩
        · rw [decodes] at decoding
          exact (Except.ok.inj decoding).symm
        · rw [failed] at decoding
          cases decoding
      have all := pixelRows_eq_imageRows plans.sound rfl
        (orderedPixels_reference plans.sound byteOrder)
      rw [rows_imagePlan, ← isPixels] at all
      exact ((consumed_emits progress.emits).1 rfl).trans (congrArg _ all)

/-- A delivery that fails has shown the first rows, and the sink refused the last. -/
theorem refused (plans : unit.PlansRows item compression checksum content) {e : Error}
    {events : Trace} (outcome : Reader.DeliveryOutcome unit.platform (.stable unit.bytes)
      (rowContext (imagePlan item compression checksum) byteOrder) (.error e) events)
    (decodes : unit.Decodes) :
    (consumed events).map Prod.fst <+: givenRows item.1 byteOrder ∧
      ∃ row, (consumed events).getLast? = .some (row, .error e) := by
  cases outcome with
  | stopped progress cancelled => cases cancelled.1
  | mismatch progress whole declared differs =>
      exact absurd differs (plans.not_differs progress.obtained whole declared)
  | refused progress =>
      exact ⟨plans.beginning progress decodes, (consumed_emits progress.emits).2.2 e rfl⟩
  | readFailed progress within cause =>
      exact absurd cause (Reader.not_failedRead plans.inFile within)
  | @undecodable serialized _ _ _ progress cause =>
      have same := progress.obtained.eq_bytesIn plans.inFile
      obtain ⟨e', failed⟩ := cause ((imagePlan item compression checksum).place.bytesIn unit.bytes 0
        (imagePlan item compression checksum).serializedBytes) (by
          rw [same]
          exact (imagePlan item compression checksum).place.bytesIn_first unit.bytes progress.short)
      exact absurd (failed.symm.trans (imagePixels_eq_some.mp (plans.found decodes)).2) (by simp)

/-- The digest is verified where one was asked for. -/
theorem verification (plans : unit.PlansRows item compression checksum content) :
    Reader.planVerification checksum =
      if item.1.checksum = .none then .notDeclared else .verified := by
  have declared : checksum.algorithm ≠ .none ↔ item.1.checksum ≠ .none :=
    plans.sound.declared.trans (checksum_declared plans.holds.stored)
  unfold Reader.planVerification
  by_cases none : item.1.checksum = .none
  · rw [if_neg (fun some => declared.mp some none), if_pos none]
  · rw [if_pos (declared.mpr none), if_neg none]

/-- However a read of rows ends that has a plan. -/
theorem restored (plans : unit.PlansRows item compression checksum content) {stops : Error → Prop}
    {result : Result ImageRowReadSummary} {events : Trace}
    (outcome : Reader.RowReadOutcome unit.platform (.stable unit.bytes)
      (imagePlan item compression checksum) readOptions
      (Reader.resolveByteOrder unit.platform .little readOptions.byteOrder) result events) :
    RestoredRows unit item.1 readOptions stops result (consumed events) := by
  have filled := List.length_pos_iff.mpr plans.some
  cases outcome with
  | zeroLimits zero =>
      refine .nothing fun fits => ?_
      have row := fits.row
      have decoded := fits.decoded
      omega
  | stopped cancelled => cases cancelled.1
  | beyondLimits beyond =>
      refine .nothing fun fits => absurd
        (withinRowLimits plans.sound plans.some plans.shuffles ?_ fits) beyond
      have inside := plans.holds.inside
      rw [length_bytes]
      omega
  | unverified declared within cause =>
      rcases cause with failed | ⟨bytes, length, obtained, differs⟩
      · exact absurd failed (Reader.not_failedRead plans.inFile within)
      · exact absurd differs (plans.not_differs obtained length declared)
  | @delivered _ verifying delivering limits within passed outcome summary =>
      rw [consumed_append, consumed_reads within, List.nil_append]
      cases result with
      | error e =>
          refine ⟨fun decodes => (plans.refused outcome decodes).1, by simp,
            fun e' same decodes _ => .inr ?_⟩
          rw [Except.error.injEq] at same
          exact same ▸ (plans.refused outcome decodes).2
      | ok rowSummary =>
          have shown := plans.delivered outcome
          refine ⟨fun _ => ?_, fun other same => ⟨shown, ?_⟩, by simp⟩
          · rw [shown, List.map_map]
            exact (List.map_id _).symm ▸ List.prefix_rfl
          · rw [← Except.ok.inj same, summary rowSummary rfl, ← plans.verification]
            rfl

end PlansRows

end

variable {unit : WrittenUnit}

end WrittenUnit

/-! ## Opening and reading -/

end Mmxisf
