/-
# RowAgreement -- row delivery agrees with the owning read

`read_image_rows` reassembles rows while it reads; `read_image` makes the whole
planar image.  From the same file the rows shown are the rows of that image, in
`deliveryOrder`; what was shown when a delivery failed is a beginning of them;
and only the staging limits or the sink can fail a delivery of an image that
`read_image` reads.
-/
import Mmxisf.PixelOrder
import Mmxisf.Reader.RowDelivery

namespace Mmxisf

set_option autoImplicit false

open Library (slice)
open Library.Routine (wp EndsWith)
open Reader

/-! ## The order of delivery -/

/-- The channels and rows in the order of delivery: channel after channel from a
planar source, row after row from an interleaved one. -/
def deliveryOrder (plan : ImageReadPlan) : List (Nat × Nat) :=
  match plan.image.pixelStorage with
  | .planar => (List.range plan.channels).flatMap fun channel =>
      (List.range (axis plan.image 1)).map fun row => (channel, row)
  | .normal => (List.range (axis plan.image 1)).flatMap fun row =>
      (List.range plan.channels).map fun channel => (channel, row)

theorem mem_deliveryOrder (plan : ImageReadPlan) (channel row : Nat) :
    (channel, row) ∈ deliveryOrder plan ↔ channel < plan.channels ∧ row < axis plan.image 1 := by
  unfold deliveryOrder
  cases plan.image.pixelStorage with
  | planar => simp
  | normal =>
      simp only [List.mem_flatMap, List.mem_map, List.mem_range, Prod.mk.injEq]
      constructor
      · rintro ⟨_, small, _, inside, rfl, rfl⟩
        exact ⟨inside, small⟩
      · rintro ⟨inside, small⟩
        exact ⟨row, small, channel, inside, rfl, rfl⟩

/-- Every channel and row comes once. -/
theorem nodup_deliveryOrder (plan : ImageReadPlan) : (deliveryOrder plan).Nodup := by
  unfold deliveryOrder
  cases plan.image.pixelStorage with
  | planar =>
      refine List.nodup_flatMap.mpr ⟨fun channel _ => ?_, ?_⟩
      · exact List.nodup_range.map fun a b same => (Prod.mk.inj same).2
      · refine List.nodup_range.imp fun {a b} apart => ?_
        rintro ⟨channel, row⟩ left right
        simp only [List.mem_map, Prod.mk.injEq] at left right
        obtain ⟨-, -, rfl, -⟩ := left
        obtain ⟨-, -, rfl, -⟩ := right
        exact apart rfl
  | normal =>
      refine List.nodup_flatMap.mpr ⟨fun row _ => ?_, ?_⟩
      · exact List.nodup_range.map fun a b same => (Prod.mk.inj same).1
      · refine List.nodup_range.imp fun {a b} apart => ?_
        rintro ⟨channel, row⟩ left right
        simp only [List.mem_map, Prod.mk.injEq] at left right
        obtain ⟨-, -, -, rfl⟩ := left
        obtain ⟨-, -, -, rfl⟩ := right
        exact apart rfl

/-- The channels and rows that one source row becomes. -/
def sourcePlaces (plan : ImageReadPlan) (ordinal : Nat) : List (Nat × Nat) :=
  match plan.image.pixelStorage with
  | .planar => [(ordinal / axis plan.image 1, ordinal % axis plan.image 1)]
  | .normal => (List.range plan.channels).map fun channel => (channel, ordinal)

/-- The quotients and remainders of consecutive numbers are all pairs in order. -/
theorem map_divMod_range (height : Nat) (positive : 0 < height) : ∀ channels : Nat,
    (List.range (height * channels)).map (fun k => (k / height, k % height)) =
      (List.range channels).flatMap fun channel =>
        (List.range height).map fun row => (channel, row)
  | 0 => by simp
  | channels + 1 => by
      rw [Nat.mul_succ, List.range_add, List.map_append, map_divMod_range height positive channels,
        List.range_succ, List.flatMap_append, List.flatMap_singleton, List.map_map]
      congr 1
      apply List.map_congr_left
      intro row member
      rw [List.mem_range] at member
      simp only [Function.comp_def, Nat.mul_add_div positive, Nat.div_eq_of_lt member, Nat.add_zero,
        Nat.mul_add_mod, Nat.mod_eq_of_lt member]

/-- The source rows in order give the order of delivery. -/
theorem deliveryOrder_eq {plan : ImageReadPlan} (sound : plan.Sound) :
    deliveryOrder plan =
      (List.range' 0 (rowSizes plan).sourceRowCount).flatMap (sourcePlaces plan) := by
  unfold deliveryOrder sourcePlaces rowSizes
  cases plan.image.pixelStorage with
  | planar =>
      simp only [if_true, ← List.range_eq_range']
      rw [← map_divMod_range _ (Nat.pos_of_ne_zero sound.height), List.map_eq_flatMap]
  | normal => simp [← List.range_eq_range']

/-! ## The rows of an image -/

/-- The row of a channel in planar pixels, as a sink is shown it. -/
def imageRow (plan : ImageReadPlan) (outputByteOrder : ByteOrder) (pixels : Bytes)
    (place : Nat × Nat) : ImageRowView :=
  ⟨place.1, place.2, outputByteOrder,
    slice pixels ((place.1 * axis plan.image 1 + place.2) * (axis plan.image 0 * plan.sampleSize))
      (axis plan.image 0 * plan.sampleSize)⟩

/-- The channel and row of a view. -/
def rowPlace (view : ImageRowView) : Nat × Nat := (view.channelIndex, view.rowIndex)

section

variable {plan : ImageReadPlan} {outputByteOrder : ByteOrder}

/-- The context of a delivery of this image. -/
def rowContext (plan : ImageReadPlan) (outputByteOrder : ByteOrder) : RowContext :=
  ⟨plan, rowSizes plan, outputByteOrder⟩

theorem map_rowPlace_sourceRowViews (sourceRow : Bytes) (ordinal : Nat) :
    (sourceRowViews (rowContext plan outputByteOrder) sourceRow ordinal).map rowPlace =
      sourcePlaces plan ordinal := by
  unfold sourceRowViews sourcePlaces rowContext
  cases plan.image.pixelStorage with
  | planar => rfl
  | normal =>
      simp only [List.map_map, ← List.range_eq_range']
      rfl

theorem sourceRowBytes_pos (sound : plan.Sound) : 0 < (rowSizes plan).sourceRowBytes :=
  Nat.mul_pos (rowsPerSource_pos sound)
    (Nat.mul_pos (Nat.pos_of_ne_zero sound.width) sound.sample_pos)

theorem sourceRows_total (sound : plan.Sound) :
    (rowSizes plan).sourceRowCount * (rowSizes plan).sourceRowBytes = plan.expectedBytes := by
  have fits := rowSizes_fits plan
  rw [fits.sourceRow, ← Nat.mul_assoc, fits.sourceRows, fits.planarRows, fits.planeRow,
    fits.height, fits.width]
  exact sound.rowsTotal

/-- The rows of any bytes that fit the image are shown in the order of delivery. -/
theorem rowPlaces_first (sound : plan.Sound) {bytes : Bytes}
    (fits : bytes.length ≤ plan.expectedBytes) :
    (pixelRows (rowContext plan outputByteOrder) bytes).map rowPlace <+: deliveryOrder plan := by
  have places : (pixelRows (rowContext plan outputByteOrder) bytes).map rowPlace =
      (List.range' 0 (bytes.length / (rowSizes plan).sourceRowBytes)).flatMap
        (sourcePlaces plan) := by
    simp only [pixelRows, rowsFrom, List.map_flatMap, map_rowPlace_sourceRowViews]
    rfl
  have few : bytes.length / (rowSizes plan).sourceRowBytes ≤ (rowSizes plan).sourceRowCount := by
    rw [← sourceRows_total sound] at fits
    calc bytes.length / (rowSizes plan).sourceRowBytes
        ≤ (rowSizes plan).sourceRowCount * (rowSizes plan).sourceRowBytes /
            (rowSizes plan).sourceRowBytes := Nat.div_le_div_right fits
      _ = (rowSizes plan).sourceRowCount := Nat.mul_div_cancel _ (sourceRowBytes_pos sound)
  have split := List.range'_append_1 (s := 0)
    (m := bytes.length / (rowSizes plan).sourceRowBytes)
    (n := (rowSizes plan).sourceRowCount - bytes.length / (rowSizes plan).sourceRowBytes)
  rw [Nat.add_sub_cancel' few] at split
  rw [places, deliveryOrder_eq sound, ← split, List.flatMap_append]
  exact List.prefix_append _ _

/-- A sample of an ordered row is the ordered sample. -/
theorem slice_orderedBytes (sound : plan.Sound) {width : Nat} {row : Bytes}
    (length : row.length = width * plan.sampleSize) {pixel : Nat} (small : pixel < width) :
    slice (plan.orderedBytes outputByteOrder row) (pixel * plan.sampleSize) plan.sampleSize =
      plan.orderedBytes outputByteOrder
        (slice row (pixel * plan.sampleSize) plan.sampleSize) := by
  unfold ImageReadPlan.orderedBytes
  split
  · rfl
  · obtain ⟨components, -, -, size, -⟩ := sound.sample
    have whole : row.length = width * components * plan.endianComponentSize := by
      rw [length, size, Nat.mul_assoc]
    have inside : pixel * components + components ≤ width * components := by
      rw [← Nat.succ_mul]
      exact Nat.mul_le_mul_right _ small
    have pieces := Library.mirrored_slice sound.component_pos whole inside
    rwa [Nat.mul_assoc, ← size] at pieces

/-- An ordered row is the image's row when its samples are. -/
theorem orderedBytes_eq_imageRow (sound : plan.Sound) {source pixels row : Bytes}
    (reference : plan.IsReference .planar outputByteOrder source pixels) {channel rowIndex : Nat}
    (channelSmall : channel < plan.channels) (rowSmall : rowIndex < axis plan.image 1)
    (length : row.length = axis plan.image 0 * plan.sampleSize)
    (samples : ∀ pixel < axis plan.image 0,
      slice row (pixel * plan.sampleSize) plan.sampleSize =
        slice source (plan.sampleIndex plan.image.pixelStorage channel
          (rowIndex * axis plan.image 0 + pixel) * plan.sampleSize) plan.sampleSize) :
    plan.orderedBytes outputByteOrder row =
      (imageRow plan outputByteOrder pixels (channel, rowIndex)).bytes := by
  obtain ⟨components, -, -, size, -⟩ := sound.sample
  have pixelSmall : ∀ pixel < axis plan.image 0,
      rowIndex * axis plan.image 0 + pixel < plan.pixelCount := by
    intro pixel small
    rw [sound.pixels]
    calc rowIndex * axis plan.image 0 + pixel
        < rowIndex * axis plan.image 0 + axis plan.image 0 := by omega
      _ = (rowIndex + 1) * axis plan.image 0 := (Nat.succ_mul _ _).symm
      _ ≤ axis plan.image 1 * axis plan.image 0 := Nat.mul_le_mul_right _ rowSmall
      _ = axis plan.image 0 * axis plan.image 1 := Nat.mul_comm _ _
  have rowRoom : (channel * axis plan.image 1 + rowIndex) * (axis plan.image 0 * plan.sampleSize) +
      axis plan.image 0 * plan.sampleSize ≤ pixels.length := by
    have total := sound.rowsTotal
    rw [reference.length, ← total, ← Nat.succ_mul]
    refine Nat.mul_le_mul_right _ ?_
    calc channel * axis plan.image 1 + rowIndex + 1
        ≤ channel * axis plan.image 1 + axis plan.image 1 := by omega
      _ = (channel + 1) * axis plan.image 1 := (Nat.succ_mul _ _).symm
      _ ≤ plan.channels * axis plan.image 1 := Nat.mul_le_mul_right _ channelSmall
      _ = axis plan.image 1 * plan.channels := Nat.mul_comm _ _
  refine Library.eq_of_slices ?_
    (Library.length_slice rowRoom) fun pixel small => ?_
  · unfold ImageReadPlan.orderedBytes
    split
    · exact length
    · have whole : row.length = axis plan.image 0 * components * plan.endianComponentSize := by
        rw [length, size, Nat.mul_assoc]
      rw [Library.length_mirrored sound.component_pos whole, ← whole, length]
  · have sample := reference.sample channel channelSmall _ (pixelSmall pixel small)
    have inside : pixel * plan.sampleSize + plan.sampleSize ≤
        axis plan.image 0 * plan.sampleSize := by
      rw [← Nat.succ_mul]
      exact Nat.mul_le_mul_right _ small
    have place : (channel * axis plan.image 1 + rowIndex) * (axis plan.image 0 * plan.sampleSize) +
        pixel * plan.sampleSize =
        plan.sampleIndex .planar channel (rowIndex * axis plan.image 0 + pixel) *
          plan.sampleSize := by
      simp only [ImageReadPlan.sampleIndex, sound.pixels, Nat.mul_add, Nat.mul_assoc,
        Nat.mul_left_comm, Nat.mul_comm]
      omega
    rw [slice_orderedBytes sound length small, samples pixel small, ← sample]
    simp only [imageRow]
    rw [Library.slice_slice inside, place]

/-- The rows of the decoded source are the rows of the planar image. -/
theorem pixelRows_eq_imageRows (sound : plan.Sound) {source pixels : Bytes}
    (length : source.length = plan.expectedBytes)
    (reference : plan.IsReference .planar outputByteOrder source pixels) :
    pixelRows (rowContext plan outputByteOrder) source =
      (deliveryOrder plan).map (imageRow plan outputByteOrder pixels) := by
  have count : source.length / (rowSizes plan).sourceRowBytes = (rowSizes plan).sourceRowCount := by
    rw [length, ← sourceRows_total sound, Nat.mul_div_cancel _ (sourceRowBytes_pos sound)]
  have all : pixelRows (rowContext plan outputByteOrder) source =
      (List.range' 0 (rowSizes plan).sourceRowCount).flatMap fun ordinal =>
        sourceRowViews (rowContext plan outputByteOrder)
          (slice source (ordinal * (rowSizes plan).sourceRowBytes) (rowSizes plan).sourceRowBytes)
          ordinal := by
    rw [← count]
    rfl
  rw [all, deliveryOrder_eq sound, List.map_flatMap]
  apply List.flatMap_congr
  intro ordinal member
  simp only [List.mem_range'_1, Nat.zero_add] at member
  have room : ordinal * (rowSizes plan).sourceRowBytes + (rowSizes plan).sourceRowBytes ≤
      source.length := by
    rw [length, ← sourceRows_total sound, ← Nat.succ_mul]
    exact Nat.mul_le_mul_right _ member.2
  have rowLength := Library.length_slice room
  have height := Nat.pos_of_ne_zero sound.height
  unfold sourceRowViews sourcePlaces rowContext
  cases storage : plan.image.pixelStorage with
  | planar =>
      have bytes : (rowSizes plan).sourceRowBytes = axis plan.image 0 * plan.sampleSize := by
        simp only [rowSizes, rowsPerSource, storage, Nat.one_mul]
      have channelSmall : ordinal / axis plan.image 1 < plan.channels := by
        have small := member.2
        simp only [rowSizes, storage, if_true] at small
        exact Nat.div_lt_of_lt_mul small
      have rowSmall := Nat.mod_lt ordinal height
      have parts := Nat.div_add_mod ordinal (axis plan.image 1)
      simp only [List.map_cons, List.map_nil, List.cons.injEq, and_true]
      rw [orderedBytes_eq_imageRow sound reference channelSmall rowSmall
        (rowLength.trans bytes) fun pixel small => ?_]
      · rfl
      · have inside : pixel * plan.sampleSize + plan.sampleSize ≤
            (rowSizes plan).sourceRowBytes := by
          rw [bytes, ← Nat.succ_mul]
          exact Nat.mul_le_mul_right _ small
        rw [Library.slice_slice inside]
        congr 1
        have index : plan.sampleIndex plan.image.pixelStorage (ordinal / axis plan.image 1)
            (ordinal % axis plan.image 1 * axis plan.image 0 + pixel) =
            ordinal * axis plan.image 0 + pixel := by
          simp only [ImageReadPlan.sampleIndex, storage, sound.pixels]
          calc ordinal / axis plan.image 1 * (axis plan.image 0 * axis plan.image 1) +
                (ordinal % axis plan.image 1 * axis plan.image 0 + pixel)
              = (axis plan.image 1 * (ordinal / axis plan.image 1) + ordinal % axis plan.image 1) *
                  axis plan.image 0 + pixel := by
                rw [Nat.add_mul, Nat.add_assoc, Nat.mul_comm (axis plan.image 0),
                  ← Nat.mul_assoc, Nat.mul_comm (ordinal / axis plan.image 1)]
            _ = ordinal * axis plan.image 0 + pixel := by rw [parts]
        rw [index, bytes, Nat.add_mul, Nat.mul_assoc]
  | normal =>
      have bytes : (rowSizes plan).sourceRowBytes =
          plan.channels * (axis plan.image 0 * plan.sampleSize) := by
        simp only [rowSizes, rowsPerSource, storage]
      have rowSmall : ordinal < axis plan.image 1 := by
        have small := member.2
        simpa only [rowSizes, storage, reduceCtorEq, if_false] using small
      simp only [List.map_map, ← List.range_eq_range']
      apply List.map_congr_left
      intro channel channelMember
      rw [List.mem_range] at channelMember
      have channelRoom := channelRow_room channelMember
        (rowLength.trans bytes)
      have split := orderedBytes_eq_imageRow sound reference channelMember rowSmall
        (length_channelRow channelRoom) fun pixel small => ?_
      · simp only [Function.comp_def, imageRow, ImageRowView.mk.injEq, true_and]
        exact split
      · have pieces : ∀ i < axis plan.image 0, (slice (slice source
              (ordinal * (rowSizes plan).sourceRowBytes) (rowSizes plan).sourceRowBytes)
              (((0 + i) * plan.channels + channel) * plan.sampleSize) plan.sampleSize).length =
            plan.sampleSize := fun i inside => by
          rw [Nat.zero_add]
          exact Library.length_slice (channelRoom i inside)
        have inside := channelRoom pixel small
        rw [rowLength] at inside
        rw [channelRow, Library.slice_flatMap_range pieces small, Nat.zero_add,
          Library.slice_slice inside]
        congr 1
        simp only [ImageReadPlan.sampleIndex, storage, bytes, Nat.mul_add, Nat.mul_left_comm,
          Nat.mul_comm]
        omega

end

/-! ## Agreement -/

/-- The rows that were shown, each with the sink's answer. -/
def consumed (events : Trace) : List (ImageRowView × Result Unit) :=
  events.filterMap fun event =>
    match event with
    | .consumed row reply => some (row, reply)
    | _ => none

theorem consumed_append (events later : Trace) :
    consumed (events ++ later) = consumed events ++ consumed later := List.filterMap_append

theorem consumed_shown (views : List ImageRowView) :
    consumed (shown views) = views.map fun view => (view, .ok ()) := by
  simp only [consumed, shown, List.filterMap_map, Function.comp_def, List.filterMap_eq_map']

theorem consumed_filter (events : Trace) :
    consumed (events.filter ReadEvent.isConsumed) = consumed events := by
  unfold consumed
  rw [List.filterMap_filter]
  apply List.filterMap_congr
  intro event _
  cases event <;> rfl

theorem consumed_reads {env : Environment} {place : BlockPlace} {start stop : Nat} {events : Trace}
    (within : ReadsWithin env place start stop events) : consumed events = [] := by
  rw [← consumed_filter, (isRead_of_within within).2]
  rfl

/-- The rows shown are a beginning of those to be shown; when no stop was
requested a failure is the sink's answer to the last. -/
theorem consumed_emits {file : Bytes} {views : List ImageRowView} {result : Result Unit}
    {events : Trace}
    (emits : Emits (.stable file) views result (events.filter ReadEvent.isConsumed)) :
    (result = .ok () → consumed events = views.map fun view => (view, .ok ())) ∧
      (consumed events).map Prod.fst <+: views ∧
      ∀ e, result = .error e → ∃ view, (consumed events).getLast? = some (view, .error e) := by
  rw [← consumed_filter]
  generalize events.filter ReadEvent.isConsumed = taken at emits
  cases emits with
  | all =>
      rw [consumed_shown]
      refine ⟨fun _ => rfl, ?_, by simp⟩
      simp [Function.comp_def]
  | cancelled split cancelled => cases cancelled.1
  | @refused e before after view split refusal =>
      have last : consumed (shown before ++ [.consumed view (.error e)]) =
          before.map (fun view => (view, .ok ())) ++ [(view, .error e)] := by
        rw [consumed_append, consumed_shown]
        rfl
      rw [last, split]
      refine ⟨by simp, ?_, ?_⟩
      · rw [List.map_append, List.map_map]
        refine ⟨after, ?_⟩
        simp [Function.comp_def]
      · rintro e' same
        rw [Except.error.injEq] at same
        exact ⟨view, by rw [List.getLast?_concat, same]⟩

/-- What the row delivery of an image has to do with the planar image that
`read_image` makes of it in the same byte order. -/
structure RowsAgree (platform : Platform) (reader : Impl) (file : Bytes) (imageIndex : Nat)
    (readOptions : ImageRowReadOptions) (result : Result ImageRowReadSummary) (trace : Trace) :
    Prop where
  /-- A delivery that succeeds showed the rows of that image. -/
  delivered : ∀ summary, result = .ok summary → ∃ plan image,
    planImageRead reader.document reader.options reader.embeddedBlocks imageIndex = .ok plan ∧
    EndsWith ((Environment.stable file).world platform)
      (readImage platform reader imageIndex ⟨.planar, readOptions.byteOrder⟩) () [] (.ok image) ∧
    image.pixels.length =
      axis plan.image 1 * plan.channels * (axis plan.image 0 * plan.sampleSize) ∧
    consumed trace = (deliveryOrder plan).map (fun place =>
      (imageRow plan image.byteOrder image.pixels place, .ok ())) ∧
    summary.rowsDelivered = axis plan.image 1 * plan.channels ∧
    summary.bytesDelivered = image.pixels.length
  /-- A delivery that fails although the image is read was refused by the staging
  limits or by the sink. -/
  refused : ∀ e image, result = .error e →
    EndsWith ((Environment.stable file).world platform)
      (readImage platform reader imageIndex ⟨.planar, readOptions.byteOrder⟩) () [] (.ok image) →
    (readOptions.maxRowBytes = 0 ∨ readOptions.maxSubblockBytes = 0) ∨
      (∃ plan, planImageRead reader.document reader.options reader.embeddedBlocks imageIndex =
        .ok plan ∧ ¬ WithinRowLimits plan readOptions) ∨
      ∃ view, (consumed trace).getLast? = some (view, .error e)
  /-- The rows that a failed delivery showed are the first in the order of
  delivery, and the first of the image if there is one. -/
  shown : ∀ e, result = .error e →
    match planImageRead reader.document reader.options reader.embeddedBlocks imageIndex with
    | .error _ => consumed trace = []
    | .ok plan =>
        (consumed trace).map (fun row => rowPlace row.1) <+: deliveryOrder plan ∧
        ∀ image, EndsWith ((Environment.stable file).world platform)
            (readImage platform reader imageIndex ⟨.planar, readOptions.byteOrder⟩) () []
            (.ok image) →
          (consumed trace).map Prod.fst <+:
            (deliveryOrder plan).map (imageRow plan image.byteOrder image.pixels)

/-- The rows of progress are the first rows of the image. -/
theorem Reader.Progress.agrees {platform : Platform} {plan : ImageReadPlan} {file : Bytes}
    {outputByteOrder : ByteOrder} {result : Result Unit} {serialized decoded : Bytes}
    {events : Trace} (sound : plan.Sound)
    (inFile : plan.place.inlineBlock = none →
      plan.place.offset + plan.serializedBytes ≤ file.length)
    (progress : Progress platform (.stable file) (rowContext plan outputByteOrder) result serialized
      decoded events) :
    (consumed events).map (fun row => rowPlace row.1) <+: deliveryOrder plan ∧
      ∀ source pixels, imagePixels platform plan file = some source →
        plan.IsReference .planar outputByteOrder source pixels →
        (consumed events).map Prod.fst <+:
          (deliveryOrder plan).map (imageRow plan outputByteOrder pixels) := by
  obtain ⟨-, first, -⟩ := consumed_emits progress.emits
  constructor
  · have places := first.map rowPlace
    rw [List.map_map] at places
    exact places.trans (rowPlaces_first sound progress.fits)
  · intro source pixels found reference
    obtain ⟨passed, decodes⟩ := imagePixels_eq_some.mp found
    have same := progress.obtained.eq_bytesIn inFile
    have beginning : serialized <+: plan.place.bytesIn file 0 plan.serializedBytes := by
      rw [same]
      exact plan.place.bytesIn_first file progress.short
    have sourceLength : source.length = plan.expectedBytes := by
      refine (length_blockBytes sound.fits ?_ decodes).trans sound.uncompressedSize
      exact plan.place.length_bytesIn sound.place inFile
    rw [← pixelRows_eq_imageRows sound sourceLength reference]
    exact first.trans (pixelRows_extends (progress.future _ _ beginning decodes))

/-- An image that `read_image` ends with is the planar reference of the pixels in
the file. -/
theorem image_of_endsWith {platform : Platform} {reader : Impl} {file : Bytes} {imageIndex : Nat}
    {byteOrder : ByteOrderOutput} {plan : ImageReadPlan} {image : RawImage}
    (sized : file.length = reader.document.fileSize)
    (planned : planImageRead reader.document reader.options reader.embeddedBlocks imageIndex =
      .ok plan)
    (ends : EndsWith ((Environment.stable file).world platform)
      (readImage platform reader imageIndex ⟨.planar, byteOrder⟩) () [] (.ok image)) :
    ∃ source, imagePixels platform plan file = some source ∧
      plan.IsReference .planar (resolveByteOrder platform plan.image.byteOrder byteOrder) source
        image.pixels ∧
      image.byteOrder = resolveByteOrder platform plan.image.byteOrder byteOrder := by
  have reads := @readImage_ofStable _ platform _ _ _ _ sized planned ⟨.planar, byteOrder⟩ () []
  cases found : imagePixels platform plan file with
  | none =>
      rw [found] at reads
      obtain ⟨e, impossible⟩ := ends.holds reads
      cases impossible
  | some source =>
      rw [found] at reads
      obtain ⟨output, reference, other⟩ := reads
      have same := ends.holds other.1
      rw [Except.ok.injEq] at same
      subst same
      exact ⟨source, rfl, reference, rfl⟩

/-- Whatever the image, the options and the way the file splits reads, every
execution of `read_image_rows` agrees with `read_image`; and the order of
delivery has every channel and row once. -/
theorem readImageRows_agrees (platform : Platform) (reader : Impl) (file : FileOf reader.document)
    (imageIndex : Nat) (readOptions : ImageRowReadOptions) :
    wp ((Environment.stable file.bytes).world platform)
        (readImageRows platform reader imageIndex readOptions)
        (fun result _ trace =>
          RowsAgree platform reader file.bytes imageIndex readOptions result trace) () [] ∧
      ∀ plan, (deliveryOrder plan).Nodup ∧ ∀ channel row,
        (channel, row) ∈ deliveryOrder plan ↔
          channel < plan.channels ∧ row < axis plan.image 1 := by
  refine ⟨?_, fun plan => ⟨nodup_deliveryOrder plan, mem_deliveryOrder plan⟩⟩
  refine Library.Routine.wp_mono ?_ (readImageRows_reads (L := Unit) reader imageIndex readOptions
    () [])
  rintro result m t ⟨-, events, rfl, outcome⟩
  cases planned : planImageRead reader.document reader.options reader.embeddedBlocks imageIndex with
  | error e =>
      rw [planned] at outcome
      obtain ⟨rfl, rfl⟩ := outcome
      refine ⟨by simp, fun e' image _ ends => ?_, fun e' _ => by rw [planned]; rfl⟩
      have refused : wp ((Environment.stable file.bytes).world platform)
          (readImage platform reader imageIndex ⟨.planar, readOptions.byteOrder⟩)
          (fun ended _ _ => ended = .error e) () [] := by
        refine Library.Routine.wp_mono ?_ (readImage_reads (L := Unit) reader imageIndex
          ⟨.planar, readOptions.byteOrder⟩ () [])
        rintro ended _ _ ⟨-, _, -, outcome⟩
        rw [planned] at outcome
        exact outcome.1
      cases ends.holds refused
  | ok plan =>
      rw [planned] at outcome
      unfold PlannedOutcome at outcome
      obtain ⟨sound, found⟩ := planImageRead_sound reader.wellFormed planned
      have inFile := sound.inFile reader.wellFormed (image_block_mem found)
      rw [← file.sized] at inFile
      have reads := fun image ends => @image_of_endsWith platform _ _ _ readOptions.byteOrder _
        image file.sized planned ends
      -- what a failure owes: a cause, and rows that are the first ones
      have failure {e : Error} {shownEvents : Trace}
          (cause : (∃ source, imagePixels platform plan file.bytes = some source) →
            (readOptions.maxRowBytes = 0 ∨ readOptions.maxSubblockBytes = 0) ∨
              ¬ WithinRowLimits plan readOptions ∨
              ∃ view, (consumed shownEvents).getLast? = some (view, .error e))
          (places : (consumed shownEvents).map (fun row => rowPlace row.1) <+: deliveryOrder plan)
          (rows : ∀ source pixels, imagePixels platform plan file.bytes = some source →
            plan.IsReference .planar
              (resolveByteOrder platform plan.image.byteOrder readOptions.byteOrder) source pixels →
            (consumed shownEvents).map Prod.fst <+: (deliveryOrder plan).map (imageRow plan
              (resolveByteOrder platform plan.image.byteOrder readOptions.byteOrder) pixels)) :
          RowsAgree platform reader file.bytes imageIndex readOptions (.error e) shownEvents := by
        refine ⟨by simp, fun e' image same ends => ?_, fun e' _ => ?_⟩
        · rw [Except.error.injEq] at same
          subst same
          obtain ⟨source, there, -⟩ := reads image ends
          rcases cause ⟨source, there⟩ with zero | beyond | last
          · exact .inl zero
          · exact .inr (.inl ⟨plan, planned, beyond⟩)
          · exact .inr (.inr last)
        · rw [planned]
          refine ⟨places, fun image ends => ?_⟩
          obtain ⟨source, there, reference, order⟩ := reads image ends
          rw [order]
          exact rows source image.pixels there reference
      have nothing {e : Error} {shownEvents : Trace} (silent : consumed shownEvents = [])
          (cause : (∃ source, imagePixels platform plan file.bytes = some source) →
            (readOptions.maxRowBytes = 0 ∨ readOptions.maxSubblockBytes = 0) ∨
              ¬ WithinRowLimits plan readOptions) :
          RowsAgree platform reader file.bytes imageIndex readOptions (.error e) shownEvents := by
        refine failure (fun there => (cause there).imp_right .inl) ?_ fun _ _ _ _ => ?_
        · rw [silent]
          exact List.nil_prefix
        · rw [silent]
          exact List.nil_prefix
      cases outcome with
      | zeroLimits zero => exact nothing rfl fun _ => .inl zero
      | stopped cancelled => cases cancelled.1
      | beyondLimits beyond => exact nothing rfl fun _ => .inr beyond
      | unverified declared within cause =>
          refine nothing (consumed_reads within) ?_
          rintro ⟨source, there⟩
          rcases cause with failed | ⟨bytes, length, obtained, differs⟩
          · exact absurd failed (not_failedRead inFile within)
          · have same := obtained.eq_bytesIn inFile
            rw [length] at same
            rw [same, (imagePixels_eq_some.mp there).1 declared] at differs
            cases differs
      | @delivered _ verifying delivering limits within verified outcome summary =>
          have silent : consumed (verifying ++ delivering) = consumed delivering := by
            rw [consumed_append, consumed_reads within, List.nil_append]
          cases result with
          | error e =>
              change DeliveryOutcome platform _ _ (.error e) delivering at outcome
              cases outcome with
              | stopped progress cancelled => cases cancelled.1
              | @mismatch serialized decoded _ _ progress whole declared differs =>
                  obtain ⟨places, rows⟩ := progress.agrees sound inFile
                  rw [← silent] at places rows
                  refine failure ?_ places rows
                  rintro ⟨source, there⟩
                  have same := progress.obtained.eq_bytesIn inFile
                  change serialized.length = plan.serializedBytes at whole
                  rw [whole] at same
                  rw [same] at differs
                  exact absurd ((imagePixels_eq_some.mp there).1 declared) (by
                    rw [show digestMatches platform plan.checksum _ = false from differs]
                    simp)
              | refused progress =>
                  obtain ⟨places, rows⟩ := progress.agrees sound inFile
                  rw [← silent] at places rows
                  refine failure (fun _ => .inr (.inr ?_)) places rows
                  rw [silent]
                  exact (consumed_emits progress.emits).2.2 e rfl
              | readFailed progress within cause =>
                  exact absurd cause (not_failedRead inFile within)
              | @undecodable serialized decoded _ _ progress cause =>
                  obtain ⟨places, rows⟩ := progress.agrees sound inFile
                  rw [← silent] at places rows
                  refine failure ?_ places rows
                  rintro ⟨source, there⟩
                  have same := progress.obtained.eq_bytesIn inFile
                  obtain ⟨e', failed⟩ := cause (plan.place.bytesIn file.bytes 0
                    plan.serializedBytes)
                    (by rw [same]; exact plan.place.bytesIn_first file.bytes progress.short)
                  have decodes := (imagePixels_eq_some.mp there).2
                  exact absurd (failed.symm.trans decodes) (by simp)
          | ok rowSummary =>
              change DeliveryOutcome platform _ _ (.ok ()) delivering at outcome
              obtain rfl := summary rowSummary rfl
              refine ⟨fun other same => ?_, by simp, by simp⟩
              rw [Except.ok.injEq] at same
              subst same
              cases outcome with
              | @complete serialized decoded _ progress whole decodes verified =>
                  have same := progress.obtained.eq_bytesIn inFile
                  change serialized.length = plan.serializedBytes at whole
                  rw [whole] at same
                  change serialized = plan.place.bytesIn file.bytes 0 plan.serializedBytes at same
                  have there : imagePixels platform plan file.bytes = some decoded :=
                    imagePixels_eq_some.mpr (same ▸ ⟨verified, decodes⟩)
                  have image := @readImage_ofStable _ platform _ _ _ _ file.sized planned
                    ⟨.planar, readOptions.byteOrder⟩ () []
                  rw [there] at image
                  obtain ⟨output, reference, ends⟩ := image
                  have sourceLength : decoded.length = plan.expectedBytes :=
                    (length_blockBytes sound.fits whole decodes).trans sound.uncompressedSize
                  refine ⟨plan, _, planned, ends, reference.length.trans sound.rowsTotal.symm, ?_,
                    rfl, reference.length.symm⟩
                  have rows := (consumed_emits progress.emits).1 rfl
                  have same := pixelRows_eq_imageRows sound sourceLength reference
                  change pixelRows _ decoded = _ at same
                  refine (silent.trans rows).trans ((congrArg _ same).trans ?_)
                  rw [List.map_map]
                  rfl

end Mmxisf
