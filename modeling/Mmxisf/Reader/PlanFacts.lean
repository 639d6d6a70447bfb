/-
# Reader.PlanFacts -- what a plan guarantees

A plan that was accepted has sizes that fit together: the subblocks add up to
the block, the block is where its bytes are, and the samples add up to the
image.  Everything proved about reads rests on these facts and not on how the
plan was made.
-/
import Mmxisf.Reader.Serialized
import Mmxisf.Reader.Decoded

namespace Mmxisf.Reader

set_option autoImplicit false

/-! ## Compression plans -/

/-- A compression plan fits a block of `serializedBytes` bytes. -/
structure CompressionPlan.Fits (plan : CompressionPlan) (serializedBytes : Nat) : Prop where
  uncompressed : plan.codec = .none →
    plan.uncompressedSize = serializedBytes ∧ plan.subblocks = [] ∧ plan.byteShuffled = false
  compressed : plan.codec ≠ .none → compressedTotal plan.subblocks = serializedBytes ∧
    uncompressedTotal plan.subblocks = plan.uncompressedSize
  shuffled : plan.byteShuffled = true → plan.itemSize ≠ 0

theorem parseSubblocks_totals {options : ReaderOptions} :
    ∀ {pairs : List Text} {count compressed uncompressed totalCompressed totalUncompressed : Nat}
      {subblocks : List CompressionSubblock},
      compressed ≤ u64Max → uncompressed ≤ u64Max →
      parseSubblocks options count compressed uncompressed pairs =
        .ok (subblocks, totalCompressed, totalUncompressed) →
      totalCompressed = compressed + compressedTotal subblocks ∧
        totalUncompressed = uncompressed + uncompressedTotal subblocks
  | [], _, _, _, _, _, _, _, _, run => by
      simp only [parseSubblocks, Except.ok.injEq, Prod.mk.injEq] at run
      obtain ⟨rfl, rfl, rfl⟩ := run
      exact ⟨rfl, rfl⟩
  | pair :: rest, count, compressed, uncompressed, totalCompressed, totalUncompressed, subblocks,
      smallCompressed, smallUncompressed, run => by
      simp only [parseSubblocks, bind_eq_ok, orFail_eq_ok, pure, Except.pure, Except.ok.injEq,
        Prod.mk.injEq] at run
      obtain ⟨_, -, subblock, -, nextCompressed, sumCompressed, nextUncompressed, sumUncompressed,
        ⟨later, totals⟩, parsed, rfl, rfl⟩ := run
      obtain ⟨rfl, fitsCompressed⟩ := (checkedAdd_eq_some smallCompressed).mp sumCompressed
      obtain ⟨rfl, fitsUncompressed⟩ := (checkedAdd_eq_some smallUncompressed).mp sumUncompressed
      obtain ⟨sameCompressed, sameUncompressed⟩ :=
        parseSubblocks_totals fitsCompressed fitsUncompressed parsed
      simp only [compressedTotal, uncompressedTotal, List.map_cons, List.sum_cons] at *
      omega

theorem compressionCodec_ne_none {name : Text} {codec : CompressionCodec} {shuffled : Bool}
    (found : compressionCodec name = some (codec, shuffled)) : codec ≠ .none := by
  unfold compressionCodec at found
  repeat' split at found
  all_goals first
    | (obtain ⟨rfl, -⟩ := Prod.mk.inj (Option.some.inj found); decide)
    | cases found

theorem eq_of_not_any_ne {size expected : Nat}
    (same : ¬ (some expected).any (fun value => decide (value ≠ size)) = true) :
    size = expected := by
  simp only [Option.any_some, decide_eq_true_eq, not_not] at same
  exact same.symm

/-- An accepted compression descriptor fits its block, and declares the expected
size. -/
theorem parseCompressionPlan_fits {compression subblocks : Text} {serializedBytes : Nat}
    {expectedBytes : Option Nat} {options : ReaderOptions}
    {itemSize maxSerializedBytes maxDecodedBytes : Nat} {plan : CompressionPlan}
    (run : parseCompressionPlan compression subblocks serializedBytes expectedBytes options itemSize
      maxSerializedBytes maxDecodedBytes = .ok plan) :
    plan.Fits serializedBytes ∧ (∀ expected, expectedBytes = some expected →
      plan.uncompressedSize = expected) := by
  simp only [parseCompressionPlan, bind_eq_ok] at run
  obtain ⟨_, -, _, -, run⟩ := run
  obtain ⟨-, run⟩ | ⟨-, run⟩ := ite_eq_ok run
  · simp only [parseUncompressedPlan, bind_eq_ok, reject_eq_ok, pure, Except.pure,
      Except.ok.injEq] at run
    obtain ⟨_, -, _, expected, _, -, rfl⟩ := run
    refine ⟨⟨fun _ => ⟨rfl, rfl, rfl⟩, fun coded => absurd rfl coded, fun shuffled => ?_⟩, ?_⟩
    · cases shuffled
    · rintro size rfl
      exact eq_of_not_any_ne expected
  · simp only [bind_eq_ok, orFail_eq_ok, reject_eq_ok, pure, Except.pure] at run
    obtain ⟨_, -, ⟨codec, byteShuffled⟩, named, _, -, uncompressedSize, -, _, expected, item,
      declared, _, -, _, -, _, -, run⟩ := run
    have coded : codec ≠ .none := compressionCodec_ne_none named
    have itemThere : byteShuffled = true → item ≠ 0 := by
      rintro rfl
      simp only [if_true, Option.filter_eq_some_iff, Bool.and_eq_true,
        decide_eq_true_eq] at declared
      exact declared.2.1
    have sized : ∀ size, expectedBytes = some size → uncompressedSize = size := by
      rintro size rfl
      exact eq_of_not_any_ne expected
    obtain ⟨-, run⟩ | ⟨-, run⟩ := ite_eq_ok run
    · rw [Except.ok.injEq] at run
      subst run
      refine ⟨⟨fun none => absurd none coded, fun _ => ?_, itemThere⟩, sized⟩
      simp [compressedTotal, uncompressedTotal]
    · simp only [bind_eq_ok, reject_eq_ok, Except.ok.injEq, not_or, not_not] at run
      obtain ⟨⟨parsed, totals⟩, subblocksParsed, _, ⟨compressedSame, uncompressedSame⟩, rfl⟩ := run
      obtain ⟨compressedSum, uncompressedSum⟩ :=
        parseSubblocks_totals (Nat.zero_le _) (Nat.zero_le _) subblocksParsed
      refine ⟨⟨fun none => absurd none coded, fun _ => ⟨?_, ?_⟩, itemThere⟩, sized⟩
      · dsimp only at *
        omega
      · dsimp only at *
        omega

/-- A block of a plan fits the memory. -/
theorem parseCompressionPlan_addressable {compression subblocks : Text} {serializedBytes : Nat}
    {expectedBytes : Option Nat} {options : ReaderOptions}
    {itemSize maxSerializedBytes maxDecodedBytes : Nat} {plan : CompressionPlan}
    (run : parseCompressionPlan compression subblocks serializedBytes expectedBytes options itemSize
      maxSerializedBytes maxDecodedBytes = .ok plan) : serializedBytes ≤ u64Max := by
  simp only [parseCompressionPlan, bind_eq_ok, reject_eq_ok] at run
  obtain ⟨_, -, _, fits, -⟩ := run
  exact Nat.le_of_not_gt fits

/-! ## Checksum plans -/

theorem checksumAlgorithm_ne_none {name : Text} {algorithm : ChecksumAlgorithm} {size : Nat}
    (found : checksumAlgorithm name = some (algorithm, size)) : algorithm ≠ .none := by
  unfold checksumAlgorithm at found
  repeat' split at found
  all_goals first
    | (obtain ⟨rfl, -⟩ := Prod.mk.inj (Option.some.inj found); decide)
    | cases found

/-- A plan has an algorithm exactly when a checksum was declared. -/
theorem parseChecksumPlan_declared {checksum : Text} {plan : ChecksumPlan}
    (run : parseChecksumPlan checksum = .ok plan) : plan.algorithm ≠ .none ↔ checksum ≠ [] := by
  unfold parseChecksumPlan at run
  obtain ⟨empty, run⟩ | ⟨declared, run⟩ := ite_eq_ok run
  · rw [Except.ok.injEq] at run
    subst run
    simp [empty]
  · split at run
    · simp only [bind_eq_ok, orFail_eq_ok, pure, Except.pure, Except.ok.injEq] at run
      obtain ⟨⟨algorithm, size⟩, named, _, -, digest, -, rfl⟩ := run
      simp [declared, checksumAlgorithm_ne_none named]
    · cases run

/-! ## Image plans -/

/-- What an image plan guarantees, whether of an image or of a thumbnail. -/
structure ImageReadPlan.Sound (plan : ImageReadPlan) : Prop where
  channels : plan.channels ≠ 0
  pixels : plan.pixelCount = axis plan.image 0 * axis plan.image 1
  width : axis plan.image 0 ≠ 0
  height : axis plan.image 1 ≠ 0
  samples : plan.sampleCount = plan.channels * plan.pixelCount
  bytes : plan.expectedBytes = plan.sampleCount * plan.sampleSize
  small : plan.expectedBytes ≤ u64Max
  component : plan.endianComponentSize ≠ 0
  sample : ∃ components, components ≠ 0 ∧ components ≤ 2 ∧
    plan.sampleSize = components * plan.endianComponentSize ∧ plan.sampleSize ≤ 16
  single : plan.sampleSize = 1 → plan.endianComponentSize = 1
  fits : plan.compression.Fits plan.serializedBytes
  uncompressedSize : plan.compression.uncompressedSize = plan.expectedBytes
  place : plan.place.Holds plan.serializedBytes
  attached : plan.embeddedBlock = none →
    plan.image.block.kind = .attachment ∧ plan.serializedBytes = plan.image.block.size
  declared : plan.checksum.algorithm ≠ .none ↔ plan.image.checksum ≠ []

theorem sampleComponents {format : SampleFormat} {sampleSize componentSize : Nat}
    (sample : bytesPerSample format = some sampleSize)
    (component : endianComponentSize format = some componentSize) :
    componentSize ≠ 0 ∧ (∃ components, components ≠ 0 ∧ components ≤ 2 ∧
      sampleSize = components * componentSize ∧ sampleSize ≤ 16) ∧
      (sampleSize = 1 → componentSize = 1) := by
  cases format <;>
    simp only [bytesPerSample, endianComponentSize, Option.some.injEq, reduceCtorEq]
      at sample component
  case complex32 | complex64 =>
    subst sample component
    exact ⟨by decide, ⟨2, by decide, by decide, by decide, by decide⟩, by decide⟩
  all_goals
    subst sample component
    exact ⟨by decide, ⟨1, by decide, by decide, by decide, by decide⟩, by decide⟩

theorem axis_ne_zero {image : ImageInfo} (axes : HasAxes image) (three : image.geometry.length = 3)
    {index : Nat} (small : index < 3) : axis image index ≠ 0 := by
  have there : index < image.geometry.length := by omega
  have member : axis image index ∈ image.geometry := by
    simp only [axis, List.getD_eq_getElem?_getD, List.getElem?_eq_getElem there,
      Option.getD_some]
    exact List.getElem_mem there
  exact axes _ member

/-- The plan of an image with its axes, from the parts that both planners
share. -/
theorem sound_of_planImageBlock {document : Document} {options : ReaderOptions}
    {embeddedBlock : Bytes} {image : ImageInfo}
    {sampleSize componentSize sampleCount expectedBytes maxSerializedBytes maxDecodedBytes : Nat}
    {beyond : String} {plan : ImageReadPlan} (fileSize : document.fileSize ≤ u64Max)
    (axes : HasAxes image) (three : image.geometry.length = 3)
    (kind : image.block.kind = .attachment ∨ image.block.kind = .embedded)
    (sample : bytesPerSample image.sampleFormat = some sampleSize)
    (component : endianComponentSize image.sampleFormat = some componentSize)
    (extent : imageExtent image sampleSize = some (sampleCount, expectedBytes))
    (small : expectedBytes ≤ u64Max)
    (run : planImageBlock document options embeddedBlock image sampleSize componentSize sampleCount
      expectedBytes maxSerializedBytes maxDecodedBytes beyond = .ok plan) :
    plan.Sound ∧ plan.image = image := by
  simp only [planImageBlock, bind_eq_ok, reject_eq_ok, pure, Except.pure, Except.ok.injEq] at run
  obtain ⟨compression, compressed, checksum, hashed, _, inside, rfl⟩ := run
  obtain ⟨fits, declares⟩ := parseCompressionPlan_fits compressed
  obtain ⟨componentThere, components, single⟩ := sampleComponents sample component
  simp only [imageExtent, Option.bind_eq_bind, Option.bind_eq_some_iff, pure, Option.some.injEq,
    Prod.mk.injEq] at extent
  obtain ⟨pixels, area, samples, volume, bytes, product, rfl, rfl⟩ := extent
  obtain ⟨rfl, -⟩ := checkedMultiply_eq_some.mp area
  obtain ⟨rfl, -⟩ := checkedMultiply_eq_some.mp volume
  obtain ⟨rfl, -⟩ := checkedMultiply_eq_some.mp product
  have width := @axis_ne_zero _ axes three 0 (by decide)
  have height := @axis_ne_zero _ axes three 1 (by decide)
  have channels := @axis_ne_zero _ axes three 2 (by decide)
  have perPixel : axis image 0 * axis image 1 * axis image 2 / axis image 2 =
      axis image 0 * axis image 1 := Nat.mul_div_cancel _ (Nat.pos_of_ne_zero channels)
  refine ⟨⟨channels, perPixel, width, height, ?_, rfl, small, componentThere, components, single,
    fits, declares _ rfl, ?_, ?_, parseChecksumPlan_declared hashed⟩, rfl⟩
  · simp only [ImageReadPlan.pixelCount, perPixel]
    rw [Nat.mul_comm]
  · simp only [BlockPlace.Holds, ImageReadPlan.place]
    rcases kind with attached | embedded
    · simp only [attached, reduceCtorEq, if_false, if_true]
      rw [attached] at inside
      simp only [true_and, not_or] at inside
      omega
    · simp [embedded]
  · rcases kind with attached | embedded
    · simp [attached]
    · simp [embedded]

theorem planImageRead_sound {document : Document} {options : ReaderOptions}
    {embeddedBlocks : List Bytes} {imageIndex : Nat} {plan : ImageReadPlan}
    (wellFormed : WellFormed document)
    (run : planImageRead document options embeddedBlocks imageIndex = .ok plan) :
    plan.Sound ∧ document.images[imageIndex]? = some plan.image := by
  unfold planImageRead at run
  split at run
  · cases run
  · rename_i image found
    simp only [bind_eq_ok, reject_eq_ok, orFail_eq_ok, not_and_or, not_not] at run
    obtain ⟨_, kind, _, three, _, -, sampleSize, sample, componentSize, component, _, -,
      ⟨sampleCount, expectedBytes⟩, extent, _, -, _, small, run⟩ := run
    have member := List.mem_of_getElem? found
    have axes := wellFormed.imageAxes image member
    obtain ⟨sound, rfl⟩ := sound_of_planImageBlock wellFormed.fileSize axes three kind sample
      component extent (by omega) run
    exact ⟨sound, found⟩

theorem planImageRead_addressable {document : Document} {options : ReaderOptions}
    {embeddedBlocks : List Bytes} {imageIndex : Nat} {plan : ImageReadPlan}
    (run : planImageRead document options embeddedBlocks imageIndex = .ok plan) :
    plan.serializedBytes ≤ u64Max := by
  unfold planImageRead at run
  split at run
  · cases run
  · simp only [planImageBlock, bind_eq_ok, reject_eq_ok, orFail_eq_ok, pure, Except.pure,
      Except.ok.injEq] at run
    obtain ⟨_, -, _, -, _, -, _, -, _, -, _, -, _, -, _, -, _, -, _, compressed, _, -, _, -, rfl⟩ :=
      run
    exact parseCompressionPlan_addressable compressed

theorem planThumbnailRead_sound {document : Document} {options : ReaderOptions}
    {embeddedBlocks : List Bytes} {thumbnailIndex : Nat} {plan : ImageReadPlan}
    (wellFormed : WellFormed document)
    (run : planThumbnailRead document options embeddedBlocks thumbnailIndex = .ok plan) :
    plan.Sound ∧ document.thumbnails[thumbnailIndex]?.map ThumbnailInfo.image =
      some plan.image := by
  unfold planThumbnailRead at run
  split at run
  · cases run
  · rename_i thumbnail found
    simp only [bind_eq_ok, reject_eq_ok, orFail_eq_ok, not_and_or, not_not] at run
    obtain ⟨_, kind, _, three, sampleSize, sample, componentSize, component,
      ⟨sampleCount, expectedBytes⟩, extent, _, small, _, -, run⟩ := run
    have member := List.mem_of_getElem? found
    have axes := wellFormed.thumbnailAxes thumbnail member
    obtain ⟨sound, same⟩ := sound_of_planImageBlock wellFormed.fileSize axes three kind sample
      component extent (by omega) run
    exact ⟨sound, by rw [found, same, Option.map_some]⟩

/-! ## Property and ICC profile plans -/

theorem serializedBlock_holds {document : Document} {block : BlockLocation}
    {inlineBlocks : List Bytes} {index serializedBytes : Nat} {inconsistent beyond : String}
    {inlineBlock : Option Bytes} (fileSize : document.fileSize ≤ u64Max)
    (run : serializedBlock document block inlineBlocks index inconsistent beyond =
      .ok (inlineBlock, serializedBytes)) :
    BlockPlace.Holds ⟨inlineBlock, block.offset⟩ serializedBytes ∧
      (inlineBlock = none → block.kind ≠ .inlineData ∧ serializedBytes = block.size) := by
  unfold serializedBlock at run
  obtain ⟨-, run⟩ | ⟨attached, run⟩ := ite_eq_ok run
  · simp only [bind_eq_ok, pure, Except.pure, Except.ok.injEq, Prod.mk.injEq] at run
    obtain ⟨bytes, -, rfl, rfl⟩ := run
    simp [BlockPlace.Holds]
  · simp only [bind_eq_ok, reject_eq_ok, not_or, pure, Except.pure, Except.ok.injEq,
      Prod.mk.injEq] at run
    obtain ⟨_, ⟨start, fits⟩, rfl, rfl⟩ := run
    refine ⟨?_, fun _ => ⟨attached, rfl⟩⟩
    simp only [BlockPlace.Holds]
    omega

namespace PropertyReadPlan

def place (plan : PropertyReadPlan) : BlockPlace := ⟨plan.inlineBlock, plan.property.block.offset⟩

/-- What a Property plan guarantees. -/
structure Sound (plan : PropertyReadPlan) : Prop where
  fits : plan.compression.Fits plan.serializedBytes
  uncompressedSize : plan.compression.uncompressedSize = plan.expectedBytes
  place : plan.place.Holds plan.serializedBytes
  attached : plan.inlineBlock = none →
    plan.property.block.kind = .attachment ∧ plan.serializedBytes = plan.property.block.size
  declared : plan.checksum.algorithm ≠ .none ↔ plan.property.checksum ≠ []

end PropertyReadPlan

namespace IccProfileReadPlan

def place (plan : IccProfileReadPlan) : BlockPlace := ⟨plan.inlineBlock, plan.profile.block.offset⟩

/-- What an ICC profile plan guarantees. -/
structure Sound (plan : IccProfileReadPlan) : Prop where
  fits : plan.compression.Fits plan.serializedBytes
  uncompressedSize : plan.compression.uncompressedSize = plan.expectedBytes
  place : plan.place.Holds plan.serializedBytes
  attached : plan.inlineBlock = none →
    plan.profile.block.kind = .attachment ∧ plan.serializedBytes = plan.profile.block.size
  declared : plan.checksum.algorithm ≠ .none ↔ plan.profile.checksum ≠ []

end IccProfileReadPlan

theorem planPropertyRead_sound {document : Document} {options : ReaderOptions}
    {inlineBlocks : List Bytes} {metadataIndex : Nat} {plan : PropertyReadPlan}
    (wellFormed : WellFormed document)
    (run : planPropertyRead document options inlineBlocks metadataIndex = .ok plan) :
    plan.Sound ∧ document.metadata[metadataIndex]? = some plan.property := by
  unfold planPropertyRead at run
  split at run
  · cases run
  · rename_i property found
    simp only [bind_eq_ok, orFail_eq_ok, reject_eq_ok, not_and_or, not_not, pure, Except.pure,
      Except.ok.injEq] at run
    obtain ⟨_, -, _, kind, layout, -, typed, -, ⟨inlineBlock, serializedBytes⟩, located,
      compression, compressed, checksum, hashed, rfl⟩ := run
    obtain ⟨holds, attached⟩ := serializedBlock_holds wellFormed.fileSize located
    exact ⟨⟨(parseCompressionPlan_fits compressed).1, rfl, holds,
      fun isAttached => ⟨kind.resolve_right (attached isAttached).1, (attached isAttached).2⟩,
      parseChecksumPlan_declared hashed⟩, found⟩

theorem planIccProfileRead_sound {document : Document} {options : ReaderOptions}
    {inlineBlocks : List Bytes} {profileIndex : Nat} {plan : IccProfileReadPlan}
    (wellFormed : WellFormed document)
    (run : planIccProfileRead document options inlineBlocks profileIndex = .ok plan) :
    plan.Sound ∧ document.iccProfiles[profileIndex]? = some plan.profile := by
  unfold planIccProfileRead at run
  split at run
  · cases run
  · rename_i profile found
    simp only [bind_eq_ok, reject_eq_ok, not_and_or, not_not, pure, Except.pure,
      Except.ok.injEq] at run
    obtain ⟨_, kind, ⟨inlineBlock, serializedBytes⟩, located, compression, compressed, checksum,
      hashed, rfl⟩ := run
    obtain ⟨holds, attached⟩ := serializedBlock_holds wellFormed.fileSize located
    exact ⟨⟨(parseCompressionPlan_fits compressed).1, rfl, holds,
      fun isAttached => ⟨kind.resolve_right (attached isAttached).1, (attached isAttached).2⟩,
      parseChecksumPlan_declared hashed⟩, found⟩

/-! ## Blocks in the file -/

/-- An image block that is attached lies in the file. -/
theorem ImageReadPlan.Sound.inFile {document : Document} {plan : ImageReadPlan}
    (sound : plan.Sound) (wellFormed : WellFormed document)
    (member : plan.image.block ∈ documentBlocks document) :
    plan.place.inlineBlock = none →
      plan.place.offset + plan.serializedBytes ≤ document.fileSize := by
  intro isAttached
  obtain ⟨kind, size⟩ := sound.attached isAttached
  rw [size]
  exact (wellFormed.block_inPayload member kind).stop

theorem image_block_mem {document : Document} {imageIndex : Nat} {image : ImageInfo}
    (found : document.images[imageIndex]? = some image) :
    image.block ∈ documentBlocks document := by
  simp only [documentBlocks, List.mem_append]
  exact .inl (.inl (.inl (.inl (List.mem_map_of_mem (List.mem_of_getElem? found)))))

end Mmxisf.Reader
