/-
# PixelOrder -- every path of `read_image_into` computes one permutation

The six branches of the read end in the same bytes: the sample of channel `c`
and pixel `p` of the decoded source is at its place in the output layout, with
its components reversed when the byte orders differ.  Changing the layout and
changing it back is the identity.
-/
import Mmxisf.Reader.WholeReads

namespace Mmxisf

set_option autoImplicit false

open Library (slice mirrored)
open Library.Routine (wp)
open Reader

/-- The bytes of the file that a document was read from. -/
structure FileOf (document : Document) where
  bytes : Bytes
  sized : bytes.length = document.fileSize

namespace Reader.ImageReadPlan

/-- The plan of the image with this layout and byte order. -/
def relaid (plan : ImageReadPlan) (storage : PixelStorage) (byteOrder : ByteOrder) :
    ImageReadPlan :=
  { plan with image := { plan.image with pixelStorage := storage, byteOrder := byteOrder } }

theorem Sound.relaid {plan : ImageReadPlan} (sound : plan.Sound) (storage : PixelStorage)
    (byteOrder : ByteOrder) : (plan.relaid storage byteOrder).Sound :=
  ⟨sound.channels, sound.pixels, sound.width, sound.height, sound.samples, sound.bytes,
    sound.small, sound.component, sound.sample, sound.single, sound.fits, sound.uncompressedSize,
    sound.place, sound.attached, sound.declared⟩

/-- Ordering a sample for one byte order and then for the other leaves it. -/
theorem orderedBytes_back {plan : ImageReadPlan} (sound : plan.Sound) (storage : PixelStorage)
    (byteOrder : ByteOrder) {sample : Bytes} (length : sample.length = plan.sampleSize) :
    (plan.relaid storage byteOrder).orderedBytes plan.image.byteOrder
      (plan.orderedBytes byteOrder sample) = sample := by
  obtain ⟨components, -, -, size, -⟩ := sound.sample
  unfold orderedBytes relaid
  by_cases same : plan.image.byteOrder = byteOrder
  · rw [if_pos same.symm, if_pos same]
  · rw [if_neg (Ne.symm same), if_neg same]
    exact Library.mirrored_mirrored sound.component_pos (length.trans size)

/-- The reference of the reference, back in the layout of the source, is the
source. -/
theorem IsReference.back {plan : ImageReadPlan} (sound : plan.Sound) {storage : PixelStorage}
    {byteOrder : ByteOrder} {source there back : Bytes}
    (length : source.length = plan.expectedBytes)
    (first : plan.IsReference storage byteOrder source there)
    (second : (plan.relaid storage byteOrder).IsReference plan.image.pixelStorage
      plan.image.byteOrder there back) : back = source := by
  refine Library.eq_of_slices
    (second.length.trans sound.bytes) (length.trans sound.bytes) fun j small => ?_
  obtain ⟨channel, channelSmall, pixel, pixelSmall, rfl⟩ :=
    exists_sampleIndex sound plan.image.pixelStorage small
  have returned := second.sample channel channelSmall pixel pixelSmall
  have moved := first.sample channel channelSmall pixel pixelSmall
  have room := sample_room sound small
  calc slice back (plan.sampleIndex plan.image.pixelStorage channel pixel * plan.sampleSize)
        plan.sampleSize
      = (plan.relaid storage byteOrder).orderedBytes plan.image.byteOrder
          (slice there (plan.sampleIndex storage channel pixel * plan.sampleSize)
            plan.sampleSize) := returned
    _ = _ := by rw [moved, orderedBytes_back sound storage byteOrder
          (Library.length_slice (by omega))]

end Reader.ImageReadPlan

/-- How `read_image_into` ends on a file: refused, or with the one reference of
the decoded samples at the front of the destination. -/
def ReferenceOutcome (platform : Platform) (plan : ImageReadPlan) (file destination : Bytes)
    (readOptions : ImageReadOptions) (result : Result (Nat × Bytes)) : Prop :=
  let serialized := plan.place.bytesIn file 0 plan.serializedBytes
  let storage := resolvePixelStorage plan readOptions.pixelStorage
  let byteOrder := resolveByteOrder platform plan.image.byteOrder readOptions.byteOrder
  if destination.length < plan.expectedBytes then ∃ e, result = .error e
  else if plan.checksum.algorithm ≠ .none ∧
      digestMatches platform plan.checksum serialized = false then ∃ e, result = .error e
  else
    match blockBytes platform plan.compression serialized with
    | .error e => result = .error e
    | .ok pixels => ∃ output, plan.IsReference storage byteOrder pixels output ∧
        (∀ other, plan.IsReference storage byteOrder pixels other → other = output) ∧
        result = .ok (plan.expectedBytes, output ++ destination.drop plan.expectedBytes)

/-- Whatever the image, its block, its checksum and the way its file splits
reads, every execution of `read_image_into` ends with the reference permutation
of the decoded samples; and for the same plans the transformation to a layout
and byte order followed by the one back is the identity. -/
theorem readImageInto_isReference (platform : Platform) (reader : Impl)
    (file : FileOf reader.document) (imageIndex : Nat) (destination : Bytes)
    (readOptions : ImageReadOptions) :
    wp ((Environment.stable file.bytes).world platform)
        (readImageInto platform reader imageIndex destination readOptions)
        (fun result _ _ => PlannedOutcome
          (planImageRead reader.document reader.options reader.embeddedBlocks imageIndex)
          (fun plan result _ =>
            ReferenceOutcome platform plan file.bytes destination readOptions result) result [])
        () [] ∧
      ∀ plan, planImageRead reader.document reader.options reader.embeddedBlocks imageIndex =
          .ok plan →
        ∀ (storage : PixelStorage) (byteOrder : ByteOrder) (source first second : Bytes),
          source.length = plan.expectedBytes → first.length = plan.expectedBytes →
          second.length = plan.expectedBytes →
          wp ((Environment.stable file.bytes).world platform)
            (do
              let there ← transformPixelStorageFromBuffer plan source first storage byteOrder
              transformPixelStorageFromBuffer (plan.relaid storage byteOrder) there second
                plan.image.pixelStorage plan.image.byteOrder)
            (fun result _ _ => result = .ok source) () [] := by
  constructor
  · refine Library.Routine.wp_mono ?_ (readImageInto_reads (L := Unit) reader imageIndex destination
      readOptions () [])
    rintro result m t ⟨-, events, -, outcome⟩
    cases planned : planImageRead reader.document reader.options reader.embeddedBlocks
        imageIndex with
    | error e =>
        rw [planned] at outcome
        exact ⟨outcome.1, rfl⟩
    | ok plan =>
        obtain ⟨sound, found⟩ := planImageRead_sound reader.wellFormed planned
        have inFile := sound.inFile reader.wellFormed (image_block_mem found)
        rw [← file.sized] at inFile
        rw [planned] at outcome
        unfold PlannedOutcome ReferenceOutcome at *
        rcases outcome with ⟨small, -, e, same, -⟩ | ⟨room, outcome⟩
        · simp only [if_pos small]
          exact ⟨e, same⟩
        · simp only [if_neg (Nat.not_lt.mpr room)]
          rcases outcome.ofStable inFile with ⟨declared, differs, failed⟩ | ⟨verified, valued⟩
          · rw [if_pos ⟨declared, differs⟩]
            exact failed
          · rw [if_neg (by
              rintro ⟨declared, differs⟩
              rw [verified declared] at differs
              cases differs)]
            obtain ⟨filled, image, rfl⟩ := valued
            unfold ImageValue at image
            cases decoded : blockBytes platform plan.compression
                (plan.place.bytesIn file.bytes 0 plan.serializedBytes) with
            | error e =>
                rw [decoded] at image
                rw [image]
                rfl
            | ok pixels =>
                rw [decoded] at image
                obtain ⟨output, rfl, reference⟩ := image
                exact ⟨output, reference, fun other another => another.unique sound reference, rfl⟩
  · intro plan planned storage byteOrder source first second sourceLength firstLength secondLength
    obtain ⟨sound, -⟩ := planImageRead_sound reader.wellFormed planned
    obtain ⟨there, reference, computes⟩ :=
      transformPixelStorageFromBuffer_computes (L := Unit) sound sourceLength firstLength
    obtain ⟨back, referenceBack, computesBack⟩ :=
      @transformPixelStorageFromBuffer_computes Unit platform (.stable file.bytes) _
        plan.image.pixelStorage plan.image.byteOrder (fun _ => False)
        (sound.relaid storage byteOrder) _ _ reference.length secondLength
    have same := reference.back sound sourceLength referenceBack
    subst same
    refine Library.Routine.wp_mono ?_ (computes.bind_ok computesBack () [])
    rintro result m t ⟨-, same | ⟨e, -, stopped, -⟩, -⟩
    · exact same
    · cases stopped

end Mmxisf
