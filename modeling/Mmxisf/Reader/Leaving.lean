/-
# Reader.Leaving -- what the calls of a read leave, whatever the replies are

No source, decompressor or sink is believed here: the sizes below are those that
the code checks itself, and the store of the caller is not touched.
-/
import Mmxisf.Library.Guarded
import Mmxisf.Reader.PlanFacts

namespace Mmxisf.Reader

set_option autoImplicit false

open Library (slice overwrite Leaves)

variable {L : Type} {platform : Platform} {plan : ImageReadPlan}

theorem refuse_leaves (bad : Prop) [Decidable bad] (code : ErrorCode) (message : String) :
    Leaves (refuse bad code message : ReadRoutine L Unit) fun _ => ¬ bad :=
  .ofExcept fun _ accepted => (reject_eq_ok.mp accepted)

theorem checkStop_leaves (message : String) :
    Leaves (checkStop message : ReadRoutine L Unit) fun _ => True := by
  apply Leaves.bind (.request _)
  intro _ _
  exact (refuse_leaves _ _ _).mono fun _ _ => trivial

theorem checkStopAt_leaves (round : Nat) (message : String) :
    Leaves (checkStopAt round message : ReadRoutine L Unit) fun _ => True := by
  apply Leaves.ite
  · intro _
    exact checkStop_leaves message
  · intro _
    exact .pure trivial

/-- A reply that is believed has a byte, and no more than asked for. -/
theorem readAt_leaves (annotate : Error → Error) (offset size : Nat) :
    Leaves (readAt annotate offset size : ReadRoutine L Bytes) fun bytes =>
      bytes ≠ [] ∧ bytes.length ≤ size := by
  apply Leaves.bind (.request _)
  intro reply _
  cases reply with
  | error e => exact .fail _
  | ok bytes =>
      apply Leaves.ite
      · intro _
        exact .fail _
      · intro good
        rw [not_or, Nat.not_lt] at good
        exact .pure good

theorem readSerializedChunk_leaves {blockOffset size imageIndex : Nat}
    (there : plan.place.Holds (blockOffset + size)) :
    Leaves (readSerializedChunk plan blockOffset size imageIndex : ReadRoutine L Bytes) fun bytes =>
      bytes.length = size := by
  unfold readSerializedChunk
  cases isInline : plan.embeddedBlock with
  | some block =>
      have place : plan.place.inlineBlock = some block := isInline
      unfold BlockPlace.Holds at there
      rw [place] at there
      apply Leaves.bind (checkStop_leaves _)
      intro _ _
      exact .pure (Library.length_slice there)
  | none =>
      apply Leaves.collect
      intro total more
      apply Leaves.bind (checkStop_leaves _)
      intro _ _
      apply (readAt_leaves _ _ _).mono
      rintro bytes ⟨nonempty, short⟩
      exact ⟨nonempty, by omega⟩

/-- One chunk of the loops over a whole block. -/
theorem chunk_leaves {imageIndex total : Nat} (there : plan.place.Holds plan.serializedBytes)
    (more : total < plan.serializedBytes) :
    Leaves (readSerializedChunk plan total (min kReadChunkBytes (plan.serializedBytes - total))
      imageIndex : ReadRoutine L Bytes) fun piece =>
        piece ≠ [] ∧ total + piece.length ≤ plan.serializedBytes := by
  have positive : 0 < kReadChunkBytes := by decide
  apply (readSerializedChunk_leaves (there.mono (by omega))).mono
  intro bytes length
  constructor
  · rintro rfl
    rw [List.length_nil] at length
    omega
  · omega

theorem copySerializedImage_leaves {imageIndex : Nat}
    (there : plan.place.Holds plan.serializedBytes) :
    Leaves (copySerializedImage plan imageIndex : ReadRoutine L Bytes) fun bytes =>
      bytes.length = plan.serializedBytes :=
  .collect fun _ more => chunk_leaves there more

theorem verifyChecksum_leaves (checksum : ChecksumPlan) (serialized : Bytes) :
    Leaves (Library.Routine.ofExcept (verifyChecksum platform checksum serialized) :
      ReadRoutine L Unit)
      fun _ => True :=
  .ofExcept fun _ _ => trivial

theorem verifyImageChecksumStreaming_leaves {imageIndex : Nat}
    (there : plan.place.Holds plan.serializedBytes) :
    Leaves (verifyImageChecksumStreaming platform plan imageIndex : ReadRoutine L Unit)
      fun _ => True := by
  unfold verifyImageChecksumStreaming
  apply Leaves.ite
  · intro _
    exact .pure trivial
  · intro _
    apply Leaves.bind
    · apply Leaves.collect
      intro total more
      apply Leaves.bind (checkStop_leaves _)
      intro _ _
      exact chunk_leaves there more
    · intro hashed _
      exact (refuse_leaves _ _ _).mono fun _ _ => trivial

/-! ## Compressed blocks -/

theorem requestDecompression_leaves (codec : CompressionCodec) (input : Bytes)
    (size windowLog : Nat)
    (mismatch : String) :
    Leaves (requestDecompression codec input size windowLog mismatch : ReadRoutine L Bytes)
      fun bytes => bytes.length = size := by
  apply Leaves.bind (.request _)
  intro reply _
  apply Leaves.bind (refuse_leaves _ _ _)
  intro _ accepted
  rw [not_or, not_not] at accepted
  exact .pure accepted.2

/-- A decompressor that is believed has filled its buffer. -/
theorem decompressSubblock_leaves (codec : CompressionCodec) (input : Bytes)
    (size maxZstdWindowBytes : Nat) :
    Leaves (decompressSubblock platform codec input size maxZstdWindowBytes : ReadRoutine L Bytes)
      fun bytes => bytes.length = size := by
  have checked (bad : Prop) [Decidable bad] (code : ErrorCode) (message : String)
      {x : ReadRoutine L Bytes} (length : Leaves x fun bytes => bytes.length = size) :
      Leaves (refuse bad code message >>= fun _ => x) fun bytes => bytes.length = size :=
    .bind (refuse_leaves bad code message) fun _ _ => length
  cases codec with
  | none => exact .fail _
  | zlib => exact checked _ _ _ (requestDecompression_leaves _ _ _ _ _)
  | lz4 => exact checked _ _ _ (requestDecompression_leaves _ _ _ _ _)
  | lz4hc => exact checked _ _ _ (requestDecompression_leaves _ _ _ _ _)
  | zstd => exact checked _ _ _ (checked _ _ _ (requestDecompression_leaves _ _ _ _ _))

theorem scatterFrom_leaves (itemSize shuffledOffset : Nat) :
    ∀ (shuffled : Bytes) (localOffset : Nat) (output : Bytes),
      Leaves (scatterFrom itemSize shuffledOffset localOffset shuffled output : ReadRoutine L Bytes)
        fun bytes => bytes.length = output.length
  | [], _, output => .pure rfl
  | byte :: rest, localOffset, output => by
      apply Leaves.bind (checkStopAt_leaves _ _)
      intro _ _
      apply (scatterFrom_leaves itemSize shuffledOffset rest (localOffset + 1) _).mono
      intro bytes length
      rw [length, List.length_set]

theorem scatterUnshuffledBytes_leaves (shuffled output : Bytes) (itemSize shuffledOffset : Nat) :
    Leaves (scatterUnshuffledBytes shuffled output itemSize shuffledOffset : ReadRoutine L Bytes)
      fun bytes => bytes.length = output.length := by
  apply Leaves.bind (refuse_leaves _ _ _)
  intro _ _
  exact scatterFrom_leaves itemSize shuffledOffset shuffled 0 output

/-- Decoding fills the buffer that it was given. -/
theorem decodeSubblocks_leaves (serialized : Bytes) (compression : CompressionPlan) :
    ∀ (subblocks : List CompressionSubblock) (inputOffset outputOffset : Nat) (destination : Bytes),
      outputOffset + uncompressedTotal subblocks ≤ destination.length →
      Leaves (decodeSubblocks platform serialized compression subblocks inputOffset outputOffset
        destination : ReadRoutine L Bytes) fun bytes => bytes.length = destination.length
  | [], _, _, destination, _ => .pure rfl
  | subblock :: rest, inputOffset, outputOffset, destination, room => by
      simp only [uncompressedTotal, List.map_cons, List.sum_cons] at room
      apply Leaves.bind (checkStop_leaves _)
      intro _ _
      apply Leaves.bind (decompressSubblock_leaves _ _ _ _)
      intro decoded decodedLength
      have later (filled : Bytes) (length : filled.length = destination.length) :=
        decodeSubblocks_leaves serialized compression rest
          (inputOffset + subblock.compressedSize) (outputOffset + subblock.uncompressedSize) filled
          (by simp only [uncompressedTotal]; omega)
      have stored : Leaves (if compression.byteShuffled = true then
            scatterUnshuffledBytes decoded destination compression.itemSize outputOffset
          else pure (overwrite destination outputOffset decoded) : ReadRoutine L Bytes)
          fun bytes => bytes.length = destination.length := by
        apply Leaves.ite
        · intro _
          exact scatterUnshuffledBytes_leaves decoded destination compression.itemSize outputOffset
        · intro _
          exact .pure (Library.length_overwrite (by omega))
      apply Leaves.bind stored
      intro filled length
      exact (later filled length).mono fun bytes same => same.trans length

end Mmxisf.Reader
