/-
# PixelBounds -- no index of the pixel loops wraps or leaves its buffer

Planning checks three products: the pixels, the samples and the bytes of an
image.  Everything the loops compute from these without a check is bounded by
one of them.  Here the loops of `Reader.GuardedPixels`, in which a wrapped sum, a
division by zero, an index outside its buffer or rows that do not add up are
faults, are compared with those of `Reader.Blocks` and `Reader.Reads`: for every
plan and all replies they do the same, so no run meets a fault
(`pixelIndexArithmetic`).
-/
import Mmxisf.Reader.GuardedPixels
import Mmxisf.Reader.Leaving
import Mmxisf.Reader.RowDelivery

namespace Mmxisf.Reader

set_option autoImplicit false

open Library (slice overwrite mirrored Guards Exact.multiply_eq Exact.add_eq Exact.subtract_eq
  Exact.divide_eq Exact.remainder_eq Exact.require_eq)
open Library (World)
open Library.Routine (Run)
open Exact64 (add multiply load store copy)

section

variable {L : Type} {plan : ImageReadPlan} {outputStorage : PixelStorage}
  {outputByteOrder : ByteOrder} {source destination : Bytes}

theorem add_fits {left right : Nat} (fits : left + right ≤ u64Max) :
    add left right = some (left + right) := Exact.add_eq fits

theorem multiply_fits {left right : Nat} (fits : left * right ≤ u64Max) :
    multiply left right = some (left * right) := Exact.multiply_eq fits

/-! ## One sample -/

theorem ImageReadPlan.Sound.samples_small (sound : plan.Sound) : plan.sampleCount ≤ u64Max := by
  refine Nat.le_trans ?_ sound.small
  rw [sound.bytes]
  exact Nat.le_mul_of_pos_right _ sound.sample_pos

theorem sourcePlace_eq (sound : plan.Sound) (sourceIndex : Nat) :
    Guarded.sourcePlace plan plan.pixelCount sourceIndex =
      some (plan.sourceChannel sourceIndex, plan.sourcePixel sourceIndex) := by
  unfold Guarded.sourcePlace ImageReadPlan.sourceChannel ImageReadPlan.sourcePixel
  cases plan.image.pixelStorage with
  | planar =>
      simp only [Exact.divide_eq sound.pixelCount_pos, Exact.remainder_eq sound.pixelCount_pos,
        Option.bind_eq_bind, Option.bind_some, pure]
  | normal =>
      simp only [Exact.divide_eq sound.channels_pos, Exact.remainder_eq sound.channels_pos,
        Option.bind_eq_bind, Option.bind_some, pure]

theorem outputIndex_fits (sound : plan.Sound) {sourceIndex : Nat}
    (small : sourceIndex < plan.sampleCount) :
    Guarded.outputIndex plan outputStorage plan.pixelCount (plan.sourceChannel sourceIndex)
      (plan.sourcePixel sourceIndex) = some (plan.outputIndex outputStorage sourceIndex) := by
  have inside := (ImageReadPlan.outputIndex_permutes sound outputStorage).inside sourceIndex small
  have bound := sound.samples_small
  unfold Guarded.outputIndex
  unfold ImageReadPlan.outputIndex at inside ⊢
  cases outputStorage with
  | planar =>
      dsimp only at inside ⊢
      rw [multiply_fits (by omega)]
      exact add_fits (by omega)
  | normal =>
      dsimp only at inside ⊢
      rw [multiply_fits (by omega)]
      exact add_fits (by omega)

/-- The component that a byte is in ends inside the sample. -/
theorem component_room (sound : plan.Sound) {byte : Nat} (small : byte < plan.sampleSize) :
    byte / plan.endianComponentSize * plan.endianComponentSize + plan.endianComponentSize ≤
      plan.sampleSize := by
  obtain ⟨components, -, -, size, -⟩ := sound.sample
  have component : byte / plan.endianComponentSize < components :=
    Nat.div_lt_of_lt_mul (by rw [Nat.mul_comm, ← size]; exact small)
  rw [size, ← Nat.succ_mul]
  exact Nat.mul_le_mul_right _ component

theorem inputByte_fits (sound : plan.Sound) {byte : Nat} (small : byte < plan.sampleSize) :
    Guarded.inputByte plan outputByteOrder byte = some (plan.inputByte outputByteOrder byte) ∧
      plan.inputByte outputByteOrder byte < plan.sampleSize := by
  have room := component_room sound small
  have remainder := Nat.mod_lt byte sound.component_pos
  obtain ⟨-, -, -, -, few⟩ := sound.sample
  have bound : plan.sampleSize ≤ u64Max := by
    have large : 16 ≤ u64Max := by decide
    omega
  unfold Guarded.inputByte ImageReadPlan.inputByte
  rw [Exact.divide_eq sound.component_pos]
  simp only [Option.bind_eq_bind, Option.bind_some]
  rw [multiply_fits (by omega)]
  by_cases same : plan.image.byteOrder = outputByteOrder
  · simp only [same, if_true, Option.bind_some]
    exact ⟨rfl, small⟩
  · simp only [same, if_false, Option.bind_some]
    rw [add_fits (by omega), Exact.remainder_eq sound.component_pos]
    simp only [Option.bind_some]
    rw [Exact.subtract_eq (by omega)]
    constructor
    · exact Exact.subtract_eq (by omega)
    · omega

/-- The byte loop leaves the sample in the output's order. -/
theorem copySample_eq (sound : plan.Sound) {inputOffset outputOffset : Nat}
    (inside : inputOffset + plan.sampleSize ≤ source.length)
    (room : outputOffset + plan.sampleSize ≤ destination.length)
    (input : inputOffset + plan.sampleSize ≤ u64Max)
      (output : outputOffset + plan.sampleSize ≤ u64Max) :
    ∀ (count byte : Nat), byte + count = plan.sampleSize →
      Guarded.copySample plan outputByteOrder source inputOffset outputOffset count byte
        (overwrite destination outputOffset
          ((plan.orderedSample outputByteOrder source inputOffset).take byte)) =
      some (overwrite destination outputOffset
        (plan.orderedSample outputByteOrder source inputOffset))
  | 0, byte, full => by
      rw [Guarded.copySample, List.take_of_length_le]
      simp only [ImageReadPlan.orderedSample, List.length_map, List.length_range]
      omega
  | count + 1, byte, full => by
      have small : byte < plan.sampleSize := by omega
      obtain ⟨chosen, chosenSmall⟩ := @inputByte_fits plan outputByteOrder sound byte small
      have sampleLength : (plan.orderedSample outputByteOrder source inputOffset).length =
          plan.sampleSize := by
        simp only [ImageReadPlan.orderedSample, List.length_map, List.length_range]
      have taken : ((plan.orderedSample outputByteOrder source inputOffset).take byte).length =
          byte := by
        rw [List.length_take, sampleLength]
        omega
      have there : inputOffset + plan.inputByte outputByteOrder byte < source.length := by omega
      have loaded : load source (inputOffset + plan.inputByte outputByteOrder byte) =
          some (plan.orderedSample outputByteOrder source inputOffset)[byte] := by
        simp only [load, ImageReadPlan.orderedSample, List.getElem_map, List.getElem_range,
          List.getElem?_eq_getElem there, List.getD_eq_getElem?_getD, Option.getD_some]
      have written : (overwrite destination outputOffset
          ((plan.orderedSample outputByteOrder source inputOffset).take byte)).length =
          destination.length := Library.length_overwrite (by rw [taken]; omega)
      have here : outputOffset + byte < (overwrite destination outputOffset
          ((plan.orderedSample outputByteOrder source inputOffset).take byte)).length := by
        rw [written]
        omega
      have next := @Library.overwrite_overwrite _ destination
        ((plan.orderedSample outputByteOrder source inputOffset).take byte)
        [(plan.orderedSample outputByteOrder source inputOffset)[byte]] outputOffset
        (by rw [taken, List.length_singleton]; omega)
      rw [taken, List.take_append_getElem] at next
      rw [Guarded.copySample, chosen]
      simp only [Option.bind_eq_bind, Option.bind_some]
      rw [add_fits (by omega), add_fits (by omega)]
      simp only [Option.bind_some]
      rw [loaded]
      simp only [Option.bind_some]
      rw [show store _ _ _ = some _ from if_pos here]
      simp only [Option.bind_some]
      rw [Library.set_eq_overwrite here, next]
      exact copySample_eq sound inside room input output count (byte + 1) (by omega)

/-- A sample goes to its place. -/
theorem placeSample_eq (sound : plan.Sound) {inputIndex sourceIndex : Nat}
    (inside : inputIndex * plan.sampleSize + plan.sampleSize ≤ source.length)
    (input : inputIndex ≤ sourceIndex) (small : sourceIndex < plan.sampleCount)
    (length : destination.length = plan.expectedBytes) :
    Guarded.placeSample plan outputStorage outputByteOrder plan.pixelCount source
      inputIndex sourceIndex
      destination = some (placeSample plan outputStorage outputByteOrder source
        (inputIndex * plan.sampleSize) sourceIndex destination) := by
  have place := (ImageReadPlan.outputIndex_permutes sound outputStorage).inside sourceIndex small
  have room := ImageReadPlan.sample_room sound place
  have bound := sound.small
  have inputRoom : inputIndex * plan.sampleSize + plan.sampleSize ≤ plan.expectedBytes := by
    refine Nat.le_trans ?_ (ImageReadPlan.sample_room sound small)
    exact Nat.add_le_add_right (Nat.mul_le_mul_right _ input) _
  unfold Guarded.placeSample
  rw [sourcePlace_eq sound]
  simp only [Option.bind_eq_bind, Option.bind_some]
  rw [outputIndex_fits sound small]
  simp only [Option.bind_some]
  rw [multiply_fits (by omega), multiply_fits (by omega)]
  simp only [Option.bind_some]
  have copied := @copySample_eq plan outputByteOrder source destination sound
    (inputIndex * plan.sampleSize) (plan.outputIndex outputStorage sourceIndex * plan.sampleSize)
    inside (by rw [length]; exact room) (by omega) (by omega) plan.sampleSize 0 (Nat.zero_add _)
  rw [List.take_zero, Library.overwrite_nil] at copied
  exact copied

theorem length_placeSample (sound : plan.Sound) {inputOffset sourceIndex : Nat}
    (small : sourceIndex < plan.sampleCount) (length : destination.length = plan.expectedBytes) :
    (placeSample plan outputStorage outputByteOrder source inputOffset sourceIndex
      destination).length = plan.expectedBytes := by
  have place := (ImageReadPlan.outputIndex_permutes sound outputStorage).inside sourceIndex small
  have room := ImageReadPlan.sample_room sound place
  unfold placeSample
  rw [Library.length_overwrite, length]
  simp only [ImageReadPlan.orderedSample, List.length_map, List.length_range]
  omega

/-! ## The transformation loops -/

variable {l : L}

theorem transformFrom_guards (sound : plan.Sound) (full : source.length = plan.expectedBytes) :
    ∀ (count sourceIndex : Nat) {destination : Bytes}, sourceIndex + count = plan.sampleCount →
      destination.length = plan.expectedBytes →
      Guards (transformFrom plan source outputStorage outputByteOrder count sourceIndex destination)
        (Guarded.transformFrom plan source outputStorage outputByteOrder plan.pixelCount count
          sourceIndex destination)
        (fun bytes m => l = m ∧ bytes.length = plan.expectedBytes) l
  | 0, _, _, _, length => .pure ⟨rfl, length⟩
  | count + 1, sourceIndex, _, within, length => by
      have small : sourceIndex < plan.sampleCount := by omega
      have room := ImageReadPlan.sample_room sound small
      apply Guards.bind (Guards.call (checkStopAt_leaves _ _))
      rintro _ _ ⟨rfl, -⟩
      apply Guards.exactly (placeSample_eq sound (by omega) (Nat.le_refl _) small length)
      exact transformFrom_guards sound full count (sourceIndex + 1) (by omega)
        (length_placeSample sound small length)

theorem transformPixelStorageFromBuffer_guards (sound : plan.Sound)
    (full : source.length = plan.expectedBytes) (length : destination.length = plan.expectedBytes) :
    Guards (transformPixelStorageFromBuffer plan source destination outputStorage outputByteOrder)
      (Guarded.transformPixelStorageFromBuffer plan source destination outputStorage
        outputByteOrder)
      (fun bytes m => l = m ∧ bytes.length = plan.expectedBytes) l := by
  apply Guards.exactly (Exact.divide_eq sound.channels_pos)
  exact transformFrom_guards sound full plan.sampleCount 0 (Nat.zero_add _) length

/-- The samples of one chunk. -/
theorem transformChunk_eq (sound : plan.Sound) {staging : Bytes} {sourceSample chunkSamples : Nat}
    (staged : staging.length = chunkSamples * plan.sampleSize)
    (inside : sourceSample + chunkSamples ≤ plan.sampleCount) :
    ∀ (count localSample : Nat) {destination : Bytes}, localSample + count = chunkSamples →
      destination.length = plan.expectedBytes →
      Guarded.transformChunk plan outputStorage outputByteOrder plan.pixelCount staging sourceSample
          count localSample destination =
        some (transformChunk plan outputStorage outputByteOrder staging sourceSample
          count localSample
          destination) ∧
      (transformChunk plan outputStorage outputByteOrder staging sourceSample count localSample
        destination).length = plan.expectedBytes
  | 0, _, _, _, length => ⟨rfl, length⟩
  | count + 1, localSample, destination, within, length => by
      have bound := sound.samples_small
      have room : localSample * plan.sampleSize + plan.sampleSize ≤ staging.length := by
        rw [staged, ← Nat.succ_mul]
        exact Nat.mul_le_mul_right _ (by omega)
      have placed : (placeSample plan outputStorage outputByteOrder staging
          (localSample * plan.sampleSize) (sourceSample + localSample) destination).length =
          plan.expectedBytes := length_placeSample sound (by omega) length
      obtain ⟨same, later⟩ := transformChunk_eq sound staged inside count
        (localSample + 1) (by omega)
        placed
      constructor
      · rw [Guarded.transformChunk, add_fits (by omega)]
        simp only [Option.bind_eq_bind, Option.bind_some]
        rw [placeSample_eq sound room (by omega) (by omega) length]
        exact same
      · exact later

/-- A part inside the block is read as it is. -/
theorem readChunk_guards (sound : plan.Sound) (addressable : plan.serializedBytes ≤ u64Max)
    {offset size imageIndex : Nat} (inside : offset + size ≤ plan.serializedBytes) :
    Guards (readSerializedChunk plan offset size imageIndex)
      (Guarded.readChunk plan offset size imageIndex) (fun bytes m => l = m ∧ bytes.length = size)
      l := by
  unfold Guarded.readChunk
  apply Guards.exactly (add_fits (by omega))
  apply Guards.exactly (Exact.require_eq inside)
  exact Guards.call (readSerializedChunk_leaves (sound.place.mono inside))

theorem transformChunks_guards (sound : plan.Sound)
    (stored : plan.serializedBytes = plan.expectedBytes)
    {imageIndex : Nat} :
    ∀ (fuel sourceSample : Nat) {destination : Bytes}, sourceSample ≤ plan.sampleCount →
      plan.sampleCount - sourceSample ≤ fuel → destination.length = plan.expectedBytes →
      Guards (transformChunks plan outputStorage outputByteOrder imageIndex fuel sourceSample
          destination)
        (Guarded.transformChunks plan outputStorage outputByteOrder imageIndex plan.pixelCount
          (kReadChunkBytes / plan.sampleSize)
          (min plan.expectedBytes (kReadChunkBytes / plan.sampleSize * plan.sampleSize)) fuel
          sourceSample destination)
        (fun bytes m => l = m ∧ bytes.length = plan.expectedBytes) l
  | 0, sourceSample, destination, inside, enough, length => by
      unfold Guarded.transformChunks
      apply Guards.exactly (Exact.require_eq (by omega))
      exact .pure ⟨rfl, length⟩
  | fuel + 1, sourceSample, destination, inside, enough, length => by
      unfold transformChunks Guarded.transformChunks
      by_cases more : sourceSample < plan.sampleCount
      · rw [if_pos more, if_pos more]
        apply Guards.bind (Guards.call (checkStop_leaves _))
        rintro _ _ ⟨rfl, -⟩
        have positive := sound.sample_pos
        have bound := sound.small
        have samples := sound.samples_small
        have some : 0 < kReadChunkBytes / plan.sampleSize := by
          obtain ⟨-, -, -, -, few⟩ := sound.sample
          apply Nat.div_pos _ positive
          have large : 16 ≤ kReadChunkBytes := by decide
          omega
        have later := @transformChunks_guards sound stored imageIndex fuel
        generalize kReadChunkBytes / plan.sampleSize = maximumChunkSamples at some later ⊢
        generalize chosen : min maximumChunkSamples (plan.sampleCount - sourceSample) = chunkSamples
        have chunkBytes : chunkSamples * plan.sampleSize ≤ plan.expectedBytes := by
          rw [sound.bytes]
          exact Nat.mul_le_mul_right _ (by omega)
        have stagingBytes : chunkSamples * plan.sampleSize ≤
            maximumChunkSamples * plan.sampleSize :=
          Nat.mul_le_mul_right _ (by omega)
        have total : sourceSample * plan.sampleSize + chunkSamples * plan.sampleSize ≤
            plan.expectedBytes := by
          rw [sound.bytes, ← Nat.add_mul]
          exact Nat.mul_le_mul_right _ (by omega)
        rw [wrapMultiply_eq (by omega)]
        apply Guards.exactly (Exact.subtract_eq (by omega))
        rw [chosen]
        apply Guards.exactly (multiply_fits (by omega))
        apply Guards.exactly (multiply_fits (by omega))
        apply Guards.exactly (Exact.require_eq (by omega))
        apply Guards.bind (readChunk_guards sound (by omega) (by omega))
        rintro staging _ ⟨rfl, staged⟩
        have inside' : sourceSample + chunkSamples ≤ plan.sampleCount := by omega
        obtain ⟨same, nextLength⟩ := @transformChunk_eq plan outputStorage outputByteOrder sound
          staging sourceSample chunkSamples staged inside' chunkSamples 0 destination
          (Nat.zero_add _) length
        apply Guards.exactly same
        apply Guards.exactly (add_fits (by omega))
        exact later (sourceSample + chunkSamples) (by omega) (by omega) nextLength
      · rw [if_neg more, if_neg more]
        exact .pure ⟨rfl, length⟩

theorem transformPixelStorage_guards (sound : plan.Sound)
    (stored : plan.serializedBytes = plan.expectedBytes) {imageIndex : Nat}
    (length : destination.length = plan.expectedBytes) :
    Guards (transformPixelStorage plan destination outputStorage outputByteOrder imageIndex)
      (Guarded.transformPixelStorage plan destination outputStorage outputByteOrder imageIndex)
      (fun bytes m => l = m ∧ bytes.length = plan.expectedBytes) l := by
  have chunk : kReadChunkBytes / plan.sampleSize * plan.sampleSize ≤ u64Max :=
    (Nat.div_mul_le_self _ _).trans (by decide)
  apply Guards.exactly (Exact.divide_eq sound.sample_pos)
  apply Guards.exactly (multiply_fits chunk)
  apply Guards.exactly (Exact.divide_eq sound.channels_pos)
  exact transformChunks_guards sound stored plan.sampleCount 0 (Nat.zero_le _)
    (Nat.sub_le _ _) length

theorem reverseComponent_eq {componentSize component : Nat}
    (inside : component * componentSize + componentSize ≤ destination.length)
    (small : destination.length ≤ u64Max) :
    Guarded.reverseComponent componentSize component destination =
      some (overwrite destination (component * componentSize)
        (slice destination (component * componentSize) componentSize).reverse) := by
  unfold Guarded.reverseComponent
  rw [multiply_fits (by omega)]
  simp only [Option.bind_eq_bind, Option.bind_some]
  rw [add_fits (by omega)]
  simp only [Option.bind_some]
  rw [Exact.require_eq inside]
  rfl

theorem swapFrom_guards {componentSize : Nat} (small : destination.length ≤ u64Max) :
    ∀ (count component : Nat) {bytes : Bytes}, bytes.length = destination.length →
      (component + count) * componentSize ≤ destination.length →
      Guards (swapFrom componentSize count component bytes)
        (Guarded.swapFrom componentSize count component bytes)
        (fun swapped m => l = m ∧ swapped.length = destination.length) l
  | 0, _, _, length, _ => .pure ⟨rfl, length⟩
  | count + 1, component, bytes, length, within => by
      have inside : component * componentSize + componentSize ≤ bytes.length := by
        rw [length, ← Nat.succ_mul]
        exact (Nat.mul_le_mul_right _ (by omega)).trans within
      have pieceLength := Library.length_slice inside
      apply Guards.bind (Guards.call (checkStopAt_leaves _ _))
      rintro _ _ ⟨rfl, -⟩
      apply Guards.exactly (reverseComponent_eq inside (by omega))
      apply swapFrom_guards small count (component + 1)
      · rw [Library.length_overwrite, length]
        rw [List.length_reverse, pieceLength]
        exact inside
      · rwa [Nat.add_assoc, Nat.add_comm 1]

/-- Whole components are swapped where they are. -/
theorem swapByteOrderInPlace_guards {componentSize : Nat} (positive : 0 < componentSize)
    (small : destination.length ≤ u64Max) :
    Guards (swapByteOrderInPlace destination componentSize)
      (Guarded.swapByteOrderInPlace destination componentSize)
      (fun swapped m => l = m ∧ swapped.length = destination.length) l := by
  apply Guards.exactly (Exact.divide_eq positive)
  apply swapFrom_guards small _ 0 rfl
  rw [Nat.zero_add]
  exact Nat.div_mul_le_self _ _

/-! ## Compressed blocks -/

/-- A byte of a shuffled block has its place in the block. -/
theorem scatterByte_eq {itemSize globalOffset : Nat} {byte : Byte}
    (small : destination.length ≤ u64Max) (inside : globalOffset < destination.length) :
    Guarded.scatterByte itemSize (destination.length / itemSize)
        (destination.length / itemSize * itemSize) globalOffset byte destination =
      some (destination.set
        (unshuffledPosition itemSize destination.length globalOffset) byte) := by
  have place := (unshuffledPosition_permutes itemSize destination.length).inside globalOffset inside
  unfold Guarded.scatterByte
  by_cases shuffled : globalOffset < destination.length / itemSize * itemSize
  · obtain ⟨item, -⟩ := item_and_byte shuffled
    have items : 0 < destination.length / itemSize := Nat.zero_lt_of_lt item
    rw [unshuffledPosition_of_lt shuffled] at place ⊢
    have start := Nat.le_add_right (globalOffset % (destination.length / itemSize) * itemSize)
      (globalOffset / (destination.length / itemSize))
    rw [if_pos shuffled, Exact.divide_eq items, Exact.remainder_eq items]
    simp only [Option.bind_eq_bind, Option.bind_some]
    rw [multiply_fits (by omega)]
    simp only [Option.bind_some]
    rw [add_fits (by omega)]
    exact if_pos place
  · rw [unshuffledPosition_of_tail (Nat.le_of_not_lt shuffled), if_neg shuffled]
    exact if_pos inside

theorem scatterFrom_guards {itemSize shuffledOffset size : Nat} (small : size ≤ u64Max) :
    ∀ (shuffled : Bytes) (localOffset : Nat) {output : Bytes}, output.length = size →
      shuffledOffset + localOffset + shuffled.length ≤ size →
      Guards (scatterFrom itemSize shuffledOffset localOffset shuffled output)
        (Guarded.scatterFrom itemSize (size / itemSize) (size / itemSize * itemSize) shuffledOffset
          localOffset shuffled output)
        (fun bytes m => l = m ∧ bytes.length = size) l
  | [], _, _, length, _ => .pure ⟨rfl, length⟩
  | byte :: rest, localOffset, output, length, within => by
      rw [List.length_cons] at within
      apply Guards.bind (Guards.call (checkStopAt_leaves _ _))
      rintro _ _ ⟨rfl, -⟩
      have placed := @scatterByte_eq output itemSize (shuffledOffset + localOffset) byte
        (by omega) (by omega)
      rw [length] at placed
      apply Guards.exactly (add_fits (by omega))
      apply Guards.exactly placed
      dsimp only
      rw [length]
      apply scatterFrom_guards small rest (localOffset + 1)
      · rw [List.length_set, length]
      · omega

theorem scatterUnshuffledBytes_guards {shuffled : Bytes} {itemSize shuffledOffset : Nat}
    (small : destination.length ≤ u64Max) :
    Guards (scatterUnshuffledBytes shuffled destination itemSize shuffledOffset)
      (Guarded.scatterUnshuffledBytes shuffled destination itemSize shuffledOffset)
      (fun bytes m => l = m ∧ bytes.length = destination.length) l := by
  apply Guards.bind (Guards.call (refuse_leaves _ _ _))
  rintro _ _ ⟨rfl, accepted⟩
  rw [not_or, not_or] at accepted
  obtain ⟨some, start, room⟩ := accepted
  have positive : 0 < itemSize := Nat.pos_of_ne_zero some
  have whole := Nat.div_mul_le_self destination.length itemSize
  apply Guards.exactly (Exact.divide_eq positive)
  apply Guards.exactly (multiply_fits (by omega))
  exact scatterFrom_guards small shuffled 0 rfl (by omega)

/-- Every subblock is inside the block, and its bytes inside the image. -/
theorem decodeSubblocks_guards {platform : Platform} {serialized : Bytes}
    {compression : CompressionPlan} {size : Nat} (serializedSmall : serialized.length ≤ u64Max)
    (small : size ≤ u64Max) :
    ∀ (subblocks : List CompressionSubblock) (inputOffset outputOffset : Nat) {destination : Bytes},
      destination.length = size → inputOffset + compressedTotal subblocks ≤ serialized.length →
      outputOffset + uncompressedTotal subblocks ≤ size →
      Guards (decodeSubblocks platform serialized compression subblocks inputOffset outputOffset
          destination)
        (Guarded.decodeSubblocks platform serialized compression subblocks inputOffset outputOffset
          destination)
        (fun bytes m => l = m ∧ bytes.length = size) l
  | [], _, _, _, length, _, _ => .pure ⟨rfl, length⟩
  | subblock :: rest, inputOffset, outputOffset, destination, length, input, output => by
      simp only [compressedTotal, List.map_cons, List.sum_cons] at input
      simp only [uncompressedTotal, List.map_cons, List.sum_cons] at output
      apply Guards.bind (Guards.call (checkStop_leaves _))
      rintro _ _ ⟨rfl, -⟩
      apply Guards.exactly (Exact.require_eq (by omega))
      apply Guards.bind (Guards.call (decompressSubblock_leaves _ _ _ _))
      rintro decoded _ ⟨rfl, decodedLength⟩
      have stored : Guards (if compression.byteShuffled = true then
            scatterUnshuffledBytes decoded destination compression.itemSize outputOffset
          else pure (overwrite destination outputOffset decoded))
          (if compression.byteShuffled = true then
            Guarded.scatterUnshuffledBytes decoded destination compression.itemSize outputOffset
          else Library.Guarded.exactly
            (copy decoded 0 subblock.uncompressedSize destination outputOffset))
          (fun bytes m => l = m ∧ bytes.length = size) l := by
        by_cases shuffled : compression.byteShuffled = true
        · rw [if_pos shuffled, if_pos shuffled, ← length]
          exact scatterUnshuffledBytes_guards (by omega)
        · have copied : copy decoded 0 subblock.uncompressedSize destination outputOffset =
              some (overwrite destination outputOffset decoded) := by
            have whole : slice decoded 0 subblock.uncompressedSize = decoded := by
              rw [slice, List.drop_zero, List.take_of_length_le (by omega)]
            rw [copy, whole]
            exact if_pos (by omega)
          rw [if_neg shuffled, if_neg shuffled, copied]
          apply Guards.pure
          refine ⟨rfl, ?_⟩
          rw [Library.length_overwrite (by omega), length]
      apply Guards.bind stored
      rintro filled _ ⟨rfl, filledLength⟩
      apply Guards.exactly (add_fits (by omega))
      apply Guards.exactly (add_fits (by omega))
      apply decodeSubblocks_guards serializedSmall small rest _ _ filledLength
      · simp only [compressedTotal]
        omega
      · simp only [uncompressedTotal]
        omega

theorem decodeCompressedBlock_guards {platform : Platform} {serialized : Bytes}
    {compression : CompressionPlan} (serializedSmall : serialized.length ≤ u64Max)
    (small : destination.length ≤ u64Max)
    (input : compressedTotal compression.subblocks ≤ serialized.length)
    (output : uncompressedTotal compression.subblocks ≤ destination.length) :
    Guards (decodeCompressedBlock platform serialized compression destination)
      (Guarded.decodeCompressedBlock platform serialized compression destination)
      (fun bytes m => l = m ∧ bytes.length = destination.length) l := by
  apply Guards.bind (Guards.call (checkStop_leaves _))
  rintro _ _ ⟨rfl, -⟩
  apply decodeSubblocks_guards serializedSmall small _ 0 0 rfl
  · rwa [Nat.zero_add]
  · rwa [Nat.zero_add]

/-! ## `read_image_into` -/

theorem orderPixels_guards (sound : plan.Sound) (length : destination.length = plan.expectedBytes) :
    Guards (orderPixels plan outputByteOrder destination)
      (Guarded.orderPixels plan outputByteOrder destination)
      (fun bytes m => l = m ∧ bytes.length = plan.expectedBytes) l := by
  unfold orderPixels Guarded.orderPixels
  by_cases swaps : plan.sampleSize > 1 ∧ outputByteOrder ≠ plan.image.byteOrder
  · rw [if_pos swaps, if_pos swaps, ← length]
    exact swapByteOrderInPlace_guards sound.component_pos (length ▸ sound.small)
  · rw [if_neg swaps, if_neg swaps]
    exact .pure ⟨rfl, length⟩

variable {platform : Platform} {serialized : Bytes} {imageIndex : Nat}

/-- Without a codec the block is the image. -/
theorem ImageReadPlan.Sound.plain (sound : plan.Sound) (plain : plan.compression.codec = .none) :
    plan.serializedBytes = plan.expectedBytes := by
  rw [← sound.uncompressedSize, (sound.fits.uncompressed plain).1]

/-- With one its subblocks are. -/
theorem ImageReadPlan.Sound.coded (sound : plan.Sound) (coded : plan.compression.codec ≠ .none) :
    compressedTotal plan.compression.subblocks = plan.serializedBytes ∧
      uncompressedTotal plan.compression.subblocks = plan.expectedBytes := by
  rw [← sound.uncompressedSize]
  exact sound.fits.compressed coded

theorem decodeStagedImage_guards (sound : plan.Sound) (addressable : plan.serializedBytes ≤ u64Max)
    (staged : serialized.length = plan.serializedBytes)
    (length : destination.length = plan.expectedBytes) :
    Guards (decodeStagedImage platform plan serialized destination outputStorage outputByteOrder)
      (Guarded.decodeStagedImage plan platform serialized destination outputStorage outputByteOrder)
      (fun bytes m => l = m ∧ bytes.length = plan.expectedBytes) l := by
  unfold decodeStagedImage Guarded.decodeStagedImage
  by_cases coded : plan.compression.codec ≠ .none
  · obtain ⟨input, output⟩ := sound.coded coded
    have small := sound.small
    rw [if_pos coded, if_pos coded]
    by_cases moves : outputStorage ≠ plan.image.pixelStorage
    · rw [if_pos moves, if_pos moves]
      have zeroed : (zeros plan.expectedBytes).length = plan.expectedBytes := List.length_replicate
      apply Guards.bind
        (decodeCompressedBlock_guards (by omega) (by omega) (by omega) (by omega))
      rintro pixels _ ⟨rfl, full⟩
      exact transformPixelStorageFromBuffer_guards sound (full.trans zeroed) length
    · rw [if_neg moves, if_neg moves]
      apply Guards.bind
        (decodeCompressedBlock_guards (by omega) (by omega) (by omega) (by omega))
      rintro pixels _ ⟨rfl, full⟩
      exact orderPixels_guards sound (full.trans length)
  · have same := sound.plain (not_not.mp coded)
    rw [if_neg coded, if_neg coded]
    by_cases moves : outputStorage ≠ plan.image.pixelStorage
    · rw [if_pos moves, if_pos moves]
      exact transformPixelStorageFromBuffer_guards sound (staged.trans same) length
    · rw [if_neg moves, if_neg moves]
      apply orderPixels_guards sound
      rw [Library.length_overwrite (by omega), length]

theorem fillImage_guards (sound : plan.Sound) (addressable : plan.serializedBytes ≤ u64Max)
    (length : destination.length = plan.expectedBytes) :
    Guards (fillImage platform plan imageIndex destination outputStorage outputByteOrder)
      (Guarded.fillImage plan platform imageIndex destination outputStorage outputByteOrder)
      (fun bytes m => l = m ∧ bytes.length = plan.expectedBytes) l := by
  unfold fillImage Guarded.fillImage
  by_cases stages : needsSerializedStaging plan.compression plan.checksum = true
  · rw [if_pos stages, if_pos stages]
    apply Guards.bind (Guards.call (copySerializedImage_leaves sound.place))
    rintro serialized _ ⟨rfl, staged⟩
    apply Guards.bind (Guards.call (verifyChecksum_leaves _ _))
    rintro _ _ ⟨rfl, -⟩
    exact decodeStagedImage_guards sound addressable staged length
  · have plain : plan.compression.codec = .none := by
      simp only [needsSerializedStaging, Bool.or_eq_true, decide_eq_true_eq, not_or,
        not_not] at stages
      exact stages.1
    have same := sound.plain plain
    rw [if_neg stages, if_neg stages]
    by_cases moves : outputStorage ≠ plan.image.pixelStorage
    · rw [if_pos moves, if_pos moves]
      exact transformPixelStorage_guards sound same length
    · rw [if_neg moves, if_neg moves]
      apply Guards.bind (Guards.call (copySerializedImage_leaves sound.place))
      rintro copied _ ⟨rfl, staged⟩
      apply orderPixels_guards sound
      rw [Library.length_overwrite (by omega), length]

theorem readImageInto_guards (reader : Impl) (destination : Bytes)
    (readOptions : ImageReadOptions) :
    Guards (readImageInto platform reader imageIndex destination readOptions)
      (Guarded.readImageInto platform reader imageIndex destination readOptions)
      (fun _ m => l = m) l := by
  unfold readImageInto Guarded.readImageInto
  apply Guards.bind (Guards.call (.ofExcept fun plan planned => planned))
  rintro plan _ ⟨rfl, planned⟩
  obtain ⟨sound, -⟩ := planImageRead_sound reader.wellFormed planned
  have addressable := planImageRead_addressable planned
  apply Guards.bind (Guards.call (refuse_leaves _ _ _))
  rintro _ _ ⟨rfl, large⟩
  have length : (destination.take plan.expectedBytes).length = plan.expectedBytes := by
    rw [List.length_take]
    omega
  apply Guards.bind (fillImage_guards sound addressable length)
  rintro output _ ⟨rfl, -⟩
  exact .pure rfl

end

/-! ## `read_image_rows` -/

section

variable {platform : Platform} {context : RowContext} {imageIndex ordinal fill rows bytes : Nat}
  {l : RowDelivery}

/-- The sizes and the counts of a delivery between two steps. -/
structure RowState (context : RowContext) (ordinal fill rows bytes : Nat) (l : RowDelivery) :
    Prop where
  sourceRow : l.sourceRow.length = context.rows.sourceRowBytes
  planeRow : context.plan.image.pixelStorage = .normal →
    l.planeRow.length = context.rows.planeRowBytes
  ordinal : l.sourceRowOrdinal = ordinal
  fill : l.rowFill = fill
  rows : l.rowsDelivered = rows
  bytes : l.bytesDelivered = bytes

/-- The rows of whole source rows were shown. -/
abbrev RowsShown (context : RowContext) (ordinal fill : Nat) : RowDelivery → Prop :=
  RowState context ordinal fill (ordinal * rowsPerSource context.plan)
    (ordinal * context.rows.sourceRowBytes)

/-- What the sizes of a delivery are to its image. -/
structure RowBounds (context : RowContext) : Prop where
  sound : context.plan.Sound
  fits : context.rows.Fits context.plan
  total : context.rows.sourceRowCount * context.rows.sourceRowBytes = context.plan.expectedBytes
  sourceRowPositive : 0 < context.rows.sourceRowBytes
  sourceRowSmall : context.rows.sourceRowBytes ≤ u64Max
  planarRows : context.rows.planarRowCount ≤ u64Max
  serialized : context.plan.serializedBytes ≤ u64Max

theorem rowBounds {plan : ImageReadPlan} (sound : plan.Sound) (outputByteOrder : ByteOrder)
    (serialized : plan.serializedBytes ≤ u64Max) :
    RowBounds ⟨plan, rowSizes plan, outputByteOrder⟩ := by
  have fits := rowSizes_fits plan
  have rowsTotal := sound.rowsTotal
  have planeRowPositive : 0 < axis plan.image 0 * plan.sampleSize :=
    Nat.mul_pos (Nat.pos_of_ne_zero sound.width) sound.sample_pos
  have total : (rowSizes plan).sourceRowCount * (rowSizes plan).sourceRowBytes =
      plan.expectedBytes := by
    rw [fits.sourceRow, ← Nat.mul_assoc, fits.sourceRows]
    exact rowsTotal
  have some : 0 < (rowSizes plan).sourceRowCount := by
    have height := Nat.pos_of_ne_zero sound.height
    unfold rowSizes
    dsimp only
    split
    · exact Nat.mul_pos height sound.channels_pos
    · exact height
  refine ⟨sound, fits, total, ?_, ?_, ?_, serialized⟩
  · exact Nat.mul_pos (rowsPerSource_pos sound) planeRowPositive
  · refine Nat.le_trans ?_ sound.small
    rw [← total]
    exact Nat.le_mul_of_pos_left _ some
  · refine Nat.le_trans ?_ sound.small
    rw [← rowsTotal]
    exact Nat.le_mul_of_pos_right _ planeRowPositive

namespace RowBounds

theorem height_pos (bounds : RowBounds context) : 0 < context.rows.height := by
  rw [bounds.fits.height]
  exact Nat.pos_of_ne_zero bounds.sound.height

/-- What rows up to a source row need. -/
theorem room (bounds : RowBounds context) (inside : ordinal ≤ context.rows.sourceRowCount) :
    ordinal * rowsPerSource context.plan ≤ u64Max ∧
      ordinal * context.rows.sourceRowBytes ≤ context.plan.expectedBytes := by
  constructor
  · have rows := Nat.mul_le_mul_right (rowsPerSource context.plan) inside
    rw [bounds.fits.sourceRows] at rows
    exact rows.trans bounds.planarRows
  · have bytes := Nat.mul_le_mul_right context.rows.sourceRowBytes inside
    rwa [bounds.total] at bytes

/-- A number of bytes fills whole rows and a part of the next. -/
theorem ordinal_lt (bounds : RowBounds context) {fill : Nat}
    (inside : ordinal * context.rows.sourceRowBytes + fill ≤
    context.plan.expectedBytes) (some : 0 < fill) : ordinal < context.rows.sourceRowCount := by
  rw [← bounds.total] at inside
  apply Nat.lt_of_mul_lt_mul_right
  exact Nat.lt_of_lt_of_le (Nat.lt_add_of_pos_right some) inside

end RowBounds

/-- A row that is shown is counted. -/
theorem emitPlaneRow_guards {channelIndex rowIndex : Nat} {row : Bytes} (bounds : RowBounds context)
    (state : RowState context ordinal fill rows bytes l) (rowsRoom : rows + 1 ≤ u64Max)
    (bytesRoom : bytes + row.length ≤ u64Max) :
    Guards (emitPlaneRow context channelIndex rowIndex row)
      (Guarded.emitPlaneRow context channelIndex rowIndex row)
      (fun shown m => shown.length = row.length ∧
        RowState context ordinal fill (rows + 1) (bytes + row.length) m) l := by
  unfold emitPlaneRow Guarded.emitPlaneRow
  apply Guards.bind (Guards.call (checkStop_leaves _))
  rintro _ _ ⟨rfl, -⟩
  have swapped : Guards (if context.outputByteOrder ≠ context.plan.image.byteOrder then
        swapByteOrderInPlace row context.plan.endianComponentSize
      else pure row)
      (if context.outputByteOrder ≠ context.plan.image.byteOrder then
        Guarded.swapByteOrderInPlace row context.plan.endianComponentSize
      else pure row) (fun shown m => l = m ∧ shown.length = row.length) l := by
    by_cases differs : context.outputByteOrder ≠ context.plan.image.byteOrder
    · rw [if_pos differs, if_pos differs]
      exact swapByteOrderInPlace_guards bounds.sound.component_pos (by omega)
    · rw [if_neg differs, if_neg differs]
      exact .pure ⟨rfl, rfl⟩
  apply Guards.bind swapped
  rintro shown _ ⟨rfl, length⟩
  apply Guards.bind (Guards.call (.request _))
  rintro reply _ ⟨rfl, -⟩
  apply Guards.bind (Guards.call (.ofExcept fun _ _ => trivial))
  rintro _ _ ⟨rfl, -⟩
  apply Guards.reads
  apply Guards.exactly (add_fits (by rw [state.rows]; exact rowsRoom))
  apply Guards.exactly (add_fits (by rw [state.bytes, length]; exact bytesRoom))
  apply Guards.stores rfl
  apply Guards.pure
  refine ⟨length, state.sourceRow, state.planeRow, state.ordinal, state.fill, ?_, ?_⟩
  · show l.rowsDelivered + 1 = rows + 1
    rw [state.rows]
  · show l.bytesDelivered + shown.length = bytes + row.length
    rw [state.bytes, length]

/-- The pixels of a channel are inside the source row, and their places inside
the plane row. -/
theorem splitRow_eq {plan : ImageReadPlan} {channel width : Nat} {sourceRow : Bytes}
    (small : channel < plan.channels) (bound : sourceRow.length ≤ u64Max)
    (length : sourceRow.length = plan.channels * (width * plan.sampleSize))
      (positive : 0 < plan.sampleSize) :
    ∀ (count pixel : Nat) {planeRow : Bytes}, pixel + count = width →
      planeRow.length = width * plan.sampleSize →
      Guarded.splitRow plan channel sourceRow count pixel planeRow =
          some (splitRow plan channel sourceRow count pixel planeRow) ∧
        (splitRow plan channel sourceRow count pixel planeRow).length = width * plan.sampleSize
  | 0, _, _, _, planeLength => ⟨rfl, planeLength⟩
  | count + 1, pixel, planeRow, within, planeLength => by
      have inside := channelRow_room small length pixel (by omega)
      have pieceLength := Library.length_slice inside
      have outputRoom : pixel * plan.sampleSize + plan.sampleSize ≤ planeRow.length := by
        rw [planeLength, ← Nat.succ_mul]
        exact Nat.mul_le_mul_right _ (by omega)
      have planeBound : planeRow.length ≤ u64Max := by
        have channels := Nat.le_mul_of_pos_left (width * plan.sampleSize) (Nat.zero_lt_of_lt small)
        omega
      have indexSmall : pixel * plan.channels + channel ≤ u64Max :=
        calc pixel * plan.channels + channel
            ≤ (pixel * plan.channels + channel) * plan.sampleSize :=
            Nat.le_mul_of_pos_right _ positive
          _ ≤ u64Max := by omega
      have written : (overwrite planeRow (pixel * plan.sampleSize) (slice sourceRow
          ((pixel * plan.channels + channel) * plan.sampleSize) plan.sampleSize)).length =
          width * plan.sampleSize := by
        rw [Library.length_overwrite, planeLength]
        rw [pieceLength]
        exact outputRoom
      obtain ⟨same, finished⟩ := splitRow_eq small bound length positive count
        (pixel + 1) (by omega)
        written
      constructor
      · rw [Guarded.splitRow, multiply_fits (by omega)]
        simp only [Option.bind_eq_bind, Option.bind_some]
        rw [add_fits indexSmall]
        simp only [Option.bind_some]
        rw [multiply_fits (by omega), multiply_fits (by omega)]
        simp only [Option.bind_some]
        rw [show copy _ _ _ _ _ = some _ from if_pos ⟨inside, outputRoom⟩]
        exact same
      · exact finished

theorem emitChannels_guards (bounds : RowBounds context)
    (interleaved : context.plan.image.pixelStorage = .normal) :
    ∀ (count channel : Nat) {rows bytes : Nat} {l : RowDelivery},
      channel + count = context.plan.channels → RowState context ordinal fill rows bytes l →
      rows + count ≤ u64Max → bytes + count * context.rows.planeRowBytes ≤ u64Max →
      Guards (emitChannels context count channel) (Guarded.emitChannels context count channel)
        (fun _ m => RowState context ordinal fill (rows + count)
          (bytes + count * context.rows.planeRowBytes) m) l
  | 0, _, rows, bytes, _, _, state, _, _ => by
      rw [Nat.zero_mul]
      exact .pure state
  | count + 1, channel, rows, bytes, l, within, state, rowsRoom, bytesRoom => by
      have sourceLength : l.sourceRow.length =
          context.plan.channels * (context.rows.width * context.plan.sampleSize) := by
        rw [state.sourceRow, bounds.fits.sourceRow, bounds.fits.planeRow]
        unfold rowsPerSource
        rw [interleaved]
      have sourceSmall : l.sourceRow.length ≤ u64Max := state.sourceRow ▸ bounds.sourceRowSmall
      have planeLength := (state.planeRow interleaved).trans bounds.fits.planeRow
      obtain ⟨same, finished⟩ := splitRow_eq (show channel < context.plan.channels by omega)
        sourceSmall
        sourceLength bounds.sound.sample_pos context.rows.width 0 (Nat.zero_add _) planeLength
      rw [Nat.succ_mul] at bytesRoom
      rw [← bounds.fits.planeRow] at finished
      unfold emitChannels Guarded.emitChannels
      apply Guards.get
      apply Guards.exactly same
      apply Guards.bind (emitPlaneRow_guards bounds state (by omega) (by omega))
      rintro planeRow m ⟨length, shown⟩
      apply Guards.reads
      apply Guards.stores rfl
      have next : RowState context ordinal fill (rows + 1) (bytes + context.rows.planeRowBytes)
          { m with planeRow := planeRow } := by
        rw [finished] at shown length
        exact ⟨shown.sourceRow, fun _ => length, shown.ordinal, shown.fill, shown.rows, shown.bytes⟩
      have later := emitChannels_guards bounds interleaved count (channel + 1) (by omega) next
        (by omega) (by omega)
      rw [show rows + (count + 1) = rows + 1 + count by omega,
        show bytes + (count + 1) * context.rows.planeRowBytes =
          bytes + context.rows.planeRowBytes + count * context.rows.planeRowBytes by
            rw [Nat.succ_mul]; omega]
      exact later

/-- A source row whose rows were shown is counted. -/
theorem countSourceRow_guards (state : RowState context ordinal fill rows bytes l)
    (room : ordinal + 1 ≤ u64Max) :
    Guards (Library.Routine.modifyStore fun delivery : RowDelivery =>
        { delivery with sourceRowOrdinal := delivery.sourceRowOrdinal + 1 } : ReadRoutine
          RowDelivery Unit)
      (do
        let delivery ← Library.Guarded.lift Library.Routine.getStore
        let sourceRowOrdinal ← Library.Guarded.exactly (add delivery.sourceRowOrdinal 1)
        Library.Guarded.lift (Library.Routine.setStore { delivery with sourceRowOrdinal }))
      (fun _ m => RowState context (ordinal + 1) fill rows bytes m) l := by
  have same := state.ordinal
  apply Guards.reads
  apply Guards.exactly (add_fits (by omega))
  apply Guards.stored rfl
  exact ⟨state.sourceRow, state.planeRow, congrArg (· + 1) same, state.fill,
    state.rows, state.bytes⟩

/-- A whole source row is shown as the rows that it becomes. -/
theorem emitSourceRow_guards (bounds : RowBounds context) (shown : RowsShown context ordinal fill l)
    (inside : ordinal < context.rows.sourceRowCount) :
    Guards (emitSourceRow context) (Guarded.emitSourceRow context)
      (fun _ m => RowsShown context (ordinal + 1) fill m) l := by
  obtain ⟨rowsRoom, bytesRoom⟩ := @RowBounds.room context (ordinal + 1) bounds inside
  have small := bounds.sound.small
  have perSource := bounds.fits.sourceRow
  have counted : ordinal + 1 ≤ (ordinal + 1) * rowsPerSource context.plan :=
    Nat.le_mul_of_pos_right _ (rowsPerSource_pos bounds.sound)
  have ordinalRoom := counted.trans rowsRoom
  unfold RowsShown at shown ⊢
  unfold rowsPerSource at rowsRoom shown perSource ⊢
  unfold emitSourceRow Guarded.emitSourceRow
  rw [Nat.succ_mul] at bytesRoom
  rw [Nat.succ_mul ordinal context.rows.sourceRowBytes]
  apply Guards.get
  cases storage : context.plan.image.pixelStorage with
  | planar =>
      simp only [storage, Nat.mul_one] at shown ⊢
      apply Guards.exactly (Exact.divide_eq bounds.height_pos)
      apply Guards.exactly (Exact.remainder_eq bounds.height_pos)
      apply Guards.bind
        (emitPlaneRow_guards bounds shown ordinalRoom (by rw [shown.sourceRow]; omega))
      rintro row m ⟨length, emitted⟩
      rw [shown.sourceRow] at length emitted
      apply Guards.reads
      apply Guards.stores rfl
      apply countSourceRow_guards _ ordinalRoom
      exact ⟨length, emitted.planeRow, emitted.ordinal, emitted.fill, emitted.rows, emitted.bytes⟩
  | normal =>
      simp only [storage] at rowsRoom shown perSource ⊢
      rw [Nat.succ_mul] at rowsRoom ⊢
      have emits := emitChannels_guards bounds storage context.plan.channels 0
        (Nat.zero_add _) shown
        rowsRoom (by omega)
      rw [← perSource] at emits
      apply Guards.bind emits
      intro _ m emitted
      exact countSourceRow_guards emitted ordinalRoom

theorem hashDelivered_guards {read : Bytes} (state : RowState context ordinal fill rows bytes l) :
    Guards (hashDelivered read) (Library.Guarded.lift (hashDelivered read))
      (fun _ m => RowState context ordinal fill rows bytes m) l :=
  Guards.lift fun _ _ =>
    ⟨state.sourceRow, state.planeRow, state.ordinal, state.fill, state.rows, state.bytes⟩

/-- The next rows are read where they are. -/
theorem deliverUncompressed_guards (bounds : RowBounds context)
    (plain : context.plan.compression.codec = .none) :
    ∀ (count row : Nat) {l : RowDelivery}, row + count = context.rows.sourceRowCount →
      RowsShown context row 0 l →
      Guards (deliverUncompressed context imageIndex count row)
        (Guarded.deliverUncompressed context imageIndex count row)
        (fun _ m => RowsShown context context.rows.sourceRowCount 0 m) l
  | 0, row, l, within, shown => by
      rw [Nat.add_zero] at within
      subst within
      exact .pure shown
  | count + 1, row, l, within, shown => by
      have inside : row < context.rows.sourceRowCount := by omega
      obtain ⟨-, room⟩ := @RowBounds.room context (row + 1) bounds inside
      have small := bounds.sound.small
      have same := bounds.sound.plain plain
      rw [Nat.succ_mul] at room
      unfold deliverUncompressed Guarded.deliverUncompressed
      rw [wrapMultiply_eq (by omega)]
      apply Guards.exactly (multiply_fits (by omega))
      apply Guards.bind (readChunk_guards bounds.sound (by omega) (by omega))
      rintro read _ ⟨rfl, length⟩
      apply Guards.reads
      apply Guards.stores rfl
      have filled : RowsShown context row 0 { l with sourceRow := read } :=
        ⟨length, shown.planeRow, shown.ordinal, shown.fill, shown.rows, shown.bytes⟩
      apply Guards.bind (hashDelivered_guards filled)
      intro _ m hashed
      apply Guards.bind (emitSourceRow_guards bounds hashed inside)
      intro _ n emitted
      exact deliverUncompressed_guards bounds plain count (row + 1) (by omega) emitted

/-- The rows that a number of decoded bytes fills, and what they leave of the
next. -/
def RowsFed (context : RowContext) (size : Nat) (l : RowDelivery) : Prop :=
  ∃ ordinal fill, fill < context.rows.sourceRowBytes ∧
    ordinal * context.rows.sourceRowBytes + fill = size ∧ RowsShown context ordinal fill l

/-- A row that is full is shown, and the next begun. -/
theorem showFilled_guards (bounds : RowBounds context) (shown : RowsShown context ordinal fill l)
    (fits : fill ≤ context.rows.sourceRowBytes)
    (room : ordinal * context.rows.sourceRowBytes + fill ≤ context.plan.expectedBytes) :
    Guards (if fill = context.rows.sourceRowBytes then do
          emitSourceRow context
          Library.Routine.modifyStore fun delivery => { delivery with rowFill := 0 }
        else pure ())
      (if fill = context.rows.sourceRowBytes then do
          Guarded.emitSourceRow context
          let delivery ← Library.Guarded.lift Library.Routine.getStore
          Library.Guarded.lift (Library.Routine.setStore { delivery with rowFill := 0 })
        else pure ())
      (fun _ m => RowsFed context (ordinal * context.rows.sourceRowBytes + fill) m) l := by
  have positive := bounds.sourceRowPositive
  by_cases full : fill = context.rows.sourceRowBytes
  · rw [if_pos full, if_pos full]
    apply Guards.bind (emitSourceRow_guards bounds shown (bounds.ordinal_lt room (by omega)))
    intro _ m emitted
    apply Guards.reads
    apply Guards.stored rfl
    refine ⟨ordinal + 1, 0, positive, ?_, ?_⟩
    · rw [full, Nat.succ_mul, Nat.add_zero]
    · exact ⟨emitted.sourceRow, emitted.planeRow, emitted.ordinal, rfl, emitted.rows, emitted.bytes⟩
  · rw [if_neg full, if_neg full]
    exact .pure ⟨ordinal, fill, by omega, rfl, shown⟩

/-- One round fills the row that was begun, as far as the bytes go. -/
theorem feedDecoded_guards (bounds : RowBounds context) {decoded : Bytes}
    (addressable : decoded.length ≤ u64Max) :
    ∀ (fuel offset : Nat) {size : Nat} {l : RowDelivery}, offset ≤ decoded.length →
      decoded.length - offset ≤ fuel → size + (decoded.length - offset) ≤
      context.plan.expectedBytes →
      RowsFed context size l →
      Guards (feedDecoded context fuel (decoded.drop offset))
        (Guarded.feedDecoded context decoded fuel offset)
        (fun _ m => RowsFed context (size + (decoded.length - offset)) m) l
  | 0, offset, size, l, inside, enough, _, fed => by
      have done : decoded.length - offset = 0 := Nat.le_zero.mp enough
      unfold Guarded.feedDecoded
      rw [done, Nat.add_zero, Exact.require_eq (by omega)]
      exact .pure fed
  | fuel + 1, offset, size, l, inside, enough, room, fed => by
      obtain ⟨ordinal, fill, short, total, shown⟩ := fed
      have small := bounds.sound.small
      unfold feedDecoded Guarded.feedDecoded
      by_cases more : offset < decoded.length
      · have left : decoded.drop offset ≠ [] := by
          rw [Ne, List.drop_eq_nil_iff]
          omega
        have rowSmall := bounds.sourceRowSmall
        rw [if_neg left, if_pos more]
        apply Guards.get
        rw [shown.sourceRow, shown.fill, List.length_drop]
        dsimp only
        generalize chosen : min (context.rows.sourceRowBytes - fill) (decoded.length - offset) =
          count
        have some : 0 < count := by omega
        have fits : fill + count ≤ context.rows.sourceRowBytes := by omega
        have taken : offset + count ≤ decoded.length := by omega
        have pieceLength := Library.length_slice taken
        have written : (overwrite l.sourceRow fill (slice decoded offset count)).length =
            context.rows.sourceRowBytes := by
          rw [Library.length_overwrite, shown.sourceRow]
          rw [pieceLength, shown.sourceRow]
          exact fits
        have copied : copy decoded offset count l.sourceRow fill =
            Option.some (overwrite l.sourceRow fill (slice decoded offset count)) :=
          if_pos ⟨taken, by rw [shown.sourceRow]; exact fits⟩
        apply Guards.exactly (Exact.subtract_eq (by omega))
        apply Guards.exactly (Exact.subtract_eq (by omega))
        rw [chosen]
        apply Guards.exactly copied
        apply Guards.exactly (add_fits (by omega))
        apply Guards.exactly (add_fits (by omega))
        apply Guards.set
        rw [written, List.drop_drop]
        have filled : RowsShown context ordinal (fill + count)
            { l with
              sourceRow := overwrite l.sourceRow fill (slice decoded offset count)
              rowFill := fill + count } :=
          ⟨written, shown.planeRow, shown.ordinal, rfl, shown.rows, shown.bytes⟩
        apply Guards.bind (showFilled_guards bounds filled fits (by omega))
        intro _ m fed
        have later := feedDecoded_guards bounds addressable fuel (offset + count) taken (by omega)
          (by omega) fed
        have rest : ordinal * context.rows.sourceRowBytes + (fill + count) +
            (decoded.length - (offset + count)) = size + (decoded.length - offset) := by omega
        rw [rest] at later
        exact later
      · have done : decoded.length - offset = 0 := by omega
        have nothing : decoded.drop offset = [] := by
          rw [List.drop_eq_nil_iff]
          omega
        rw [if_pos nothing, if_neg more, done, Nat.add_zero]
        exact .pure ⟨ordinal, fill, short, total, shown⟩

/-- The subblocks are read one after another, and the rows end where the last one
does. -/
theorem deliverSubblocks_guards (bounds : RowBounds context) :
    ∀ (subblocks : List CompressionSubblock) (serializedOffset : Nat) {size : Nat}
    {l : RowDelivery},
      serializedOffset + compressedTotal subblocks ≤ context.plan.serializedBytes →
      size + uncompressedTotal subblocks ≤ context.plan.expectedBytes → RowsFed context size l →
      Guards (deliverSubblocks platform context imageIndex subblocks serializedOffset)
        (Guarded.deliverSubblocks platform context imageIndex subblocks serializedOffset)
        (fun _ m => RowsFed context (size + uncompressedTotal subblocks) m) l
  | [], _, _, _, _, _, fed => .pure fed
  | subblock :: rest, serializedOffset, size, l, input, output, fed => by
      have small := bounds.sound.small
      have addressable := bounds.serialized
      simp only [compressedTotal, List.map_cons, List.sum_cons] at input
      simp only [uncompressedTotal, List.map_cons, List.sum_cons] at output
      apply Guards.bind (readChunk_guards bounds.sound (by omega) (by omega))
      rintro serialized _ ⟨rfl, serializedLength⟩
      obtain ⟨ordinal, fill, short, total, shown⟩ := fed
      apply Guards.bind (hashDelivered_guards shown)
      intro _ hashed shown
      have zeroed : (zeros subblock.uncompressedSize).length = subblock.uncompressedSize :=
        List.length_replicate
      apply Guards.bind (decodeCompressedBlock_guards (by omega) (by omega)
        (by simp only [compressedTotal, List.map_singleton, List.sum_singleton]; omega)
        (by simp only [uncompressedTotal, List.map_singleton, List.sum_singleton]; omega))
      rintro decoded _ ⟨rfl, decodedLength⟩
      rw [zeroed] at decodedLength
      have feeds := @feedDecoded_guards context bounds decoded (by omega) decoded.length
        0 size hashed
        (Nat.zero_le _) (Nat.sub_le _ _) (by omega) ⟨ordinal, fill, short, total, shown⟩
      rw [Nat.sub_zero, List.drop_zero] at feeds
      apply Guards.bind feeds
      intro _ m fed
      apply Guards.exactly (add_fits (by omega))
      have later := deliverSubblocks_guards bounds rest (serializedOffset + serialized.length)
        (by simp only [compressedTotal]; omega) (by simp only [uncompressedTotal]; omega) fed
      rw [Nat.add_assoc, decodedLength] at later
      exact later

/-- The bytes of an image are whole rows. -/
theorem RowsFed.whole (bounds : RowBounds context)
    (fed : RowsFed context context.plan.expectedBytes l) :
    RowsShown context context.rows.sourceRowCount 0 l := by
  obtain ⟨ordinal, fill, short, total, shown⟩ := fed
  rw [← bounds.total] at total
  have positive := bounds.sourceRowPositive
  have fills : fill = 0 := by
    have remainder := congrArg (· % context.rows.sourceRowBytes) total
    simp only [Nat.mul_add_mod_self_right, Nat.mul_mod_left, Nat.mod_eq_of_lt short] at remainder
    exact remainder
  subst fills
  have whole := Nat.eq_of_mul_eq_mul_right positive total
  exact whole ▸ shown

theorem refuse_passes {L : Type} {bad : Prop} [Decidable bad] {code : ErrorCode} {message : String}
    (good : ¬ bad) : (refuse bad code message : ReadRoutine L Unit) = pure () := by
  rw [refuse, reject, if_neg good]
  rfl

theorem deliverCompressed_guards (bounds : RowBounds context)
    (coded : context.plan.compression.codec ≠ .none) (shown : RowsShown context 0 0 l) :
    Guards (deliverCompressed platform context imageIndex)
      (Guarded.deliverCompressed platform context imageIndex)
      (fun _ m => RowsShown context context.rows.sourceRowCount 0 m) l := by
  obtain ⟨input, output⟩ := bounds.sound.coded coded
  have start : RowsFed context 0 l :=
    ⟨0, 0, bounds.sourceRowPositive, by rw [Nat.zero_mul], shown⟩
  apply Guards.bind (deliverSubblocks_guards bounds context.plan.compression.subblocks 0 (by omega)
    (by omega) start)
  intro _ m fed
  rw [Nat.zero_add, output] at fed
  have whole := RowsFed.whole bounds fed
  have filled := whole.fill
  apply Guards.get
  rw [refuse_passes (not_not.mpr filled), Exact.require_eq (not_not.mpr filled)]
  exact .pure whole

theorem deliverRows_guards (bounds : RowBounds context) (shown : RowsShown context 0 0 l) :
    Guards (deliverRows platform context imageIndex)
      (Guarded.deliverRows platform context imageIndex) (fun _ _ => True) l := by
  have delivers : Guards (if context.plan.compression.codec = .none then
        deliverUncompressed context imageIndex context.rows.sourceRowCount 0
      else deliverCompressed platform context imageIndex)
      (if context.plan.compression.codec = .none then
        Guarded.deliverUncompressed context imageIndex context.rows.sourceRowCount 0
      else Guarded.deliverCompressed platform context imageIndex)
      (fun _ m => RowsShown context context.rows.sourceRowCount 0 m) l := by
    by_cases plain : context.plan.compression.codec = .none
    · rw [if_pos plain, if_pos plain]
      exact deliverUncompressed_guards bounds plain _ 0 (Nat.zero_add _) shown
    · rw [if_neg plain, if_neg plain]
      exact deliverCompressed_guards bounds plain shown
  apply Guards.bind delivers
  intro _ m whole
  have extent : ¬ (m.sourceRowOrdinal ≠ context.rows.sourceRowCount ∨
      m.rowsDelivered ≠ context.rows.planarRowCount ∨
      m.bytesDelivered ≠ context.plan.expectedBytes) := by
    rw [whole.ordinal, whole.rows, whole.bytes, bounds.fits.sourceRows, bounds.total]
    simp only [ne_eq, not_true, or_self, not_false_eq_true]
  apply Guards.get
  apply Guards.passes (refuse_passes extent)
  apply Guards.exactly (Exact.require_eq extent)
  apply Guards.bind (Guards.call (checkStop_leaves _))
  rintro _ _ ⟨rfl, -⟩
  exact (Guards.call (refuse_leaves _ _ _)).mono fun _ _ _ => trivial

/-- The buffers of a delivery have their sizes. -/
theorem RowDelivery.start_shown {plan : ImageReadPlan} {rows : RowPlan}
    {outputByteOrder : ByteOrder} :
    RowsShown ⟨plan, rows, outputByteOrder⟩ 0 0 (.start plan rows) where
  sourceRow := List.length_replicate
  planeRow := by
    intro interleaved
    have normal : plan.image.pixelStorage = .normal := interleaved
    simp only [start, normal, if_true]
    exact List.length_replicate
  ordinal := rfl
  fill := rfl
  rows := (Nat.zero_mul _).symm
  bytes := (Nat.zero_mul _).symm

theorem readImageRows_guards {L : Type} {l : L} (reader : Impl)
    (readOptions : ImageRowReadOptions) :
    Guards (readImageRows platform reader imageIndex readOptions)
      (Guarded.readImageRows platform reader imageIndex readOptions) (fun _ _ => True) l := by
  apply Guards.bind (Guards.call (.ofExcept fun plan planned => planned))
  rintro plan _ ⟨rfl, planned⟩
  obtain ⟨sound, -⟩ := planImageRead_sound reader.wellFormed planned
  have addressable := planImageRead_addressable planned
  apply Guards.bind (Guards.call (refuse_leaves _ _ _))
  rintro _ _ ⟨rfl, -⟩
  apply Guards.bind (Guards.call (checkStop_leaves _))
  rintro _ _ ⟨rfl, -⟩
  apply Guards.bind (Guards.call (.ofExcept fun rows sized => sized))
  rintro rows _ ⟨rfl, sized⟩
  obtain ⟨-, rfl⟩ := (planRows_eq_ok sound).mp sized
  apply Guards.bind (Guards.call (verifyImageChecksumStreaming_leaves sound.place))
  rintro _ _ ⟨rfl, -⟩
  apply Guards.bind (Guards.within
    (deliverRows_guards (rowBounds sound _ addressable) RowDelivery.start_shown))
  rintro ⟨_, delivery⟩ _ -
  exact .pure trivial

end

/-- The loops in the arithmetic of the machine do what the loops over numbers do,
in every world: none of their sums and products wraps, no index leaves its buffer,
no division is by zero, and the rows add up. -/
theorem pixelIndexArithmetic {S L : Type} (platform : Platform)
    (world : World ReadOp ReadOp.Reply S)
    (reader : Impl) (imageIndex : Nat) (l m : L) (s t : S) :
    (∀ (destination : Bytes) (readOptions : ImageReadOptions)
      (result : Except Error (Option (Nat × Bytes))),
      Run world (Guarded.readImageInto platform reader imageIndex destination readOptions).run l s
          result m t ↔
        ∃ ended, result = ended.map some ∧
          Run world (readImageInto platform reader imageIndex destination readOptions) l
          s ended m t) ∧
    ∀ (readOptions : ImageRowReadOptions) (result : Except Error (Option ImageRowReadSummary)),
      Run world (Guarded.readImageRows platform reader imageIndex readOptions).run l s result m t ↔
        ∃ ended, result = ended.map some ∧
          Run world (readImageRows platform reader imageIndex readOptions) l s ended m t := by
  constructor
  · intro destination readOptions result
    exact Guards.run_iff (readImageInto_guards reader destination readOptions)
  · intro readOptions result
    exact Guards.run_iff (readImageRows_guards reader readOptions)

end Mmxisf.Reader
