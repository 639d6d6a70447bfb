/-
# Reader.Pixels -- the reference permutation of the samples of an image

Both transformation loops and the in-place swap move samples to the place of
their channel and pixel and reverse the bytes of their components when the
orders differ.  `IsReference` says which bytes that is, without a loop; it names
one result (`IsReference.unique`).

* `Placed` is the invariant of the transformation loops: the samples seen so far
  are where they belong.
* `transformChunks_spec` reads the samples in chunks from any source.
* `swapByteOrderInPlace_computes` is the loop that changes no layout.
-/
import Mmxisf.Reader.PlanFacts

namespace Mmxisf.Reader

set_option autoImplicit false

open Library (slice overwrite mirrored Permutes)
open Library.Routine (wp)

namespace ImageReadPlan

/-- The index of the sample of a channel and a pixel. -/
def sampleIndex (plan : ImageReadPlan) (storage : PixelStorage) (channel pixel : Nat) : Nat :=
  match storage with
  | .planar => channel * plan.pixelCount + pixel
  | .normal => pixel * plan.channels + channel

/-- A source sample in the output byte order: its real and imaginary parts, or
its only component, are reversed when the orders differ. -/
def orderedBytes (plan : ImageReadPlan) (outputByteOrder : ByteOrder) (sample : Bytes) : Bytes :=
  if plan.image.byteOrder = outputByteOrder then sample
  else mirrored plan.endianComponentSize sample

/-- `output` holds the samples of `source` in this layout and byte order. -/
structure IsReference (plan : ImageReadPlan) (outputStorage : PixelStorage)
    (outputByteOrder : ByteOrder) (source output : Bytes) : Prop where
  length : output.length = plan.expectedBytes
  sample : ∀ channel < plan.channels, ∀ pixel < plan.pixelCount,
    slice output (plan.sampleIndex outputStorage channel pixel * plan.sampleSize)
        plan.sampleSize =
      plan.orderedBytes outputByteOrder
        (slice source (plan.sampleIndex plan.image.pixelStorage channel pixel * plan.sampleSize)
          plan.sampleSize)

section

variable {plan : ImageReadPlan} {outputStorage : PixelStorage} {outputByteOrder : ByteOrder}

theorem Sound.pixelCount_pos (sound : plan.Sound) : 0 < plan.pixelCount := by
  rw [sound.pixels]
  exact Nat.mul_pos (Nat.pos_of_ne_zero sound.width) (Nat.pos_of_ne_zero sound.height)

theorem Sound.channels_pos (sound : plan.Sound) : 0 < plan.channels :=
  Nat.pos_of_ne_zero sound.channels

theorem Sound.component_pos (sound : plan.Sound) : 0 < plan.endianComponentSize :=
  Nat.pos_of_ne_zero sound.component

theorem Sound.sample_pos (sound : plan.Sound) : 0 < plan.sampleSize := by
  obtain ⟨components, some, -, size, -⟩ := sound.sample
  rw [size]
  exact Nat.mul_pos (Nat.pos_of_ne_zero some) sound.component_pos

/-! ## Sample indices -/

theorem sampleIndex_lt (sound : plan.Sound) (storage : PixelStorage) {channel pixel : Nat}
    (channelSmall : channel < plan.channels) (pixelSmall : pixel < plan.pixelCount) :
    plan.sampleIndex storage channel pixel < plan.sampleCount := by
  rw [sound.samples]
  cases storage with
  | planar =>
      calc channel * plan.pixelCount + pixel
          < channel * plan.pixelCount + plan.pixelCount := by omega
        _ = (channel + 1) * plan.pixelCount := (Nat.succ_mul _ _).symm
        _ ≤ plan.channels * plan.pixelCount := Nat.mul_le_mul_right _ channelSmall
  | normal =>
      calc pixel * plan.channels + channel
          < pixel * plan.channels + plan.channels := by omega
        _ = (pixel + 1) * plan.channels := (Nat.succ_mul _ _).symm
        _ ≤ plan.pixelCount * plan.channels := Nat.mul_le_mul_right _ pixelSmall
        _ = plan.channels * plan.pixelCount := Nat.mul_comm _ _

/-- An index names one channel and pixel. -/
theorem sampleIndex_injective {storage : PixelStorage} {channel channel' pixel pixel' : Nat}
    (channelSmall : channel < plan.channels) (channelSmall' : channel' < plan.channels)
    (pixelSmall : pixel < plan.pixelCount) (pixelSmall' : pixel' < plan.pixelCount)
    (same : plan.sampleIndex storage channel pixel = plan.sampleIndex storage channel' pixel') :
    channel = channel' ∧ pixel = pixel' := by
  cases storage with
  | planar =>
      have remainder := congrArg (· % plan.pixelCount) same
      have quotient := congrArg (· / plan.pixelCount) same
      simp only [sampleIndex, Nat.mul_comm _ plan.pixelCount, Nat.mul_add_mod,
        Nat.mod_eq_of_lt pixelSmall, Nat.mod_eq_of_lt pixelSmall'] at remainder
      simp only [sampleIndex, Nat.mul_comm _ plan.pixelCount,
        Nat.mul_add_div (Nat.zero_lt_of_lt pixelSmall), Nat.div_eq_of_lt pixelSmall,
        Nat.div_eq_of_lt pixelSmall', Nat.add_zero] at quotient
      exact ⟨quotient, remainder⟩
  | normal =>
      have remainder := congrArg (· % plan.channels) same
      have quotient := congrArg (· / plan.channels) same
      simp only [sampleIndex, Nat.mul_comm _ plan.channels, Nat.mul_add_mod,
        Nat.mod_eq_of_lt channelSmall, Nat.mod_eq_of_lt channelSmall'] at remainder
      simp only [sampleIndex, Nat.mul_comm _ plan.channels,
        Nat.mul_add_div (Nat.zero_lt_of_lt channelSmall), Nat.div_eq_of_lt channelSmall,
        Nat.div_eq_of_lt channelSmall', Nat.add_zero] at quotient
      exact ⟨remainder, quotient⟩

theorem sourceChannel_lt (sound : plan.Sound) {i : Nat} (small : i < plan.sampleCount) :
    plan.sourceChannel i < plan.channels := by
  unfold sourceChannel
  cases plan.image.pixelStorage with
  | planar =>
      rw [sound.samples, Nat.mul_comm] at small
      exact Nat.div_lt_of_lt_mul small
  | normal => exact Nat.mod_lt _ sound.channels_pos

theorem sourcePixel_lt (sound : plan.Sound) {i : Nat} (small : i < plan.sampleCount) :
    plan.sourcePixel i < plan.pixelCount := by
  unfold sourcePixel
  cases plan.image.pixelStorage with
  | planar => exact Nat.mod_lt _ sound.pixelCount_pos
  | normal =>
      rw [sound.samples] at small
      exact Nat.div_lt_of_lt_mul small

/-- The channel and the pixel of an index lead back to it. -/
theorem sampleIndex_source (plan : ImageReadPlan) (i : Nat) :
    plan.sampleIndex plan.image.pixelStorage (plan.sourceChannel i) (plan.sourcePixel i) = i := by
  unfold sampleIndex sourceChannel sourcePixel
  cases plan.image.pixelStorage <;>
    · dsimp only
      rw [Nat.mul_comm]
      exact Nat.div_add_mod _ _

theorem source_of_sampleIndex (sound : plan.Sound) {channel pixel : Nat}
    (channelSmall : channel < plan.channels) (pixelSmall : pixel < plan.pixelCount) :
    plan.sourceChannel (plan.sampleIndex plan.image.pixelStorage channel pixel) = channel ∧
      plan.sourcePixel (plan.sampleIndex plan.image.pixelStorage channel pixel) = pixel := by
  have small := sampleIndex_lt sound plan.image.pixelStorage channelSmall pixelSmall
  exact sampleIndex_injective (sourceChannel_lt sound small) channelSmall
    (sourcePixel_lt sound small) pixelSmall (sampleIndex_source plan _)

theorem outputIndex_eq (plan : ImageReadPlan) (outputStorage : PixelStorage) (i : Nat) :
    plan.outputIndex outputStorage i =
      plan.sampleIndex outputStorage (plan.sourceChannel i) (plan.sourcePixel i) := by
  cases outputStorage <;> rfl

/-- The transformation moves every sample to a place of its own. -/
theorem outputIndex_permutes (sound : plan.Sound) (outputStorage : PixelStorage) :
    Permutes (plan.outputIndex outputStorage) plan.sampleCount := by
  refine ⟨fun i small => ?_, fun a b order small same => ?_⟩
  · rw [outputIndex_eq]
    exact sampleIndex_lt sound _ (sourceChannel_lt sound small) (sourcePixel_lt sound small)
  · have smallA : a < plan.sampleCount := order.trans small
    rw [outputIndex_eq, outputIndex_eq] at same
    obtain ⟨channels, pixels⟩ := sampleIndex_injective (sourceChannel_lt sound smallA)
      (sourceChannel_lt sound small) (sourcePixel_lt sound smallA) (sourcePixel_lt sound small) same
    have indices : a = b := by
      rw [← sampleIndex_source plan a, channels, pixels, sampleIndex_source]
    omega

/-- Every index is that of a channel and a pixel. -/
theorem exists_sampleIndex (sound : plan.Sound) (storage : PixelStorage) {j : Nat}
    (small : j < plan.sampleCount) :
    ∃ channel < plan.channels, ∃ pixel < plan.pixelCount,
      plan.sampleIndex storage channel pixel = j := by
  obtain ⟨i, smallI, rfl⟩ := (outputIndex_permutes sound storage).covers small
  exact ⟨_, sourceChannel_lt sound smallI, _, sourcePixel_lt sound smallI,
    (outputIndex_eq plan storage i).symm⟩

theorem sample_room (sound : plan.Sound) {i : Nat} (small : i < plan.sampleCount) :
    i * plan.sampleSize + plan.sampleSize ≤ plan.expectedBytes := by
  rw [sound.bytes, ← Nat.succ_mul]
  exact Nat.mul_le_mul_right _ small

/-- There is one reference result. -/
theorem IsReference.unique (sound : plan.Sound) {source first second : Bytes}
    (left : plan.IsReference outputStorage outputByteOrder source first)
    (right : plan.IsReference outputStorage outputByteOrder source second) : first = second := by
  refine Library.eq_of_slices
    (left.length.trans sound.bytes) (right.length.trans sound.bytes) fun j small => ?_
  obtain ⟨channel, channelSmall, pixel, pixelSmall, rfl⟩ :=
    exists_sampleIndex sound outputStorage small
  rw [left.sample channel channelSmall pixel pixelSmall,
    right.sample channel channelSmall pixel pixelSmall]

/-! ## Byte order -/

theorem length_orderedBytes (sound : plan.Sound) {sample : Bytes}
    (length : sample.length = plan.sampleSize) :
    (plan.orderedBytes outputByteOrder sample).length = plan.sampleSize := by
  unfold orderedBytes
  split
  · exact length
  · obtain ⟨components, -, -, size, -⟩ := sound.sample
    rw [@Library.length_mirrored _ _ components _ sound.component_pos (by omega), size]

/-- The inner loop of the transformations orders the bytes of a sample. -/
theorem orderedSample_eq (sound : plan.Sound) {source : Bytes} {inputOffset : Nat}
    (inside : inputOffset + plan.sampleSize ≤ source.length) :
    plan.orderedSample outputByteOrder source inputOffset =
      plan.orderedBytes outputByteOrder (slice source inputOffset plan.sampleSize) := by
  have sampleLength := Library.length_slice inside
  obtain ⟨components, -, -, size, -⟩ := sound.sample
  have positive := sound.component_pos
  apply List.ext_getElem?
  intro byte
  by_cases small : byte < plan.sampleSize
  · have component : byte / plan.endianComponentSize < components :=
      Nat.div_lt_of_lt_mul (by rw [Nat.mul_comm, ← size]; exact small)
    have remainder := Nat.mod_lt byte positive
    have parts := Nat.div_add_mod byte plan.endianComponentSize
    rw [Nat.mul_comm] at parts
    have room : byte / plan.endianComponentSize * plan.endianComponentSize +
        plan.endianComponentSize ≤ plan.sampleSize := by
      rw [size, ← Nat.succ_mul]
      exact Nat.mul_le_mul_right _ component
    have chosen : plan.inputByte outputByteOrder byte < plan.sampleSize := by
      simp only [inputByte]
      split <;> omega
    have entry : (plan.orderedSample outputByteOrder source inputOffset)[byte]? =
        (slice source inputOffset plan.sampleSize)[plan.inputByte outputByteOrder byte]? := by
      rw [orderedSample, List.getElem?_map, List.getElem?_range small, Option.map_some,
        Library.getElem?_slice, if_pos chosen, List.getD_eq_getElem?_getD,
        List.getElem?_eq_getElem (by omega), Option.getD_some]
    rw [entry]
    by_cases same : plan.image.byteOrder = outputByteOrder
    · simp only [inputByte, orderedBytes, if_pos same]
    · simp only [inputByte, orderedBytes, if_neg same]
      have piece := congrArg (fun xs => xs[byte % plan.endianComponentSize]?)
        (Library.slice_mirrored positive
          (sampleLength.trans size) component)
      have pieceLength := Library.length_piece (sampleLength.trans size) component
      simp only [Library.getElem?_slice, if_pos remainder, parts] at piece
      rw [piece, List.getElem?_reverse (by omega), pieceLength,
        Library.getElem?_slice _ _ plan.endianComponentSize, if_pos (by omega)]
      congr 1
      omega
  · rw [List.getElem?_eq_none, List.getElem?_eq_none]
    · rw [length_orderedBytes sound sampleLength]
      omega
    · simp only [orderedSample, List.length_map, List.length_range]
      omega

end

end ImageReadPlan

/-! ## Placing samples -/

section

variable {L : Type} {platform : Platform} {env : Environment} {plan : ImageReadPlan}
  {outputStorage : PixelStorage} {outputByteOrder : ByteOrder}

/-- The first `count` samples of `source` are where they belong. -/
structure Placed (plan : ImageReadPlan) (outputStorage : PixelStorage)
    (outputByteOrder : ByteOrder) (source : Bytes) (count : Nat) (destination : Bytes) : Prop where
  length : destination.length = plan.expectedBytes
  sample : ∀ i < count,
    slice destination (plan.outputIndex outputStorage i * plan.sampleSize) plan.sampleSize =
      plan.orderedBytes outputByteOrder (slice source (i * plan.sampleSize) plan.sampleSize)

namespace Placed

variable {source destination : Bytes} {count : Nat}

theorem zero (length : destination.length = plan.expectedBytes) :
    Placed plan outputStorage outputByteOrder source 0 destination :=
  ⟨length, fun _ impossible => absurd impossible (Nat.not_lt_zero _)⟩

/-- What comes after the samples seen does not matter yet. -/
theorem append (more : Bytes) (full : source.length = count * plan.sampleSize)
    (placed : Placed plan outputStorage outputByteOrder source count destination) :
    Placed plan outputStorage outputByteOrder (source ++ more) count destination := by
  refine ⟨placed.length, fun i small => ?_⟩
  have room : i * plan.sampleSize + plan.sampleSize ≤ source.length := by
    rw [full, ← Nat.succ_mul]
    exact Nat.mul_le_mul_right _ small
  rw [placed.sample i small, Library.slice_append_left room]

/-- One more sample, from a buffer that holds it at `inputOffset`. -/
theorem succ (sound : plan.Sound) {staging : Bytes} {inputOffset : Nat}
    (small : count < plan.sampleCount)
    (inside : inputOffset + plan.sampleSize ≤ staging.length)
    (same : slice staging inputOffset plan.sampleSize =
      slice source (count * plan.sampleSize) plan.sampleSize)
    (placed : Placed plan outputStorage outputByteOrder source count destination) :
    Placed plan outputStorage outputByteOrder source (count + 1)
      (placeSample plan outputStorage outputByteOrder staging inputOffset count destination) := by
  have permutes := ImageReadPlan.outputIndex_permutes sound outputStorage
  have ordered := @ImageReadPlan.orderedSample_eq _ outputByteOrder sound _ _ inside
  have length : (plan.orderedSample outputByteOrder staging inputOffset).length =
      plan.sampleSize := by
    rw [ordered, ImageReadPlan.length_orderedBytes sound (Library.length_slice inside)]
  have room := ImageReadPlan.sample_room sound (permutes.inside count small)
  rw [← placed.length] at room
  unfold placeSample
  refine ⟨?_, fun i before => ?_⟩
  · rw [Library.length_overwrite (by omega), placed.length]
  · rcases Nat.lt_succ_iff_lt_or_eq.mp before with earlier | rfl
    · have other := permutes.injective i count earlier small
      have apart : plan.outputIndex outputStorage i * plan.sampleSize + plan.sampleSize ≤
            plan.outputIndex outputStorage count * plan.sampleSize ∨
          plan.outputIndex outputStorage count * plan.sampleSize + plan.sampleSize ≤
            plan.outputIndex outputStorage i * plan.sampleSize := by
        rw [← Nat.succ_mul, ← Nat.succ_mul]
        rcases Nat.lt_or_gt_of_ne other with less | greater
        · exact .inl (Nat.mul_le_mul_right _ less)
        · exact .inr (Nat.mul_le_mul_right _ greater)
      rw [Library.slice_overwrite_other (by omega) (by rw [length]; exact apart),
        placed.sample i earlier]
    · have written := @Library.slice_overwrite_same _ destination
        (plan.orderedSample outputByteOrder staging inputOffset)
        (plan.outputIndex outputStorage i * plan.sampleSize) (by omega)
      rw [length] at written
      rw [written, ordered, same]

/-- All samples placed is the reference. -/
theorem isReference (sound : plan.Sound)
    (placed : Placed plan outputStorage outputByteOrder source plan.sampleCount destination) :
    plan.IsReference outputStorage outputByteOrder source destination := by
  refine ⟨placed.length, fun channel channelSmall pixel pixelSmall => ?_⟩
  obtain ⟨sameChannel, samePixel⟩ :=
    ImageReadPlan.source_of_sampleIndex sound channelSmall pixelSmall
  have sample := placed.sample _
    (ImageReadPlan.sampleIndex_lt sound plan.image.pixelStorage channelSmall pixelSmall)
  rwa [ImageReadPlan.outputIndex_eq, sameChannel, samePixel] at sample

end Placed

/-- The samples of one chunk. -/
theorem transformChunk_placed (sound : plan.Sound) {source staging : Bytes} {sourceSample : Nat} :
    ∀ (count localSample : Nat) {destination : Bytes},
      sourceSample + (localSample + count) ≤ plan.sampleCount →
      staging.length = (localSample + count) * plan.sampleSize →
      (∀ k < localSample + count, slice staging (k * plan.sampleSize) plan.sampleSize =
        slice source ((sourceSample + k) * plan.sampleSize) plan.sampleSize) →
      Placed plan outputStorage outputByteOrder source (sourceSample + localSample) destination →
      Placed plan outputStorage outputByteOrder source (sourceSample + (localSample + count))
        (transformChunk plan outputStorage outputByteOrder staging sourceSample count localSample
          destination)
  | 0, _, _, _, _, _, placed => placed
  | count + 1, localSample, destination, within, length, same, placed => by
      have next : localSample + (count + 1) = localSample + 1 + count := by omega
      rw [next] at within length same ⊢
      have room : localSample * plan.sampleSize + plan.sampleSize ≤ staging.length := by
        rw [length, ← Nat.succ_mul]
        exact Nat.mul_le_mul_right _ (by omega)
      have small : sourceSample + localSample < plan.sampleCount := by omega
      exact transformChunk_placed sound count (localSample + 1) within length same
        (placed.succ sound small room (same localSample (by omega)))

/-! ## Transformation from a buffer -/

theorem transformFrom_computes {emits : ReadEvent → Prop} (source : Bytes) :
    ∀ (count sourceIndex : Nat) (destination : Bytes),
      Computes platform env emits
        (transformFrom (L := L) plan source outputStorage outputByteOrder count sourceIndex
          destination)
        (.ok (transformChunk plan outputStorage outputByteOrder source 0 count sourceIndex
          destination))
  | 0, _, destination => .pure destination
  | count + 1, sourceIndex, destination => by
      refine (Computes.checkStopAt sourceIndex _).bind_ok ?_
      rw [transformChunk, Nat.zero_add]
      exact transformFrom_computes source count (sourceIndex + 1) _

theorem transformPixelStorageFromBuffer_computes {emits : ReadEvent → Prop} (sound : plan.Sound)
    {source destination : Bytes} (sourceLength : source.length = plan.expectedBytes)
    (destinationLength : destination.length = plan.expectedBytes) :
    ∃ output, plan.IsReference outputStorage outputByteOrder source output ∧
      Computes platform env emits
        (transformPixelStorageFromBuffer (L := L) plan source destination outputStorage
          outputByteOrder) (.ok output) := by
  refine ⟨_, ?_, transformFrom_computes source _ _ _⟩
  have all := @transformChunk_placed _ outputStorage outputByteOrder sound source source 0
    plan.sampleCount 0 destination (by omega) (by rw [sourceLength, sound.bytes, Nat.zero_add])
    (fun k _ => by rw [Nat.zero_add]) (.zero destinationLength)
  rw [Nat.zero_add, Nat.zero_add] at all
  exact all.isReference sound

/-! ## Swapping in place -/

/-- `swap_byte_order_in_place`, without its stops. -/
def swappedFrom (componentSize : Nat) : Nat → Nat → Bytes → Bytes
  | 0, _, destination => destination
  | count + 1, component, destination =>
      swappedFrom componentSize count (component + 1)
        (overwrite destination (component * componentSize)
          (slice destination (component * componentSize) componentSize).reverse)

theorem swapFrom_computes {emits : ReadEvent → Prop} (componentSize : Nat) :
    ∀ (count component : Nat) (destination : Bytes),
      Computes platform env emits (swapFrom (L := L) componentSize count component destination)
        (.ok (swappedFrom componentSize count component destination))
  | 0, _, destination => .pure destination
  | count + 1, component, _ =>
      (Computes.checkStopAt component _).bind_ok
        (swapFrom_computes componentSize count (component + 1) _)

/-- The components from `component` on are reversed, the others stay. -/
theorem swappedFrom_pieces {componentSize total : Nat} :
    ∀ (count component : Nat) {destination : Bytes},
      destination.length = total * componentSize → component + count ≤ total →
      (swappedFrom componentSize count component destination).length = total * componentSize ∧
        ∀ k < total,
          slice (swappedFrom componentSize count component destination) (k * componentSize)
              componentSize =
            if component ≤ k ∧ k < component + count then
              (slice destination (k * componentSize) componentSize).reverse
            else slice destination (k * componentSize) componentSize
  | 0, _, _, length, _ => by
      refine ⟨length, fun k _ => ?_⟩
      rw [if_neg (by omega)]
      rfl
  | count + 1, component, destination, length, within => by
      have room : component * componentSize + componentSize ≤ destination.length := by
        rw [length, ← Nat.succ_mul]
        exact Nat.mul_le_mul_right _ (by omega)
      have pieceLength := Library.length_slice room
      have written : component * componentSize +
          (slice destination (component * componentSize) componentSize).reverse.length ≤
          destination.length := by
        rw [List.length_reverse, pieceLength]
        exact room
      have nextLength := Library.length_overwrite written
      obtain ⟨finalLength, pieces⟩ := swappedFrom_pieces count (component + 1)
        (nextLength.trans length) (by omega)
      refine ⟨finalLength, fun k small => ?_⟩
      have step : slice (swappedFrom componentSize (count + 1) component destination)
          (k * componentSize) componentSize = _ := pieces k small
      rw [step]
      by_cases here : k = component
      · subst here
        have same := Library.slice_overwrite_same written
        rw [List.length_reverse, pieceLength] at same
        rw [if_neg (by omega), if_pos (by omega), same]
      · have apart : k * componentSize + componentSize ≤ component * componentSize ∨
            component * componentSize + componentSize ≤ k * componentSize := by
          rw [← Nat.succ_mul, ← Nat.succ_mul]
          rcases Nat.lt_or_gt_of_ne here with less | greater
          · exact .inl (Nat.mul_le_mul_right _ less)
          · exact .inr (Nat.mul_le_mul_right _ greater)
        rw [Library.slice_overwrite_other written (by
          rw [List.length_reverse, pieceLength]
          exact apart)]
        by_cases later : component + 1 ≤ k ∧ k < component + 1 + count
        · rw [if_pos later, if_pos (by omega)]
        · rw [if_neg later, if_neg (by omega)]

/-- Swapping whole components in place reverses each of them. -/
theorem swapByteOrderInPlace_computes {emits : ReadEvent → Prop} {componentSize count : Nat}
    (positive : 0 < componentSize) {destination : Bytes}
    (length : destination.length = count * componentSize) :
    Computes platform env emits (swapByteOrderInPlace (L := L) destination componentSize)
      (.ok (mirrored componentSize destination)) := by
  have components : destination.length / componentSize = count := by
    rw [length, Nat.mul_div_cancel _ positive]
  obtain ⟨swappedLength, pieces⟩ := swappedFrom_pieces count 0 length (by omega)
  have swapped : swappedFrom componentSize count 0 destination =
      mirrored componentSize destination := by
    refine Library.eq_of_slices swappedLength (Library.length_mirrored positive length)
      fun k small => ?_
    rw [pieces k small, if_pos (by omega), Library.slice_mirrored positive length small]
  have computes := @swapFrom_computes L platform env emits componentSize count 0 destination
  rw [swapped] at computes
  unfold swapByteOrderInPlace
  rwa [components]

/-- The end of a read without a layout change leaves the reference. -/
theorem orderPixels_computes {emits : ReadEvent → Prop} (sound : plan.Sound) {source : Bytes}
    (length : source.length = plan.expectedBytes) :
    ∃ output, plan.IsReference plan.image.pixelStorage outputByteOrder source output ∧
      Computes platform env emits (orderPixels (L := L) plan outputByteOrder source)
        (.ok output) := by
  obtain ⟨components, -, -, size, -⟩ := sound.sample
  have positive := sound.component_pos
  have sourceLength : source.length =
      plan.sampleCount * components * plan.endianComponentSize := by
    rw [length, sound.bytes, size, Nat.mul_assoc]
  unfold orderPixels
  by_cases swap : plan.sampleSize > 1 ∧ outputByteOrder ≠ plan.image.byteOrder
  · rw [if_pos swap]
    refine ⟨_, ⟨?_, fun channel channelSmall pixel pixelSmall => ?_⟩,
      swapByteOrderInPlace_computes positive sourceLength⟩
    · rw [Library.length_mirrored positive sourceLength, ← sourceLength, length]
    · have small := ImageReadPlan.sampleIndex_lt sound plan.image.pixelStorage channelSmall
        pixelSmall
      have inside : plan.sampleIndex plan.image.pixelStorage channel pixel * components +
          components ≤ plan.sampleCount * components := by
        rw [← Nat.succ_mul]
        exact Nat.mul_le_mul_right _ small
      have pieces := Library.mirrored_slice positive sourceLength inside
      rw [Nat.mul_assoc, ← size] at pieces
      rw [pieces, ImageReadPlan.orderedBytes, if_neg (Ne.symm swap.2)]
  · rw [if_neg swap]
    refine ⟨source, ⟨length, fun channel _ pixel _ => ?_⟩, .pure source⟩
    unfold ImageReadPlan.orderedBytes
    by_cases same : plan.image.byteOrder = outputByteOrder
    · rw [if_pos same]
    · -- a sample of one byte reads the same in both orders
      have single : plan.sampleSize = 1 := by
        have some := sound.sample_pos
        rw [not_and, not_not] at swap
        by_contra larger
        exact same (swap (by omega)).symm
      rw [if_neg same, sound.single single, Library.mirrored_one]

/-! ## Transformation from the source -/

/-- The serialized bytes of a block without a codec are the pixels. -/
theorem ImageReadPlan.Sound.serialized_eq (sound : plan.Sound)
    (uncompressed : plan.compression.codec = .none) : plan.serializedBytes = plan.expectedBytes :=
  (sound.fits.uncompressed uncompressed).1.symm.trans sound.uncompressedSize

/-- The chunks are one pass over the block, and every sample of it is placed. -/
theorem transformChunks_spec (sound : plan.Sound) (uncompressed : plan.compression.codec = .none)
    {imageIndex : Nat} :
    ∀ (fuel sourceSample : Nat) {destination got : Bytes} {events : Trace},
      plan.sampleCount - sourceSample ≤ fuel → sourceSample ≤ plan.sampleCount →
      got.length = sourceSample * plan.sampleSize →
      Obtained env plan.place plan.serializedBytes 0 got events →
      Placed plan outputStorage outputByteOrder got sourceSample destination →
      ∀ (l : L) (s : Trace),
        wp (env.world platform)
          (transformChunks plan outputStorage outputByteOrder imageIndex fuel sourceSample
            destination)
          (fun result m t => m = l ∧ ∃ later, t = s ++ later ∧
            ReadsWithin env plan.place 0 plan.serializedBytes later ∧
            match result with
            | .ok output => ∃ bytes, bytes.length = plan.serializedBytes ∧
                Obtained env plan.place plan.serializedBytes 0 bytes (events ++ later) ∧
                plan.IsReference outputStorage outputByteOrder bytes output
            | .error e => FailedRead env later e) l s := by
  have size : plan.serializedBytes = plan.sampleCount * plan.sampleSize :=
    (sound.serialized_eq uncompressed).trans sound.bytes
  have small := sound.small
  have positive := sound.sample_pos
  intro fuel
  induction fuel with
  | zero =>
      intro sourceSample destination got events enough within length obtained placed l s
      obtain rfl : sourceSample = plan.sampleCount := by omega
      exact ⟨rfl, [], by simp, .nil, got, length.trans size.symm, by simpa using obtained,
        placed.isReference sound⟩
  | succ fuel ih =>
      intro sourceSample destination got events enough within length obtained placed l s
      unfold transformChunks
      by_cases more : sourceSample < plan.sampleCount
      · rw [if_pos more]
        refine wp_afterStop ?_ fun e cancelled => ⟨rfl, [], by simp, .nil, .inl cancelled⟩
        dsimp only
        generalize chunk : min (kReadChunkBytes / plan.sampleSize)
          (plan.sampleCount - sourceSample) = chunkSamples
        have some : 0 < chunkSamples := by
          obtain ⟨_, -, -, -, limit⟩ := sound.sample
          have whole : 0 < kReadChunkBytes / plan.sampleSize :=
            Nat.div_pos (by unfold kReadChunkBytes; omega) positive
          omega
        have fits : sourceSample + chunkSamples ≤ plan.sampleCount := by omega
        have bytes : sourceSample * plan.sampleSize + chunkSamples * plan.sampleSize ≤
            plan.serializedBytes := by
          rw [size, ← Nat.add_mul]
          exact Nat.mul_le_mul_right _ fits
        have noWrap : sourceSample * plan.sampleSize ≤ u64Max := by
          have total := sound.serialized_eq uncompressed
          omega
        rw [wrapMultiply_eq noWrap, Library.Routine.wp_bind]
        refine Library.Routine.wp_mono ?_
          (readSerializedChunk_fetches (sound.place.mono bytes) l s)
        rintro result m t ⟨rfl, read, rfl, inside, ended⟩
        have insideBlock := inside.mono (Nat.zero_le _) bytes
        cases result with
        | error e => exact ⟨rfl, read, rfl, insideBlock, ended⟩
        | ok staging =>
            obtain ⟨stagingLength, chunkObtained⟩ := ended
            have joined := obtained.append (by
              rw [length, Nat.zero_add]
              exact chunkObtained.mono bytes)
            have joinedLength : (got ++ staging).length =
                (sourceSample + chunkSamples) * plan.sampleSize := by
              rw [List.length_append, length, stagingLength, Nat.add_mul]
            have next := transformChunk_placed sound chunkSamples 0 (by omega)
              (by rw [Nat.zero_add, stagingLength])
              (fun k _ => by
                rw [Nat.add_mul, ← length, Library.slice_append_right])
              (placed.append staging length)
            rw [Nat.zero_add] at next
            rw [Library.Routine.continueWith_ok]
            refine Library.Routine.wp_mono ?_
              (ih (sourceSample + chunkSamples) (by omega) fits joinedLength joined next m
                (s ++ read))
            rintro result n u ⟨rfl, later, rfl, rest, finished⟩
            refine ⟨rfl, read ++ later, by rw [List.append_assoc], insideBlock.append rest, ?_⟩
            cases result with
            | error e => exact finished.later
            | ok output =>
                simp only [List.append_assoc] at finished
                exact finished
      · rw [if_neg more, Library.Routine.wp_pure]
        obtain rfl : sourceSample = plan.sampleCount := by omega
        exact ⟨rfl, [], by simp, .nil, got, length.trans size.symm, by simpa using obtained,
          placed.isReference sound⟩

end

end Mmxisf.Reader
