/-
# Reader.SpanFacts -- the destination follows the values

Every function of `Reader.Spans` is in lockstep with the one of `Reader.Blocks`
it is named after.  `Fills` is the relation: at its end the front of the
destination is the value that the other returns, or, after an error, as long as
it was; what follows the front is untouched either way.

The positions that a function writes have to lie inside the front for this; that
is the only use of the plan's arithmetic here.
-/
import Mmxisf.Reader.Spans

namespace Mmxisf.Reader

set_option autoImplicit false

open Library (slice overwrite World)
open Library.Routine (wp ofExcept aside modifyStore count Tracks TracksRounds)

/-- Everything from `size` on is still there. -/
def Span.Kept (size : Nat) (rest : Bytes) (span : Span) : Prop :=
  ∃ front, front.length = size ∧ span.bytes = front ++ rest

/-- The front of the destination is `dest`. -/
structure Span.Holds (size : Nat) (rest dest : Bytes) (span : Span) : Prop where
  length : dest.length = size
  bytes : span.bytes = dest ++ rest

/-- `y` leaves at the front of the destination what `x` returns, and nothing else
changes. -/
def Fills (size : Nat) (rest : Bytes) (x : ReadRoutine Unit Bytes) (y : SpanRoutine Unit)
    (span : Span) : Prop :=
  Tracks x y (fun dest _ _ after => Span.Holds size rest dest after)
    (fun _ after => Span.Kept size rest after)
    () span

section

variable {size : Nat} {rest dest : Bytes} {span : Span} {residue : Residue}

namespace Span.Holds

theorem kept (holds : Span.Holds size rest dest span) : Span.Kept size rest span :=
  ⟨dest, holds.length, holds.bytes⟩

theorem write {position : Nat} {piece : Bytes} (inside : position + piece.length ≤ size)
    (holds : Span.Holds size rest dest span) :
    Span.Holds size rest (overwrite dest position piece) (span.write position piece) where
  length := by rw [Library.length_overwrite (by rw [holds.length]; exact inside), holds.length]
  bytes := by
    simp only [Span.write, holds.bytes]
    exact Library.overwrite_append_left (by rw [holds.length]; exact inside)

theorem set {position : Nat} {byte : UInt8} (inside : position < size)
    (holds : Span.Holds size rest dest span) :
    Span.Holds size rest (dest.set position byte)
      { span with bytes := span.bytes.set position byte } where
  length := by rw [List.length_set, holds.length]
  bytes := by
    simp only [holds.bytes]
    exact List.set_append_left _ _ (by rw [holds.length]; exact inside)

/-- The part that was given away holds what was reported, and then anything. -/
theorem leave {position count : Nat} {stored : Bytes} (inside : position + count ≤ size)
    (holds : Span.Holds size rest dest span) :
    Span.Holds size rest
      (overwrite dest position ((stored ++ residue span.calls).take count))
      (span.leave residue position count stored) := by
  have short : ((stored ++ residue span.calls).take count).length ≤ count := by
    rw [List.length_take]
    exact Nat.min_le_left _ _
  have written := @write _ _ _ _ position ((stored ++ residue span.calls).take count) (by omega)
    holds
  exact ⟨written.length, written.bytes⟩

end Span.Holds

theorem Span.Kept.leave {position count : Nat} {stored : Bytes} (inside : position + count ≤ size)
    (kept : Span.Kept size rest span) :
    Span.Kept size rest (span.leave residue position count stored) := by
  obtain ⟨front, length, bytes⟩ := kept
  have holds : Span.Holds size rest front span := ⟨length, bytes⟩
  exact (holds.leave inside).kept

/-- A call that stores into its part of the destination. -/
theorem storing_tracks {position count : Nat} {x : ReadRoutine Unit Bytes} :
    Tracks x (storing residue position count x)
      (fun stored stored' _ after => stored' = stored ∧
        after = span.leave residue position count stored)
      (fun _ after => after = span.leave residue position count []) () span := by
  unfold Tracks storing
  generalize x () = p
  induction p with
  | done result =>
      obtain ⟨_ | stored, _⟩ := result
      · exact .done (.error rfl)
      · exact .done (.ok ⟨rfl, rfl⟩)
  | call op next ih => exact .call ih

/-- A check on the way, with the destination as it is. -/
theorem Fills.after {α : Type} {c : ReadRoutine Unit α} {x : α → ReadRoutine Unit Bytes}
    {y : α → SpanRoutine Unit} (kept : Span.Kept size rest span)
    (later : ∀ a, Fills size rest (x a) (y a) span) :
    Fills size rest (c >>= x) (aside () c >>= y) span := by
  apply Tracks.aside_bind
  · exact fun _ => kept
  · exact fun a _ => later a

/-- A call aside, and what its value is whatever the replies are. -/
theorem Fills.afterValue {α : Type} {P : α → Prop} {c : ReadRoutine Unit α}
    {x : α → ReadRoutine Unit Bytes} {y : α → SpanRoutine Unit}
    (value : wp (World.free ReadOp.Reply) c (fun result _ _ => ∀ a, result = .ok a → P a) () ())
    (kept : Span.Kept size rest span) (later : ∀ a, P a → Fills size rest (x a) (y a) span) :
    Fills size rest (c >>= x) (aside () c >>= y) span := by
  have first : Tracks c (aside () c) (fun a b _ after => (b = a ∧ after = span) ∧ P a)
      (fun _ after => Span.Kept size rest after) () span := by
    refine ((Tracks.aside c).strengthen value).mono (fun _ _ _ _ same => same) ?_
    rintro _ _ rfl
    exact kept
  apply Tracks.bind first
  rintro a _ _ _ ⟨⟨rfl, rfl⟩, holds⟩
  exact later _ holds

/-- A call that fills its part of the destination. -/
theorem Fills.afterStoring {position count : Nat} {c : ReadRoutine Unit Bytes}
    {x : Bytes → ReadRoutine Unit Bytes} {y : Bytes → SpanRoutine Unit}
    (whole : wp (World.free ReadOp.Reply) c
      (fun result _ _ => ∀ bytes, result = .ok bytes → bytes.length = count) () ())
    (inside : position + count ≤ size) (holds : Span.Holds size rest dest span)
    (later : ∀ stored after, Span.Holds size rest (overwrite dest position stored) after →
      Fills size rest (x stored) (y stored) after) :
    Fills size rest (c >>= x) (storing residue position count c >>= y) span := by
  have first := (@storing_tracks span residue position count c).strengthen whole
  apply Tracks.bind (first.mono (fun _ _ _ _ same => same) ?_)
  · rintro stored _ _ _ ⟨⟨same, rfl⟩, length⟩
    have left := @Span.Holds.leave _ _ _ _ residue _ _ stored inside holds
    rw [← length, List.take_left, length] at left
    rw [same]
    exact later stored _ left
  · rintro _ _ rfl
    exact holds.kept.leave inside

/-- A change of the destination, and what follows it. -/
theorem Fills.change {x : ReadRoutine Unit Bytes} {f : Span → Span} {y : Unit → SpanRoutine Unit}
    (later : Fills size rest x (y ()) (f span)) :
    Fills size rest x (modifyStore f >>= y) span :=
  later

theorem Fills.bind {x : ReadRoutine Unit Bytes} {y : SpanRoutine Unit}
    {f : Bytes → ReadRoutine Unit Bytes} {g : Unit → SpanRoutine Unit}
    (first : Fills size rest x y span)
    (later : ∀ dest after, Span.Holds size rest dest after →
      Fills size rest (f dest) (g ()) after) :
    Fills size rest (x >>= f) (y >>= g) span := by
  apply Tracks.bind first
  exact fun dest _ _ after holds => later dest after holds

theorem Fills.done (holds : Span.Holds size rest dest span) :
    Fills size rest (pure dest) (pure ()) span :=
  Tracks.pure holds

/-! ## Pixel layout -/

section

variable {plan : ImageReadPlan} {outputStorage : PixelStorage} {outputByteOrder : ByteOrder}

theorem placeSample_holds (sound : plan.Sound) {source : Bytes} {inputOffset sourceIndex : Nat}
    (small : sourceIndex < plan.sampleCount)
    (holds : Span.Holds plan.expectedBytes rest dest span) :
    Span.Holds plan.expectedBytes rest
      (placeSample plan outputStorage outputByteOrder source inputOffset sourceIndex dest)
      (placeSampleInto plan outputStorage outputByteOrder source inputOffset sourceIndex span) := by
  have place := (ImageReadPlan.outputIndex_permutes sound outputStorage).inside sourceIndex small
  have room := ImageReadPlan.sample_room sound place
  apply holds.write
  simpa only [ImageReadPlan.orderedSample, List.length_map, List.length_range] using room

theorem transformFrom_fills (sound : plan.Sound) {source : Bytes} :
    ∀ (count sourceIndex : Nat) {dest : Bytes} {span : Span},
      sourceIndex + count ≤ plan.sampleCount → Span.Holds plan.expectedBytes rest dest span →
      Fills plan.expectedBytes rest
        (transformFrom plan source outputStorage outputByteOrder count sourceIndex dest)
        (transformFromInto plan source outputStorage outputByteOrder count sourceIndex) span
  | 0, _, _, _, _, holds => .done holds
  | count + 1, sourceIndex, _, _, within, holds => by
      unfold transformFrom transformFromInto
      apply Fills.after holds.kept
      intro _
      apply Fills.change
      apply transformFrom_fills sound count (sourceIndex + 1) (by omega)
      exact placeSample_holds sound (by omega) holds

theorem transformPixelStorageFromBuffer_fills (sound : plan.Sound) {source : Bytes}
    (holds : Span.Holds plan.expectedBytes rest dest span) :
    Fills plan.expectedBytes rest
      (transformPixelStorageFromBuffer plan source dest outputStorage outputByteOrder)
      (transformPixelStorageFromBufferInto plan source outputStorage outputByteOrder) span :=
  transformFrom_fills sound plan.sampleCount 0 (Nat.le_of_eq (Nat.zero_add _)) holds

theorem transformChunk_holds (sound : plan.Sound) {staging : Bytes} {sourceSample : Nat} :
    ∀ (count localSample : Nat) {dest : Bytes} {span : Span},
      sourceSample + (localSample + count) ≤ plan.sampleCount →
      Span.Holds plan.expectedBytes rest dest span →
      Span.Holds plan.expectedBytes rest
        (transformChunk plan outputStorage outputByteOrder staging sourceSample count localSample
          dest)
        (transformChunkInto plan outputStorage outputByteOrder staging sourceSample count
          localSample span)
  | 0, _, _, _, _, holds => holds
  | count + 1, localSample, _, _, within, holds => by
      apply transformChunk_holds sound count (localSample + 1) (by omega)
      exact placeSample_holds sound (by omega) holds

theorem transformChunks_fills (sound : plan.Sound) {imageIndex : Nat} :
    ∀ (fuel sourceSample : Nat) {dest : Bytes} {span : Span},
      Span.Holds plan.expectedBytes rest dest span →
      Fills plan.expectedBytes rest
        (transformChunks plan outputStorage outputByteOrder imageIndex fuel sourceSample dest)
        (transformChunksInto plan outputStorage outputByteOrder imageIndex fuel sourceSample) span
  | 0, _, _, _, holds => .done holds
  | fuel + 1, sourceSample, _, _, holds => by
      unfold transformChunks transformChunksInto
      by_cases more : sourceSample < plan.sampleCount
      · rw [if_pos more, if_pos more]
        apply Fills.after holds.kept
        intro _
        apply Fills.after holds.kept
        intro staging
        apply Fills.change
        apply transformChunks_fills sound fuel
        exact transformChunk_holds sound _ 0 (by omega) holds
      · rw [if_neg more, if_neg more]
        exact .done holds

theorem swapFrom_fills {componentSize : Nat} :
    ∀ (count component : Nat) {dest : Bytes} {span : Span},
      (component + count) * componentSize ≤ size → Span.Holds size rest dest span →
      Fills size rest (swapFrom componentSize count component dest)
        (swapFromInto componentSize count component) span
  | 0, _, _, _, _, holds => .done holds
  | count + 1, component, dest, span, within, holds => by
      have next : component + 1 + count = component + (count + 1) := by omega
      have inside : component * componentSize + componentSize ≤ size := by
        rw [← Nat.succ_mul]
        exact (Nat.mul_le_mul_right componentSize (by omega)).trans within
      have there : component * componentSize + componentSize ≤ dest.length := by
        rw [holds.length]
        exact inside
      have same : slice span.bytes (component * componentSize) componentSize =
          slice dest (component * componentSize) componentSize := by
        rw [holds.bytes, Library.slice_append_left there]
      unfold swapFrom swapFromInto
      apply Fills.after holds.kept
      intro _
      apply Fills.change
      rw [same]
      apply swapFrom_fills count (component + 1)
      · rw [next]
        exact within
      · apply holds.write
        rw [List.length_reverse, Library.length_slice there]
        exact inside

theorem orderPixels_fills (holds : Span.Holds plan.expectedBytes rest dest span) :
    Fills plan.expectedBytes rest (orderPixels plan outputByteOrder dest)
      (orderPixelsInto plan outputByteOrder) span := by
  unfold orderPixels orderPixelsInto swapByteOrderInPlace
  by_cases swap : plan.sampleSize > 1 ∧ outputByteOrder ≠ plan.image.byteOrder
  · rw [if_pos swap, if_pos swap, holds.length]
    apply swapFrom_fills _ _ _ holds
    rw [Nat.zero_add]
    exact Nat.div_mul_le_self _ _
  · rw [if_neg swap, if_neg swap]
    exact .done holds

end

/-! ## Compressed blocks -/

theorem scatterFrom_fills {itemSize shuffledOffset : Nat} :
    ∀ (bytes : Bytes) (localOffset : Nat) {dest : Bytes} {span : Span},
      shuffledOffset + (localOffset + bytes.length) ≤ size → Span.Holds size rest dest span →
      Fills size rest (scatterFrom itemSize shuffledOffset localOffset bytes dest)
        (scatterFromInto itemSize size shuffledOffset localOffset bytes) span
  | [], _, _, _, _, holds => .done holds
  | byte :: bytes, localOffset, _, _, within, holds => by
      rw [List.length_cons] at within
      have inside := (unshuffledPosition_permutes itemSize size).inside
        (shuffledOffset + localOffset) (by omega)
      unfold scatterFrom scatterFromInto
      apply Fills.after holds.kept
      intro _
      dsimp only
      rw [holds.length]
      apply Fills.change
      apply scatterFrom_fills bytes (localOffset + 1) (by omega)
      exact holds.set inside

theorem scatterUnshuffledBytes_fills {shuffled : Bytes} {itemSize shuffledOffset : Nat}
    (inside : shuffledOffset + shuffled.length ≤ size) (holds : Span.Holds size rest dest span) :
    Fills size rest (scatterUnshuffledBytes shuffled dest itemSize shuffledOffset)
      (scatterUnshuffledBytesInto shuffled size itemSize shuffledOffset) span := by
  unfold scatterUnshuffledBytes scatterUnshuffledBytesInto
  rw [holds.length]
  apply Fills.after holds.kept
  intro _
  apply scatterFrom_fills shuffled 0 _ holds
  rw [Nat.zero_add]
  exact inside

/-- A decompressor that is believed has filled its buffer. -/
theorem decompressSubblock_length {platform : Platform} {codec : CompressionCodec} {input : Bytes}
    {count maxZstdWindowBytes : Nat} :
    wp (World.free ReadOp.Reply)
      (decompressSubblock platform codec input count maxZstdWindowBytes : ReadRoutine Unit Bytes)
      (fun result _ _ => ∀ bytes, result = .ok bytes → bytes.length = count) () () := by
  have call (codec : CompressionCodec) (windowLog : Nat) (mismatch : String) :
      wp (World.free ReadOp.Reply)
        (requestDecompression codec input count windowLog mismatch : ReadRoutine Unit Bytes)
        (fun result _ _ => ∀ bytes, result = .ok bytes → bytes.length = count) () () := by
    unfold requestDecompression
    rw [Library.Routine.wp_bind, Library.Routine.wp_request]
    refine ⟨trivial, fun reply _ _ => ?_⟩
    rw [Library.Routine.continueWith_ok, Library.Routine.wp_bind]
    unfold refuse reject
    rw [Library.Routine.wp_ofExcept]
    split
    · simp [fail]
    · rename_i accepted
      rw [not_or, not_not] at accepted
      simpa using accepted.2
  have checked (bad : Prop) [Decidable bad] (code : ErrorCode) (message : String)
      {x : ReadRoutine Unit Bytes}
      (length : wp (World.free ReadOp.Reply) x
        (fun result _ _ => ∀ bytes, result = .ok bytes → bytes.length = count) () ()) :
      wp (World.free ReadOp.Reply) (refuse bad code message >>= fun _ => x)
        (fun result _ _ => ∀ bytes, result = .ok bytes → bytes.length = count) () () := by
    unfold refuse reject
    rw [Library.Routine.wp_bind, Library.Routine.wp_ofExcept]
    split
    · simp [fail]
    · exact length
  cases codec with
  | none => simp [decompressSubblock]
  | zlib => exact checked _ _ _ (call _ _ _)
  | lz4 => exact checked _ _ _ (call _ _ _)
  | lz4hc => exact checked _ _ _ (call _ _ _)
  | zstd => exact checked _ _ _ (checked _ _ _ (call _ _ _))

theorem decodeSubblocks_fills {platform : Platform} {serialized : Bytes}
    {compression : CompressionPlan} :
    ∀ (subblocks : List CompressionSubblock) (inputOffset outputOffset : Nat) {dest : Bytes}
      {span : Span},
      outputOffset + uncompressedTotal subblocks ≤ size → Span.Holds size rest dest span →
      Fills size rest
        (decodeSubblocks platform serialized compression subblocks inputOffset outputOffset dest)
        (decodeSubblocksInto platform residue serialized compression size subblocks inputOffset
          outputOffset) span
  | [], _, _, _, _, _, holds => .done holds
  | subblock :: later, inputOffset, outputOffset, dest, span, within, holds => by
      simp only [uncompressedTotal, List.map_cons, List.sum_cons] at within
      have inside : outputOffset + subblock.uncompressedSize ≤ size := by omega
      unfold decodeSubblocks decodeSubblocksInto
      apply Fills.after holds.kept
      intro _
      dsimp only
      have whole := @decompressSubblock_length platform compression.codec
        (slice serialized inputOffset subblock.compressedSize) subblock.uncompressedSize
        compression.maxZstdWindowBytes
      by_cases shuffled : compression.byteShuffled = true
      · simp only [if_pos shuffled]
        apply Fills.afterValue whole holds.kept
        intro decoded length
        apply Fills.bind
        · exact scatterUnshuffledBytes_fills (by omega) holds
        · intro filled after holdsAfter
          exact decodeSubblocks_fills later _ _ (by simp only [uncompressedTotal]; omega) holdsAfter
      · simp only [if_neg shuffled]
        apply Fills.afterStoring whole inside holds
        intro stored after holdsAfter
        exact decodeSubblocks_fills later _ _ (by simp only [uncompressedTotal]; omega) holdsAfter

theorem decodeCompressedBlock_fills {platform : Platform} {serialized : Bytes}
    {compression : CompressionPlan} (total : uncompressedTotal compression.subblocks ≤ size)
    (holds : Span.Holds size rest dest span) :
    Fills size rest (decodeCompressedBlock platform serialized compression dest)
      (decodeCompressedBlockInto platform residue serialized compression size) span := by
  unfold decodeCompressedBlock decodeCompressedBlockInto
  apply Fills.after holds.kept
  intro _
  apply decodeSubblocks_fills _ 0 0 _ holds
  rw [Nat.zero_add]
  exact total

/-! ## Serialized bytes -/

/-- The destination begins with `got`, and is as long as it was. -/
structure Span.Starts (size : Nat) (rest got : Bytes) (span : Span) : Prop where
  front : ∃ tail, (got ++ tail).length = size ∧ span.bytes = got ++ tail ++ rest

namespace Span.Starts

variable {got : Bytes}

theorem kept (starts : Span.Starts size rest got span) : Span.Kept size rest span := by
  obtain ⟨tail, length, bytes⟩ := starts.front
  exact ⟨got ++ tail, length, bytes⟩

/-- What is written after the beginning, the piece first. -/
theorem overwritten {piece more : Bytes} (inside : got.length + (piece ++ more).length ≤ size)
    (starts : Span.Starts size rest got span) :
    Span.Starts size rest (got ++ piece)
      { bytes := overwrite span.bytes got.length (piece ++ more), calls := span.calls + 1 } := by
  obtain ⟨tail, length, bytes⟩ := starts.front
  rw [List.length_append] at length
  refine ⟨more ++ tail.drop (piece ++ more).length, ?_, ?_⟩
  · simp only [List.length_append, List.length_drop] at inside ⊢
    omega
  · rw [bytes, List.append_assoc]
    unfold overwrite
    rw [List.take_left, List.drop_append, Nat.add_sub_cancel_left,
      List.drop_of_length_le (Nat.le_add_right _ _), List.nil_append,
      List.drop_append_of_le_length (by omega)]
    simp only [List.append_assoc]

theorem write {piece : Bytes} (inside : got.length + piece.length ≤ size)
    (starts : Span.Starts size rest got span) :
    Span.Starts size rest (got ++ piece) (span.write got.length piece) := by
  have written := @overwritten _ _ _ _ piece [] (by rwa [List.append_nil]) starts
  rw [List.append_nil] at written
  exact ⟨written.front⟩

/-- A call was given `count` bytes after the beginning and reported `stored`. -/
theorem leave {count : Nat} {stored : Bytes} (inside : got.length + count ≤ size)
    (short : stored.length ≤ count) (starts : Span.Starts size rest got span) :
    Span.Starts size rest (got ++ stored) (span.leave residue got.length count stored) := by
  have split : (stored ++ residue span.calls).take count =
      stored ++ (residue span.calls).take (count - stored.length) := by
    rw [List.take_append, List.take_of_length_le short]
  have room : (stored ++ (residue span.calls).take (count - stored.length)).length ≤ count := by
    rw [← split, List.length_take]
    exact Nat.min_le_left _ _
  unfold Span.leave
  rw [split]
  exact starts.overwritten (by omega)

/-- A destination that is full. -/
theorem holds (full : got.length = size) (starts : Span.Starts size rest got span) :
    Span.Holds size rest got span := by
  obtain ⟨tail, length, bytes⟩ := starts.front
  rw [List.length_append] at length
  obtain rfl : tail = [] := List.eq_nil_of_length_eq_zero (by omega)
  rw [List.append_nil] at bytes
  exact ⟨full, bytes⟩

end Span.Starts

/-- A reply that is believed is no longer than what was asked for. -/
theorem readAt_length {annotate : Error → Error} {offset count : Nat} :
    wp (World.free ReadOp.Reply) (readAt annotate offset count : ReadRoutine Unit Bytes)
      (fun result _ _ => ∀ bytes, result = .ok bytes → bytes.length ≤ count) () () := by
  unfold readAt
  rw [Library.Routine.wp_bind, Library.Routine.wp_request]
  refine ⟨trivial, fun reply _ _ => ?_⟩
  rw [Library.Routine.continueWith_ok]
  cases reply with
  | error e => simp
  | ok bytes =>
      dsimp only
      split
      · simp
      · rename_i good
        rw [not_or, Nat.not_lt] at good
        simpa using good.2

section

variable {plan : ImageReadPlan} {imageIndex : Nat}

/-- A chunk is stored after what is there already. -/
theorem readSerializedChunk_tracks {blockOffset count : Nat} {before : Bytes}
    (there : plan.place.Holds (blockOffset + count)) (inside : before.length + count ≤ size)
    (starts : Span.Starts size rest before span) :
    Tracks (readSerializedChunk plan blockOffset count imageIndex)
      (readSerializedChunkInto residue plan blockOffset before.length count imageIndex)
      (fun piece number _ after => number = piece.length ∧
        Span.Starts size rest (before ++ piece) after)
      (fun _ after => Span.Kept size rest after) () span := by
  unfold readSerializedChunk readSerializedChunkInto
  cases isInline : plan.embeddedBlock with
  | some block =>
      have place : plan.place.inlineBlock = some block := isInline
      unfold BlockPlace.Holds at there
      rw [place] at there
      have length : (slice block blockOffset count).length = count := Library.length_slice there
      apply Tracks.aside_bind
      · exact fun _ => starts.kept
      · intro _ _
        apply Tracks.modify_bind
        apply Tracks.pure
        exact ⟨length.symm, starts.write (by rw [length]; exact inside)⟩
  | none =>
      apply Tracks.collect
      · intro got _ after holds more
        apply Tracks.aside_bind
        · exact fun _ => holds.kept
        · intro _ _
          have stores := ((@storing_tracks after residue (before.length + got.length)
            (count - got.length) (readAt (annotateImage imageIndex)
              (wrapAdd (wrapAdd plan.image.block.offset blockOffset) got.length)
              (count - got.length))).strengthen readAt_length)
          have room : (before ++ got).length + (count - got.length) ≤ size := by
            rw [List.length_append]
            omega
          apply Tracks.bind_right (stores.mono (fun _ _ _ _ same => same) ?_)
          · rintro stored _ _ _ ⟨⟨rfl, rfl⟩, short⟩
            apply Tracks.pure
            have left := @Span.Starts.leave _ _ _ residue _ _ _ room short holds
            rw [List.length_append, List.append_assoc] at left
            exact ⟨rfl, left⟩
          · rintro _ _ rfl
            rw [← List.length_append]
            exact holds.kept.leave room
      · rw [List.append_nil]
        exact starts

/-- The block is stored from the start of the destination on. -/
theorem copySerializedImage_tracks (there : plan.place.Holds plan.serializedBytes)
    (inside : plan.serializedBytes ≤ size) (kept : Span.Kept size rest span) :
    Tracks (copySerializedImage plan imageIndex) (copySerializedImageInto residue plan imageIndex)
      (fun bytes number _ after => number = bytes.length ∧ Span.Starts size rest bytes after)
      (fun _ after => Span.Kept size rest after) () span := by
  unfold copySerializedImage copySerializedImageInto
  apply Tracks.collect
  · intro got _ after holds more
    have chunk : min kReadChunkBytes (plan.serializedBytes - got.length) ≤
        plan.serializedBytes - got.length := Nat.min_le_right _ _
    apply readSerializedChunk_tracks
    · exact there.mono (by omega)
    · omega
    · exact holds
  · obtain ⟨front, length, bytes⟩ := kept
    exact ⟨front, length, bytes⟩

end

/-! ## Staged images -/

theorem decodeStagedImage_fills {platform : Platform} {plan : ImageReadPlan}
    {outputStorage : PixelStorage} {outputByteOrder : ByteOrder} {serialized : Bytes}
    (sound : plan.Sound) (length : serialized.length = plan.serializedBytes)
    (holds : Span.Holds plan.expectedBytes rest dest span) :
    Fills plan.expectedBytes rest
      (decodeStagedImage platform plan serialized dest outputStorage outputByteOrder)
      (decodeStagedImageInto platform residue plan serialized outputStorage outputByteOrder)
      span := by
  unfold decodeStagedImage decodeStagedImageInto
  by_cases compressed : plan.compression.codec ≠ .none
  · rw [if_pos compressed, if_pos compressed]
    by_cases changed : outputStorage ≠ plan.image.pixelStorage
    · rw [if_pos changed, if_pos changed]
      apply Fills.after holds.kept
      intro sourcePixels
      exact transformPixelStorageFromBuffer_fills sound holds
    · rw [if_neg changed, if_neg changed]
      have total : uncompressedTotal plan.compression.subblocks = plan.expectedBytes :=
        (sound.fits.compressed compressed).2.trans sound.uncompressedSize
      apply Fills.bind
      · exact decodeCompressedBlock_fills (Nat.le_of_eq total) holds
      · exact fun _ _ filled => orderPixels_fills filled
  · rw [if_neg compressed, if_neg compressed]
    rw [not_not] at compressed
    by_cases changed : outputStorage ≠ plan.image.pixelStorage
    · rw [if_pos changed, if_pos changed]
      exact transformPixelStorageFromBuffer_fills sound holds
    · rw [if_neg changed, if_neg changed]
      apply Fills.change
      apply orderPixels_fills
      apply holds.write
      rw [Nat.zero_add, length, sound.serialized_eq compressed]

end

end Mmxisf.Reader
