/-
# Reader.BlockReads -- how the read of a whole block ends

Images, thumbnails, Property blocks and ICC profiles are read the same way: the
serialized bytes are fetched, their digest is compared with the declared one,
and a pure function of them is returned.  `BlockOutcome` says this of one run,
with every event of the trace accounted for; `ReadsBlock` says it of a routine,
from any source.
-/
import Mmxisf.Reader.Pixels
import Mmxisf.Reader.Unshuffle

namespace Mmxisf.Reader

set_option autoImplicit false

open Library (slice overwrite)
open Library.Routine (wp ofExcept)

section

variable {L α β : Type} {platform : Platform} {env : Environment} {place : BlockPlace} {size : Nat}
  {checksum : ChecksumPlan}

/-- How a block read may end, and the events it adds: a read failed, the digest
of the whole block was another one, or the whole block was fetched and used.
`value` is what may be made of the bytes of the block. -/
inductive BlockOutcome (platform : Platform) (env : Environment) (place : BlockPlace) (size : Nat)
    (checksum : ChecksumPlan) (value : Bytes → Result α → Prop) : Result α → Trace → Prop
  | failed {e : Error} {events : Trace}
      (within : ReadsWithin env place 0 size events)
      (cause : FailedRead env events e) :
      BlockOutcome platform env place size checksum value (.error e) events
  | mismatch {e : Error} {events : Trace} {bytes : Bytes}
      (within : ReadsWithin env place 0 size events)
      (whole : bytes.length = size) (obtained : Obtained env place size 0 bytes events)
      (declared : checksum.algorithm ≠ .none)
      (differs : digestMatches platform checksum bytes = false) :
      BlockOutcome platform env place size checksum value (.error e) events
  | used {result : Result α} {fetched computed : Trace} {bytes : Bytes}
      (within : ReadsWithin env place 0 size fetched)
      (whole : bytes.length = size) (obtained : Obtained env place size 0 bytes fetched)
      (verified : checksum.algorithm ≠ .none → digestMatches platform checksum bytes = true)
      (slices : ∀ event ∈ computed, DecompressesSlice bytes event)
      (ends : value bytes result ∨ ∃ e, result = .error e ∧ Cancelled env e) :
      BlockOutcome platform env place size checksum value result (fetched ++ computed)

/-- A routine that reads a block and returns what `value` says. -/
def ReadsBlock (platform : Platform) (env : Environment) (place : BlockPlace) (size : Nat)
    (checksum : ChecksumPlan) (value : Bytes → Result α → Prop) (x : ReadRoutine L α) : Prop :=
  ∀ l s, wp (env.world platform) x
    (fun result m t => m = l ∧ ∃ events, t = s ++ events ∧
      BlockOutcome platform env place size checksum value result events) l s

namespace ReadsBlock

variable {value : Bytes → Result α → Prop} {value' : Bytes → Result β → Prop}

theorem afterStop {message : String} {x : ReadRoutine L α}
    (holds : ReadsBlock platform env place size checksum value x) :
    ReadsBlock platform env place size checksum value (checkStop message >>= fun _ => x) :=
  fun l s => wp_afterStop (holds l s) fun _ cancelled =>
    ⟨rfl, [], by simp, .failed .nil (.inl cancelled)⟩

/-- A block that is fetched, verified and used. -/
theorem of_verified {copy : ReadRoutine L Bytes} {use : Bytes → ReadRoutine L α}
    (fetch : Fetches platform env place 0 size copy)
    (uses : ∀ bytes, bytes.length = size → ∃ result, value bytes result ∧
      Computes platform env (DecompressesSlice bytes) (use bytes) result) :
    ReadsBlock platform env place size checksum value (do
      let serialized ← copy
      ofExcept (verifyChecksum platform checksum serialized)
      use serialized) := by
  intro l s
  rw [Library.Routine.wp_bind]
  refine Library.Routine.wp_mono ?_ (fetch l s)
  rintro result m t ⟨rfl, fetched, rfl, within, ended⟩
  rw [Nat.zero_add] at within
  cases result with
  | error e => exact ⟨rfl, fetched, rfl, .failed within ended⟩
  | ok bytes =>
      obtain ⟨whole, obtained⟩ := ended
      rw [Nat.zero_add] at obtained
      rw [Library.Routine.continueWith_ok, Library.Routine.wp_bind, Library.Routine.wp_ofExcept]
      unfold verifyChecksum reject
      by_cases bad : checksum.algorithm ≠ .none ∧ digestMatches platform checksum bytes = false
      · rw [if_pos bad]
        exact ⟨rfl, fetched, rfl, .mismatch within whole obtained bad.1 bad.2⟩
      · rw [if_neg bad, Library.Routine.continueWith_ok]
        obtain ⟨result, valued, computes⟩ := uses bytes whole
        refine Library.Routine.wp_mono ?_ (computes m (s ++ fetched))
        rintro result n u ⟨rfl, outcome, computed, rfl, slices⟩
        refine ⟨rfl, fetched ++ computed, by rw [List.append_assoc], .used within whole obtained
          (fun declared => by simpa [declared] using bad) slices ?_⟩
        rcases outcome with rfl | cancelled
        · exact .inl valued
        · exact .inr cancelled

/-- A block without a checksum that is fetched and used. -/
theorem of_fetched {copy : ReadRoutine L Bytes} {use : Bytes → ReadRoutine L α}
    (undeclared : checksum.algorithm = .none) (fetch : Fetches platform env place 0 size copy)
    (uses : ∀ bytes, bytes.length = size → ∃ result, value bytes result ∧
      Computes platform env (DecompressesSlice bytes) (use bytes) result) :
    ReadsBlock platform env place size checksum value (copy >>= use) := by
  intro l s
  have verified := @of_verified _ _ _ _ _ _ checksum _ _ _ fetch uses l s
  simp only [verifyChecksum, reject, undeclared, ne_eq, not_true_eq_false, false_and,
    if_false] at verified
  rw [Library.Routine.wp_bind] at verified ⊢
  refine Library.Routine.wp_mono ?_ verified
  rintro (e | bytes) m t holds
  · exact holds
  · rw [Library.Routine.continueWith_ok, Library.Routine.wp_bind,
      Library.Routine.wp_ofExcept] at holds
    exact holds

/-- What follows a block read and touches no source. -/
theorem andThen {x : ReadRoutine L α} {next : α → ReadRoutine L β}
    (first : ReadsBlock platform env place size checksum value x)
    (failed : ∀ bytes e, value bytes (.error e) → value' bytes (.error e))
    (rest : ∀ bytes a, value bytes (.ok a) → ∃ result, value' bytes result ∧
      Computes platform env (DecompressesSlice bytes) (next a) result) :
    ReadsBlock platform env place size checksum value' (x >>= next) := by
  intro l s
  rw [Library.Routine.wp_bind]
  refine Library.Routine.wp_mono ?_ (first l s)
  rintro result m t ⟨rfl, events, rfl, outcome⟩
  cases outcome with
  | failed within cause => exact ⟨rfl, events, rfl, .failed within cause⟩
  | mismatch within whole obtained declared differs =>
      exact ⟨rfl, events, rfl, .mismatch within whole obtained declared differs⟩
  | @used _ fetched computed bytes within whole obtained verified slices ends =>
      cases result with
      | error e =>
          refine ⟨rfl, _, rfl, .used within whole obtained verified slices ?_⟩
          rcases ends with valued | cancelled
          · exact .inl (failed bytes e valued)
          · obtain ⟨e', same, cancelled⟩ := cancelled
            cases same
            exact .inr ⟨e, rfl, cancelled⟩
      | ok a =>
          rcases ends with valued | ⟨e, impossible, -⟩
          · obtain ⟨result, valued', computes⟩ := rest bytes a valued
            rw [Library.Routine.continueWith_ok]
            refine Library.Routine.wp_mono ?_ (computes m _)
            rintro result n u ⟨rfl, outcome, more, rfl, slicesMore⟩
            refine ⟨rfl, fetched ++ (computed ++ more), by simp only [List.append_assoc],
              .used within whole obtained verified ?_ ?_⟩
            · simp only [List.mem_append]
              rintro event (before | after)
              · exact slices event before
              · exact slicesMore event after
            · rcases outcome with rfl | cancelled
              · exact .inl valued'
              · exact .inr cancelled
          · cases impossible

end ReadsBlock

/-! ## Decoded blocks -/

/-- The bytes of a block, decoded if it has a codec. -/
def blockBytes (platform : Platform) (compression : CompressionPlan) (serialized : Bytes) :
    Result Bytes :=
  if compression.codec = .none then .ok serialized else decodedBytes platform serialized compression

theorem length_blockBytes {compression : CompressionPlan} {serialized bytes : Bytes}
    (fits : compression.Fits size) (length : serialized.length = size)
    (run : blockBytes platform compression serialized = .ok bytes) :
    bytes.length = compression.uncompressedSize := by
  unfold blockBytes at run
  obtain ⟨uncompressed, run⟩ | ⟨compressed, run⟩ := ite_eq_ok run
  · rw [Except.ok.injEq] at run
    rw [← run, length, (fits.uncompressed uncompressed).1]
  · rw [length_decodedUpTo run, (fits.compressed compressed).2]

/-- A block with a codec is decoded into any buffer of its size. -/
theorem decodeCompressedBlock_block {compression : CompressionPlan} {serialized destination : Bytes}
    (fits : compression.Fits size) (compressed : compression.codec ≠ .none)
    (length : destination.length = compression.uncompressedSize) :
    Computes platform env (DecompressesSlice serialized)
      (decodeCompressedBlock (L := L) platform serialized compression destination)
      (blockBytes platform compression serialized) := by
  have computes := @decodeCompressedBlock_computes L platform env serialized compression destination
  rwa [decoded_eq fits.shuffled (length.trans (fits.compressed compressed).2.symm),
    ← show blockBytes platform compression serialized = _ from if_neg compressed] at computes

theorem readBlock_reads {compression : CompressionPlan} {expectedBytes : Nat}
    {copy : ReadRoutine L Bytes} (fits : compression.Fits size)
    (expected : compression.uncompressedSize = expectedBytes)
    (fetch : Fetches platform env place 0 size copy) :
    ReadsBlock platform env place size checksum
      (fun bytes result => result = blockBytes platform compression bytes)
      (readBlock platform compression checksum expectedBytes copy) := by
  have copied (bytes : Bytes) (length : bytes.length = size)
      (uncompressed : compression.codec = .none) :
      overwrite (zeros expectedBytes) 0 bytes = bytes := by
    have same := (fits.uncompressed uncompressed).1
    apply Library.overwrite_all
    simp only [zeros, List.length_replicate]
    omega
  unfold readBlock
  by_cases staged : needsSerializedStaging compression checksum = true
  · rw [if_pos staged]
    refine .of_verified fetch fun bytes length => ⟨_, rfl, ?_⟩
    by_cases compressed : compression.codec ≠ .none
    · rw [if_pos compressed]
      refine decodeCompressedBlock_block fits compressed ?_
      simp only [zeros, List.length_replicate, expected]
    · have uncompressed : compression.codec = .none := not_not.mp compressed
      rw [if_neg compressed, copied bytes length uncompressed, blockBytes, if_pos uncompressed]
      exact .pure bytes
  · rw [if_neg staged]
    simp only [needsSerializedStaging, ne_eq, decide_not, Bool.or_eq_true, Bool.not_eq_true',
      decide_eq_false_iff_not, not_or, not_not] at staged
    refine .of_fetched staged.2 fetch fun bytes length => ⟨_, rfl, ?_⟩
    rw [copied bytes length staged.1, blockBytes, if_pos staged.1]
    exact .pure bytes

end

/-! ## Images -/

section

variable {L : Type} {platform : Platform} {env : Environment} {plan : ImageReadPlan}
  {outputStorage : PixelStorage} {outputByteOrder : ByteOrder}

/-- What an image read makes of the bytes of its block: the reference
permutation of the decoded samples. -/
def ImageValue (platform : Platform) (plan : ImageReadPlan) (outputStorage : PixelStorage)
    (outputByteOrder : ByteOrder) (serialized : Bytes) (result : Result Bytes) : Prop :=
  match blockBytes platform plan.compression serialized with
  | .error e => result = .error e
  | .ok pixels => ∃ output, result = .ok output ∧
      plan.IsReference outputStorage outputByteOrder pixels output

theorem decodeStagedImage_computes (sound : plan.Sound) {serialized output : Bytes}
    (length : serialized.length = plan.serializedBytes)
    (outputLength : output.length = plan.expectedBytes) :
    ∃ result, ImageValue platform plan outputStorage outputByteOrder serialized result ∧
      Computes platform env (DecompressesSlice serialized)
        (decodeStagedImage (L := L) platform plan serialized output outputStorage outputByteOrder)
        result := by
  have expected := sound.uncompressedSize
  -- one argument for both layouts: `finish` is what comes after decoding
  have decodeThen (destination : Bytes) (finish : Bytes → ReadRoutine L Bytes)
      (compressed : plan.compression.codec ≠ .none)
      (room : destination.length = plan.expectedBytes)
      (finishes : ∀ pixels : Bytes, pixels.length = plan.expectedBytes → ∃ final,
        plan.IsReference outputStorage outputByteOrder pixels final ∧
          Computes platform env (DecompressesSlice serialized) (finish pixels) (.ok final)) :
      ∃ result, ImageValue platform plan outputStorage outputByteOrder serialized result ∧
        Computes platform env (DecompressesSlice serialized)
          (decodeCompressedBlock platform serialized plan.compression destination >>= finish)
          result := by
    have decodes := @decodeCompressedBlock_block L platform env _ _ serialized _ sound.fits
      compressed (room.trans expected.symm)
    unfold ImageValue
    cases run : blockBytes platform plan.compression serialized with
    | error e =>
        rw [run] at decodes
        exact ⟨_, rfl, decodes.bind (fun _ same => same) fun _ impossible => by cases impossible⟩
    | ok pixels =>
        rw [run] at decodes
        obtain ⟨final, reference, computes⟩ :=
          finishes pixels ((length_blockBytes sound.fits length run).trans expected)
        exact ⟨_, ⟨final, rfl, reference⟩, decodes.bind_ok computes⟩
  unfold decodeStagedImage
  by_cases compressed : plan.compression.codec ≠ .none
  · rw [if_pos compressed]
    by_cases changed : outputStorage ≠ plan.image.pixelStorage
    · rw [if_pos changed]
      exact decodeThen _ _ compressed (by simp only [zeros, List.length_replicate])
        fun pixels room => transformPixelStorageFromBuffer_computes sound room outputLength
    · rw [if_neg changed]
      rw [not_not] at changed
      subst changed
      exact decodeThen _ _ compressed outputLength fun pixels room =>
        orderPixels_computes sound room
  · rw [if_neg compressed]
    rw [not_not] at compressed
    have room : serialized.length = plan.expectedBytes :=
      length.trans (sound.serialized_eq compressed)
    unfold ImageValue blockBytes
    rw [if_pos compressed]
    by_cases changed : outputStorage ≠ plan.image.pixelStorage
    · rw [if_pos changed]
      obtain ⟨final, reference, computes⟩ :=
        transformPixelStorageFromBuffer_computes (L := L) sound room outputLength
      exact ⟨_, ⟨final, rfl, reference⟩, computes⟩
    · rw [if_neg changed, Library.overwrite_all (outputLength.trans room.symm)]
      rw [not_not] at changed
      subst changed
      obtain ⟨final, reference, computes⟩ := orderPixels_computes (L := L)
        sound room
      exact ⟨_, ⟨final, rfl, reference⟩, computes⟩

/-- All the paths of `read_image_into` read the block and make the reference of
it. -/
theorem fillImage_reads (sound : plan.Sound) {imageIndex : Nat} {output : Bytes}
    (outputLength : output.length = plan.expectedBytes) :
    ReadsBlock platform env plan.place plan.serializedBytes plan.checksum
      (ImageValue platform plan outputStorage outputByteOrder)
      (fillImage (L := L) platform plan imageIndex output outputStorage outputByteOrder) := by
  unfold fillImage
  by_cases staged : needsSerializedStaging plan.compression plan.checksum = true
  · rw [if_pos staged]
    exact .of_verified (copySerializedImage_fetches sound.place) fun bytes length =>
      decodeStagedImage_computes sound length outputLength
  · rw [if_neg staged]
    simp only [needsSerializedStaging, ne_eq, decide_not, Bool.or_eq_true, Bool.not_eq_true',
      decide_eq_false_iff_not, not_or, not_not] at staged
    obtain ⟨uncompressed, undeclared⟩ := staged
    have room := sound.serialized_eq uncompressed
    by_cases changed : outputStorage ≠ plan.image.pixelStorage
    · rw [if_pos changed]
      intro l s
      have spec := @transformChunks_spec L platform env _ outputStorage outputByteOrder sound
        uncompressed imageIndex plan.sampleCount 0 _ _ _ (by omega) (by omega) (by simp) .nil
        (.zero outputLength) l s
      refine Library.Routine.wp_mono ?_ spec
      rintro result m t ⟨rfl, events, rfl, within, ended⟩
      cases result with
      | error e => exact ⟨rfl, events, rfl, .failed within ended⟩
      | ok final =>
          obtain ⟨bytes, length, obtained, reference⟩ := ended
          refine ⟨rfl, events ++ [], by simp, .used within length obtained
            (fun declared => absurd undeclared declared) (by simp) (.inl ?_)⟩
          unfold ImageValue blockBytes
          rw [if_pos uncompressed]
          exact ⟨final, rfl, reference⟩
    · rw [if_neg changed]
      rw [not_not] at changed
      subst changed
      refine .of_fetched undeclared (copySerializedImage_fetches sound.place) fun bytes length => ?_
      rw [Library.overwrite_all (by omega)]
      obtain ⟨final, reference, computes⟩ := orderPixels_computes (L := L) sound
        (length.trans room)
      refine ⟨_, ?_, computes⟩
      unfold ImageValue blockBytes
      rw [if_pos uncompressed]
      exact ⟨final, rfl, reference⟩

end

end Mmxisf.Reader
