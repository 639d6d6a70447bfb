/-
# Integrity -- the bytes that were hashed are the bytes that are used

A source may answer every read differently.  A read of a block with a declared
checksum decompresses and returns only one byte string, which has that digest;
a row delivery shows nothing before a whole pass had it, and succeeds only if
the bytes that the rows were made of had it as well.
-/
import Mmxisf.Reader.RowDelivery

namespace Mmxisf

set_option autoImplicit false

open Library.Routine (wp)
open Reader

namespace Reader.ReadEvent

def isDecompressed : ReadEvent → Bool
  | .decompressed .. => true
  | _ => false

end Reader.ReadEvent

section

variable {α β : Type} {platform : Platform} {env : Environment} {place : BlockPlace} {size : Nat}
  {checksum : ChecksumPlan} {derived : Bytes → α → Prop} {result : Result α} {events : Trace}

/-- What a read of a block with a declared checksum did: nothing with the bytes,
and it failed; or it used one byte string with the declared digest, which the
source returned in one pass.  `derived` says which values come from it. -/
inductive HashedThenUsed (platform : Platform) (env : Environment) (place : BlockPlace) (size : Nat)
    (checksum : ChecksumPlan) (derived : Bytes → α → Prop) : Result α → Trace → Prop
  | unused {e : Error} {events : Trace}
      (silent : ∀ event ∈ events, event.isDecompressed = false) :
      HashedThenUsed platform env place size checksum derived (.error e) events
  | used {result : Result α} {fetched computed : Trace} {bytes : Bytes}
      (silent : ∀ event ∈ fetched, event.isDecompressed = false)
      (whole : bytes.length = size) (obtained : Obtained env place size 0 bytes fetched)
      (digest : platform.digest checksum.algorithm bytes = checksum.expectedDigest)
      (slices : ∀ event ∈ computed, DecompressesSlice bytes event)
      (derives : ∀ value, result = .ok value → derived bytes value) :
      HashedThenUsed platform env place size checksum derived result (fetched ++ computed)

/-- The integrity contract of one read: the plan verifies what the document
declares, and what is verified is what is used. -/
structure KeepsIntegrity (platform : Platform) (env : Environment) (place : BlockPlace) (size : Nat)
    (checksum : ChecksumPlan) (declared : Text) (derived : Bytes → α → Prop) (result : Result α)
    (events : Trace) : Prop where
  declares : checksum.algorithm ≠ .none ↔ declared ≠ []
  hashed : checksum.algorithm ≠ .none →
    HashedThenUsed platform env place size checksum derived result events

/-- A value reports a verified checksum when one was declared. -/
def Reports (verification : α → ChecksumVerification) (declared : Text) (result : Result α) :
    Prop :=
  ∀ value, result = .ok value → (verification value = .verified ↔ declared ≠ [])

theorem isDecompressed_of_within {start stop : Nat}
    (within : ReadsWithin env place start stop events) :
    ∀ event ∈ events, event.isDecompressed = false := by
  intro event member
  obtain ⟨-, offset, size, reply, rfl, -⟩ := within event member
  rfl

/-- However a block read ends, it kept the contract. -/
theorem Reader.BlockOutcome.keepsIntegrity {value : Bytes → Result α → Prop} {declared : Text}
    (declares : checksum.algorithm ≠ .none ↔ declared ≠ [])
    (outcome : BlockOutcome platform env place size checksum value result events) :
    KeepsIntegrity platform env place size checksum declared
      (fun bytes a => value bytes (.ok a)) result events := by
  refine ⟨declares, fun isDeclared => ?_⟩
  cases outcome with
  | failed within cause => exact .unused (isDecompressed_of_within within)
  | mismatch within whole obtained declared differs =>
      exact .unused (isDecompressed_of_within within)
  | used within whole obtained verified slices ends =>
      refine .used (isDecompressed_of_within within) whole obtained
        (of_decide_eq_true (verified isDeclared)) slices ?_
      rintro a rfl
      rcases ends with valued | ⟨e, impossible, -⟩
      · exact valued
      · cases impossible

theorem KeepsIntegrity.derives {declared : Text} {derived' : Bytes → α → Prop}
    (keeps : KeepsIntegrity platform env place size checksum declared derived result events)
    (weaker : ∀ bytes value, derived bytes value → derived' bytes value) :
    KeepsIntegrity platform env place size checksum declared derived' result events := by
  refine ⟨keeps.declares, fun isDeclared => ?_⟩
  cases keeps.hashed isDeclared with
  | unused silent => exact .unused silent
  | used silent whole obtained digest slices derives =>
      exact .used silent whole obtained digest slices fun value same =>
        weaker _ value (derives value same)

theorem reports_of_planVerification {verification : α → ChecksumVerification} {declared : Text}
    (declares : checksum.algorithm ≠ .none ↔ declared ≠ [])
    (same : ∀ value, result = .ok value → verification value = planVerification checksum) :
    Reports verification declared result := by
  intro value succeeded
  rw [same value succeeded, ← declares]
  unfold planVerification
  by_cases isDeclared : checksum.algorithm ≠ .none
  · simp [isDeclared]
  · simp [isDeclared]

/-- What a value of a block read reports is what every value it may be reports. -/
theorem Reader.BlockOutcome.reports {value : Bytes → Result α → Prop}
    {verification : α → ChecksumVerification} {declared : Text}
    (declares : checksum.algorithm ≠ .none ↔ declared ≠ [])
    (valued : ∀ bytes a, value bytes (.ok a) → verification a = planVerification checksum)
    (outcome : BlockOutcome platform env place size checksum value result events) :
    Reports verification declared result := by
  refine reports_of_planVerification declares ?_
  rintro a rfl
  cases outcome with
  | used within whole obtained verified slices ends =>
      rcases ends with fromBytes | ⟨e, impossible, -⟩
      · exact valued _ a fromBytes
      · cases impossible

/-! ## Rows -/

/-- What a row delivery with a declared checksum did: first a pass over the
block; rows only if its digest was the declared one; success only if the bytes
that the rows were made of, in the order they were delivered, had it too. -/
inductive RowsHashed (platform : Platform) (env : Environment) (plan : ImageReadPlan)
    (outputByteOrder : ByteOrder) : Result ImageRowReadSummary → Trace → Prop
  | unshown {e : Error} {events : Trace} (reads : ∀ event ∈ events, event.isRead = true) :
      RowsHashed platform env plan outputByteOrder (.error e) events
  | shown {result : Result ImageRowReadSummary} {verifying delivering : Trace} {bytes : Bytes}
      (reads : ∀ event ∈ verifying, event.isRead = true)
      (whole : bytes.length = plan.serializedBytes)
      (obtained : Obtained env plan.place plan.serializedBytes 0 bytes verifying)
      (digest : platform.digest plan.checksum.algorithm bytes = plan.checksum.expectedDigest)
      (succeeds : ∀ summary, result = .ok summary → ∃ serialized decoded,
        serialized.length = plan.serializedBytes ∧
        Obtained env plan.place plan.serializedBytes 0 serialized
          (delivering.filter ReadEvent.isRead) ∧
        platform.digest plan.checksum.algorithm serialized = plan.checksum.expectedDigest ∧
        (∀ event ∈ delivering, event.isDecompressed = true → DecompressesSlice serialized event) ∧
        blockBytes platform plan.compression serialized = .ok decoded ∧
        delivering.filter ReadEvent.isConsumed =
          Reader.shown (pixelRows ⟨plan, rowSizes plan, outputByteOrder⟩ decoded)) :
      RowsHashed platform env plan outputByteOrder result (verifying ++ delivering)

theorem isRead_all_of_within {start stop : Nat}
    (within : ReadsWithin env place start stop events) : ∀ event ∈ events, event.isRead = true := by
  intro event member
  obtain ⟨-, offset, size, reply, rfl, -⟩ := within event member
  rfl

/-- A sink that was shown everything was shown the rows. -/
theorem Reader.Emits.eq_shown {views : List ImageRowView}
    (emits : Emits env views (.ok ()) events) : events = shown views := by
  cases emits with
  | all => rfl

/-- A complete delivery showed the rows of bytes with the declared digest. -/
theorem Reader.DeliveryOutcome.hashed {plan : ImageReadPlan} {outputByteOrder : ByteOrder}
    (declared : plan.checksum.algorithm ≠ .none)
    (outcome : DeliveryOutcome platform env ⟨plan, rowSizes plan, outputByteOrder⟩ (.ok ())
      events) :
    ∃ serialized decoded, serialized.length = plan.serializedBytes ∧
      Obtained env plan.place plan.serializedBytes 0 serialized (events.filter ReadEvent.isRead) ∧
      platform.digest plan.checksum.algorithm serialized = plan.checksum.expectedDigest ∧
      (∀ event ∈ events, event.isDecompressed = true → DecompressesSlice serialized event) ∧
      blockBytes platform plan.compression serialized = .ok decoded ∧
      events.filter ReadEvent.isConsumed =
        shown (pixelRows ⟨plan, rowSizes plan, outputByteOrder⟩ decoded) := by
  cases outcome with
  | @complete serialized decoded _ progress whole decodes verified =>
      refine ⟨serialized, decoded, whole, progress.obtained,
        of_decide_eq_true (verified declared), ?_, decodes, ?_⟩
      · intro event member decompressed
        rcases progress.slices event member with read | consumed | slice
        · cases event <;> simp_all [ReadEvent.isRead, ReadEvent.isDecompressed]
        · cases event <;> simp_all [ReadEvent.isConsumed, ReadEvent.isDecompressed]
        · exact slice
      · exact progress.emits.eq_shown

theorem Reader.RowReadOutcome.hashed {plan : ImageReadPlan} {readOptions : ImageRowReadOptions}
    {outputByteOrder : ByteOrder} {result : Result ImageRowReadSummary}
    (declared : plan.checksum.algorithm ≠ .none)
    (outcome : RowReadOutcome platform env plan readOptions outputByteOrder result events) :
    RowsHashed platform env plan outputByteOrder result events := by
  cases outcome with
  | zeroLimits zero => exact .unshown (by simp)
  | stopped cancelled => exact .unshown (by simp)
  | beyondLimits beyond => exact .unshown (by simp)
  | unverified isDeclared within cause => exact .unshown (isRead_all_of_within within)
  | delivered limits within verified outcome summary =>
      obtain ⟨bytes, whole, obtained, digest⟩ := verified declared
      refine .shown (isRead_all_of_within within) whole obtained (of_decide_eq_true digest) ?_
      rintro summary rfl
      exact DeliveryOutcome.hashed declared outcome

theorem Reader.RowReadOutcome.reports {plan : ImageReadPlan} {readOptions : ImageRowReadOptions}
    {outputByteOrder : ByteOrder} {result : Result ImageRowReadSummary} {declared : Text}
    (declares : plan.checksum.algorithm ≠ .none ↔ declared ≠ [])
    (outcome : RowReadOutcome platform env plan readOptions outputByteOrder result events) :
    Reports ImageRowReadSummary.checksumVerification declared result := by
  refine reports_of_planVerification declares ?_
  rintro summary rfl
  cases outcome with
  | delivered limits within verified outcome summarized =>
      rw [summarized summary rfl]

end

/-- The reads of images, thumbnails, Property blocks and ICC profiles with a declared
checksum use one byte string with the declared digest, rows are shown after a pass with it
and delivered from bytes with it, and a result says `verified` exactly when a checksum was
declared. -/
structure ReadsKeepIntegrity (platform : Platform) (env : Environment) (reader : Impl) (index : Nat)
    (destination : Bytes) (readOptions : ImageReadOptions) (byteOrder : ByteOrderOutput)
    (rowOptions : ImageRowReadOptions) : Prop where
  imageInto : wp (env.world platform) (readImageInto platform reader index destination readOptions)
    (fun result _ events => PlannedOutcome
      (planImageRead reader.document reader.options reader.embeddedBlocks index)
      (fun plan result events => reader.document.images[index]? = some plan.image ∧
        KeepsIntegrity platform env plan.place plan.serializedBytes plan.checksum
          plan.image.checksum
          (fun bytes value => IntoValue platform plan readOptions destination bytes (.ok value))
          result events) result events) () []
  image : wp (env.world platform) (readImage platform reader index readOptions)
    (fun result _ events => PlannedOutcome
      (planImageRead reader.document reader.options reader.embeddedBlocks index)
      (fun plan result events => reader.document.images[index]? = some plan.image ∧
        KeepsIntegrity platform env plan.place plan.serializedBytes plan.checksum
          plan.image.checksum
          (fun bytes value => ∃ output,
            ImageValue platform plan (resolvePixelStorage plan readOptions.pixelStorage)
              (resolveByteOrder platform plan.image.byteOrder readOptions.byteOrder) bytes
              (.ok output) ∧ value = rawImage platform plan readOptions output) result events ∧
        Reports RawImage.checksumVerification plan.image.checksum result)
      result events) () []
  propertyBlock : wp (env.world platform) (readPropertyBlock platform reader index byteOrder)
    (fun result _ events => PlannedOutcome
      (planPropertyRead reader.document reader.options reader.inlineMetadataBlocks index)
      (fun plan result events => reader.document.metadata[index]? = some plan.property ∧
        KeepsIntegrity platform env plan.place plan.serializedBytes plan.checksum
          plan.property.checksum
          (fun bytes value =>
            (blockBytes platform plan.compression bytes).map
              (propertyBlock platform plan byteOrder) = .ok value) result events ∧
        Reports RawPropertyBlock.checksumVerification plan.property.checksum result)
      result events) () []
  iccProfile : wp (env.world platform) (readIccProfile platform reader index)
    (fun result _ events => PlannedOutcome
      (planIccProfileRead reader.document reader.options reader.inlineIccProfileBlocks index)
      (fun plan result events => reader.document.iccProfiles[index]? = some plan.profile ∧
        KeepsIntegrity platform env plan.place plan.serializedBytes plan.checksum
          plan.profile.checksum
          (fun bytes value => blockBytes platform plan.compression bytes = .ok value.bytes)
          result events ∧
        Reports RawIccProfile.checksumVerification plan.profile.checksum result)
      result events) () []
  thumbnail : wp (env.world platform) (readThumbnail platform reader index)
    (fun result _ events => PlannedOutcome
      (planThumbnailRead reader.document reader.options reader.embeddedThumbnailBlocks index)
      (fun plan result events =>
        reader.document.thumbnails[index]?.map ThumbnailInfo.image = some plan.image ∧
        KeepsIntegrity platform env plan.place plan.serializedBytes plan.checksum
          plan.image.checksum
          (fun bytes value => blockBytes platform plan.compression bytes = .ok value.pixels)
          result events ∧
        Reports RawImage.checksumVerification plan.image.checksum result)
      result events) () []
  imageRows : wp (env.world platform) (readImageRows platform reader index rowOptions)
    (fun result _ events => PlannedOutcome
      (planImageRead reader.document reader.options reader.embeddedBlocks index)
      (fun plan result events => reader.document.images[index]? = some plan.image ∧
        (plan.checksum.algorithm ≠ .none → RowsHashed platform env plan
          (resolveByteOrder platform plan.image.byteOrder rowOptions.byteOrder) result events) ∧
        Reports ImageRowReadSummary.checksumVerification plan.image.checksum result)
      result events) () []

/-- Whatever the source, the sink and the stop token answer, the reads keep the
contract. -/
theorem reads_keepIntegrity (platform : Platform) (env : Environment) (reader : Impl) (index : Nat)
    (destination : Bytes) (readOptions : ImageReadOptions) (byteOrder : ByteOrderOutput)
    (rowOptions : ImageRowReadOptions) :
    ReadsKeepIntegrity platform env reader index destination readOptions byteOrder rowOptions := by
  refine ⟨?_, ?_, ?_, ?_, ?_, ?_⟩
  · refine (readImageInto_reads reader index destination readOptions).mono ?_
    intro plan result events planned outcome
    obtain ⟨sound, found⟩ := planImageRead_sound reader.wellFormed planned
    refine ⟨found, ?_⟩
    rcases outcome with ⟨-, rfl, e, rfl, -⟩ | ⟨-, outcome⟩
    · exact ⟨sound.declared, fun _ => .unused (by simp)⟩
    · exact outcome.keepsIntegrity sound.declared
  · refine (readImage_reads reader index readOptions).mono ?_
    intro plan result events planned outcome
    obtain ⟨sound, found⟩ := planImageRead_sound reader.wellFormed planned
    refine ⟨found, (outcome.keepsIntegrity sound.declared).derives ?_, ?_⟩
    · rintro bytes value ⟨filled | output, valued, same⟩
      · cases same
      · cases same
        exact ⟨output, valued, rfl⟩
    · refine outcome.reports sound.declared ?_
      rintro bytes value ⟨filled | output, valued, same⟩
      · cases same
      · cases same
        simp only [rawImage, planVerification, ← sound.declared]
  · refine (readPropertyBlock_reads reader index byteOrder).mono ?_
    intro plan result events planned outcome
    obtain ⟨sound, found⟩ := planPropertyRead_sound reader.wellFormed planned
    refine ⟨found, (outcome.keepsIntegrity sound.declared).derives
      fun bytes value same => same.symm,
      outcome.reports sound.declared ?_⟩
    intro bytes value same
    obtain ⟨decoded, -, rfl⟩ := map_eq_ok.mp same.symm
    rfl
  · refine (readIccProfile_reads reader index).mono ?_
    intro plan result events planned outcome
    obtain ⟨sound, found⟩ := planIccProfileRead_sound reader.wellFormed planned
    refine ⟨found, (outcome.keepsIntegrity sound.declared).derives fun bytes value same => ?_,
      outcome.reports sound.declared fun bytes value same => ?_⟩
    all_goals
      obtain ⟨decoded, decodes, same⟩ := bind_eq_ok.mp same.symm
      obtain ⟨_, -, same⟩ := bind_eq_ok.mp same
      cases same
    · exact decodes
    · rfl
  · refine (readThumbnail_reads reader index).mono ?_
    intro plan result events planned outcome
    obtain ⟨sound, found⟩ := planThumbnailRead_sound reader.wellFormed planned
    refine ⟨found, (outcome.keepsIntegrity sound.declared).derives fun bytes value same => ?_,
      outcome.reports sound.declared fun bytes value same => ?_⟩
    all_goals obtain ⟨decoded, decodes, rfl⟩ := map_eq_ok.mp same.symm
    · exact decodes
    · rfl
  · refine (readImageRows_reads reader index rowOptions).mono ?_
    intro plan result events planned outcome
    obtain ⟨sound, found⟩ := planImageRead_sound reader.wellFormed planned
    exact ⟨found, fun declared => outcome.hashed declared, outcome.reports sound.declared⟩

end Mmxisf
