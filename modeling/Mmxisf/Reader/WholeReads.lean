/-
# Reader.WholeReads -- the five reads that return a whole block

`read_image_into`, `read_image`, `read_property_block`, `read_icc_profile` and
`read_thumbnail`, each as a plan and a block read (`BlockOutcome`).  A plan that
is refused ends the read before any request.
-/
import Mmxisf.Reader.BlockReads

namespace Mmxisf.Reader

set_option autoImplicit false

open Library (slice overwrite)
open Library.Routine (wp ofExcept)

section

variable {L α P : Type} {platform : Platform} {env : Environment}

/-- How a planned read ends: as its plan was refused, or as `outcome` says. -/
def PlannedOutcome (planned : Result P) (outcome : P → Result α → Trace → Prop)
    (result : Result α) (events : Trace) : Prop :=
  match planned with
  | .error e => result = .error e ∧ events = []
  | .ok plan => outcome plan result events

/-- A routine that makes a plan and reads a block. -/
def ReadsPlanned (platform : Platform) (env : Environment) (planned : Result P)
    (outcome : P → Result α → Trace → Prop) (x : ReadRoutine L α) : Prop :=
  ∀ l s, wp (env.world platform) x
    (fun result m t => m = l ∧ ∃ events, t = s ++ events ∧
      PlannedOutcome planned outcome result events) l s

theorem ReadsPlanned.of_plan {planned : Result P} {outcome : P → Result α → Trace → Prop}
    {next : P → ReadRoutine L α}
    (reads : ∀ plan, planned = .ok plan → ∀ l s, wp (env.world platform) (next plan)
      (fun result m t => m = l ∧ ∃ events, t = s ++ events ∧ outcome plan result events) l s) :
    ReadsPlanned platform env planned outcome (ofExcept planned >>= next) := by
  intro l s
  cases planned with
  | error e =>
      rw [Library.Routine.ofExcept_error_bind, Library.Routine.wp_fail]
      exact ⟨rfl, [], by simp, rfl, rfl⟩
  | ok plan =>
      rw [Library.Routine.ofExcept_ok_bind]
      exact reads plan rfl l s

theorem ReadsPlanned.mono {planned : Result P} {outcome outcome' : P → Result α → Trace → Prop}
    {x : ReadRoutine L α} (reads : ReadsPlanned platform env planned outcome x)
    (weaker : ∀ plan result events, planned = .ok plan → outcome plan result events →
      outcome' plan result events) {l : L} :
    wp (env.world platform) x
      (fun result _ events => PlannedOutcome planned outcome' result events) l [] := by
  refine Library.Routine.wp_mono ?_ (reads l [])
  rintro result m t ⟨-, events, rfl, ended⟩
  unfold PlannedOutcome at ended ⊢
  cases planned with
  | error e => exact ended
  | ok plan => exact weaker plan result _ rfl ended

/-! ## Images -/

/-- What `read_image_into` makes of the bytes of a block: the count, and the
destination with the pixels at its front. -/
def IntoValue (platform : Platform) (plan : ImageReadPlan) (readOptions : ImageReadOptions)
    (destination serialized : Bytes) (result : Result (Nat × Bytes)) : Prop :=
  ∃ filled, ImageValue platform plan (resolvePixelStorage plan readOptions.pixelStorage)
      (resolveByteOrder platform plan.image.byteOrder readOptions.byteOrder) serialized filled ∧
    result = filled.map fun output =>
      (plan.expectedBytes, output ++ destination.drop plan.expectedBytes)

theorem readImageInto_reads (reader : Impl) (imageIndex : Nat) (destination : Bytes)
    (readOptions : ImageReadOptions) :
    ReadsPlanned platform env
      (planImageRead reader.document reader.options reader.embeddedBlocks imageIndex)
      (fun plan result events =>
        destination.length < plan.expectedBytes ∧ events = [] ∧
            (∃ e, result = .error e ∧ e.code = .invalidArgument) ∨
          plan.expectedBytes ≤ destination.length ∧
            BlockOutcome platform env plan.place plan.serializedBytes plan.checksum
              (IntoValue platform plan readOptions destination) result events)
      (readImageInto (L := L) platform reader imageIndex destination readOptions) := by
  refine .of_plan fun plan planned l s => ?_
  obtain ⟨sound, -⟩ := planImageRead_sound reader.wellFormed planned
  unfold refuse reject
  by_cases small : destination.length < plan.expectedBytes
  · rw [if_pos small]
    exact ⟨rfl, [], by simp, .inl ⟨small, rfl, _, rfl, rfl⟩⟩
  · rw [if_neg small, Library.Routine.ofExcept_ok_bind]
    have room : (destination.take plan.expectedBytes).length = plan.expectedBytes := by
      rw [List.length_take]
      omega
    have fills := @fillImage_reads L platform env _
      (resolvePixelStorage plan readOptions.pixelStorage)
      (resolveByteOrder platform plan.image.byteOrder readOptions.byteOrder) sound imageIndex _ room
    have reads : ReadsBlock platform env plan.place plan.serializedBytes plan.checksum
        (IntoValue platform plan readOptions destination) _ := fills.andThen
      (fun bytes e valued => ⟨_, valued, rfl⟩)
      (fun bytes output valued => ⟨_, ⟨_, valued, rfl⟩, .pure _⟩)
    refine Library.Routine.wp_mono ?_ (reads l s)
    rintro result m t ⟨same, events, grown, outcome⟩
    exact ⟨same, events, grown, .inr ⟨Nat.le_of_not_lt small, outcome⟩⟩

theorem readImage_reads (reader : Impl) (imageIndex : Nat) (readOptions : ImageReadOptions) :
    ReadsPlanned platform env
      (planImageRead reader.document reader.options reader.embeddedBlocks imageIndex)
      (fun plan => BlockOutcome platform env plan.place plan.serializedBytes plan.checksum
        fun bytes result => ∃ filled,
          ImageValue platform plan (resolvePixelStorage plan readOptions.pixelStorage)
            (resolveByteOrder platform plan.image.byteOrder readOptions.byteOrder) bytes filled ∧
          result = filled.map (rawImage platform plan readOptions))
      (readImage (L := L) platform reader imageIndex readOptions) := by
  refine .of_plan fun plan planned => ?_
  refine ReadsBlock.afterStop (@ReadsBlock.andThen _ _ _ _ _ _ _ _
    (IntoValue platform plan readOptions (zeros plan.expectedBytes)) _ _ _ ?_ ?_ ?_)
  · intro l s
    have into := @readImageInto_reads L platform env reader imageIndex (zeros plan.expectedBytes)
      readOptions l s
    rw [planned] at into
    refine Library.Routine.wp_mono ?_ into
    rintro result m t ⟨same, events, grown, ⟨small, -⟩ | ⟨-, outcome⟩⟩
    · simp only [zeros, List.length_replicate, lt_irrefl] at small
    · exact ⟨same, events, grown, outcome⟩
  · rintro bytes e ⟨filled, valued, same⟩
    cases filled with
    | ok output => cases same
    | error e' =>
        cases same
        exact ⟨_, valued, rfl⟩
  · rintro bytes ⟨count, pixels⟩ ⟨filled, valued, same⟩
    cases filled with
    | error e' => cases same
    | ok output =>
        simp only [Except.map, Except.ok.injEq, Prod.mk.injEq, zeros, List.drop_replicate,
          Nat.sub_self, List.replicate_zero, List.append_nil] at same
        obtain ⟨rfl, rfl⟩ := same
        exact ⟨_, ⟨_, valued, rfl⟩, .pure _⟩

theorem readThumbnail_reads (reader : Impl) (thumbnailIndex : Nat) :
    ReadsPlanned platform env
      (planThumbnailRead reader.document reader.options reader.embeddedThumbnailBlocks
        thumbnailIndex)
      (fun plan => BlockOutcome platform env plan.place plan.serializedBytes plan.checksum
        fun bytes result =>
          result = (blockBytes platform plan.compression bytes).map (thumbnailImage plan))
      (readThumbnail (L := L) platform reader thumbnailIndex) := by
  refine .of_plan fun plan planned => ReadsBlock.afterStop ?_
  obtain ⟨sound, -⟩ := planThumbnailRead_sound reader.wellFormed planned
  refine (readBlock_reads sound.fits sound.uncompressedSize
    (copySerializedImage_fetches sound.place)).andThen ?_ ?_
  · intro bytes e valued
    rw [← valued]
    rfl
  · intro bytes pixels valued
    rw [← valued]
    exact ⟨_, rfl, .pure _⟩

/-! ## Property blocks and ICC profiles -/

/-- What `read_property_block` returns of decoded bytes: components of more than
one byte are in the requested order. -/
def propertyBlock (platform : Platform) (plan : PropertyReadPlan) (byteOrder : ByteOrderOutput)
    (decoded : Bytes) : RawPropertyBlock where
  byteOrder := resolveByteOrder platform plan.property.byteOrder byteOrder
  checksumVerification := planVerification plan.checksum
  bytes :=
    if plan.layout.stringData = false ∧ plan.layout.scalarComponentSize > 1 ∧
        resolveByteOrder platform plan.property.byteOrder byteOrder ≠ plan.property.byteOrder then
      swappedFrom plan.layout.scalarComponentSize
        (decoded.length / plan.layout.scalarComponentSize) 0 decoded
    else decoded

theorem readPropertyBlock_reads (reader : Impl) (metadataIndex : Nat)
    (byteOrder : ByteOrderOutput) :
    ReadsPlanned platform env
      (planPropertyRead reader.document reader.options reader.inlineMetadataBlocks metadataIndex)
      (fun plan => BlockOutcome platform env plan.place plan.serializedBytes plan.checksum
        fun bytes result =>
          result = (blockBytes platform plan.compression bytes).map
            (propertyBlock platform plan byteOrder))
      (readPropertyBlock (L := L) platform reader metadataIndex byteOrder) := by
  refine .of_plan fun plan planned => ReadsBlock.afterStop ?_
  obtain ⟨sound, -⟩ := planPropertyRead_sound reader.wellFormed planned
  refine (readBlock_reads sound.fits sound.uncompressedSize
    (copySerialized_fetches sound.place)).andThen ?_ ?_
  · intro bytes e valued
    rw [← valued]
    rfl
  · intro bytes decoded valued
    rw [← valued]
    refine ⟨_, rfl, ?_⟩
    unfold propertyBlock
    by_cases swap : plan.layout.stringData = false ∧ plan.layout.scalarComponentSize > 1 ∧
        resolveByteOrder platform plan.property.byteOrder byteOrder ≠ plan.property.byteOrder
    · simp only [if_pos swap]
      exact (swapFrom_computes _ _ _ _).bind_ok (.pure _)
    · simp only [if_neg swap]
      exact (Computes.pure decoded).bind_ok (.pure _)

theorem readIccProfile_reads (reader : Impl) (profileIndex : Nat) :
    ReadsPlanned platform env
      (planIccProfileRead reader.document reader.options reader.inlineIccProfileBlocks
        profileIndex)
      (fun plan => BlockOutcome platform env plan.place plan.serializedBytes plan.checksum
        fun bytes result => result = do
          let decoded ← blockBytes platform plan.compression bytes
          validateIccProfileBytes decoded
          return ⟨planVerification plan.checksum, decoded⟩)
      (readIccProfile (L := L) platform reader profileIndex) := by
  refine .of_plan fun plan planned => ReadsBlock.afterStop ?_
  obtain ⟨sound, -⟩ := planIccProfileRead_sound reader.wellFormed planned
  refine (readBlock_reads sound.fits sound.uncompressedSize
    (copySerialized_fetches sound.place)).andThen ?_ ?_
  · intro bytes e valued
    rw [← valued]
    rfl
  · intro bytes decoded valued
    rw [← valued]
    exact ⟨_, rfl, (Computes.ofExcept _).bind_value fun _ _ => .pure _⟩

/-! ## From a source that keeps its bytes -/

/-- In a file that keeps its bytes the bytes of the block decide how a read
ends. -/
theorem BlockOutcome.ofStable {file : Bytes} {place : BlockPlace} {size : Nat}
    {checksum : ChecksumPlan} {value : Bytes → Result α → Prop} {result : Result α}
    {events : Trace} (inFile : place.inlineBlock = none → place.offset + size ≤ file.length)
    (outcome : BlockOutcome platform (.stable file) place size checksum value result events) :
    checksum.algorithm ≠ .none ∧
        digestMatches platform checksum (place.bytesIn file 0 size) = false ∧
        (∃ e, result = .error e) ∨
      (checksum.algorithm ≠ .none →
        digestMatches platform checksum (place.bytesIn file 0 size) = true) ∧
        value (place.bytesIn file 0 size) result := by
  cases outcome with
  | failed within cause => exact absurd cause (not_failedRead inFile within)
  | mismatch within whole obtained declared differs =>
      have same := obtained.eq_bytesIn inFile
      rw [whole] at same
      exact .inl ⟨declared, same ▸ differs, _, rfl⟩
  | used within whole obtained verified slices ends =>
      have same := obtained.eq_bytesIn inFile
      rw [whole] at same
      rcases ends with valued | ⟨e, -, stopped, -⟩
      · exact .inr ⟨same ▸ verified, same ▸ valued⟩
      · cases stopped

/-- The value of an image in a file: what its block decodes to, once its digest is
the declared one. -/
def imagePixels (platform : Platform) (plan : ImageReadPlan) (file : Bytes) : Option Bytes :=
  let serialized := plan.place.bytesIn file 0 plan.serializedBytes
  if plan.checksum.algorithm ≠ .none ∧ digestMatches platform plan.checksum serialized = false then
    none
  else (blockBytes platform plan.compression serialized).toOption

theorem imagePixels_eq_some {plan : ImageReadPlan} {file pixels : Bytes} :
    imagePixels platform plan file = some pixels ↔
      (plan.checksum.algorithm ≠ .none → digestMatches platform plan.checksum
        (plan.place.bytesIn file 0 plan.serializedBytes) = true) ∧
      blockBytes platform plan.compression (plan.place.bytesIn file 0 plan.serializedBytes) =
        .ok pixels := by
  simp only [imagePixels]
  by_cases differs : plan.checksum.algorithm ≠ .none ∧ digestMatches platform plan.checksum
      (plan.place.bytesIn file 0 plan.serializedBytes) = false
  · rw [if_pos differs]
    simp [differs.1, differs.2]
  · have passed : plan.checksum.algorithm ≠ .none → digestMatches platform plan.checksum
        (plan.place.bytesIn file 0 plan.serializedBytes) = true := fun declared => by
      simpa [declared] using differs
    rw [if_neg differs]
    cases blockBytes platform plan.compression (plan.place.bytesIn file 0 plan.serializedBytes) with
    | error e => simp [Except.toOption]
    | ok found => simpa [Except.toOption] using fun _ => passed

/-- `read_image` of a file ends with the reference of the image's pixels, or with
an error when there are none. -/
theorem readImage_ofStable {reader : Impl} {imageIndex : Nat} {plan : ImageReadPlan} {file : Bytes}
    (sized : file.length = reader.document.fileSize)
    (planned : planImageRead reader.document reader.options reader.embeddedBlocks imageIndex =
      .ok plan) (readOptions : ImageReadOptions) (l : L) (s : Trace) :
    match imagePixels platform plan file with
    | none => wp ((Environment.stable file).world platform)
        (readImage platform reader imageIndex readOptions)
        (fun result _ _ => ∃ e, result = .error e) l s
    | some pixels => ∃ output,
        plan.IsReference (resolvePixelStorage plan readOptions.pixelStorage)
          (resolveByteOrder platform plan.image.byteOrder readOptions.byteOrder) pixels output ∧
        Library.Routine.EndsWith ((Environment.stable file).world platform)
          (readImage platform reader imageIndex readOptions) l s
          (.ok (rawImage platform plan readOptions output)) := by
  obtain ⟨sound, found⟩ := planImageRead_sound reader.wellFormed planned
  have inFile := sound.inFile reader.wellFormed (image_block_mem found)
  rw [← sized] at inFile
  have reads := @readImage_reads L platform (.stable file) reader imageIndex readOptions l s
  rw [planned] at reads
  have ends : wp ((Environment.stable file).world platform)
      (readImage platform reader imageIndex readOptions)
      (fun result _ _ => match imagePixels platform plan file with
        | none => ∃ e, result = .error e
        | some pixels => ∃ output,
            plan.IsReference (resolvePixelStorage plan readOptions.pixelStorage)
              (resolveByteOrder platform plan.image.byteOrder readOptions.byteOrder) pixels output ∧
            result = .ok (rawImage platform plan readOptions output)) l s := by
    refine Library.Routine.wp_mono ?_ reads
    rintro result m t ⟨-, events, -, outcome⟩
    unfold PlannedOutcome at outcome
    unfold imagePixels
    rcases outcome.ofStable inFile with ⟨declared, differs, failed⟩ |
      ⟨verified, filled, valued, rfl⟩
    · simp only [if_pos (And.intro declared differs)]
      exact failed
    · have passed : ¬ (plan.checksum.algorithm ≠ .none ∧ digestMatches platform plan.checksum
          (plan.place.bytesIn file 0 plan.serializedBytes) = false) := by
        rintro ⟨declared, differs⟩
        rw [verified declared] at differs
        cases differs
      simp only [if_neg passed]
      unfold ImageValue at valued
      cases decoded : blockBytes platform plan.compression
          (plan.place.bytesIn file 0 plan.serializedBytes) with
      | error e =>
          rw [decoded] at valued
          exact ⟨e, by rw [valued]; rfl⟩
      | ok pixels =>
          rw [decoded] at valued
          obtain ⟨output, rfl, reference⟩ := valued
          exact ⟨output, reference, rfl⟩
  cases value : imagePixels platform plan file with
  | none =>
      rw [value] at ends
      exact ends
  | some pixels =>
      rw [value] at ends
      have live : ((Environment.stable file).world platform).Live :=
        Environment.stable_live (sized ▸ reader.wellFormed.fileSize)
      obtain ⟨⟨ended, m⟩, t, run⟩ := Library.Program.exists_run live
        (readImage platform reader imageIndex readOptions l) s
      obtain ⟨output, reference, rfl⟩ := Library.Routine.run_of_wp ends run
      refine ⟨output, reference, ?_, m, t, run⟩
      refine Library.Routine.wp_mono ?_ ends
      rintro result m t ⟨other, another, rfl⟩
      rw [another.unique sound reference]

end

end Mmxisf.Reader
