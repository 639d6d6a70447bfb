/-
# DefaultLimits -- the budgets of a writer and the limits of a reader, both by default

A writer counts the bytes of a block, before and after its codec.  A reader has limits on
these too, and on the channels and samples of an image, on the subblocks and on the ratio
of decompression.  Where a codec does not make a block smaller by more than that ratio,
every block that is written with the budgets of the default can be planned with the limits
of the default, but for one limit: an image is planned exactly when it has at most
536,870,912 samples (`defaultsPlanned`), and the budgets let through images of more
(`manySamples_notPlanned`).
-/
import Mmxisf.DefaultOpening
import Mmxisf.Reader.PlanLimits

namespace Mmxisf

set_option autoImplicit false

open Library (Program Routine slice)
open Library.Routine (Run)
open Writer (WriteCall WriterOptions Codecs Payload ChunksEncoded subblockSizes ImageWriteView
  MetadataWriteEntry PlannedBlock TypedCall CallState UnitSizes CheckedBudgets UnitPlan SettledUnit
  PlainCall layoutUnit plainPlan onePixel)
open Reader (ReaderOptions Impl Environment Passes)

/-! ## Subblocks -/

/-- No output is smaller than its input by more than the ratio that a reader takes. -/
def KeepsRatio (codecs : Codecs) : Prop :=
  ∀ {codec input output}, codecs.outputs codec input output → input.length ≤ output.length * 65536

section

variable {codecs : Codecs} {options : WriterOptions} {payload : Payload} {offset : Nat}
  {chunks : List (Bytes × Nat)}

/-- All chunks but the last are of the size of the limit. -/
theorem chunks_few (limit : 0 < Writer.chunkLimit payload.compression
    options.compressionSubblockBytes) (encoded : ChunksEncoded codecs options payload offset chunks)
    (inside : offset ≤ payload.bytes.length) :
    chunks.length * Writer.chunkLimit payload.compression options.compressionSubblockBytes <
      payload.bytes.length - offset + Writer.chunkLimit payload.compression
        options.compressionSubblockBytes := by
  induction encoded with
  | done all =>
      rw [List.length_nil, Nat.zero_mul]
      omega
  | @chunk offset input output rest more made encoded later ih =>
      obtain ⟨-, within⟩ := chunkSize_pos limit more
      have few := ih within
      have size : payload.chunkSize options offset = min (Writer.chunkLimit payload.compression
          options.compressionSubblockBytes) (payload.bytes.length - offset) := rfl
      rw [size] at few
      rw [List.length_cons, Nat.add_mul, Nat.one_mul]
      by_cases whole : Writer.chunkLimit payload.compression options.compressionSubblockBytes ≤
          payload.bytes.length - offset
      · omega
      · have none : rest.length = 0 := by
          by_contra some
          have one := Nat.le_mul_of_pos_left (Writer.chunkLimit payload.compression
            options.compressionSubblockBytes) (Nat.pos_of_ne_zero some)
          omega
        rw [none, Nat.zero_mul]
        omega

theorem chunks_ratio (ratio : KeepsRatio codecs)
    (limit : 0 < Writer.chunkLimit payload.compression options.compressionSubblockBytes)
    (item : payload.byteShuffle = true → payload.itemSize ≠ 0)
    (encoded : ChunksEncoded codecs options payload offset chunks) :
    ((chunks.map subblockSizes).map Prod.snd).sum ≤
      (chunks.map Prod.fst).flatten.length * 65536 := by
  induction encoded with
  | done all => exact Nat.zero_le _
  | @chunk offset input output rest more made encoded later ih =>
      obtain ⟨-, within⟩ := chunkSize_pos limit more
      have size := (chunk_append item within made).1
      have kept := ratio encoded
      simp only [List.map_cons, List.sum_cons, List.flatten_cons, List.length_append]
      show payload.chunkSize options offset + _ ≤ _
      rw [Nat.add_mul, ← size]
      exact Nat.add_le_add kept ih

end

/-! ## Plans -/

/-- The options have the budgets of the default. -/
def DefaultBudgets (options : WriterOptions) : Prop :=
  options = {
    attachmentAlignment := options.attachmentAlignment
    creationTime := options.creationTime
    creatorApplication := options.creatorApplication }

/-- A block that is planned as it was stored is within the limits of the default. -/
theorem PlannedAs.within {ω : Type} {codecs : Codecs} {options : WriterOptions} {payload : Payload}
    {content : Bytes} {settings : ω → ReaderOptions} {plan : ω → Reader.CompressionPlan}
    {maxSerializedBytes maxDecodedBytes : Nat} (ratio : KeepsRatio codecs)
    (budgets : DefaultBudgets options) (storable : Storable options payload)
    (planned : PlannedAs codecs options payload content settings plan)
    (serialized : content.length ≤ maxSerializedBytes)
    (decoded : payload.bytes.length ≤ maxDecodedBytes)
    (small : maxDecodedBytes ≤ 2 * 1024 * 1024 * 1024) (o : ω) :
    (plan o).Within content.length {} maxSerializedBytes maxDecodedBytes := by
  cases planned with
  | plain none whole =>
      exact ⟨serialized, decoded, fun some => absurd rfl some, Nat.zero_le _⟩
  | @coded chunks some limit encoded whole total =>
      have subblock : options.compressionSubblockBytes = 16 * 1024 * 1024 := by
        rw [budgets]
      have chunkLimit : Writer.chunkLimit payload.compression options.compressionSubblockBytes =
          16 * 1024 * 1024 := by
        rw [subblock]
        cases payload.compression <;> rfl
      refine ⟨serialized, decoded, fun _ => ?_, ?_⟩
      · have kept := chunks_ratio ratio limit (fun shuffled => (storable.item shuffled).1) encoded
        rw [total, ← whole] at kept
        show payload.bytes.length ≤ (checkedMultiply content.length 65536).getD u64Max
        cases product : checkedMultiply content.length 65536 with
        | none => exact storable.room
        | some most =>
            rw [Option.getD_some, (checkedMultiply_eq_some.mp product).1]
            exact kept
      · have few := chunks_few limit encoded (Nat.zero_le _)
        rw [chunkLimit] at few
        show ((chunks.map subblockSizes).map subblockOf).length ≤ 65536
        rw [List.length_map, List.length_map]
        omega

/-- A reader plans each image of a call whose samples are as many as this allows, and no
other, and each block Property. -/
structure PlansUnit (call : WriteCall) (reader : Impl) (allowed : Nat → Prop) : Prop where
  images : ∀ {index image}, call.images[index]? = some image →
    ((∃ plan, Reader.planImageRead reader.document reader.options reader.embeddedBlocks index =
      .ok plan) ↔ allowed (image.width * image.height * image.channels))
  blocks : ∀ {index property}, reader.document.metadata[index]? = some property →
    property.valueForm = .dataBlock →
    ∃ plan, Reader.planPropertyRead reader.document reader.options reader.inlineMetadataBlocks
      index = .ok plan

/-- What passes with room has its value under some limits, and no other under any. -/
theorem passes_agree {α : Type} {x : ReaderOptions → Result α} {value : ReaderOptions → α}
    (passes : Passes (fun options => options) x value) :
    (∃ options, x options = .ok (value options)) ∧
      ∀ {options a}, x options = .ok a → a = value options := by
  obtain ⟨bound, gates⟩ := passes
  constructor
  · refine ⟨.roomy bound, ?_⟩
    rcases gates (.roomy bound) with same | ⟨e, -, cramped⟩
    · exact same
    · exact absurd cramped.2 (Nat.not_lt_of_le (Reader.ReaderOptions.room_roomy bound).ge)
  · intro options a run
    rcases gates options with same | ⟨e, failed, -⟩
    · exact Except.ok.inj (run.symm.trans same)
    · cases run.symm.trans failed

namespace WrittenUnit

variable {unit : WrittenUnit}

/-- A stored block is planned, and its plan is within the limits of the default. -/
theorem attached_planned (ratio : KeepsRatio unit.codecs)
    (budgets : DefaultBudgets unit.call.options) {item : Payload × PlannedBlock}
    (member : item ∈ attached unit.settled.plan) :
    ∃ content, ∃ compression : ReaderOptions → Reader.CompressionPlan, ∃ checksum,
      unit.Holds item.1 item.2 content ∧
      PlansBlock (fun options => options) item.2.prepared content.length item.1 compression ∧
      Reader.parseChecksumPlan item.2.prepared.checksum = .ok checksum ∧
      ∀ {maxSerializedBytes maxDecodedBytes : Nat},
        item.2.prepared.serializedSize ≤ maxSerializedBytes →
        item.1.bytes.length ≤ maxDecodedBytes → maxDecodedBytes ≤ 2 * 1024 * 1024 * 1024 →
        ∀ options, (compression options).Within item.2.location.size {} maxSerializedBytes
          maxDecodedBytes := by
  obtain ⟨content, holds⟩ := holds_attached member
  have storable := storable_attached member
  have inside := holds.inside
  have small := @fileSize_small unit
  have room : content.length ≤ u64Max := by
    rw [← holds.size]
    omega
  obtain ⟨compression, planned, plans⟩ := storedBlock_plans storable holds.stored room
    fun options : ReaderOptions => options
  obtain ⟨checksum, isChecksum, -⟩ := storedBlock_verified unit.laws holds.stored
  refine ⟨content, compression, checksum, holds, plans, isChecksum, ?_⟩
  intro maxSerializedBytes maxDecodedBytes serialized decoded most options
  rw [holds.size]
  exact planned.within ratio budgets storable (holds.stored.size ▸ serialized) decoded most options

variable (ratio : KeepsRatio unit.codecs) (budgets : DefaultBudgets unit.call.options)
  (checked : CheckedBudgets unit.call unit.settled.sizes)

include ratio budgets checked

omit checked in
/-- What is planned has few samples. -/
theorem image_samples {index : Nat} {item : ImageWriteView × PlannedBlock}
    (there : unit.settled.plan.images[index]? = some item) {options : ReaderOptions}
    {plan : Reader.ImageReadPlan} (planned : Reader.planImageRead unit.listed.document options
      unit.listed.embeddedBlocks index = .ok plan) :
    item.1.width * item.1.height * item.1.channels ≤ options.maxSamplesPerImage := by
  obtain ⟨content, compression, checksum, holds, plans, isChecksum, -⟩ :=
    attached_planned ratio budgets (image_attached there)
  have samples := Reader.planImageRead_samples planned
  rwa [(passes_agree (planImageRead_passes there holds plans isChecksum)).2 planned] at samples

theorem image_planned {index : Nat} {item : ImageWriteView × PlannedBlock}
    (there : unit.settled.plan.images[index]? = some item) :
    (∃ plan, Reader.planImageRead unit.listed.document {} unit.listed.embeddedBlocks index =
      .ok plan) ↔ item.1.width * item.1.height * item.1.channels ≤ 536870912 := by
  have member := List.mem_of_getElem? there
  obtain ⟨content, compression, checksum, holds, plans, isChecksum, within⟩ :=
    attached_planned ratio budgets (image_attached there)
  obtain ⟨⟨options, planned⟩, -⟩ :=
    passes_agree (planImageRead_passes there holds plans isChecksum)
  refine ⟨fun ⟨_, planned⟩ => image_samples ratio budgets there planned, fun samples => ?_⟩
  have given : item.1 ∈ unit.call.images := by
    rw [← unit.isUnit.images]
    exact List.mem_map_of_mem member
  have serialized := checked.serializedImages _ (List.mem_map_of_mem member)
  have decoded := checked.decoded.imageBytes item.1 given
  have few : item.1.channels ≤ 16 := by
    rw [(unitReady.images item member).accepted.channels]
    split <;> decide
  rw [budgets] at serialized decoded
  exact Reader.planImageRead_within planned
    ⟨few, samples, decoded, within serialized decoded le_rfl options⟩

theorem block_planned {index : Nat} {item : MetadataWriteEntry × PlannedBlock}
    (there : (unitItems unit.call.options unit.settled.plan)[index]? = some item)
    (form : item.1.valueForm = .dataBlock) :
    ∃ plan, Reader.planPropertyRead unit.listed.document {} unit.listed.inlineMetadataBlocks
      index = .ok plan := by
  have member := mem_metadata there form
  obtain ⟨layout, count, known⟩ := (unitReady.entries item member).accepted.block form
  by_cases hasBlock : Writer.hasBlock item.1 = true
  · obtain ⟨content, compression, checksum, holds, plans, isChecksum, within⟩ :=
      attached_planned ratio budgets (entry_attached member hasBlock)
    obtain ⟨⟨options, planned⟩, -⟩ := passes_agree
      (planPropertyRead_passes there form hasBlock known.known holds plans isChecksum)
    have given : item.1 ∈ unit.call.metadata := by
      rw [← unit.isUnit.metadata]
      exact List.mem_map_of_mem member
    have serialized := checked.serializedProperties _
      (List.mem_map_of_mem (List.mem_filter.mpr ⟨member, hasBlock⟩))
    have decoded := checked.decoded.propertyBytes item.1 given (decide_eq_true form)
    rw [budgets] at serialized decoded
    exact Reader.planPropertyRead_within planned
      (within serialized decoded (show 256 * 1024 * 1024 ≤ _ by decide) options)
  · obtain ⟨-, -, passes⟩ := @planEmpty_passes unit _ (fun options : ReaderOptions => options) index
      item layout there form hasBlock known.known
    obtain ⟨⟨options, planned⟩, -⟩ := passes_agree passes
    exact Reader.planPropertyRead_within planned
      ⟨Nat.zero_le _, Nat.zero_le _, fun some => absurd rfl some, Nat.zero_le _⟩

theorem plansUnit {reader : Impl} (opened : unit.OpenedBy {} reader) :
    PlansUnit unit.call reader (· ≤ 536870912) := by
  constructor
  · intro index image given
    rw [← unit.isUnit.images, List.getElem?_map, Option.map_eq_some_iff] at given
    obtain ⟨item, there, rfl⟩ := given
    rw [opened.document, opened.options, opened.embeddedBlocks]
    exact image_planned ratio budgets checked there
  · intro index property listed form
    rw [opened.document] at listed
    have metadata : unit.listed.document.metadata =
        (unitItems unit.call.options unit.settled.plan).map listedEntry := rfl
    rw [metadata, List.getElem?_map, Option.map_eq_some_iff] at listed
    obtain ⟨item, there, rfl⟩ := listed
    have isBlock : item.1.valueForm = .dataBlock := by
      have form : listedForm item.1 = .dataBlock := form
      unfold listedForm at form
      split at form
      · assumption
      · split at form <;> cases form
    rw [opened.document, opened.options, opened.inlineMetadataBlocks]
    exact block_planned ratio budgets checked there isBlock

end WrittenUnit

/-! ## Calls -/

/-- A reader with the limits of the default has opened these bytes, in some run. -/
def OpensByDefault (platform : Platform) (file : Bytes) (reader : Impl) : Prop :=
  ∃ s m t, Run ((Environment.stable file).world platform)
    (Reader.openSource (L := Unit) platform {}) () s (.ok reader) m t

/-- What a successful call has put out, a reader plans that opens it. -/
def DefaultsPlanned (platform : Platform) (codecs : Codecs) (call : WriteCall)
    (allowed : Nat → Prop) : Prop :=
  Program.wp (Writer.ofCall codecs Writer.Ordinary (call.goal platform codecs))
    (Writer.write platform call) (fun result s => result.isOk = true → ∀ bytes,
      PutOut call s bytes → ∀ reader, OpensByDefault platform bytes reader →
      PlansUnit call reader allowed) {}

/-- In every run, what is put out with the budgets of the default is planned with the limits
of the default, but for images of too many samples. -/
theorem defaultsPlanned (platform : Platform) (codecs : Codecs) (call : TypedCall)
    (lawful : LawfulLibraries platform codecs fun _ : Unit => call.call)
    (ratio : KeepsRatio codecs) (budgets : DefaultBudgets call.call.options)
    (extents : ∀ entry ∈ call.call.metadata, ExtentsFit entry) :
    DefaultsPlanned platform codecs call.call (· ≤ 536870912) := by
  refine Program.wp_mono ?_ (putOut_unit platform codecs call lawful extents)
  rintro result s units succeeded bytes put reader ⟨_, _, _, run⟩
  cases result with
  | error e => cases succeeded
  | ok summary =>
      obtain ⟨unit, rfl, rfl, isCall, rfl, -, checked⟩ := units summary rfl bytes put
      obtain ⟨_, opens⟩ := @WrittenUnit.openSource_ends unit Unit Unit fun _ => {}
      rcases Library.Routine.run_of_wp (opens () () _) run with ⟨_, same, opened⟩ | ⟨_, failed, -⟩
      · cases same
        exact isCall ▸ WrittenUnit.plansUnit ratio (isCall ▸ budgets) checked opened
      · cases failed

theorem storing_keepsRatio : KeepsRatio storingCodecs := by
  rintro codec input output ⟨rfl, -⟩
  omega

theorem onePixel_planned : DefaultsPlanned referencePlatform storingCodecs onePixel.call
    (· ≤ 536870912) :=
  defaultsPlanned referencePlatform storingCodecs onePixel (referenceLibraries _)
    storing_keepsRatio rfl (List.forall_mem_nil _)

/-! ## Too many samples -/

/-- What has few zeros, a reader opens. -/
theorem WrittenUnit.opensByDefault {unit : WrittenUnit} (budgets : KeepsBudgets unit.call.options)
    (checked : CheckedBudgets unit.call unit.settled.sizes)
    (room : unusedBytes unit.settled.plan.fileSize (16 + unit.settled.header.length)
      (fileRanges unit.settled.plan) ≤ 64 * 1024 * 1024) :
    ∃ reader, OpensByDefault unit.platform unit.bytes reader ∧ unit.OpenedBy {} reader := by
  have opens := (@openFile_suffices unit Unit {} (fun _ => {})
    (fits_default budgets checked room)).ok (o := ()) (tighter_refl _)
  have ends := @openSource_opens unit {} Unit (fun _ => False) (.inl opens) () []
  obtain ⟨⟨result, m⟩, t, run⟩ := Program.exists_run
    (@Environment.stable_live unit.platform unit.bytes small_bytes)
    (Reader.openSource (L := Unit) unit.platform {} ()) []
  rcases Library.Routine.run_of_wp ends run with ⟨reader, rfl, opened⟩ | ⟨_, -, impossible⟩
  · exact ⟨reader, ⟨_, _, _, run⟩, opened⟩
  · exact impossible.elim

/-- The bytes of an image that is not looked into. -/
@[irreducible] def manyZeros : Bytes := List.replicate 536870913 0

theorem length_manyZeros : manyZeros.length = 536870913 := by
  unfold manyZeros
  exact List.length_replicate

/-- One row of samples, one more than a reader takes by default. -/
def manySamples : ImageWriteView where
  width := 536870913
  height := 1
  channels := 1
  sampleFormat := .uint8
  colorSpace := lit "Gray"
  pixels := manyZeros

def manySamplesTo : TypedCall where
  call := { onePixel.call with
            destinationOrScratch := []
            writesFile := false
            images := [manySamples] }
  typed := onePixel.typed

/-- Its block as it is prepared. -/
def manySamplesPlan : UnitPlan where
  images := [(manySamples, { prepared := { serializedSize := 536870913 } })]
  metadata := []

theorem plainPlan_manySamples : plainPlan manySamplesTo.call = manySamplesPlan := by
  have own : plainPlan manySamplesTo.call = {
      images := [(manySamples, { prepared := { serializedSize := manyZeros.length } })]
      metadata := [] } := rfl
  rw [own, length_manyZeros]
  rfl

theorem manySamples_gaps : ((layoutUnit referencePlatform onePixel.call.options
    manySamplesPlan).map fun settled =>
      decide (zeroGaps (Writer.summarize settled) ≤ 64 * 1024 * 1024)).toOption = some true := by
  decide +kernel

theorem manySamples_checked :
    Writer.checkImage onePixel.call.options 0 manySamples = .ok 536870913 := by
  have bytes : Writer.pixelBytes manySamples = some 536870913 := by decide +kernel
  simp only [Writer.checkImage, bind_eq_ok, reject_eq_ok, orFail_eq_ok]
  refine ⟨(), by decide +kernel, (), by decide +kernel, (), by decide +kernel, (),
    by decide +kernel, (), by decide +kernel, (), by decide +kernel, 536870913, bytes, (),
    by decide +kernel, 536870913, by decide +kernel, (), ?_, rfl⟩
  exact fun other => other length_manyZeros.symm

theorem manySamples_plain : PlainCall manySamplesTo.call where
  external := by decide
  checked := by
    have last : [manySamples].foldlM (Writer.checkImage onePixel.call.options) 0 =
        .ok 536870913 := by
      rw [List.foldlM_cons, manySamples_checked]
      rfl
    refine ⟨536870913, ?_⟩
    show Writer.checkUnit onePixel.call.options [manySamples] [] = _
    simp only [Writer.checkUnit, bind_eq_ok, reject_eq_ok]
    exact ⟨(), List.cons_ne_nil _ _, (), by decide +kernel, (), by decide +kernel, (),
      by decide +kernel, (), by decide +kernel, (), by decide +kernel, (), by decide +kernel, (),
      by decide +kernel, (), by decide +kernel, (), rfl, _, rfl, last⟩
  images := by
    intro image member
    rw [List.mem_singleton.mp member]
    exact ⟨rfl, rfl, length_manyZeros.trans_le (by decide +kernel)⟩
  entries := List.forall_mem_nil _
  imageTotal := by
    have images : manySamplesTo.call.images = [manySamples] := rfl
    rw [images, List.map_singleton, List.sum_singleton]
    exact length_manyZeros.trans_le (by decide +kernel)
  entryTotal := by decide

/-- The samples of one image are more than a reader takes by default. -/
theorem manySamples_notPlanned : ¬ ∀ (platform : Platform) (codecs : Codecs) (call : TypedCall),
    LawfulLibraries platform codecs (fun _ : Unit => call.call) → KeepsRatio codecs →
    DefaultBudgets call.call.options → (∀ entry ∈ call.call.metadata, ExtentsFit entry) →
    DefaultsPlanned platform codecs call.call fun _ => True := by
  intro always
  have planned := always referencePlatform storingCodecs manySamplesTo (referenceLibraries _)
    storing_keepsRatio rfl (List.forall_mem_nil _)
  have small := manySamples_gaps
  cases laidOut : layoutUnit referencePlatform onePixel.call.options manySamplesPlan with
  | error e =>
      rw [laidOut] at small
      cases small
  | ok settled =>
      rw [laidOut] at small
      have small : zeroGaps (Writer.summarize settled) ≤ 64 * 1024 * 1024 :=
        of_decide_eq_true (Option.some.inj small)
      rw [← plainPlan_manySamples] at laidOut
      obtain ⟨result, s, run, isSummary, contents, -, accepted⟩ := Program.may_iff_run.mp
        (@Writer.plain_delivered storingCodecs _ _ settled _ Writer.careful_ordinary
          manySamplesTo.typed manySamples_plain laidOut)
      have put : PutOut manySamplesTo.call s
        (Writer.unitBytes manySamplesTo.call.options settled contents) := accepted
      obtain ⟨unit, isPlatform, isCodecs, isCall, isBytes, same, checked⟩ := Program.run_of_wp
        (putOut_unit referencePlatform storingCodecs manySamplesTo (referenceLibraries _)
          (List.forall_mem_nil _)) run _ isSummary _ put
      rw [same, zeroGaps_summarize (Nat.lt_succ_of_le unit.isUnit.header)] at small
      obtain ⟨reader, opened, keeps⟩ := WrittenUnit.opensByDefault (isCall ▸ rfl) checked small
      rw [isPlatform, isBytes] at opened
      have succeeded : result.isOk = true := by
        rw [isSummary]
        rfl
      have plans := Program.run_of_wp planned run succeeded _ put reader opened
      obtain ⟨plan, found⟩ := (@PlansUnit.images _ _ _ plans 0 manySamples rfl).mpr trivial
      rw [keeps.document, keeps.options, keeps.embeddedBlocks] at found
      have images := unit.isUnit.images
      rw [isCall] at images
      obtain ⟨item, there, own⟩ : ∃ item, unit.settled.plan.images[0]? = some item ∧
          item.1 = manySamples := by
        rw [← Option.map_eq_some_iff, ← List.getElem?_map, images]
        rfl
      have few := WrittenUnit.image_samples (isCodecs ▸ storing_keepsRatio) (isCall ▸ rfl) there
        found
      rw [own] at few
      exact absurd few (by decide)

end Mmxisf
