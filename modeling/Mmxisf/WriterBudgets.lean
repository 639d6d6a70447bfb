/-
# WriterBudgets -- what a writer admits is within its limits, or nothing is output

A writer counts in 64 bits, subtracts what was used from what is left, and hands a
codec the difference.  For every call and all replies the sums are those of the
numbers (`CheckedBudgets`): the decoded bytes, the outputs of the codecs chunk by
chunk, the header.  Before all of them are known to be within their limits there is
no output: neither the sink gets a byte nor is the temporary file created.  One text is
never compared with the limit of the metadata texts, the creation time, so everything is
within its limit (`WithinBudgets`) where that limit has room for its 20 characters, and
nowhere else (`budgetsRespected`, `creationTime_unbounded`).
-/
import Mmxisf.Writer.Layouts

namespace Mmxisf.Writer

set_option autoImplicit false

open Library (Program Routine Accounts)

/-! ## The limits -/

/-- A call with limits of the source's types. -/
structure TypedCall where
  call : WriteCall
  typed : call.options.Typed

/-- An entry whose value is a block, even an empty one. -/
def isBlockProperty (entry : MetadataWriteEntry) : Bool := entry.valueForm = .dataBlock

/-- The sizes that are known when the output starts. -/
structure UnitSizes where
  images : List Nat
  properties : List Nat
  header : Nat
  deriving DecidableEq, Repr

def SettledUnit.sizes (settled : SettledUnit) : UnitSizes where
  images := settled.plan.images.map blockSize
  properties := (settled.plan.metadata.filter fun entry => hasBlock entry.1).map blockSize
  header := settled.header.length

/-- The blocks of a call, images first. -/
def WriteCall.sources (call : WriteCall) : List BlockSource :=
  call.images.map imageSource ++ (call.metadata.filter hasBlock).map propertySource

/-- The counts, texts and decoded bytes of a call that are checked are within its limits;
of the creation time only the form is checked. -/
structure CheckedDecoded (options : WriterOptions) (images : List ImageWriteView)
    (metadata : List MetadataWriteEntry) : Prop where
  imageCount : images.length ≤ options.maxImages
  metadataCount : metadata.length + 2 ≤ options.maxMetadataEntries
  creationTime : options.creationTime.length = 20
  creator : options.creatorApplication.length ≤ options.maxMetadataValueBytes
  texts : ∀ entry ∈ metadata, entry.value.length ≤ options.maxMetadataValueBytes ∧
    entry.comment.length ≤ options.maxMetadataValueBytes ∧
    entry.format.length ≤ options.maxMetadataValueBytes
  imageBytes : ∀ image ∈ images, image.pixels.length ≤ options.maxImageBytes
  cumulativeImageBytes :
    (images.map fun image => image.pixels.length).sum ≤ options.maxCumulativeImageBytes
  propertyBytes : ∀ entry ∈ metadata, isBlockProperty entry = true →
    entry.blockBytes.length ≤ options.maxPropertyBytes
  cumulativePropertyBytes :
    ((metadata.filter isBlockProperty).map fun entry => entry.blockBytes.length).sum ≤
      options.maxCumulativePropertyBytes

/-- A call whose blocks and header have these sizes is within the limits that are
checked. -/
structure CheckedBudgets (call : WriteCall) (sizes : UnitSizes) : Prop where
  decoded : CheckedDecoded call.options call.images call.metadata
  subblocks : ∀ source ∈ call.sources,
    source.outputs call.options ≤ call.options.maxCompressionSubblocks
  serializedImages : ∀ size ∈ sizes.images, size ≤ call.options.maxSerializedImageBytes
  cumulativeSerializedImages : sizes.images.sum ≤ call.options.maxCumulativeSerializedBytes
  serializedProperties : ∀ size ∈ sizes.properties, size ≤ call.options.maxSerializedPropertyBytes
  cumulativeSerializedProperties :
    sizes.properties.sum ≤ call.options.maxCumulativeSerializedPropertyBytes
  header : sizes.header ≤ call.options.maxHeaderBytes ∧ sizes.header < 2 ^ 32

/-- And within all of them: the creation time is a metadata text too. -/
structure WithinBudgets (call : WriteCall) (sizes : UnitSizes) : Prop
    extends CheckedBudgets call sizes where
  creationTime : call.options.creationTime.length ≤ call.options.maxMetadataValueBytes

/-- The creation time fits where the limit of the texts has room for it. -/
theorem CheckedBudgets.within_iff {call : WriteCall} {sizes : UnitSizes}
    (checked : CheckedBudgets call sizes) :
    WithinBudgets call sizes ↔ 20 ≤ call.options.maxMetadataValueBytes := by
  rw [← checked.decoded.creationTime]
  exact ⟨fun within => within.creationTime, fun fits => ⟨checked, fits⟩⟩

/-- The sizes are those of the codecs' outputs in these events, chunk by chunk. -/
def MeasuredBy (call : WriteCall) (sizes : UnitSizes) (events : List WriteEvent) : Prop :=
  sizes.images ++ sizes.properties =
    serializedSizes call.options call.sources (events.flatMap codecOutput)

/-- A summary reports these sizes. -/
structure WriteSummary.Reports (summary : WriteSummary) (sizes : UnitSizes) : Prop where
  images : summary.imageBlocks.map BlockLocation.size = sizes.images
  properties : summary.propertyBlocks.map BlockLocation.size = sizes.properties
  header : summary.headerLength = sizes.header

/-- A call fails, and no event is an output of its. -/
inductive FailsSilently (call : WriteCall) : Result WriteSummary → List WriteEvent → Prop
  | failed {e : Error} {events : List WriteEvent}
      (silent : ∀ event ∈ events, ¬ call.IsOutput event) : FailsSilently call (.error e) events

/-- A call fails without output, or the sizes are within these limits before there is
any. -/
inductive BudgetsRespected (call : WriteCall) (limits : UnitSizes → Prop)
    (result : Result WriteSummary) : List WriteEvent → Prop
  | failed {events : List WriteEvent} (fails : FailsSilently call result events) :
      BudgetsRespected call limits result events
  | planned {before after : List WriteEvent} {sizes : UnitSizes}
      (silent : ∀ event ∈ before, ¬ call.IsOutput event) (measured : MeasuredBy call sizes before)
      (within : limits sizes) (reported : ∀ summary, result = .ok summary → summary.Reports sizes) :
      BudgetsRespected call limits result (before ++ after)

/-- A call keeps to the limits that are checked, and to all of them when the creation time
has room or nothing was put out. -/
structure BudgetsKept (call : WriteCall) (result : Result WriteSummary)
    (events : List WriteEvent) : Prop where
  checked : BudgetsRespected call (CheckedBudgets call) result events
  within : BudgetsRespected call (WithinBudgets call) result events ↔
    20 ≤ call.options.maxMetadataValueBytes ∨ FailsSilently call result events

theorem BudgetsKept.of_checked {call : WriteCall} {result : Result WriteSummary}
    {events : List WriteEvent} (checked : BudgetsRespected call (CheckedBudgets call)
      result events) :
    BudgetsKept call result events := by
  refine ⟨checked, fun respected => ?_, fun fits => ?_⟩
  · cases respected with
    | failed fails => exact .inr fails
    | planned _ _ within _ => exact .inl (within.toCheckedBudgets.within_iff.mp within)
  · rcases fits with fits | fails
    · cases checked with
      | failed fails => exact .failed fails
      | planned silent measured within reported =>
          exact .planned silent measured (within.within_iff.mpr fits) reported
    · exact .failed fails

/-! ## The decoded bytes -/

section

variable {options : WriterOptions} {imageCount : Nat}

theorem checkBlockProperty_budget {cumulative next : Nat} {entry : MetadataWriteEntry}
    (small : cumulative ≤ u64Max)
    (run : checkBlockProperty options cumulative entry = .ok next) :
    entry.blockBytes.length ≤ options.maxPropertyBytes ∧
      next = cumulative + entry.blockBytes.length ∧ next ≤ options.maxCumulativePropertyBytes := by
  simp only [checkBlockProperty, bind_eq_ok, orFail_eq_ok, reject_eq_ok, Option.filter_eq_some_iff,
    decide_eq_true_eq, not_not, Nat.not_lt] at run
  obtain ⟨_, -, layout, -, count, -, expected, -, _, same, _, budget, sum,
    ⟨added, within⟩, _, -, _, -,
    _, -, run⟩ := run
  cases run
  obtain ⟨rfl, -⟩ := (checkedAdd_eq_some small).mp added
  subst same
  exact ⟨budget, rfl, within⟩

/-- One entry of the metadata loop. -/
theorem checkMetadataEntry_budget {check next : MetadataCheck} {entry : MetadataWriteEntry}
    (small : check.cumulativePropertyBytes ≤ u64Max)
    (run : checkMetadataEntry options imageCount check entry = .ok next) :
    (entry.value.length ≤ options.maxMetadataValueBytes ∧
      entry.comment.length ≤ options.maxMetadataValueBytes ∧
      entry.format.length ≤ options.maxMetadataValueBytes) ∧
    (isBlockProperty entry = true → entry.blockBytes.length ≤ options.maxPropertyBytes ∧
      next.cumulativePropertyBytes = check.cumulativePropertyBytes + entry.blockBytes.length ∧
      next.cumulativePropertyBytes ≤ options.maxCumulativePropertyBytes) ∧
    (isBlockProperty entry = false →
      next.cumulativePropertyBytes = check.cumulativePropertyBytes) := by
  simp only [checkMetadataEntry, bind_eq_ok, reject_eq_ok, not_or, Nat.not_lt] at run
  obtain ⟨_, -, _, texts, checked, form, run⟩ := run
  have same : checked = next := by
    obtain ⟨-, run⟩ | ⟨-, run⟩ := ite_eq_ok run
    · simp only [bind_eq_ok] at run
      obtain ⟨-, -, same⟩ := run
      cases same
      rfl
    · cases run
      rfl
  subst same
  refine ⟨texts, ?_⟩
  unfold isBlockProperty
  cases kind : entry.kind with
  | fitsKeyword =>
      simp only [kind, bind_eq_ok, checkFitsKeyword, reject_eq_ok, not_or, not_not] at form
      obtain ⟨_, ⟨_, ⟨direct, -⟩, -⟩, same⟩ := form
      cases same
      rw [direct]
      exact ⟨fun impossible => (by cases impossible), fun _ => rfl⟩
  | property =>
      simp only [kind, checkProperty, bind_eq_ok] at form
      obtain ⟨_, -, _, -, cumulative, checked', _, -, _, -, same⟩ := form
      cases same
      cases form : entry.valueForm with
      | direct =>
          simp only [form, bind_eq_ok] at checked'
          obtain ⟨-, -, same⟩ := checked'
          cases same
          exact ⟨fun impossible => (by cases impossible), fun _ => rfl⟩
      | dataBlock =>
          simp only [form] at checked'
          exact ⟨fun _ => checkBlockProperty_budget small checked',
            fun impossible => (by cases impossible)⟩

/-- The metadata loop adds up the bytes of the blocks. -/
theorem checkMetadata_budget (typed : options.maxCumulativePropertyBytes ≤ u64Max) :
    ∀ {metadata : List MetadataWriteEntry} {check final : MetadataCheck},
      check.cumulativePropertyBytes ≤ options.maxCumulativePropertyBytes →
      metadata.foldlM (checkMetadataEntry options imageCount) check = .ok final →
      (∀ entry ∈ metadata, entry.value.length ≤ options.maxMetadataValueBytes ∧
        entry.comment.length ≤ options.maxMetadataValueBytes ∧
        entry.format.length ≤ options.maxMetadataValueBytes) ∧
      (∀ entry ∈ metadata, isBlockProperty entry = true →
        entry.blockBytes.length ≤ options.maxPropertyBytes) ∧
      check.cumulativePropertyBytes +
        ((metadata.filter isBlockProperty).map fun entry => entry.blockBytes.length).sum ≤
          options.maxCumulativePropertyBytes
  | [], check, final, within, _ => ⟨List.forall_mem_nil _, List.forall_mem_nil _, within⟩
  | entry :: rest, check, final, within, run => by
      rw [List.foldlM_cons, bind_eq_ok] at run
      obtain ⟨next, one, later⟩ := run
      obtain ⟨texts, block, other⟩ := checkMetadataEntry_budget (Nat.le_trans within typed) one
      cases isBlock : isBlockProperty entry with
      | true =>
          obtain ⟨bytes, sum, nextWithin⟩ := block isBlock
          obtain ⟨restTexts, restBytes, total⟩ := checkMetadata_budget typed nextWithin later
          refine ⟨List.forall_mem_cons.mpr ⟨texts, restTexts⟩,
            List.forall_mem_cons.mpr ⟨fun _ => bytes, restBytes⟩, ?_⟩
          rw [List.filter_cons_of_pos isBlock, List.map_cons, List.sum_cons, ← Nat.add_assoc, ← sum]
          exact total
      | false =>
          have sum := other isBlock
          obtain ⟨restTexts, restBytes, total⟩ := checkMetadata_budget typed (sum ▸ within) later
          refine ⟨List.forall_mem_cons.mpr ⟨texts, restTexts⟩,
            List.forall_mem_cons.mpr ⟨fun block =>
              absurd block (by rw [isBlock]; decide), restBytes⟩, ?_⟩
          rw [List.filter_cons_of_neg (by rw [isBlock]; decide), ← sum]
          exact total

/-- The image loop adds up their bytes. -/
theorem checkImages_budget (typed : options.maxCumulativeImageBytes ≤ u64Max) :
    ∀ {images : List ImageWriteView} {cumulative final : Nat},
      cumulative ≤ options.maxCumulativeImageBytes →
      images.foldlM (checkImage options) cumulative = .ok final →
      (∀ image ∈ images, image.pixels.length ≤ options.maxImageBytes) ∧
      cumulative + (images.map fun image => image.pixels.length).sum ≤
        options.maxCumulativeImageBytes
  | [], _, _, within, _ => ⟨List.forall_mem_nil _, within⟩
  | image :: rest, cumulative, final, within, run => by
      rw [List.foldlM_cons, bind_eq_ok] at run
      obtain ⟨next, one, later⟩ := run
      simp only [checkImage, bind_eq_ok, orFail_eq_ok, reject_eq_ok, Option.filter_eq_some_iff,
        decide_eq_true_eq, not_not, Nat.not_lt] at one
      obtain ⟨_, -, _, -, _, -, _, -, _, -, _, -, bytes, -, _, budget, sum, ⟨added, nextWithin⟩, _,
        same, one⟩ := one
      cases one
      obtain ⟨rfl, -⟩ := (checkedAdd_eq_some (Nat.le_trans within typed)).mp added
      obtain ⟨restBytes, total⟩ := checkImages_budget typed nextWithin later
      refine ⟨List.forall_mem_cons.mpr ⟨same ▸ budget, restBytes⟩, ?_⟩
      rw [List.map_cons, List.sum_cons, ← Nat.add_assoc, ← same]
      exact total

theorem canonical_length {text : Text} (canonical : isCanonicalUtcTime text = true) :
    text.length = 20 := by
  unfold isCanonicalUtcTime at canonical
  split at canonical
  · cases canonical
  · rename_i form
    simp only [Bool.or_eq_true, decide_eq_true_eq, not_or, not_not, ne_eq] at form
    exact form.1.1.1.1.1.1

/-- What was checked before anything was touched. -/
theorem checkUnit_within {images : List ImageWriteView} {metadata : List MetadataWriteEntry}
    {total : Nat} (typed : options.Typed) (run : checkUnit options images metadata = .ok total) :
    CheckedDecoded options images metadata ∧ images ≠ [] ∧
      isPowerOfTwo options.attachmentAlignment = true := by
  simp only [checkUnit, bind_eq_ok, reject_eq_ok, not_or, Nat.not_lt, Bool.not_eq_false] at run
  obtain ⟨_, some, _, count, _, ⟨two, entries⟩, _, ⟨power, -, -⟩, _, -, _, -, _, canonical, _, -, _,
    creator, _, -, check, metadataRun, imagesRun⟩ := run
  obtain ⟨texts, properties, propertyTotal⟩ :=
    checkMetadata_budget typed.maxCumulativePropertyBytes (Nat.zero_le _) metadataRun
  obtain ⟨imageBytes, imageTotal⟩ :=
    checkImages_budget typed.maxCumulativeImageBytes (Nat.zero_le _) imagesRun
  have start : (MetadataCheck.start images.length).cumulativePropertyBytes = 0 := rfl
  rw [start, Nat.zero_add] at propertyTotal
  rw [Nat.zero_add] at imageTotal
  exact ⟨⟨count, by omega, canonical_length canonical, creator, texts, imageBytes, imageTotal,
    properties, propertyTotal⟩, some, power⟩

end

/-! ## Before the output -/

section

variable {platform : Platform} {call : WriteCall}

/-- What is known when everything before the output has succeeded. -/
structure Planned (platform : Platform) (call : WriteCall) (settled : SettledUnit)
    (outputs : List Nat) : Prop where
  images : settled.plan.images.map Prod.fst = call.images
  metadata : settled.plan.metadata.map Prod.fst = call.metadata
  agrees : settled.Agrees platform call.options
  measured : settled.sizes.images ++ settled.sizes.properties =
    serializedSizes call.options call.sources outputs
  within : CheckedBudgets call settled.sizes

theorem prepareUnit_accounts (typed : call.options.Typed) :
    Prepares call (Planned platform call) (prepareUnit platform call) := by
  apply Silent.bind checkStop_silent
  intro _ _
  apply Silent.bind (refuse_silent _ _ _)
  intro _ _
  apply Silent.bind (allocate_silent _)
  intro _ _
  apply Silent.bind Silent.result
  intro total checked
  obtain ⟨decoded, some, power⟩ := checkUnit_within typed checked
  have imageSmall : ∀ image ∈ call.images, image.pixels.length ≤ u64Max :=
    fun image member => Nat.le_trans (decoded.imageBytes image member) typed.maxImageBytes
  have propertySmall : ∀ entry ∈ call.metadata, hasBlock entry = true →
      entry.blockBytes.length ≤ u64Max := by
    intro entry member block
    simp only [hasBlock, Bool.and_eq_true] at block
    exact Nat.le_trans (decoded.propertyBytes entry member block.1) typed.maxPropertyBytes
  have destination : Silent call (fun _ => True) (if call.writesFile = true then do
        let available : Bool ← Routine.request (WriteOp.isAvailable call.destinationOrScratch)
        refuse (available = false) .ioError
          "Writer destination already exists or cannot be checked"
        allocate .work
      else pure ()) := by
    apply Accounts.ite
    · intro _
      apply Silent.bind (Silent.request (.isAvailable _) (fun _ => id) fun _ => rfl)
      intro (available : Bool) _
      apply Silent.bind (refuse_silent _ _ _)
      intro _ _
      exact allocate_silent _
    · intro _
      exact Silent.ok trivial
  apply Silent.bind destination
  intro _ _
  apply Accounts.bind (prepareImages_accounts typed call.images 0 0 imageSmall) fun _ _ => trivial
  rintro images imageOutputs ⟨imageItems, imageSizes⟩
  apply Accounts.bind (prepareMetadata_accounts typed call.metadata 0 0 propertySmall)
    fun _ _ => trivial
  rintro metadata metadataOutputs ⟨metadataItems, metadataSizes⟩
  apply Accounts.bind (allocate_silent _) fun _ _ => trivial
  rintro _ _ ⟨rfl, -⟩
  apply Silent.result.mono _ fun _ _ => trivial
  rintro settled _ ⟨rfl, laidOut⟩
  rw [List.append_nil, List.append_nil]
  have nonempty : images ≠ [] := by
    rintro rfl
    exact some imageItems.symm
  obtain ⟨same, agrees, budget, length⟩ :=
    layoutUnit_agrees power typed.attachmentAlignment nonempty laidOut
  have sizesOfImages := same.imageSizes
  have sizesOfMetadata := same.metadataSizes
  refine ⟨same.imageItems.trans imageItems, same.metadataItems.trans metadataItems, agrees, ?_, ?_⟩
  · show settled.plan.images.map blockSize ++
      (settled.plan.metadata.filter fun entry => hasBlock entry.1).map blockSize = _
    rw [sizesOfImages, sizesOfMetadata, WriteCall.sources, serializedSizes_append imageSizes.count,
      ← imageSizes.serialized, ← metadataSizes.serialized]
  · constructor
    · exact decoded
    · intro source member
      rcases List.mem_append.mp member with image | property
      · exact imageSizes.few source image
      · exact metadataSizes.few source property
    · show ∀ size ∈ settled.plan.images.map blockSize, _
      rw [sizesOfImages]
      exact imageSizes.each
    · show (settled.plan.images.map blockSize).sum ≤ _
      have total := imageSizes.total (Nat.zero_le _)
      rwa [sizesOfImages, ← Nat.zero_add (List.sum _)]
    · show ∀ size ∈ (settled.plan.metadata.filter fun entry => hasBlock entry.1).map blockSize, _
      rw [sizesOfMetadata]
      exact metadataSizes.each
    · show ((settled.plan.metadata.filter fun entry => hasBlock entry.1).map blockSize).sum ≤ _
      have total := metadataSizes.total (Nat.zero_le _)
      rwa [sizesOfMetadata, ← Nat.zero_add (List.sum _)]
    · exact ⟨budget, Nat.lt_succ_of_le length⟩

/-! ## The whole call -/

theorem removeAll_quiet : ∀ (paths : List Path) (s : List WriteEvent),
    Program.wp outside (removeAll paths)
      (fun _ t => ∃ events, t = s ++ events ∧ ∀ event ∈ events, ¬ call.IsOutput event) s
  | [], s => ⟨[], (List.append_nil s).symm, List.forall_mem_nil _⟩
  | path :: rest, s => by
      refine ⟨trivial, ?_⟩
      rintro reply _ ⟨rfl, -⟩
      apply Program.wp_mono _ (removeAll_quiet rest _)
      rintro _ t ⟨events, rfl, all⟩
      refine ⟨_ :: events, List.append_assoc _ _ _, ?_⟩
      intro event member
      rcases List.mem_cons.mp member with rfl | late
      · exact id
      · exact all event late

/-- The destructors close and remove. -/
theorem destructors_quiet {post : List WriteEvent → Prop} {m : OwnedFiles} {s : List WriteEvent}
    (holds : ∀ events, (∀ event ∈ events, ¬ call.IsOutput event) → post (s ++ events)) :
    Program.wp outside (destroySinks m)
      (fun n t => Program.wp outside (destroyCleanup n) (fun _ u => post u) t) s := by
  unfold destroySinks
  rw [Program.wp_bind]
  apply Program.wp_mono _ (@closeAll_quiet call m.descriptors s)
  rintro _ _ ⟨closes, rfl, allCloses, -⟩
  show Program.wp outside ((removeAll m.paths).bind _) _ _
  rw [Program.wp_bind]
  apply Program.wp_mono _ (@removeAll_quiet call m.paths _)
  rintro _ _ ⟨removals, rfl, allRemovals⟩
  show post (s ++ closes ++ removals)
  rw [List.append_assoc]
  apply holds
  intro event member
  rcases List.mem_append.mp member with close | removal
  · exact allCloses event close
  · exact allRemovals event removal

theorem publish_accounts (settled : SettledUnit) :
    Accounts (fun _ => CodecsFit) (fun _ => True) codecOutput
      (fun summary _ => summary = summarize settled) (fun _ => True) (publish call settled) := by
  apply Accounts.bind (.any _) fun _ _ => trivial
  intro output _ _
  apply Accounts.bind (.any _) fun _ _ => trivial
  intro _ _ _
  apply Accounts.bind (.any _) fun _ _ => trivial
  intro _ _ _
  apply Accounts.bind (.any _) fun _ _ => trivial
  intro _ _ _
  exact Accounts.pure rfl

/-- The summary reports the sizes that were planned. -/
theorem summarize_reports {settled : SettledUnit} (agrees : settled.Agrees platform call.options)
    (header : settled.header.length < 2 ^ 32) : (summarize settled).Reports settled.sizes := by
  have places := congrArg (List.map BlockLocation.size) agrees.stacked.locations
  have sizes : (Library.stacked call.options.attachmentAlignment settled.attachmentOffset
      settled.plan.sizes).map (BlockLocation.size ∘ placeOf) = settled.plan.sizes :=
    Library.stacked_sizes _ _ _
  rw [List.map_map, sizes, UnitPlan.locations, UnitPlan.sizes, List.map_append,
    List.map_map] at places
  obtain ⟨images, properties⟩ := List.append_inj places (by rw [List.length_map, List.length_map])
  refine ⟨?_, properties, ?_⟩
  · show (settled.plan.images.map (·.2.location)).map BlockLocation.size = _
    rw [List.map_map]
    exact images
  · exact Nat.mod_eq_of_lt header

/-- The sizes that a summary reports are determined. -/
theorem WriteSummary.Reports.unique {summary : WriteSummary} {sizes sizes' : UnitSizes}
    (reports : summary.Reports sizes) (reports' : summary.Reports sizes') : sizes = sizes' := by
  cases sizes
  cases sizes'
  congr 1
  · exact reports.images.symm.trans reports'.images
  · exact reports.properties.symm.trans reports'.properties
  · exact reports.header.symm.trans reports'.header

end

/-- Every run of a call keeps to the limits that are checked, and any violation of one comes
before the output. -/
theorem write_checked (platform : Platform) (call : TypedCall) :
    Program.wp outside (write platform call.call)
      (fun result events =>
        BudgetsRespected call.call (CheckedBudgets call.call) result events) [] := by
  unfold write
  rw [Program.wp_bind]
  show Routine.wp outside _ (fun result _ events =>
    BudgetsRespected call.call (CheckedBudgets call.call) result events) ({} : OwnedFiles) []
  rw [Routine.wp_ensuring, Routine.wp_ensuring]
  unfold writeImpl
  rw [Routine.wp_bind]
  apply Routine.wp_mono _ (prepareUnit_accounts call.typed {} [])
  rintro result m t ⟨before, rfl, silent, ended⟩
  cases ended with
  | error _ =>
      rw [Routine.continueWith_error]
      refine @destructors_quiet call.call _ _ _ ?_
      intro events closing
      refine .failed (.failed ?_)
      intro event member
      rcases List.mem_append.mp member with early | late
      · exact silent event early
      · exact closing event late
  | @ok settled _ planned =>
      rw [Routine.continueWith_ok]
      apply Routine.wp_mono _ (publish_accounts settled m _)
      rintro result n _ ⟨after, rfl, -, published⟩
      refine @destructors_quiet call.call _ _ _ ?_
      intro events _
      rw [List.append_assoc]
      apply BudgetsRespected.planned silent planned.measured planned.within
      rintro summary rfl
      cases published with
      | ok same =>
          subst same
          exact summarize_reports planned.agrees planned.within.header.2

/-- All limits are kept where the creation time has room; elsewhere by the runs that fail
without output, and by no others. -/
theorem budgetsRespected (platform : Platform) (call : TypedCall) :
    Program.wp outside (write platform call.call)
      (fun result events => BudgetsKept call.call result events) [] :=
  Program.wp_mono (fun _ _ => BudgetsKept.of_checked) (write_checked platform call)

/-! ## A text that is not compared with its limit -/

def barePlatform : Platform where
  parseXml _ := ⟨[], none⟩
  extractDouble _ := none
  toCharsScientific _ := []
  digest _ _ := []
  compressBound _ _ := 0
  decompress _ _ _ _ := ⟨false, []⟩
  acceptsWindowLog _ := false
  nativeByteOrder := .little

/-- One pixel to the file `a`. -/
def onePixel : TypedCall where
  call := {
    destinationOrScratch := lit "a"
    writesFile := true
    images := [{ width := 1, height := 1, channels := 1, sampleFormat := .uint8,
                 colorSpace := lit "Gray", pixels := [7] }]
    metadata := []
    options := { attachmentAlignment := 16, creationTime := lit "2024-01-01T00:00:00Z",
                 creatorApplication := lit "b" } }
  typed := by constructor <;> decide

/-- Metadata texts of one byte at most. -/
def oneByteTexts : TypedCall where
  call := { onePixel.call with
            options := { onePixel.call.options with maxMetadataValueBytes := 1 } }
  typed := by constructor <;> decide

/-- Nothing fails, except codecs and spools. -/
def obliging : (op : WriteOp) → op.Reply
  | .write _ bytes => some bytes.length
  | .sinkWrite bytes => .ok bytes.length
  | .sinkFlush => .ok ()
  | .create _ => some (0 : Nat)
  | .compress _ _ _ => CompressReply.failed
  | .openSpool _ => none
  | .readSpool _ _ => []
  | .remove _ => ()
  | .stopRequested | .spoolHasMore _ => false
  | .allocate _ | .isAvailable _ | .flush _ | .close _ | .link _ _ => true

def obliged (s : List WriteEvent) (op : WriteOp) : op.Reply × List WriteEvent :=
  (obliging op, s ++ [⟨op, obliging op⟩])

theorem obliged_answers (s : List WriteEvent) (op : WriteOp) :
    outside.reply s op (obliged s op).1 (obliged s op).2 := by
  refine ⟨rfl, ?_⟩
  cases op with
  | compress codec input capacity => rintro output ⟨⟩
  | _ => trivial

/-- The call succeeds with a text of 20 bytes. -/
theorem creationTime_unbounded :
    ¬ Program.wp outside (write barePlatform oneByteTexts.call)
      (fun result events => BudgetsRespected oneByteTexts.call (WithinBudgets oneByteTexts.call)
        result events) [] := by
  intro every
  have run := Program.run_answered obliged_answers (write barePlatform oneByteTexts.call) []
  have respected := Program.run_of_wp every run
  have succeeds : ((write barePlatform oneByteTexts.call).answered obliged []).1.isOk = true := by
    decide +kernel
  generalize (write barePlatform oneByteTexts.call).answered obliged [] =
    ended at respected succeeds
  obtain ⟨result, events⟩ := ended
  cases respected with
  | failed fails =>
      cases fails
      cases succeeds
  | planned _ _ within _ => exact absurd within.creationTime (by decide)

end Mmxisf.Writer
