/-
# DefaultOpening -- what is written by default is opened by default

A writer with the budgets of the default lets through no header, no number of images or
entries and no value that a reader with the limits of the default would refuse
(`WrittenUnit.fits_default`).  One thing the writer does not count: the zeros that its
alignment leaves after the header and between blocks.  So what was written opens exactly
when these are no more than 64 MiB (`defaultsOpen`), and 66 blocks of one byte, 1 MiB
apart, do not open (`apart_notOpened`).
-/
import Mmxisf.LimitsGate
import Mmxisf.ReferenceLibraries
import Mmxisf.RestoredUnits
import Mmxisf.Writer.Undisturbed

namespace Mmxisf

set_option autoImplicit false

open Library (Program)
open Library.Routine (EndsWith)
open Writer (WriteCall WriterOptions WriteSummary Codecs MetadataWriteEntry PlannedBlock TypedCall
  CallState CheckedBudgets SettledUnit PlainCall layoutUnit plainPlan onePixel)
open Reader (ReaderOptions Impl Environment IsLimit Tighter)

/-! ## Sizes -/

theorem length_newlinesFrom_le (text : Text) (afterReturn : Bool) :
    (newlinesFrom afterReturn text).length ≤ text.length := by
  induction text generalizing afterReturn with
  | nil => exact le_rfl
  | cons c rest ih =>
      rw [newlinesFrom]
      split_ifs
      · exact Nat.succ_le_succ (ih true)
      · exact (ih false).trans (Nat.le_succ _)
      · exact Nat.succ_le_succ (ih false)

/-- What is listed of a value is no longer than the value. -/
theorem length_listedValue_le (entry : MetadataWriteEntry) :
    (listedValue entry).length ≤ entry.value.length := by
  unfold listedValue attributeText
  split
  · exact length_newlinesFrom_le _ _
  · rw [length_normalizeValue]
    exact length_newlinesFrom_le _ _

theorem length_optionalAttribute_le (name : String) (value : Text) :
    (Writer.optionalAttribute name value).length ≤ 1 := by
  unfold Writer.optionalAttribute
  split <;> simp

/-- A tag of an entry has few attributes. -/
theorem entry_attributes_le (item : MetadataWriteEntry × PlannedBlock) :
    (entryElement item).attributes.length ≤ 10 := by
  have own : (entryElement item).attributes.length =
      (Writer.metadataAttributes (delivered item.1) (headerBlock item)).length :=
    List.length_map _
  have extents (entry : MetadataWriteEntry) : (Writer.extentsOf entry).length ≤ 2 := by
    unfold Writer.extentsOf
    split <;> simp
  rw [own]
  unfold Writer.metadataAttributes
  split
  · simp
  unfold Writer.valueAttributes
  split
  · unfold Writer.blockAttributes Writer.describingAttributes
    have few := extents (delivered item.1)
    split
    · simp only [List.length_append, List.length_cons, List.length_nil]
      omega
    split
    · simp
    · rename_i location prepared _
      have format := length_optionalAttribute_le "format" (delivered item.1).format
      have compression := length_optionalAttribute_le "compression" prepared.compression
      have subblocks := length_optionalAttribute_le "subblocks" prepared.subblocks
      have checksum := length_optionalAttribute_le "checksum" prepared.checksum
      have order : (if (delivered item.1).byteOrder = .big then [("byteOrder", lit "big")]
          else []).length ≤ 1 := by
        split <;> decide
      simp only [List.length_append, List.length_cons, List.length_nil]
      omega
  · split <;> simp

/-- So has a tag of an image. -/
theorem image_attributes_le (platform : Platform) (item : Writer.ImageWriteView × PlannedBlock) :
    (imageElement platform item).attributes.length ≤ 11 := by
  have own : (imageElement platform item).attributes.length =
      (imageAttributes platform item).length := by
    unfold imageElement reportedTags reportedAttributes
    rw [List.length_map, List.length_map]
  have id := length_optionalAttribute_le "id" item.1.id
  have compression := length_optionalAttribute_le "compression" item.2.prepared.compression
  have subblocks := length_optionalAttribute_le "subblocks" item.2.prepared.subblocks
  have checksum := length_optionalAttribute_le "checksum" item.2.prepared.checksum
  have bounds : (boundsTag platform item.1).length ≤ 1 := by
    unfold boundsTag
    split <;> simp
  rw [own]
  unfold imageAttributes preparedTags
  simp only [List.length_append, List.length_cons, List.length_nil]
  omega

/-! ## Limits -/

/-- The budgets are those of the default; the alignment, the size of subblocks and what the
writer says of itself are not budgets. -/
def KeepsBudgets (options : WriterOptions) : Prop :=
  options = {
    attachmentAlignment := options.attachmentAlignment
    compressionSubblockBytes := options.compressionSubblockBytes
    creationTime := options.creationTime
    creatorApplication := options.creatorApplication }

/-- The bytes of a unit that are in no block, after its header. -/
def zeroGaps (summary : WriteSummary) : Nat :=
  summary.fileSize - (16 + summary.headerLength) -
    ((summary.imageBlocks ++ summary.propertyBlocks).map (·.size)).sum

theorem zeroGaps_summarize {settled : SettledUnit} (header : settled.header.length < 2 ^ 32) :
    zeroGaps (Writer.summarize settled) =
      unusedBytes settled.plan.fileSize (16 + settled.header.length) (fileRanges settled.plan) := by
  have length : (Writer.summarize settled).headerLength = settled.header.length :=
    Nat.mod_eq_of_lt header
  have sizes : (fileRanges settled.plan).map (·.size) = settled.plan.locations.map (·.size) := by
    unfold fileRanges
    rw [List.map_map]
    rfl
  unfold zeroGaps unusedBytes
  rw [length, sizes]
  rfl

/-- Limits are no tighter than themselves. -/
theorem tighter_refl (options : ReaderOptions) : Tighter options options := by
  constructor <;> exact le_rfl

/-- From a source that keeps these bytes, `open_source` by default has this end: a success
where the bytes fit, and the error of a limit elsewhere. -/
structure EndsByDefault (platform : Platform) (bytes : Bytes) (fits : Prop)
    (ended : Result Impl) : Prop where
  ends : ∀ {L : Type} (l : L) (s : Reader.Trace),
    EndsWith ((Environment.stable bytes).world platform) (Reader.openSource platform {}) l s ended
  opens : fits → ∃ reader, ended = .ok reader
  refuses : ¬ fits → ∃ e, ended = .error e ∧ IsLimit e

/-- There is one end. -/
theorem EndsByDefault.unique {platform : Platform} {bytes : Bytes} {fits fits' : Prop}
    {ended ended' : Result Impl} (byDefault : EndsByDefault platform bytes fits ended)
    (again : EndsByDefault platform bytes fits' ended') : ended = ended' := by
  obtain ⟨-, m, t, run⟩ := byDefault.ends () []
  exact Library.Routine.run_of_wp (again.ends () []).1 run

namespace WrittenUnit

variable {unit : WrittenUnit}

/-- Only the gaps are not within the limits of the default. -/
theorem fits_default (budgets : KeepsBudgets unit.call.options)
    (checked : CheckedBudgets unit.call unit.settled.sizes)
    (room : unusedBytes unit.settled.plan.fileSize (16 + unit.settled.header.length)
      (fileRanges unit.settled.plan) ≤ 64 * 1024 * 1024) : unit.Fits {} := by
  have images : unit.settled.plan.images.length ≤ 64 := by
    have few := checked.decoded.imageCount
    rwa [← unit.isUnit.images, List.length_map, budgets] at few
  have perm := unitItems_perm (@accepted unit)
  have items : (unitItems unit.call.options unit.settled.plan).length ≤ 4096 := by
    have few := checked.decoded.metadataCount
    rw [← unit.isUnit.metadata, List.length_map, budgets] at few
    rw [perm.length_eq]
    exact few
  have values : ∀ item ∈ unitItems unit.call.options unit.settled.plan,
      (listedValue item.1).length ≤ 8 * 1024 * 1024 := by
    intro item member
    refine (length_listedValue_le item.1).trans ?_
    have own := perm.mem_iff.mp member
    unfold allEntries at own
    rw [List.mem_cons, List.mem_cons] at own
    rcases own with rfl | rfl | given
    · exact checked.decoded.creationTime.trans_le (by decide)
    · have small := checked.decoded.creator
      rw [budgets] at small
      exact small.trans (show 1024 * 1024 ≤ 8 * 1024 * 1024 by decide)
    · have there : item.1 ∈ unit.call.metadata := by
        rw [← unit.isUnit.metadata]
        exact List.mem_map_of_mem given
      have small := (checked.decoded.texts item.1 there).1
      rw [budgets] at small
      exact small.trans (show 1024 * 1024 ≤ 8 * 1024 * 1024 by decide)
  have header : unit.settled.header.length ≤ 16 * 1024 * 1024 := by
    have small := checked.header.1
    rwa [budgets] at small
  refine ⟨header, ?_, room⟩
  exact {
    depth := by decide
    nodes := show _ ≤ 250000 by omega
    rootAttributes := by decide
    imageAttributes := fun item _ => (image_attributes_le unit.platform item).trans (by decide)
    entryAttributes := fun item _ => (entry_attributes_le item).trans (by decide)
    images := images
    dimensions := by decide
    channels := fun item member => by
      rw [(unitReady.images item member).accepted.channels]
      split <;> decide
    entries := items.trans (by decide)
    values := values }

/-- Opening by default depends on the gaps alone. -/
theorem endsByDefault (budgets : KeepsBudgets unit.call.options)
    (checked : CheckedBudgets unit.call unit.settled.sizes) :
    ∃ ended, EndsByDefault unit.platform unit.bytes
      (unusedBytes unit.settled.plan.fileSize (16 + unit.settled.header.length)
        (fileRanges unit.settled.plan) ≤ 64 * 1024 * 1024) ended := by
  let file : Reader.SourceFile := ⟨unit.bytes, small_bytes⟩
  obtain ⟨ended, same, ends⟩ := file.openSource_ends unit.platform {}
  refine ⟨ended, fun l s => ends l s, fun fits => ?_, fun large => ?_⟩
  · have opened := (@openFile_suffices unit Unit {} (fun _ => {})
      (fits_default budgets checked fits)).ok (o := ()) (tighter_refl _)
    obtain ⟨reader, isReader, -⟩ :=
      map_eq_ok.mp (same.trans (congrArg (Except.map _) opened))
    exact ⟨reader, isReader⟩
  · obtain ⟨bound, gates⟩ := @openFile_written unit Unit fun _ => {}
    rcases gates () with opened | ⟨e, failed, limit, -⟩
    · exact absurd (openFile_room opened) large
    · have stopped := same.trans (congrArg (Except.map _) failed)
      cases ended with
      | error e' => exact ⟨e', rfl, Except.error.inj stopped ▸ limit⟩
      | ok reader => cases stopped

end WrittenUnit

/-! ## Calls -/

/-- The bytes are those of the file of a call, or those that its sink has taken. -/
def PutOut (call : WriteCall) (s : CallState) (bytes : Bytes) : Prop :=
  if call.writesFile = true then ∃ file, s.disk.names call.destinationOrScratch = some file ∧
    s.disk.contents file = some bytes
  else s.accepted = bytes

theorem codecsFit_ofCall {codecs : Codecs} {goal : Writer.Goal} {s t : CallState}
    {op : Writer.WriteOp} {reply : op.Reply}
    (answer : (Writer.ofCall codecs Writer.Ordinary goal).reply s op reply t) :
    Writer.CodecsFit op reply := by
  cases op with
  | compress codec input capacity => exact fun output produced => (answer.1.1 output produced).2
  | _ => trivial

/-- In every run, what a successful call has put out is a unit within the budgets that are
checked. -/
theorem putOut_unit (platform : Platform) (codecs : Codecs) (call : TypedCall)
    (lawful : LawfulLibraries platform codecs fun _ : Unit => call.call)
    (extents : ∀ entry ∈ call.call.metadata, ExtentsFit entry) :
    Program.wp (Writer.ofCall codecs Writer.Ordinary (call.call.goal platform codecs))
      (Writer.write platform call.call) (fun result s => ∀ summary, result = .ok summary →
        ∀ bytes, PutOut call.call s bytes → ∃ unit : WrittenUnit, unit.platform = platform ∧
          unit.codecs = codecs ∧ unit.call = call.call ∧ unit.bytes = bytes ∧
          summary = Writer.summarize unit.settled ∧
          CheckedBudgets unit.call unit.settled.sizes) {} := by
  refine Program.wp_mono ?_ (Program.wp_logged codecsFit_ofCall
    (Writer.write_ends Writer.careful_ordinary call.typed) (Writer.write_checked platform call))
  rintro result s ⟨ended, events, respected⟩ summary rfl bytes put
  obtain ⟨settled, contents, isUnit, isSummary, rfl⟩ : ∃ settled contents,
      Writer.IsUnitOf platform codecs call.call settled contents ∧
      summary = Writer.summarize settled ∧
      bytes = Writer.unitBytes call.call.options settled contents := by
    unfold PutOut at put
    cases ended with
    | published writes isUnit names holds _ _ =>
        rw [if_pos writes] at put
        obtain ⟨file, named, there⟩ := put
        rw [names, if_pos rfl] at named
        cases named
        exact ⟨_, _, isUnit, rfl, Option.some.inj (there.symm.trans holds)⟩
    | delivered external isUnit _ accepted _ =>
        rw [if_neg (by rw [external]; decide)] at put
        exact ⟨_, _, isUnit, rfl, put.symm.trans accepted⟩
  refine ⟨lawful.unit (i := ()) isUnit extents, rfl, rfl, rfl, rfl, isSummary, ?_⟩
  cases respected with
  | failed fails => cases fails
  | planned _ _ within reported =>
      have small : settled.header.length < 2 ^ 32 := Nat.lt_succ_of_le isUnit.header
      have reports := reported _ rfl
      rw [isSummary] at reports
      exact reports.unique (Writer.summarize_reports isUnit.agrees small) ▸ within

/-- What a successful call has put out opens by default where its summary fits. -/
def DefaultsOpen (platform : Platform) (codecs : Codecs) (call : WriteCall)
    (fits : WriteSummary → Prop) : Prop :=
  Program.wp (Writer.ofCall codecs Writer.Ordinary (call.goal platform codecs))
    (Writer.write platform call) (fun result s => ∀ summary, result = .ok summary →
      ∀ bytes, PutOut call s bytes → ∃ ended, EndsByDefault platform bytes (fits summary) ended) {}

/-- In every run, what is put out with the budgets of the default opens with the limits of
the default, unless its gaps are too large. -/
theorem defaultsOpen (platform : Platform) (codecs : Codecs) (call : TypedCall)
    (lawful : LawfulLibraries platform codecs fun _ : Unit => call.call)
    (budgets : KeepsBudgets call.call.options)
    (extents : ∀ entry ∈ call.call.metadata, ExtentsFit entry) :
    DefaultsOpen platform codecs call.call fun summary => zeroGaps summary ≤ 64 * 1024 * 1024 := by
  refine Program.wp_mono ?_ (putOut_unit platform codecs call lawful extents)
  rintro result s units summary succeeded bytes put
  obtain ⟨unit, rfl, -, isCall, rfl, rfl, checked⟩ := units summary succeeded bytes put
  dsimp only
  rw [zeroGaps_summarize (Nat.lt_succ_of_le unit.isUnit.header)]
  exact WrittenUnit.endsByDefault (isCall ▸ budgets) checked

theorem onePixel_opened : DefaultsOpen referencePlatform storingCodecs onePixel.call
    fun summary => zeroGaps summary ≤ 64 * 1024 * 1024 :=
  defaultsOpen referencePlatform storingCodecs onePixel (referenceLibraries _) rfl
    (List.forall_mem_nil _)

/-! ## Blocks that are far apart -/

/-- A vector of one byte of the first image. -/
def oneByte (index : Nat) : MetadataWriteEntry where
  kind := .property
  imageIndex := some 0
  name := lit "P" ++ Writer.decimal index
  type := lit "UI8Vector"
  valueForm := .dataBlock
  length := some 1
  blockBytes := [7]

/-- One pixel and 65 vectors, each 1 MiB after the one before. -/
def apart : TypedCall where
  call := { onePixel.call with
            destinationOrScratch := []
            writesFile := false
            metadata := (List.range 65).map oneByte
            options := { onePixel.call.options with attachmentAlignment := 1024 * 1024 } }
  typed := by constructor <;> decide

theorem apart_plain : PlainCall apart.call where
  external := by decide
  checked := ⟨_, Reader.valueOf_eq _ (by decide +kernel)⟩
  images := by
    intro image member
    rw [List.mem_singleton.mp member]
    exact ⟨rfl, rfl, by decide⟩
  entries := by
    intro entry member _
    obtain ⟨index, -, rfl⟩ := List.mem_map.mp member
    exact ⟨⟨_, rfl⟩, rfl, rfl, show 1 ≤ 256 * 1024 * 1024 by decide⟩
  imageTotal := by decide
  entryTotal := by decide +kernel

/-- Its layout has too many zeros. -/
theorem apart_gaps : ((layoutUnit referencePlatform apart.call.options
    (plainPlan apart.call)).map fun settled =>
      decide (64 * 1024 * 1024 < zeroGaps (Writer.summarize settled))).toOption = some true := by
  decide +kernel

/-- The zeros between 66 blocks are more than a reader takes by default. -/
theorem apart_notOpened : ¬ ∀ (platform : Platform) (codecs : Codecs) (call : TypedCall),
    LawfulLibraries platform codecs (fun _ : Unit => call.call) →
    KeepsBudgets call.call.options → (∀ entry ∈ call.call.metadata, ExtentsFit entry) →
    DefaultsOpen platform codecs call.call fun _ => True := by
  intro always
  have fit : ∀ entry ∈ apart.call.metadata, ExtentsFit entry := by
    intro entry member
    obtain ⟨index, -, rfl⟩ := List.mem_map.mp member
    constructor
    · rintro n ⟨⟩
      decide
    · rintro n ⟨⟩
    · rintro n ⟨⟩
  have opens := always referencePlatform storingCodecs apart (referenceLibraries _) rfl fit
  have large := apart_gaps
  cases laidOut : layoutUnit referencePlatform apart.call.options (plainPlan apart.call) with
  | error e =>
      rw [laidOut] at large
      cases large
  | ok settled =>
      rw [laidOut] at large
      have large : 64 * 1024 * 1024 < zeroGaps (Writer.summarize settled) :=
        of_decide_eq_true (Option.some.inj large)
      obtain ⟨result, s, run, isSummary, contents, -, accepted⟩ := Program.may_iff_run.mp
        (@Writer.plain_delivered storingCodecs _ _ settled _ Writer.careful_ordinary apart.typed
          apart_plain laidOut)
      have put : PutOut apart.call s (Writer.unitBytes apart.call.options settled contents) :=
        accepted
      obtain ⟨ended, byDefault⟩ := Program.run_of_wp opens run _ isSummary _ put
      obtain ⟨reader, rfl⟩ := byDefault.opens trivial
      obtain ⟨unit, isPlatform, -, isCall, isBytes, same, checked⟩ := Program.run_of_wp
        (putOut_unit referencePlatform storingCodecs apart (referenceLibraries _) fit) run _
          isSummary _ put
      rw [same, zeroGaps_summarize (Nat.lt_succ_of_le unit.isUnit.header)] at large
      obtain ⟨ended, refused⟩ := WrittenUnit.endsByDefault (isCall ▸ rfl) checked
      obtain ⟨e, rfl, -⟩ := refused.refuses (Nat.not_le_of_lt large)
      rw [isPlatform, isBytes] at refused
      cases byDefault.unique refused

end Mmxisf
