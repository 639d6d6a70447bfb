/-
# RoundTrip -- a unit is listed as it was given

What a successful call has put out opens with any limits that let in what was written, and
the document lists the images of the call with the blocks that were planned for them, and
its entries in the order of the header, each bound once where it stands.  One thing is not
kept: the byte order of a FITS keyword, at which the writer does not look (`keptOrder`).  So
a unit is listed as it was given exactly when its keywords have the byte order of the
default (`roundTrip`).
-/
import Mathlib.Data.List.Forall2
import Mmxisf.DefaultOpening

namespace Mmxisf

set_option autoImplicit false

open Library (Program grouped)
open Library.Routine (EndsWith)
open Writer (ImageWriteView MetadataWriteEntry PlannedBlock UnitPlan WriteCall Codecs TypedCall
  PlainCall onePixel layoutUnit plainPlan)
open Reader (ReaderOptions Environment Impl)

/-! ## Listings -/

/-- An image as it was given, with the block that was planned for it. -/
structure ListsImage (item : ImageWriteView × PlannedBlock) (info : ImageInfo) : Prop where
  id : info.id = item.1.id
  geometry : info.geometry = [item.1.width, item.1.height, item.1.channels]
  sampleFormat : info.sampleFormat = item.1.sampleFormat
  colorSpace : info.colorSpace = item.1.colorSpace
  pixelStorage : info.pixelStorage = .planar
  byteOrder : info.byteOrder = .little
  lowerBound : info.lowerBound = item.1.lowerBound
  upperBound : info.upperBound = item.1.upperBound
  location : info.block = ⟨.attachment, item.2.location.offset, item.2.location.size,
    Writer.attachmentLocation item.2.location.offset item.2.location.size⟩
  compression : info.compression = item.2.prepared.compression
  subblocks : info.subblocks = item.2.prepared.subblocks
  checksum : info.checksum = item.2.prepared.checksum

/-- An entry as it was given, with this byte order. -/
structure ListsEntry (order : MetadataWriteEntry → ByteOrder) (entry : MetadataWriteEntry)
    (info : MetadataEntry) : Prop where
  kind : info.kind = entry.kind
  name : info.name = entry.name
  type : info.type = entry.type
  scope : info.scope = if entry.imageIndex.isSome then .image else .xisfUnit
  imageIndex : info.imageIndex = entry.imageIndex
  length : info.length = entry.length
  rows : info.rows = entry.rows
  columns : info.columns = entry.columns
  byteOrder : info.byteOrder = order entry
  valueForm : info.valueForm = .dataBlock ↔ entry.valueForm = .dataBlock

/-- The entries of a call in the order of a header: those of its images, image by image,
what the writer says of itself, and those of the unit. -/
def entriesInOrder (call : WriteCall) : List MetadataWriteEntry :=
  grouped (·.imageIndex) call.images.length call.metadata ++
    creationTimeEntry call.options :: creatorEntry call.options ::
      call.metadata.filter fun entry => entry.imageIndex.isNone

/-- A document lists a call, and the blocks of its plan. -/
structure ListsCall (order : MetadataWriteEntry → ByteOrder) (call : WriteCall) (plan : UnitPlan)
    (document : Document) : Prop where
  given : plan.images.map Prod.fst = call.images
  images : List.Forall₂ ListsImage plan.images document.images
  metadata : List.Forall₂ (ListsEntry order) (entriesInOrder call) document.metadata
  bindings : document.metadataBindings = document.metadata.mapIdx fun index entry =>
    ⟨index, if entry.scope = .image then .image else .xisfUnit, entry.imageIndex, false⟩

/-- The byte order that is written and read: a FITS keyword has none. -/
def keptOrder (entry : MetadataWriteEntry) : ByteOrder :=
  if entry.kind = .fitsKeyword then .little else entry.byteOrder

/-- The FITS keywords of a call have the byte order of the default. -/
def KeywordsLittle (call : WriteCall) : Prop :=
  ∀ entry ∈ call.metadata, entry.kind = .fitsKeyword → entry.byteOrder = .little

section

variable {item : MetadataWriteEntry × PlannedBlock}

theorem listedForm_dataBlock :
    listedForm item.1 = .dataBlock ↔ item.1.valueForm = .dataBlock := by
  unfold listedForm
  cases item.1.valueForm with
  | dataBlock => exact ⟨fun _ => rfl, fun _ => rfl⟩
  | direct =>
      dsimp only
      split <;> exact ⟨nofun, nofun⟩

theorem listedEntry_lists (order : (listedEntry item).byteOrder = keptOrder item.1) :
    ListsEntry keptOrder item.1 (listedEntry item) where
  kind := rfl
  name := rfl
  type := rfl
  scope := rfl
  imageIndex := rfl
  length := rfl
  rows := rfl
  columns := rfl
  byteOrder := order
  valueForm := listedForm_dataBlock

/-- A byte order is written of a block, and others have the one of the default. -/
theorem listedEntry_order {imageCount : Nat} (accepted : AcceptedEntry imageCount item.1) :
    (listedEntry item).byteOrder = keptOrder item.1 := by
  unfold listedEntry keptOrder
  dsimp only
  cases form : item.1.valueForm with
  | dataBlock =>
      have property : item.1.kind ≠ .fitsKeyword := by
        intro keyword
        rw [(accepted.fitsKeyword keyword).1] at form
        cases form
      rw [if_pos rfl, if_neg property]
  | direct =>
      rw [if_neg (by decide)]
      split
      · rfl
      · rename_i property
        cases kind : item.1.kind with
        | fitsKeyword => exact absurd kind property
        | property => exact (accepted.order kind form).symm

end

/-- The byte order of each entry is kept when that of each keyword is. -/
theorem keptOrder_eq {call : WriteCall} {entry : MetadataWriteEntry}
    (little : KeywordsLittle call) (member : entry ∈ entriesInOrder call) :
    keptOrder entry = entry.byteOrder := by
  have given (there : entry ∈ call.metadata) : keptOrder entry = entry.byteOrder := by
    unfold keptOrder
    split
    · rename_i keyword
      exact (little entry there keyword).symm
    · rfl
  unfold entriesInOrder at member
  rw [List.mem_append, List.mem_cons, List.mem_cons] at member
  rcases member with ofImage | rfl | rfl | ofUnit
  · unfold grouped at ofImage
    obtain ⟨_, -, there⟩ := List.mem_flatMap.mp ofImage
    exact given (List.mem_of_mem_filter there)
  · rfl
  · rfl
  · exact given (List.mem_of_mem_filter ofUnit)

namespace ListsCall

variable {call : WriteCall} {plan : UnitPlan} {document : Document}
  {order order' : MetadataWriteEntry → ByteOrder}

/-- Only the byte orders of the entries matter. -/
theorem congr (lists : ListsCall order call plan document)
    (same : ∀ entry ∈ entriesInOrder call, order entry = order' entry) :
    ListsCall order' call plan document where
  given := lists.given
  images := lists.images
  bindings := lists.bindings
  metadata := by
    have both := (List.forall₂_and_left _ _).mpr ⟨same, lists.metadata⟩
    exact both.imp fun entry info ⟨isSame, own⟩ =>
      { own with byteOrder := own.byteOrder.trans isSame }

/-- A document has one byte order for each entry. -/
theorem order_unique (lists : ListsCall order call plan document)
    (again : ListsCall order' call plan document) :
    ∀ entry ∈ entriesInOrder call, order entry = order' entry := by
  intro entry member
  obtain ⟨⟨i, inside⟩, rfl⟩ := List.mem_iff_get.mp member
  have listed : i < document.metadata.length := lists.metadata.length_eq ▸ inside
  exact ((lists.metadata.get inside listed).byteOrder).symm.trans
    (again.metadata.get inside listed).byteOrder

end ListsCall

namespace WrittenUnit

variable {unit : WrittenUnit} {limits : ReaderOptions}

/-- The header has the entries in their order. -/
theorem unitItems_given : (unitItems unit.call.options unit.settled.plan).map Prod.fst =
    entriesInOrder unit.call := by
  have count : unit.settled.plan.images.length = unit.call.images.length := by
    rw [← unit.isUnit.images, List.length_map]
  unfold unitItems entriesInOrder unitEntries
  rw [imageItems_eq, List.map_append, Library.grouped_map, unit.isUnit.metadata, count,
    List.map_cons, List.map_cons, ← unit.isUnit.metadata, List.filter_map]
  rfl

/-- Each entry of the header is listed. -/
theorem unitItems_list {item : MetadataWriteEntry × PlannedBlock}
    (member : item ∈ unitItems unit.call.options unit.settled.plan) :
    ListsEntry keptOrder item.1 (listedEntry item) := by
  have own := (unitItems_perm (@accepted unit)).mem_iff.mp member
  unfold allEntries at own
  rw [List.mem_cons, List.mem_cons] at own
  rcases own with rfl | rfl | given
  · exact listedEntry_lists rfl
  · exact listedEntry_lists rfl
  · exact listedEntry_lists (listedEntry_order (unitReady.entries item given).accepted)

/-- The listing is that of the call. -/
theorem listed_lists :
    ListsCall keptOrder unit.call unit.settled.plan unit.listed.document where
  given := unit.isUnit.images
  images := by
    refine List.forall₂_map_right_iff.mpr (List.forall₂_same.mpr fun item member => ?_)
    have placed := (unitReady.images item member).placed
    exact ⟨rfl, rfl, rfl, rfl, rfl, rfl, rfl, rfl, placed.location, rfl, rfl, rfl⟩
  metadata := by
    rw [← unitItems_given]
    exact List.forall₂_map_left_iff.mpr (List.forall₂_map_right_iff.mpr
      (List.forall₂_same.mpr fun _ => unitItems_list))
  bindings := rfl

/-- With any limits that let in what was written the unit opens, and is listed as it was
given. -/
def ListedAs (order : MetadataWriteEntry → ByteOrder) (unit : WrittenUnit) : Prop :=
  ∀ limits, unit.Fits limits → ∃ reader : Impl,
    (∀ {L : Type} (l : L) (s : Reader.Trace),
      EndsWith ((Environment.stable unit.bytes).world unit.platform)
        (Reader.openSource unit.platform limits) l s (.ok reader)) ∧
      ListsCall order unit.call unit.settled.plan reader.document

theorem listedAs_kept (unit : WrittenUnit) : unit.ListedAs keptOrder := by
  intro limits enough
  let file : Reader.SourceFile := ⟨unit.bytes, small_bytes⟩
  obtain ⟨ended, same, ends⟩ := file.openSource_ends unit.platform limits
  have opened := (@openFile_suffices unit Unit limits (fun _ => limits) enough).ok (o := ())
    (tighter_refl _)
  obtain ⟨reader, rfl, contents⟩ := map_eq_ok.mp (same.trans (congrArg (Except.map _) opened))
  have document : reader.document = unit.listed.document := congrArg (·.document) contents
  exact ⟨reader, fun l s => ends l s, document ▸ listed_lists⟩

/-- Each entry that was given is in the header. -/
theorem mem_entriesInOrder {entry : MetadataWriteEntry} (member : entry ∈ unit.call.metadata) :
    entry ∈ entriesInOrder unit.call := by
  rw [← unit.isUnit.metadata] at member
  obtain ⟨item, given, rfl⟩ := List.mem_map.mp member
  rw [← unitItems_given]
  refine List.mem_map_of_mem ((unitItems_perm (@accepted unit)).mem_iff.mpr ?_)
  exact List.mem_cons_of_mem _ (List.mem_cons_of_mem _ given)

theorem listedAs_iff : unit.ListedAs (·.byteOrder) ↔ KeywordsLittle unit.call := by
  constructor
  · intro listed entry member keyword
    obtain ⟨bound, enough⟩ := @fits_roomy unit
    obtain ⟨reader, ends, lists⟩ := listed _ enough
    obtain ⟨again, endsAgain, kept⟩ := unit.listedAs_kept _ enough
    obtain ⟨-, _, _, run⟩ := ends () []
    cases Library.Routine.run_of_wp (endsAgain () []).1 run
    have same := lists.order_unique kept entry (mem_entriesInOrder member)
    rw [keptOrder, if_pos keyword] at same
    exact same
  · intro little limits enough
    obtain ⟨reader, ends, lists⟩ := unit.listedAs_kept limits enough
    exact ⟨reader, ends, lists.congr fun _ member => keptOrder_eq little member⟩

end WrittenUnit

/-! ## Calls -/

/-- In every run of a call, what a success has put out is such a unit, and its summary is
the one that was returned. -/
def RoundTrips (platform : Platform) (codecs : Codecs) (call : WriteCall)
    (good : WrittenUnit → Prop) : Prop :=
  Program.wp (Writer.ofCall codecs Writer.Ordinary (call.goal platform codecs))
    (Writer.write platform call) (fun result s => ∀ summary, result = .ok summary →
      ∀ bytes, PutOut call s bytes → ∃ unit : WrittenUnit, unit.platform = platform ∧
        unit.call = call ∧ unit.bytes = bytes ∧ summary = Writer.summarize unit.settled ∧
        good unit) {}

/-- What a successful call has put out is listed as it was given if and only if its FITS
keywords have the byte order of the default. -/
theorem roundTrip (platform : Platform) (codecs : Codecs) (call : TypedCall)
    (lawful : LawfulLibraries platform codecs fun _ : Unit => call.call)
    (extents : ∀ entry ∈ call.call.metadata, ExtentsFit entry) :
    RoundTrips platform codecs call.call fun unit =>
      unit.ListedAs (·.byteOrder) ↔ KeywordsLittle call.call := by
  refine Program.wp_mono ?_ (putOut_unit platform codecs call lawful extents)
  intro result s units summary succeeded bytes put
  obtain ⟨unit, isPlatform, -, isCall, isBytes, isSummary, -⟩ := units summary succeeded bytes put
  exact ⟨unit, isPlatform, isCall, isBytes, isSummary, isCall ▸ unit.listedAs_iff⟩

theorem onePixel_roundTrip : RoundTrips referencePlatform storingCodecs onePixel.call fun unit =>
    unit.ListedAs (·.byteOrder) ↔ KeywordsLittle onePixel.call :=
  roundTrip referencePlatform storingCodecs onePixel (referenceLibraries _)
    (List.forall_mem_nil _)

/-! ## A keyword with a byte order -/

/-- A FITS keyword of the first image. -/
def bigKeyword : MetadataWriteEntry where
  kind := .fitsKeyword
  imageIndex := some 0
  name := lit "EXPTIME"
  value := lit "30.0"
  byteOrder := .big

def keywordTo : TypedCall where
  call := { onePixel.call with
            destinationOrScratch := []
            writesFile := false
            metadata := [bigKeyword] }
  typed := onePixel.typed

theorem keyword_plain : PlainCall keywordTo.call where
  external := by decide
  checked := ⟨_, Reader.valueOf_eq _ (by decide +kernel)⟩
  images := by
    intro image member
    rw [List.mem_singleton.mp member]
    exact ⟨rfl, rfl, by decide⟩
  entries := by
    intro entry member attached
    rw [List.mem_singleton.mp member] at attached
    exact absurd attached (by decide)
  imageTotal := by decide
  entryTotal := by decide

/-- It can be laid out. -/
theorem keyword_layout : (layoutUnit referencePlatform keywordTo.call.options
    (plainPlan keywordTo.call)).isOk = true := by
  decide +kernel

/-- Its byte order is not kept. -/
theorem keyword_notListed : ¬ ∀ (platform : Platform) (codecs : Codecs) (call : TypedCall),
    LawfulLibraries platform codecs (fun _ : Unit => call.call) →
    (∀ entry ∈ call.call.metadata, ExtentsFit entry) →
    RoundTrips platform codecs call.call (WrittenUnit.ListedAs (·.byteOrder)) := by
  intro always
  have fit : ∀ entry ∈ keywordTo.call.metadata, ExtentsFit entry := by
    intro entry member
    rw [List.mem_singleton.mp member]
    exact ⟨nofun, nofun, nofun⟩
  have trips := always referencePlatform storingCodecs keywordTo (referenceLibraries _) fit
  obtain ⟨result, s, run, isSummary, contents, -, accepted⟩ := Program.may_iff_run.mp
    (@Writer.plain_delivered storingCodecs _ _ _ _ Writer.careful_ordinary keywordTo.typed
      keyword_plain (Reader.valueOf_eq _ keyword_layout))
  have put : PutOut keywordTo.call s (Writer.unitBytes keywordTo.call.options _ contents) :=
    accepted
  obtain ⟨unit, -, isCall, -, -, listed⟩ := Program.run_of_wp trips run _ isSummary _ put
  have little := WrittenUnit.listedAs_iff.mp listed
  rw [isCall] at little
  cases little bigKeyword (List.mem_singleton.mpr rfl) rfl

end Mmxisf
