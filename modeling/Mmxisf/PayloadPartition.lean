/-
# PayloadPartition -- every byte of the payload has one owner, and reads keep to it

The ranges that elements declare are collected by one hook for every start tag, then
sorted, compared with their neighbours and scanned for what lies between them; the
descriptors that reads use are built elsewhere.  For a unit that opens, the two agree:
each descriptor's range is one of the collected ranges, these lie one after another in
the payload, and what is in none of them is zero.  So a read that keeps to its block
(`ReadsWithin`) keeps to bytes that are its own.

An offset of a request is a 64-bit sum.  One that had wrapped around would be below the
start of its range, so that a request lies in its range says that it did not.
-/
import Mmxisf.Reader.Accepted
import Mmxisf.Reader.Opening
import Mmxisf.Reader.RowDelivery
import Mmxisf.Reader.WholeReads

namespace Mmxisf.Reader

set_option autoImplicit false

open Library (slice)
open Library.Routine (wp Run)

/-! ## The ranges of an opened unit -/

/-- A unit that was opened from a source that keeps its bytes. -/
structure OpenedUnit (L : Type) (platform : Platform) where
  file : SourceFile
  options : ReaderOptions
  impl : Impl
  store : L
  store' : L
  earlier : Trace
  opening : Trace
  opened : Run ((Environment.stable file.bytes).world platform) (openSource platform options)
    store earlier (.ok impl) store' (earlier ++ opening)

/-- A file whose checks pass is opened. -/
theorem OpenedUnit.of_file {platform : Platform} (file : SourceFile) (options : ReaderOptions)
    (opens : (openFile platform options file.bytes).isOk = true) :
    ∃ opened : OpenedUnit Unit platform, opened.file = file ∧ opened.options = options := by
  have lower : file.bytes.length < UInt64.size := Nat.lt_succ_of_le file.small
  have size : (UInt64.ofNat file.bytes.length).toNat = file.bytes.length :=
    UInt64.toNat_ofNat_of_lt lower
  have contents := @openImpl_contents platform file.bytes options _
    (Nat.le_of_lt_succ (UInt64.ofNat file.bytes.length).toNat_lt) size
  obtain ⟨⟨result, m⟩, t, run⟩ := Library.Program.exists_run
    (@Environment.stable_live platform file.bytes file.small) (openSource platform options ()) []
  obtain ⟨-, ended, added, adds, -⟩ := Library.Routine.run_of_wp
    (@openSource_computes Unit platform file.bytes options _ size () []) run
  rcases ended with rfl | ⟨e, -, stopped, -⟩
  · cases isImpl : openImpl platform options file.bytes (UInt64.ofNat file.bytes.length).toNat
      (Nat.le_of_lt_succ (UInt64.ofNat file.bytes.length).toNat_lt) with
    | ok impl =>
        rw [isImpl, adds] at run
        exact ⟨⟨file, options, impl, (), m, [], added, run⟩, rfl, rfl⟩
    | error e =>
        rw [isImpl] at contents
        cases opened : openFile platform options file.bytes with
        | ok header =>
            rw [opened] at contents
            cases contents
        | error e' =>
            rw [opened] at opens
            cases opens
  · cases stopped

/-- A header with one image, whose one byte is at the end of the file. -/
def oneByteEvents : List XmlEvent :=
  unitEvents [] (xisfElement "Image" [("geometry", "1:1:1"), ("sampleFormat", "UInt8"),
    ("colorSpace", "Gray"), ("location", "attachment:1024:1")] [])

def oneByteFile : SourceFile where
  bytes :=
    let header := render oneByteEvents
    kSignature ++
      [UInt8.ofNat header.length, UInt8.ofNat (header.length / 256), 0, 0, 0, 0, 0, 0] ++
      header ++ List.replicate (1008 - header.length) 0 ++ [7]
  small := by decide +kernel

example : ∃ opened : OpenedUnit Unit (reporting oneByteEvents), opened.file = oneByteFile := by
  obtain ⟨opened, file, -⟩ := @OpenedUnit.of_file (reporting oneByteEvents) oneByteFile {}
    (by decide +kernel)
  exact ⟨opened, file⟩

/-- Where the payload starts. -/
def Impl.headerEnd (impl : Impl) : Nat := 16 + impl.document.headerLength

/-- Every range that an element of the header declares, whatever the element. -/
def OpenedUnit.ranges {L : Type} {platform : Platform} (opened : OpenedUnit L platform) :
    Multiset AttachedRange :=
  headerRanges platform (slice opened.file.bytes 16 opened.impl.document.headerLength)

/-- Every request of the routine, whatever the source answers, is for bytes of this
block, and there is a block to ask for. -/
def ReadsOwn {L α : Type} (platform : Platform) (block : Option BlockLocation)
    (x : ReadRoutine L α) : Prop :=
  ∀ (env : Environment) (l : L) (s : Trace), wp (env.world platform) x
    (fun _ _ t => ∃ events, t = s ++ events ∧ ∀ event ∈ events, event.isRead = true →
      ∃ own, block = some own ∧ own.kind = .attachment ∧
        ReadBetween own.offset (own.offset + own.size) event) l s

/-- The partition of the payload of an opened unit, and the requests that are made
of it. -/
structure PayloadPartition {L : Type} {platform : Platform} (opened : OpenedUnit L platform) :
    Prop where
  fileSize : opened.impl.document.fileSize = opened.file.bytes.length
  /-- Every attached block of the document lies in the payload and has a byte. -/
  blocks : ∀ block ∈ documentBlocks opened.impl.document, block.kind = .attachment →
    AttachedRange.InPayload opened.impl.headerEnd opened.file.bytes.length
      ⟨block.offset, block.size⟩
  /-- Each descriptor has a declared range of its own. -/
  declared : documentRanges opened.impl.document ≤ opened.ranges
  /-- The declared ranges lie in the payload, one after another. -/
  ordered : ∃ order : List AttachedRange, (order : Multiset AttachedRange) = opened.ranges ∧
    PayloadOrder opened.impl.headerEnd opened.file.bytes.length order
  /-- The sums of an offset that a read makes inside a range stay within 64 bits. -/
  noWrap : ∀ range ∈ opened.ranges, ∀ start total, start + total ≤ range.size →
    wrapAdd (wrapAdd range.offset start) total = range.offset + start + total
  /-- A byte of the payload is in exactly one declared range, or it is in none and zero. -/
  bytes : ∀ i, opened.impl.headerEnd ≤ i → i < opened.file.bytes.length →
    opened.ranges.countP (·.Contains i) = 1 ∨
      opened.ranges.countP (·.Contains i) = 0 ∧ opened.file.bytes[i]? = some 0
  /-- Opening asks for the preamble and the header, and for bytes that are in no declared
  range. -/
  opening : ∀ event ∈ opened.opening, ReadBetween 0 opened.impl.headerEnd event ∨
    ∃ offset size reply, event = .read offset size reply ∧ opened.impl.headerEnd ≤ offset ∧
      offset + size ≤ opened.file.bytes.length ∧
      ∀ range ∈ opened.ranges, offset + size ≤ range.offset ∨ range.offset + range.size ≤ offset
  image : ∀ (M : Type) (index : Nat) (options : ImageReadOptions),
    ReadsOwn platform ((opened.impl.document.images[index]?).map ImageInfo.block)
      (readImage (L := M) platform opened.impl index options)
  imageInto : ∀ (M : Type) (index : Nat) (destination : Bytes) (options : ImageReadOptions),
    ReadsOwn platform ((opened.impl.document.images[index]?).map ImageInfo.block)
      (readImageInto (L := M) platform opened.impl index destination options)
  rows : ∀ (M : Type) (index : Nat) (options : ImageRowReadOptions),
    ReadsOwn platform ((opened.impl.document.images[index]?).map ImageInfo.block)
      (readImageRows (L := M) platform opened.impl index options)
  property : ∀ (M : Type) (index : Nat) (byteOrder : ByteOrderOutput),
    ReadsOwn platform ((opened.impl.document.metadata[index]?).map MetadataEntry.block)
      (readPropertyBlock (L := M) platform opened.impl index byteOrder)
  iccProfile : ∀ (M : Type) (index : Nat),
    ReadsOwn platform ((opened.impl.document.iccProfiles[index]?).map IccProfileInfo.block)
      (readIccProfile (L := M) platform opened.impl index)
  thumbnail : ∀ (M : Type) (index : Nat),
    ReadsOwn platform ((opened.impl.document.thumbnails[index]?).map fun thumbnail =>
      thumbnail.image.block) (readThumbnail (L := M) platform opened.impl index)

/-! ## Requests of one block -/

section

variable {L α P : Type} {platform : Platform} {env : Environment} {place : BlockPlace}
  {own : BlockLocation} {size : Nat} {events : Trace}

/-- The place of a block that is attached is its range. -/
structure IsPlaceOf (own : BlockLocation) (place : BlockPlace) (size : Nat) : Prop where
  offset : place.offset = own.offset
  attached : place.inlineBlock = none → own.kind = .attachment ∧ size = own.size

/-- All requests among the events are for bytes of the block. -/
def AllOwn (own : BlockLocation) (events : Trace) : Prop :=
  ∀ event ∈ events, event.isRead = true →
    own.kind = .attachment ∧ ReadBetween own.offset (own.offset + own.size) event

namespace AllOwn

theorem nil : AllOwn own [] := by simp [AllOwn]

theorem append {later : Trace} (first : AllOwn own events) (second : AllOwn own later) :
    AllOwn own (events ++ later) := by
  intro event member
  rcases List.mem_append.mp member with before | after
  · exact first event before
  · exact second event after

theorem of_within (isPlace : IsPlaceOf own place size)
    (within : ReadsWithin env place 0 size events) : AllOwn own events := by
  intro event member _
  obtain ⟨attached, offset, count, reply, rfl, -, -, above, below⟩ := within event member
  obtain ⟨kind, rfl⟩ := isPlace.attached attached
  rw [isPlace.offset] at above below
  exact ⟨kind, offset, count, reply, rfl, above, below⟩

/-- The other events are no requests. -/
theorem of_filter (reads : AllOwn own (events.filter ReadEvent.isRead)) : AllOwn own events :=
  fun event member isRead => reads event (List.mem_filter.mpr ⟨member, isRead⟩) isRead

end AllOwn

theorem BlockOutcome.allOwn {checksum : ChecksumPlan} {value : Bytes → Result α → Prop}
    {result : Result α} (isPlace : IsPlaceOf own place size)
    (outcome : BlockOutcome platform env place size checksum value result events) :
    AllOwn own events := by
  cases outcome with
  | failed within cause => exact .of_within isPlace within
  | mismatch within whole obtained declared differs => exact .of_within isPlace within
  | used within whole obtained verified slices ends =>
      refine (AllOwn.of_within isPlace within).append fun event member isRead => ?_
      obtain ⟨codec, start, count, size, windowLog, rfl⟩ := slices event member
      cases isRead

theorem Progress.allOwn {context : RowContext} {result : Result Unit} {serialized decoded : Bytes}
    (isPlace : IsPlaceOf own context.plan.place context.plan.serializedBytes)
    (progress : Progress platform env context result serialized decoded events) :
    AllOwn own events :=
  .of_filter (.of_within isPlace progress.within)

theorem DeliveryOutcome.allOwn {context : RowContext} {result : Result Unit}
    (isPlace : IsPlaceOf own context.plan.place context.plan.serializedBytes)
    (outcome : DeliveryOutcome platform env context result events) : AllOwn own events := by
  cases outcome with
  | complete progress whole decodes verified => exact progress.allOwn isPlace
  | mismatch progress whole declared differs => exact progress.allOwn isPlace
  | stopped progress cancelled => exact progress.allOwn isPlace
  | refused progress => exact progress.allOwn isPlace
  | readFailed progress within cause =>
      exact (progress.allOwn isPlace).append (.of_within isPlace within)
  | undecodable progress cause => exact progress.allOwn isPlace

theorem RowReadOutcome.allOwn {plan : ImageReadPlan} {readOptions : ImageRowReadOptions}
    {outputByteOrder : ByteOrder} {result : Result ImageRowReadSummary}
    (isPlace : IsPlaceOf own plan.place plan.serializedBytes)
    (outcome : RowReadOutcome platform env plan readOptions outputByteOrder result events) :
    AllOwn own events := by
  cases outcome with
  | zeroLimits zero => exact .nil
  | stopped cancelled => exact .nil
  | beyondLimits beyond => exact .nil
  | unverified declared within cause => exact .of_within isPlace within
  | delivered limits within verified outcome summary =>
      exact (AllOwn.of_within isPlace within).append
        (@DeliveryOutcome.allOwn _ _ _ _ ⟨plan, rowSizes plan, outputByteOrder⟩ _ isPlace outcome)

/-- A read whose plan is for a block of the document keeps to that block. -/
theorem readsOwn_of_planned {block : Option BlockLocation} {planned : Result P}
    {outcome : Environment → P → Result α → Trace → Prop} {x : ReadRoutine L α}
    (reads : ∀ env, ReadsPlanned platform env planned (outcome env) x)
    (keeps : ∀ env plan result events, planned = .ok plan → outcome env plan result events →
      ∃ own, block = some own ∧ AllOwn own events) : ReadsOwn platform block x := by
  intro env l s
  refine Library.Routine.wp_mono ?_ (reads env l s)
  rintro result m t ⟨-, events, rfl, ended⟩
  refine ⟨events, rfl, ?_⟩
  unfold PlannedOutcome at ended
  cases plan : planned with
  | error e =>
      rw [plan] at ended
      obtain ⟨-, rfl⟩ := ended
      simp
  | ok plan' =>
      rw [plan] at ended
      obtain ⟨own, found, all⟩ := keeps env plan' result events plan ended
      intro event member isRead
      exact ⟨own, found, all event member isRead⟩

end

/-! ## The reads of a unit -/

section

variable {L : Type} {platform : Platform}

theorem ImageReadPlan.Sound.isPlaceOf {plan : ImageReadPlan} (sound : plan.Sound) :
    IsPlaceOf plan.image.block plan.place plan.serializedBytes :=
  ⟨rfl, sound.attached⟩

theorem readImage_own (reader : Impl) (index : Nat) (options : ImageReadOptions) :
    ReadsOwn platform ((reader.document.images[index]?).map ImageInfo.block)
      (readImage (L := L) platform reader index options) := by
  refine readsOwn_of_planned (fun env => readImage_reads reader index options) ?_
  intro env plan result events planned outcome
  obtain ⟨sound, found⟩ := planImageRead_sound reader.wellFormed planned
  exact ⟨_, by rw [found]; rfl, outcome.allOwn sound.isPlaceOf⟩

theorem readImageInto_own (reader : Impl) (index : Nat) (destination : Bytes)
    (options : ImageReadOptions) :
    ReadsOwn platform ((reader.document.images[index]?).map ImageInfo.block)
      (readImageInto (L := L) platform reader index destination options) := by
  refine readsOwn_of_planned (fun env => readImageInto_reads reader index destination options) ?_
  rintro env plan result events planned outcome
  obtain ⟨sound, found⟩ := planImageRead_sound reader.wellFormed planned
  refine ⟨_, by rw [found]; rfl, ?_⟩
  rcases outcome with ⟨-, rfl, -⟩ | ⟨-, outcome⟩
  · exact .nil
  · exact outcome.allOwn sound.isPlaceOf

theorem readImageRows_own (reader : Impl) (index : Nat) (options : ImageRowReadOptions) :
    ReadsOwn platform ((reader.document.images[index]?).map ImageInfo.block)
      (readImageRows (L := L) platform reader index options) := by
  refine readsOwn_of_planned (fun env => readImageRows_reads reader index options) ?_
  intro env plan result events planned outcome
  obtain ⟨sound, found⟩ := planImageRead_sound reader.wellFormed planned
  exact ⟨_, by rw [found]; rfl, outcome.allOwn sound.isPlaceOf⟩

theorem readPropertyBlock_own (reader : Impl) (index : Nat) (byteOrder : ByteOrderOutput) :
    ReadsOwn platform ((reader.document.metadata[index]?).map MetadataEntry.block)
      (readPropertyBlock (L := L) platform reader index byteOrder) := by
  refine readsOwn_of_planned (fun env => readPropertyBlock_reads reader index byteOrder) ?_
  intro env plan result events planned outcome
  obtain ⟨sound, found⟩ := planPropertyRead_sound reader.wellFormed planned
  exact ⟨_, by rw [found]; rfl, outcome.allOwn ⟨rfl, sound.attached⟩⟩

theorem readIccProfile_own (reader : Impl) (index : Nat) :
    ReadsOwn platform ((reader.document.iccProfiles[index]?).map IccProfileInfo.block)
      (readIccProfile (L := L) platform reader index) := by
  refine readsOwn_of_planned (fun env => readIccProfile_reads reader index) ?_
  intro env plan result events planned outcome
  obtain ⟨sound, found⟩ := planIccProfileRead_sound reader.wellFormed planned
  exact ⟨_, by rw [found]; rfl, outcome.allOwn ⟨rfl, sound.attached⟩⟩

theorem readThumbnail_own (reader : Impl) (index : Nat) :
    ReadsOwn platform ((reader.document.thumbnails[index]?).map fun thumbnail =>
      thumbnail.image.block) (readThumbnail (L := L) platform reader index) := by
  refine readsOwn_of_planned (fun env => readThumbnail_reads reader index) ?_
  intro env plan result events planned outcome
  obtain ⟨sound, found⟩ := planThumbnailRead_sound reader.wellFormed planned
  refine ⟨plan.image.block, ?_, outcome.allOwn sound.isPlaceOf⟩
  cases entry : reader.document.thumbnails[index]? with
  | none =>
      rw [entry] at found
      cases found
  | some thumbnail =>
      rw [entry, Option.map_some, Option.some.injEq] at found
      rw [Option.map_some, ← found]

end

/-! ## The opened unit -/

section

variable {L : Type} {platform : Platform}

/-- In ranges that follow one another, a byte is in one at most. -/
theorem countP_contains_le {ranges : List AttachedRange}
    (ordered : ranges.Pairwise AttachedRange.Before) (i : Nat) :
    ranges.countP (fun range => decide (range.Contains i)) ≤ 1 := by
  induction ranges with
  | nil => simp
  | cons range rest ih =>
      obtain ⟨after, later⟩ := List.pairwise_cons.mp ordered
      rw [List.countP_cons]
      by_cases here : range.Contains i
      · have none : rest.countP (fun range => decide (range.Contains i)) = 0 := by
          rw [List.countP_eq_zero]
          intro other member
          have apart : range.offset + range.size ≤ other.offset := after other member
          have inside : range.offset ≤ i ∧ i < range.offset + range.size := here
          rw [decide_eq_true_eq]
          rintro ⟨start, -⟩
          omega
        rw [none]
        split <;> omega
      · rw [if_neg (by simpa using here)]
        exact ih later

/-- What an opened unit was made from. -/
theorem OpenedUnit.from_file (opened : OpenedUnit L platform) :
    ∃ headerLength header, OpensWith platform opened.options opened.file.bytes headerLength header ∧
      16 + headerLength ≤ opened.file.bytes.length ∧
      unusedOf opened.options opened.file.bytes (16 + headerLength) header.attachedRanges = .ok () ∧
      opened.impl.contents = header.contents ∧
      ∀ event ∈ opened.opening, OpeningRead platform opened.options opened.file.bytes event := by
  let size := UInt64.ofNat opened.file.bytes.length
  have same : size.toNat = opened.file.bytes.length :=
    UInt64.toNat_ofNat_of_lt (Nat.lt_succ_of_le opened.file.small)
  obtain ⟨-, outcome, added, grown, requests⟩ := Library.Routine.run_of_wp
    (@openSource_computes L platform opened.file.bytes opened.options size same opened.store
      opened.earlier) opened.opened
  obtain rfl := List.append_cancel_left grown
  rcases outcome with result | ⟨e, impossible, -⟩
  · have contents := @openImpl_contents platform opened.file.bytes opened.options _
      (Nat.le_of_lt_succ size.toNat_lt) same
    rw [← result] at contents
    obtain ⟨header, opens, same'⟩ := map_eq_ok.mp contents.symm
    obtain ⟨headerLength, made, inside, unused⟩ := openFile_eq opens
    exact ⟨headerLength, header, made, inside, unused, same'.symm, requests⟩
  · cases impossible

end

/-- The payload of a unit that opens is partitioned, and every read keeps to its own. -/
theorem payloadPartition {L : Type} {platform : Platform} (opened : OpenedUnit L platform) :
    PayloadPartition opened := by
  obtain ⟨headerLength, header, opens, inside, unused, contents, requests⟩ := opened.from_file
  have small := opened.file.small
  obtain ⟨wellFormed, fileSize, sameLength, payload, covered, collected⟩ :=
    wellFormed_of_parseHeader small opens.parsed
  have document : opened.impl.document = header.document := congrArg UnitContents.document contents
  have length : opened.impl.document.headerLength = headerLength := by rw [document, sameLength]
  have headerEnd : opened.impl.headerEnd = 16 + headerLength := by rw [Impl.headerEnd, length]
  have ranges : opened.ranges = (header.attachedRanges : Multiset AttachedRange) := by
    rw [OpenedUnit.ranges, length, collected]
  constructor
  case fileSize => rw [document, fileSize]
  case blocks =>
    intro block member attached
    rw [headerEnd]
    rw [document] at member
    have inPayload := wellFormed.block_inPayload member attached
    rwa [sameLength, fileSize] at inPayload
  case declared =>
    rw [ranges, document]
    exact covered
  case ordered => exact ⟨header.attachedRanges, ranges.symm, headerEnd ▸ payload⟩
  case noWrap =>
    intro range member start total within
    rw [ranges] at member
    have stop := (payload.inside range (Multiset.mem_coe.mp member)).stop
    rw [@wrapAdd_eq range.offset start (by omega), wrapAdd_eq (by omega)]
  case bytes =>
    intro i above below
    rw [headerEnd] at above
    rw [ranges, Multiset.coe_countP]
    have once := countP_contains_le payload.ordered i
    by_cases none : header.attachedRanges.countP (fun range => decide (range.Contains i)) = 0
    · refine .inr ⟨none, ?_⟩
      refine unusedOf_zero small inside (checkRanges_of_parseHeader opens.parsed) unused i above
        below fun range member => ?_
      simpa using List.countP_eq_zero.mp none range member
    · exact .inl (by omega)
  case opening =>
    intro event member
    rw [headerEnd, ranges]
    rcases (requests event member).2 headerLength header opens with before | gap
    · exact .inl before
    · exact .inr gap
  case image => exact fun M index options => readImage_own opened.impl index options
  case imageInto =>
    exact fun M index destination options => readImageInto_own opened.impl index destination options
  case rows => exact fun M index options => readImageRows_own opened.impl index options
  case property => exact fun M index byteOrder => readPropertyBlock_own opened.impl index byteOrder
  case iccProfile => exact fun M index => readIccProfile_own opened.impl index
  case thumbnail => exact fun M index => readThumbnail_own opened.impl index

end Mmxisf.Reader
