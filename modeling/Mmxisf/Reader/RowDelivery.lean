/-
# Reader.RowDelivery -- the delivery loops of `read_image_rows`

The rows are made while the block is read.  `Progress` is the invariant of that:
the serialized bytes so far came in one pass, the decoded bytes so far are the
beginning of whatever the block decodes to, and the sink was shown exactly the
rows that are whole in them.  `Holding` says what the reused buffers and counters
hold between two steps.  `DeliveryOutcome` is how a delivery ends.
-/
import Mmxisf.Reader.Rows
import Mmxisf.Reader.WholeReads

namespace Mmxisf.Reader

set_option autoImplicit false

open Library (slice overwrite)
open Library.Routine (wp ofExcept)

namespace ReadEvent

def isRead : ReadEvent → Bool
  | .read .. => true
  | _ => false

def isConsumed : ReadEvent → Bool
  | .consumed .. => true
  | _ => false

end ReadEvent

/-! ## Row plans -/

/-- The staging limits of a row delivery: a source row, every subblock, and no
shuffle across subblocks. -/
structure WithinRowLimits (plan : ImageReadPlan) (readOptions : ImageRowReadOptions) : Prop where
  row : rowsPerSource plan * (axis plan.image 0 * plan.sampleSize) ≤ readOptions.maxRowBytes
  subblocks : plan.compression.codec ≠ .none → ∀ subblock ∈ plan.compression.subblocks,
    subblock.compressedSize ≤ readOptions.maxSubblockBytes ∧
      subblock.uncompressedSize ≤ readOptions.maxSubblockBytes
  unshuffled : plan.compression.byteShuffled = true → plan.compression.subblocks.length ≤ 1

section

variable {plan : ImageReadPlan} {rows : RowPlan}

/-- The rows of an image are the image. -/
theorem ImageReadPlan.Sound.rowsTotal (sound : plan.Sound) :
    axis plan.image 1 * plan.channels * (axis plan.image 0 * plan.sampleSize) =
      plan.expectedBytes := by
  rw [sound.bytes, sound.samples, sound.pixels]
  simp only [Nat.mul_comm, Nat.mul_left_comm, Nat.mul_assoc]

theorem rowsPerSource_pos (sound : plan.Sound) : 0 < rowsPerSource plan := by
  unfold rowsPerSource
  cases plan.image.pixelStorage with
  | planar => exact Nat.one_pos
  | normal => exact sound.channels_pos

theorem rowsPerSource_le (sound : plan.Sound) : rowsPerSource plan ≤ plan.channels := by
  unfold rowsPerSource
  cases plan.image.pixelStorage with
  | planar => exact sound.channels_pos
  | normal => exact le_rfl

/-- The sizes of the delivery of an image. -/
def rowSizes (plan : ImageReadPlan) : RowPlan where
  width := axis plan.image 0
  height := axis plan.image 1
  planarRowCount := axis plan.image 1 * plan.channels
  sourceRowCount :=
    if plan.image.pixelStorage = .planar then axis plan.image 1 * plan.channels
    else axis plan.image 1
  planeRowBytes := axis plan.image 0 * plan.sampleSize
  sourceRowBytes := rowsPerSource plan * (axis plan.image 0 * plan.sampleSize)

/-- Row sizes are refused by the staging limits only. -/
theorem planRows_eq_ok (sound : plan.Sound) {readOptions : ImageRowReadOptions} :
    planRows plan readOptions = .ok rows ↔
      WithinRowLimits plan readOptions ∧ rows = rowSizes plan := by
  have total := sound.rowsTotal
  have small := sound.small
  have channels := sound.channels_pos
  have planarRows : axis plan.image 1 * plan.channels ≤ u64Max :=
    (Nat.le_mul_of_pos_right _ (Nat.mul_pos (Nat.pos_of_ne_zero sound.width)
      sound.sample_pos)).trans (total ▸ small)
  have sourceRow : axis plan.image 0 * plan.sampleSize * plan.channels ≤ u64Max := by
    rw [Nat.mul_comm (axis plan.image 1), Nat.mul_assoc, Nat.mul_left_comm] at total
    rw [Nat.mul_comm _ plan.channels]
    exact (Nat.le_mul_of_pos_left _ (Nat.pos_of_ne_zero sound.height)).trans (total ▸ small)
  have planeRow : axis plan.image 0 * plan.sampleSize ≤ u64Max :=
    (Nat.le_mul_of_pos_right _ channels).trans sourceRow
  have perSource : axis plan.image 0 * plan.sampleSize ≤
      rowsPerSource plan * (axis plan.image 0 * plan.sampleSize) :=
    Nat.le_mul_of_pos_left _ (rowsPerSource_pos sound)
  have sourceSmall : rowsPerSource plan * (axis plan.image 0 * plan.sampleSize) ≤ u64Max := by
    refine (Nat.mul_le_mul_right _ (rowsPerSource_le sound)).trans ?_
    rwa [Nat.mul_comm plan.channels]
  have sourceBytes : (if plan.image.pixelStorage = .normal then
        checkedMultiply (axis plan.image 0 * plan.sampleSize) plan.channels
      else some (axis plan.image 0 * plan.sampleSize)) =
      some (rowsPerSource plan * (axis plan.image 0 * plan.sampleSize)) := by
    unfold rowsPerSource
    cases plan.image.pixelStorage with
    | planar => simp
    | normal =>
        rw [if_pos rfl, Nat.mul_comm plan.channels]
        exact checkedMultiply_eq_some.mpr ⟨rfl, .inr sourceRow⟩
  have geometry : ¬ (axis plan.image 0 = 0 ∨ axis plan.image 1 = 0 ∨ plan.channels = 0) := by
    simp only [sound.width, sound.height, sound.channels, or_self, not_false_eq_true]
  have exceeded : ¬ (axis plan.image 0 * plan.sampleSize > readOptions.maxRowBytes ∨
        rowsPerSource plan * (axis plan.image 0 * plan.sampleSize) > readOptions.maxRowBytes ∨
        rowsPerSource plan * (axis plan.image 0 * plan.sampleSize) > u64Max ∨
        axis plan.image 0 * plan.sampleSize > u64Max) ↔
      rowsPerSource plan * (axis plan.image 0 * plan.sampleSize) ≤ readOptions.maxRowBytes := by
    omega
  have staged : ¬ (plan.compression.codec ≠ .none ∧
        plan.compression.subblocks.any (fun subblock =>
          subblock.compressedSize > readOptions.maxSubblockBytes ||
            subblock.uncompressedSize > readOptions.maxSubblockBytes) = true) ↔
      (plan.compression.codec ≠ .none → ∀ subblock ∈ plan.compression.subblocks,
        subblock.compressedSize ≤ readOptions.maxSubblockBytes ∧
          subblock.uncompressedSize ≤ readOptions.maxSubblockBytes) := by
    simp only [not_and, Bool.not_eq_true, List.any_eq_false, Nat.not_lt, gt_iff_lt,
      Bool.or_eq_true, decide_eq_true_eq, not_or]
  simp only [planRows, bind_eq_ok, reject_eq_ok, orFail_eq_ok, exists_const, geometry,
    not_false_eq_true, true_and, checkedMultiply_eq_some.mpr ⟨rfl, Or.inr planarRows⟩,
    checkedMultiply_eq_some.mpr ⟨rfl, Or.inr planeRow⟩, sourceBytes, Option.some.injEq,
    exists_eq_left', exceeded, staged, not_and, Nat.not_lt, gt_iff_lt, pure, Except.pure,
    Except.ok.injEq]
  constructor
  · rintro ⟨row, subblocks, unshuffled, rfl⟩
    exact ⟨⟨row, subblocks, unshuffled⟩, rfl⟩
  · rintro ⟨⟨row, subblocks, unshuffled⟩, rfl⟩
    exact ⟨row, subblocks, unshuffled, rfl⟩

theorem rowSizes_fits (plan : ImageReadPlan) : (rowSizes plan).Fits plan := by
  refine ⟨rfl, rfl, rfl, rfl, rfl, ?_⟩
  simp only [rowSizes, rowsPerSource]
  cases plan.image.pixelStorage with
  | planar => rw [if_pos rfl, Nat.mul_one]
  | normal => rw [if_neg (by simp)]

end

/-! ## Progress of a delivery -/

section

variable {platform : Platform} {env : Environment} {context : RowContext}

/-- After these serialized bytes, which decode to these bytes so far, the sink
was shown the rows that are whole. -/
structure Progress (platform : Platform) (env : Environment) (context : RowContext)
    (result : Result Unit) (serialized decoded : Bytes) (events : Trace) : Prop where
  emits : Emits env (pixelRows context decoded) result (events.filter ReadEvent.isConsumed)
  within : ReadsWithin env context.plan.place 0 context.plan.serializedBytes
    (events.filter ReadEvent.isRead)
  obtained : Obtained env context.plan.place context.plan.serializedBytes 0 serialized
    (events.filter ReadEvent.isRead)
  slices : ∀ event ∈ events, event.isRead = true ∨ event.isConsumed = true ∨
    DecompressesSlice serialized event
  future : ∀ whole pixels, serialized <+: whole →
    blockBytes platform context.plan.compression whole = .ok pixels → decoded <+: pixels
  fits : decoded.length ≤ context.plan.expectedBytes
  short : serialized.length ≤ context.plan.serializedBytes

/-- The buffers and counters of a delivery between two steps. -/
structure Holding (context : RowContext) (serialized decoded : Bytes) (l : RowDelivery) :
    Prop where
  sourceRow : l.sourceRow.length = context.rows.sourceRowBytes
  planeRow : context.plan.image.pixelStorage = .normal →
    l.planeRow.length = context.rows.planeRowBytes
  ordinal : l.sourceRowOrdinal = decoded.length / context.rows.sourceRowBytes
  rowFill : l.rowFill = decoded.length % context.rows.sourceRowBytes
  filled : slice l.sourceRow 0 l.rowFill =
    slice decoded (l.sourceRowOrdinal * context.rows.sourceRowBytes) l.rowFill
  rows : l.rowsDelivered = l.sourceRowOrdinal * rowsPerSource context.plan
  bytes : l.bytesDelivered = l.sourceRowOrdinal * context.rows.sourceRowBytes
  hashed : l.hashed = serialized

theorem isRead_of_within {place : BlockPlace} {start stop : Nat} {events : Trace}
    (within : ReadsWithin env place start stop events) :
    events.filter ReadEvent.isRead = events ∧ events.filter ReadEvent.isConsumed = [] := by
  have reads : ∀ event ∈ events, event.isRead = true ∧ event.isConsumed = false := by
    intro event member
    obtain ⟨-, offset, size, reply, rfl, -⟩ := within event member
    exact ⟨rfl, rfl⟩
  exact ⟨List.filter_eq_self.mpr fun event member => (reads event member).1,
    List.filter_eq_nil_iff.mpr fun event member => by simp [(reads event member).2]⟩

theorem isConsumed_of_emits {views : List ImageRowView} {result : Result Unit} {events : Trace}
    (emits : Emits env views result events) :
    events.filter ReadEvent.isConsumed = events ∧ events.filter ReadEvent.isRead = [] := by
  have consumed : ∀ event ∈ events, event.isConsumed = true ∧ event.isRead = false := by
    intro event member
    have of_shown : ∀ {views : List ImageRowView}, event ∈ shown views →
        event.isConsumed = true ∧ event.isRead = false := by
      intro views member
      obtain ⟨view, -, rfl⟩ := List.mem_map.mp member
      exact ⟨rfl, rfl⟩
    cases emits with
    | all => exact of_shown member
    | cancelled split cancelled => exact of_shown member
    | refused split refusal =>
        rcases List.mem_append.mp member with before | last
        · exact of_shown before
        · rw [List.mem_singleton.mp last]
          exact ⟨rfl, rfl⟩
  exact ⟨List.filter_eq_self.mpr fun event member => (consumed event member).1,
    List.filter_eq_nil_iff.mpr fun event member => by simp [(consumed event member).2]⟩

theorem isComputed_of_slices {serialized : Bytes} {events : Trace}
    (slices : ∀ event ∈ events, DecompressesSlice serialized event) :
    events.filter ReadEvent.isRead = [] ∧ events.filter ReadEvent.isConsumed = [] := by
  have computed : ∀ event ∈ events, event.isRead = false ∧ event.isConsumed = false := by
    intro event member
    obtain ⟨codec, start, count, size, windowLog, rfl⟩ := slices event member
    exact ⟨rfl, rfl⟩
  exact ⟨List.filter_eq_nil_iff.mpr fun event member => by simp [(computed event member).1],
    List.filter_eq_nil_iff.mpr fun event member => by simp [(computed event member).2]⟩

theorem DecompressesSlice.append {serialized : Bytes} (more : Bytes) {event : ReadEvent}
    (holds : DecompressesSlice serialized event) :
    DecompressesSlice (serialized ++ more) event := by
  obtain ⟨codec, start, count, size, windowLog, rfl⟩ := holds
  refine ⟨codec, start, min count (serialized.length - start), size, windowLog, ?_⟩
  congr 1
  apply List.ext_getElem?
  intro i
  simp only [Library.getElem?_slice]
  by_cases small : i < min count (serialized.length - start)
  · rw [if_pos small, if_pos (by omega), List.getElem?_append_left (by omega)]
  · rw [if_neg small]
    by_cases inside : i < count
    · rw [if_pos inside, List.getElem?_eq_none (by omega)]
    · rw [if_neg inside]

theorem DecompressesSlice.after (serialized : Bytes) {piece : Bytes} {event : ReadEvent}
    (holds : DecompressesSlice piece event) : DecompressesSlice (serialized ++ piece) event := by
  obtain ⟨codec, start, count, size, windowLog, rfl⟩ := holds
  exact ⟨codec, serialized.length + start, count, size, windowLog, by
    rw [Library.slice_append_right]⟩

namespace Progress

variable {serialized decoded : Bytes} {events later : Trace}

theorem start (context : RowContext) : Progress platform env context (.ok ()) [] [] [] where
  emits := by
    have none : pixelRows context [] = [] := by simp [pixelRows, rowsFrom]
    rw [none]
    exact .all
  within := .nil
  obtained := .nil
  slices := by simp
  future := fun _ _ _ _ => List.nil_prefix
  fits := Nat.zero_le _
  short := Nat.zero_le _

/-- Serialized bytes were read. -/
theorem read {piece : Bytes}
    (inside : serialized.length + piece.length ≤ context.plan.serializedBytes)
    (within : ReadsWithin env context.plan.place 0 context.plan.serializedBytes later)
    (obtained : Obtained env context.plan.place context.plan.serializedBytes serialized.length piece
      later)
    (progress : Progress platform env context (.ok ()) serialized decoded events) :
    Progress platform env context (.ok ()) (serialized ++ piece) decoded (events ++ later) := by
  obtain ⟨reads, quiet⟩ := isRead_of_within within
  refine ⟨?_, ?_, ?_, ?_, ?_, progress.fits, by rwa [List.length_append]⟩
  · rw [List.filter_append, quiet, List.append_nil]
    exact progress.emits
  · rw [List.filter_append, reads]
    exact progress.within.append within
  · rw [List.filter_append, reads]
    exact progress.obtained.append (by rwa [Nat.zero_add])
  · intro event member
    rcases List.mem_append.mp member with before | after
    · rcases progress.slices event before with read | consumed | slice
      · exact .inl read
      · exact .inr (.inl consumed)
      · exact .inr (.inr (slice.append piece))
    · exact .inl (List.filter_eq_self.mp reads event after)
  · intro whole pixels first
    exact progress.future whole pixels ((List.prefix_append _ _).trans first)

/-- Subblocks were decompressed. -/
theorem compute {result : Result Unit}
    (slices : ∀ event ∈ later, DecompressesSlice serialized event)
    (progress : Progress platform env context result serialized decoded events) :
    Progress platform env context result serialized decoded (events ++ later) := by
  obtain ⟨noReads, quiet⟩ := isComputed_of_slices slices
  refine ⟨?_, ?_, ?_, ?_, progress.future, progress.fits, progress.short⟩
  · rw [List.filter_append, quiet, List.append_nil]
    exact progress.emits
  · rw [List.filter_append, noReads, List.append_nil]
    exact progress.within
  · rw [List.filter_append, noReads, List.append_nil]
    exact progress.obtained
  · intro event member
    rcases List.mem_append.mp member with before | after
    · exact progress.slices event before
    · exact .inr (.inr (slices event after))

/-- Decoded bytes were turned into rows. -/
theorem show_ {result : Result Unit} (more : Bytes)
    (emits : Emits env (rowsFrom context (decoded ++ more)
      (decoded.length / context.rows.sourceRowBytes)
      ((decoded ++ more).length / context.rows.sourceRowBytes -
        decoded.length / context.rows.sourceRowBytes)) result later)
    (future : ∀ whole pixels, serialized <+: whole →
      blockBytes platform context.plan.compression whole = .ok pixels → decoded ++ more <+: pixels)
    (fits : (decoded ++ more).length ≤ context.plan.expectedBytes)
    (progress : Progress platform env context (.ok ()) serialized decoded events) :
    Progress platform env context result serialized (decoded ++ more) (events ++ later) := by
  obtain ⟨consumed, noReads⟩ := isConsumed_of_emits emits
  refine ⟨?_, ?_, ?_, ?_, future, fits, progress.short⟩
  · rw [List.filter_append, consumed, pixelRows_append]
    exact progress.emits.append emits
  · rw [List.filter_append, noReads, List.append_nil]
    exact progress.within
  · rw [List.filter_append, noReads, List.append_nil]
    exact progress.obtained
  · intro event member
    rcases List.mem_append.mp member with before | after
    · exact progress.slices event before
    · exact .inr (.inl (List.filter_eq_self.mp consumed event after))

end Progress

/-- How a delivery ends, with the events it adds. -/
inductive DeliveryOutcome (platform : Platform) (env : Environment) (context : RowContext) :
    Result Unit → Trace → Prop
  | complete {serialized decoded : Bytes} {events : Trace}
      (progress : Progress platform env context (.ok ()) serialized decoded events)
      (whole : serialized.length = context.plan.serializedBytes)
      (decodes : blockBytes platform context.plan.compression serialized = .ok decoded)
      (verified : context.plan.checksum.algorithm ≠ .none →
        digestMatches platform context.plan.checksum serialized = true) :
      DeliveryOutcome platform env context (.ok ()) events
  | mismatch {serialized decoded : Bytes} {events : Trace} {e : Error}
      (progress : Progress platform env context (.ok ()) serialized decoded events)
      (whole : serialized.length = context.plan.serializedBytes)
      (declared : context.plan.checksum.algorithm ≠ .none)
      (differs : digestMatches platform context.plan.checksum serialized = false) :
      DeliveryOutcome platform env context (.error e) events
  | stopped {serialized decoded : Bytes} {events : Trace} {e : Error}
      (progress : Progress platform env context (.ok ()) serialized decoded events)
      (cancelled : Cancelled env e) : DeliveryOutcome platform env context (.error e) events
  | refused {serialized decoded : Bytes} {events : Trace} {e : Error}
      (progress : Progress platform env context (.error e) serialized decoded events) :
      DeliveryOutcome platform env context (.error e) events
  | readFailed {serialized decoded : Bytes} {events later : Trace} {e : Error}
      (progress : Progress platform env context (.ok ()) serialized decoded events)
      (within : ReadsWithin env context.plan.place 0 context.plan.serializedBytes later)
      (cause : FailedRead env later e) :
      DeliveryOutcome platform env context (.error e) (events ++ later)
  | undecodable {serialized decoded : Bytes} {events : Trace} {e : Error}
      (progress : Progress platform env context (.ok ()) serialized decoded events)
      (cause : ∀ whole, serialized <+: whole →
        ∃ e, blockBytes platform context.plan.compression whole = .error e) :
      DeliveryOutcome platform env context (.error e) events

/-! ## The delivery loops -/

variable {serialized decoded : Bytes} {l : RowDelivery}

theorem Holding.start (plan : ImageReadPlan) (outputByteOrder : ByteOrder) :
    Holding ⟨plan, rowSizes plan, outputByteOrder⟩ [] []
    (RowDelivery.start plan (rowSizes plan)) := by
  refine ⟨List.length_replicate, fun normal => ?_, ?_, ?_, ?_, ?_, ?_, rfl⟩
  · have interleaved : plan.image.pixelStorage = .normal := normal
    simp only [RowDelivery.start, interleaved, if_true, zeros, List.length_replicate]
  all_goals simp [RowDelivery.start]

/-- A whole source row is in the buffer: it is shown, and the buffer is free. -/
theorem emitSourceRow_holding (sound : context.plan.Sound)
    (fits : context.rows.Fits context.plan) (positive : 0 < context.rows.sourceRowBytes)
    (sourceLength : l.sourceRow.length = context.rows.sourceRowBytes)
    (planeLength : context.plan.image.pixelStorage = .normal →
      l.planeRow.length = context.rows.planeRowBytes)
    (length : decoded.length = (l.sourceRowOrdinal + 1) * context.rows.sourceRowBytes)
    (row : l.sourceRow = slice decoded (l.sourceRowOrdinal * context.rows.sourceRowBytes)
      context.rows.sourceRowBytes)
    (rows : l.rowsDelivered = l.sourceRowOrdinal * rowsPerSource context.plan)
    (bytes : l.bytesDelivered = l.sourceRowOrdinal * context.rows.sourceRowBytes)
    (hashed : l.hashed = serialized) :
    Shows platform env (rowsFrom context decoded l.sourceRowOrdinal 1)
      (fun _ m => Holding context serialized decoded { m with rowFill := 0 } ∧
        m.rowFill = l.rowFill)
      (emitSourceRow context) l := by
  have views : rowsFrom context decoded l.sourceRowOrdinal 1 =
      sourceRowViews context l.sourceRow l.sourceRowOrdinal := by
    simp only [rowsFrom, List.range'_one, List.flatMap_singleton, ← row]
  rw [views]
  intro s
  refine Library.Routine.wp_mono ?_
    (emitSourceRow_shows sound fits sourceLength planeLength s)
  rintro result m t ⟨events, rfl, emits, leaves⟩
  refine ⟨events, rfl, emits, fun a ok => ?_⟩
  have left := leaves a ok
  have ordinal : decoded.length / context.rows.sourceRowBytes = l.sourceRowOrdinal + 1 := by
    rw [length, Nat.mul_div_cancel _ positive]
  have rest : decoded.length % context.rows.sourceRowBytes = 0 := by
    rw [length, Nat.mul_mod_left]
  refine ⟨⟨left.sourceRow, left.planeRow, ?_, rest.symm, ?_, ?_, ?_, ?_⟩, left.rowFill⟩
  · exact left.ordinal.trans ordinal.symm
  · simp only [Library.slice_zero]
  · simp only [left.rows, left.ordinal, rows, Nat.succ_mul]
  · simp only [left.bytes, left.ordinal, bytes, Nat.succ_mul]
  · exact left.hashed.trans hashed

/-- The decoded bytes complete rows, however they are cut. -/
theorem feedDecoded_shows (sound : context.plan.Sound) (fits : context.rows.Fits context.plan)
    (positive : 0 < context.rows.sourceRowBytes) :
    ∀ (fuel : Nat) (more : Bytes) {decoded : Bytes} {l : RowDelivery}, more.length ≤ fuel →
      Holding context serialized decoded l →
      Shows platform env
        (rowsFrom context (decoded ++ more) (decoded.length / context.rows.sourceRowBytes)
          ((decoded ++ more).length / context.rows.sourceRowBytes -
            decoded.length / context.rows.sourceRowBytes))
        (fun _ m => Holding context serialized (decoded ++ more) m)
        (feedDecoded context fuel more) l := by
  intro fuel
  induction fuel with
  | zero =>
      intro more decoded l enough holding
      obtain rfl : more = [] := List.length_eq_zero_iff.mp (by omega)
      rw [List.append_nil, Nat.sub_self]
      exact .pure holding
  | succ fuel ih =>
      intro more decoded l enough holding
      unfold feedDecoded
      by_cases done : more = []
      · subst done
        rw [if_pos rfl, List.append_nil, Nat.sub_self]
        exact .pure holding
      · rw [if_neg done]
        have some : 0 < more.length := List.length_pos_iff.mpr done
        have fillSmall : l.rowFill < context.rows.sourceRowBytes := by
          rw [holding.rowFill]
          exact Nat.mod_lt _ positive
        have parts : l.sourceRowOrdinal * context.rows.sourceRowBytes + l.rowFill =
            decoded.length := by
          rw [holding.ordinal, holding.rowFill, Nat.mul_comm]
          exact Nat.div_add_mod _ _
        intro s
        rw [Library.Routine.wp_bind, Library.Routine.wp_getStore, Library.Routine.continueWith_ok,
          holding.sourceRow]
        dsimp only
        generalize chosen : min (context.rows.sourceRowBytes - l.rowFill) more.length = count
        rw [Library.Routine.wp_bind, Library.Routine.wp_setStore, Library.Routine.continueWith_ok]
        have pieceLength : (more.take count).length = count := by
          rw [List.length_take]
          omega
        have split : decoded ++ more = decoded ++ more.take count ++ more.drop count := by
          rw [List.append_assoc, List.take_append_drop]
        have nextLength : (decoded ++ more.take count).length = decoded.length + count := by
          rw [List.length_append, pieceLength]
        have written : l.rowFill + (more.take count).length ≤ l.sourceRow.length := by
          rw [pieceLength, holding.sourceRow]
          omega
        have bufferLength := (Library.length_overwrite written).trans holding.sourceRow
        -- the filled part of the buffer is the part of the decoded bytes after the last row
        have filled : slice (overwrite l.sourceRow l.rowFill (more.take count)) 0
            (l.rowFill + count) =
            slice (decoded ++ more.take count)
              (l.sourceRowOrdinal * context.rows.sourceRowBytes) (l.rowFill + count) := by
          rw [← Library.slice_append_slice, ← Library.slice_append_slice]
          congr 1
          · rw [Library.slice_overwrite_other written (by omega), holding.filled,
              Library.slice_append_left (by omega)]
          · have same := Library.slice_overwrite_same written
            rw [pieceLength] at same
            rw [Nat.zero_add, same, parts]
            have last := Library.slice_append_right decoded (more.take count) 0 count
            rw [Nat.add_zero] at last
            rw [last, Library.slice_all pieceLength.le]
        have ordinal : decoded.length / context.rows.sourceRowBytes = l.sourceRowOrdinal :=
          holding.ordinal.symm
        by_cases full : l.rowFill + count = context.rows.sourceRowBytes
        · have total : (decoded ++ more.take count).length =
              (l.sourceRowOrdinal + 1) * context.rows.sourceRowBytes := by
            rw [nextLength, Nat.succ_mul]
            omega
          have nextOrdinal : (decoded ++ more.take count).length / context.rows.sourceRowBytes =
              l.sourceRowOrdinal + 1 := by
            rw [total, Nat.mul_div_cancel _ positive]
          have grows : l.sourceRowOrdinal + 1 ≤
              (decoded ++ more).length / context.rows.sourceRowBytes := by
            rw [← nextOrdinal, split]
            exact Nat.div_le_div_right (List.prefix_append _ _).length_le
          have views : rowsFrom context (decoded ++ more)
                (decoded.length / context.rows.sourceRowBytes)
                ((decoded ++ more).length / context.rows.sourceRowBytes -
                  decoded.length / context.rows.sourceRowBytes) =
              rowsFrom context (decoded ++ more.take count) l.sourceRowOrdinal 1 ++
                rowsFrom context (decoded ++ more.take count ++ more.drop count)
                  ((decoded ++ more.take count).length / context.rows.sourceRowBytes)
                  ((decoded ++ more.take count ++ more.drop count).length /
                      context.rows.sourceRowBytes -
                    (decoded ++ more.take count).length / context.rows.sourceRowBytes) := by
            have kept := rowsFrom_append (more.drop count) total.ge
            rw [← kept, ← split, nextOrdinal, rowsFrom_append_count, ordinal]
            congr 1
            omega
          rw [views, split]
          refine @Shows.bind _ _ _ _ _ _ (fun _ m => Holding context serialized
            (decoded ++ more.take count) m) _ _ _ _ ?_ (fun _ m held => ?_) s
          · rw [if_pos full]
            refine (emitSourceRow_holding (l := { l with
                sourceRow := overwrite l.sourceRow l.rowFill (more.take count)
                rowFill := l.rowFill + count }) sound fits positive bufferLength holding.planeRow
              total ?_ holding.rows holding.bytes holding.hashed).andThen fun _ m left => ?_
            · rw [full, Library.slice_all bufferLength.le] at filled
              exact filled
            · exact .modifyStore left.1
          · refine ih (more.drop count) ?_ held
            rw [List.length_drop]
            omega
        · -- the row is not whole yet, so nothing is left to take
          have taken : count = more.length := by omega
          have all : more.take count = more := by rw [taken, List.take_length]
          have nothing : more.drop count = [] := by rw [taken, List.drop_length]
          have stays : (decoded ++ more).length / context.rows.sourceRowBytes =
              l.sourceRowOrdinal := by
            rw [List.length_append, ← taken, ← parts]
            rw [Nat.add_assoc, Nat.add_comm, Nat.add_mul_div_right _ _ positive,
              Nat.div_eq_of_lt (by omega), Nat.zero_add]
          have fill : (decoded ++ more).length % context.rows.sourceRowBytes =
              l.rowFill + count := by
            rw [List.length_append, ← taken, ← parts]
            rw [Nat.add_assoc, Nat.add_comm, Nat.add_mul_mod_self_right,
              Nat.mod_eq_of_lt (by omega)]
          rw [all] at filled bufferLength
          have held : Holding context serialized (decoded ++ more) { l with
              sourceRow := overwrite l.sourceRow l.rowFill more
              rowFill := l.rowFill + count } :=
            ⟨bufferLength, holding.planeRow, stays.symm, fill.symm, filled, holding.rows,
              holding.bytes, holding.hashed⟩
          rw [if_neg full, nothing, all, stays, ordinal, Nat.sub_self]
          have finished : feedDecoded context fuel [] = pure () := by
            cases fuel <;> simp [feedDecoded]
          rw [finished]
          have kept : ∀ {m : RowDelivery}, Holding context serialized (decoded ++ more) m →
              Shows platform env [] (fun (_ : Unit) m =>
                Holding context serialized (decoded ++ more) m)
                (pure ()) m := fun kept => .pure kept
          exact (kept held).andThen (fun _ _ again => kept again) s

/-- What one part of a delivery establishes, after `before`: progress and held
buffers, or an end of the whole delivery. -/
def DeliveredSoFar (platform : Platform) (env : Environment) (context : RowContext)
    (reached : Bytes → Bytes → Prop) (before : Trace) (result : Result Unit) (m : RowDelivery)
    (events : Trace) : Prop :=
  match result with
  | .ok _ => ∃ serialized decoded, reached serialized decoded ∧
      Holding context serialized decoded m ∧
      Progress platform env context (.ok ()) serialized decoded (before ++ events)
  | .error e => DeliveryOutcome platform env context (.error e) (before ++ events)

/-- A routine that continues a delivery. -/
def Delivers (platform : Platform) (env : Environment) (context : RowContext)
    (reached : Bytes → Bytes → Prop) (before : Trace) (x : ReadRoutine RowDelivery Unit)
    (l : RowDelivery) : Prop :=
  ∀ s, wp (env.world platform) x
    (fun result m t => ∃ events, t = s ++ events ∧
      DeliveredSoFar platform env context reached before result m events) l s

/-- A chunk of the block is read first. -/
theorem Delivers.afterRead {reached : Bytes → Bytes → Prop} {before : Trace} {size imageIndex : Nat}
    {next : Bytes → ReadRoutine RowDelivery Unit}
    (holds : context.plan.place.Holds context.plan.serializedBytes)
    (inside : serialized.length + size ≤ context.plan.serializedBytes)
    (progress : Progress platform env context (.ok ()) serialized decoded before)
    (rest : ∀ piece events, piece.length = size →
      Progress platform env context (.ok ()) (serialized ++ piece) decoded (before ++ events) →
      Delivers platform env context reached (before ++ events) (next piece) l) :
    Delivers platform env context reached before
      (readSerializedChunk context.plan serialized.length size imageIndex >>= next) l := by
  intro s
  rw [Library.Routine.wp_bind]
  refine Library.Routine.wp_mono ?_
    (readSerializedChunk_fetches (holds.mono inside) l s)
  rintro result m t ⟨rfl, events, rfl, within, ended⟩
  have widened := within.mono (Nat.zero_le _) inside
  cases result with
  | error e => exact ⟨events, rfl, .readFailed progress widened ended⟩
  | ok piece =>
      rw [Library.Routine.continueWith_ok]
      refine Library.Routine.wp_mono ?_ (rest piece events ended.1
        (progress.read (by rw [ended.1]; exact inside) widened (ended.2.mono inside))
        (s ++ events))
      rintro result n u ⟨more, rfl, delivered⟩
      refine ⟨events ++ more, by rw [List.append_assoc], ?_⟩
      unfold DeliveredSoFar at delivered ⊢
      simpa only [List.append_assoc] using delivered

/-- Rows are shown, and the delivery goes on. -/
theorem Delivers.afterRows {reached : Bytes → Bytes → Prop} {before : Trace} {more : Bytes}
    {x : ReadRoutine RowDelivery Unit} {next : Unit → ReadRoutine RowDelivery Unit}
    (progress : Progress platform env context (.ok ()) serialized decoded before)
    (future : ∀ whole pixels, serialized <+: whole →
      blockBytes platform context.plan.compression whole = .ok pixels → decoded ++ more <+: pixels)
    (fits : (decoded ++ more).length ≤ context.plan.expectedBytes)
    (shows_ : Shows platform env
      (rowsFrom context (decoded ++ more) (decoded.length / context.rows.sourceRowBytes)
        ((decoded ++ more).length / context.rows.sourceRowBytes -
          decoded.length / context.rows.sourceRowBytes))
      (fun _ m => Holding context serialized (decoded ++ more) m) x l)
    (rest : ∀ m events, Holding context serialized (decoded ++ more) m →
      Progress platform env context (.ok ()) serialized (decoded ++ more) (before ++ events) →
      Delivers platform env context reached (before ++ events) (next ()) m) :
    Delivers platform env context reached before (x >>= next) l := by
  intro s
  rw [Library.Routine.wp_bind]
  refine Library.Routine.wp_mono ?_ (shows_ s)
  rintro (e | _) m t ⟨events, rfl, emits, leaves⟩
  · exact ⟨events, rfl, .refused (progress.show_ more emits future fits)⟩
  · rw [Library.Routine.continueWith_ok]
    refine Library.Routine.wp_mono ?_ (rest m events (leaves () rfl)
      (progress.show_ more emits future fits) (s ++ events))
    rintro result n u ⟨later, rfl, delivered⟩
    refine ⟨events ++ later, by rw [List.append_assoc], ?_⟩
    unfold DeliveredSoFar at delivered ⊢
    simpa only [List.append_assoc] using delivered

/-- The rows of a block without a codec are its bytes. -/
theorem deliverUncompressed_delivers (sound : context.plan.Sound)
    (fits : context.rows.Fits context.plan) (positive : 0 < context.rows.sourceRowBytes)
    (uncompressed : context.plan.compression.codec = .none)
    (total : context.rows.sourceRowCount * context.rows.sourceRowBytes =
      context.plan.serializedBytes) (imageIndex : Nat) :
    ∀ (count row : Nat) {serialized : Bytes} {l : RowDelivery} {before : Trace},
      row + count = context.rows.sourceRowCount →
      serialized.length = row * context.rows.sourceRowBytes →
      Holding context serialized serialized l →
      Progress platform env context (.ok ()) serialized serialized before →
      Delivers platform env context
        (fun whole decoded => whole.length = context.plan.serializedBytes ∧
          blockBytes platform context.plan.compression whole = .ok decoded)
        before (deliverUncompressed context imageIndex count row) l
  | 0, row, serialized, l, before, full, length, holding, progress => by
      intro s
      refine ⟨[], by simp, serialized, serialized, ⟨?_, ?_⟩, holding, by simpa using progress⟩
      · rw [length, ← total, ← full, Nat.add_zero]
      · rw [blockBytes, if_pos uncompressed]
  | count + 1, row, serialized, l, before, full, length, holding, progress => by
      have inside : serialized.length + context.rows.sourceRowBytes ≤
          context.plan.serializedBytes := by
        rw [length, ← total, ← Nat.succ_mul]
        exact Nat.mul_le_mul_right _ (by omega)
      have noWrap : row * context.rows.sourceRowBytes ≤ u64Max := by
        have small := sound.small
        rw [← sound.serialized_eq uncompressed] at small
        omega
      unfold deliverUncompressed
      rw [wrapMultiply_eq noWrap, ← length]
      refine .afterRead sound.place inside progress fun piece events pieceLength progress => ?_
      have atEnd : l.rowFill = 0 := by
        rw [holding.rowFill, length, Nat.mul_mod_left]
      have ordinal : l.sourceRowOrdinal = row := by
        rw [holding.ordinal, length, Nat.mul_div_cancel _ positive]
      have whole : (serialized ++ piece).length = (row + 1) * context.rows.sourceRowBytes := by
        rw [List.length_append, pieceLength, length, Nat.succ_mul]
      intro s
      rw [Library.Routine.wp_bind, Library.Routine.wp_modifyStore, Library.Routine.continueWith_ok]
      unfold hashDelivered
      rw [Library.Routine.wp_bind, Library.Routine.wp_modifyStore, Library.Routine.continueWith_ok]
      refine @Delivers.afterRows _ _ _ _ _ _ _ _ piece _ _ progress ?_ ?_ ?_
        (fun m later held progress => ?_) s
      · intro whole pixels first run
        rw [blockBytes, if_pos uncompressed, Except.ok.injEq] at run
        exact run ▸ first
      · rw [List.length_append, pieceLength, ← sound.serialized_eq uncompressed]
        exact inside
      · have one : rowsFrom context (serialized ++ piece)
              (serialized.length / context.rows.sourceRowBytes)
              ((serialized ++ piece).length / context.rows.sourceRowBytes -
                serialized.length / context.rows.sourceRowBytes) =
            rowsFrom context (serialized ++ piece) l.sourceRowOrdinal 1 := by
          rw [whole, length, Nat.mul_div_cancel _ positive, Nat.mul_div_cancel _ positive, ordinal,
            Nat.add_sub_cancel_left]
        rw [one]
        intro s
        refine Library.Routine.wp_mono ?_ (emitSourceRow_holding
          (l := { l with sourceRow := piece, hashed := l.hashed ++ piece }) sound fits positive
          pieceLength holding.planeRow (by rw [whole, ordinal]) ?_ holding.rows holding.bytes
          (by rw [holding.hashed]) s)
        · rintro result m t ⟨events, rfl, emits, leaves⟩
          refine ⟨events, rfl, emits, fun a ok => ?_⟩
          obtain ⟨held, fill⟩ := leaves a ok
          -- the buffer was free, so clearing its fill changes nothing
          have same : { m with rowFill := 0 } = m := by
            have zero : m.rowFill = 0 := fill.trans atEnd
            rw [← zero]
          rwa [same] at held
        · have last := Library.slice_append_right serialized piece 0 context.rows.sourceRowBytes
          rw [Nat.add_zero] at last
          rw [ordinal, ← length, last, Library.slice_all pieceLength.le]
      · exact deliverUncompressed_delivers sound fits positive uncompressed total imageIndex count
          (row + 1) (by omega) whole held progress

/-- The rows of a block with a codec, one subblock after the other. -/
theorem deliverSubblocks_delivers (sound : context.plan.Sound)
    (fits : context.rows.Fits context.plan) (positive : 0 < context.rows.sourceRowBytes)
    (compressed : context.plan.compression.codec ≠ .none)
    (unshuffled : context.plan.compression.byteShuffled = true →
      context.plan.compression.subblocks.length ≤ 1) (imageIndex : Nat) :
    ∀ (rest done : List CompressionSubblock) {serialized decoded : Bytes} {l : RowDelivery}
      {before : Trace}, context.plan.compression.subblocks = done ++ rest →
      serialized.length = compressedTotal done →
      decodedUpTo platform serialized context.plan.compression done = .ok decoded →
      Holding context serialized decoded l →
      Progress platform env context (.ok ()) serialized decoded before →
      Delivers platform env context
        (fun whole decoded => whole.length = context.plan.serializedBytes ∧
          blockBytes platform context.plan.compression whole = .ok decoded)
        before (deliverSubblocks platform context imageIndex rest serialized.length) l
  | [], done, serialized, decoded, l, before, split, length, sofar, holding, progress => by
      intro s
      rw [List.append_nil] at split
      refine ⟨[], by simp, serialized, decoded, ⟨?_, ?_⟩, holding, by simpa using progress⟩
      · rw [length, ← split, (sound.fits.compressed compressed).1]
      · rw [blockBytes, if_neg compressed, decodedBytes, split, sofar]
  | subblock :: rest, done, serialized, decoded, l, before, split, length, sofar, holding,
      progress => by
      have next : context.plan.compression.subblocks = (done ++ [subblock]) ++ rest := by
        rw [split, List.append_assoc, List.singleton_append]
      have alone : context.plan.compression.byteShuffled = true → done = [] ∧ rest = [] := by
        intro shuffled
        have few := unshuffled shuffled
        rw [split, List.length_append, List.length_cons] at few
        exact ⟨List.length_eq_zero_iff.mp (by omega), List.length_eq_zero_iff.mp (by omega)⟩
      have nextTotal : compressedTotal (done ++ [subblock]) =
          compressedTotal done + subblock.compressedSize := by
        simp [compressedTotal]
      have inside : serialized.length + subblock.compressedSize ≤
          context.plan.serializedBytes := by
        have all := (sound.fits.compressed compressed).1
        rw [next] at all
        simp only [compressedTotal, List.map_append, List.sum_append] at all nextTotal length
        omega
      unfold deliverSubblocks
      refine .afterRead sound.place inside progress fun piece events pieceLength progress => ?_
      have nextLength : (serialized ++ piece).length = compressedTotal (done ++ [subblock]) := by
        rw [List.length_append, pieceLength, nextTotal, length]
      have step := decodedUpTo_next (fun shuffled => (alone shuffled).1) length pieceLength sofar
      intro s
      unfold hashDelivered
      rw [Library.Routine.wp_bind, Library.Routine.wp_modifyStore, Library.Routine.continueWith_ok,
        Library.Routine.wp_bind]
      have computes := @decodeCompressedBlock_computes RowDelivery platform env piece
        (oneSubblock context.plan.compression subblock) (zeros subblock.uncompressedSize)
      rw [@decoded_eq _ _ (oneSubblock context.plan.compression subblock) sound.fits.shuffled _
        (by simp [zeros, oneSubblock, uncompressedTotal])] at computes
      refine Library.Routine.wp_mono ?_ (computes _ s)
      rintro result m t ⟨rfl, outcome, computed, rfl, slices⟩
      have progressed := progress.compute fun event member =>
        (slices event member).after serialized
      rcases outcome with rfl | ⟨e, rfl, cancelled⟩
      · cases one : decodedBytes platform piece (oneSubblock context.plan.compression subblock) with
        | error e =>
            rw [one] at step
            refine ⟨computed, rfl, .undecodable progressed fun whole first => ⟨e, ?_⟩⟩
            rw [blockBytes, if_neg compressed, decodedBytes, next]
            exact decodedUpTo_error first nextLength.ge step
        | ok more =>
            rw [one] at step
            have future : ∀ whole pixels, serialized ++ piece <+: whole →
                blockBytes platform context.plan.compression whole = .ok pixels →
                decoded ++ more <+: pixels := by
              intro whole pixels first run
              rw [blockBytes, if_neg compressed, decodedBytes, next] at run
              exact decodedUpTo_first (fun shuffled => .inr (alone shuffled).2) first nextLength.ge
                step run
            have fed := @feedDecoded_shows platform env _ (serialized ++ piece) sound fits positive
              more.length more decoded { l with hashed := l.hashed ++ piece } le_rfl
              ⟨holding.sourceRow, holding.planeRow, holding.ordinal, holding.rowFill,
                holding.filled, holding.rows, holding.bytes, by rw [holding.hashed]⟩
            have room : (decoded ++ more).length ≤ context.plan.expectedBytes := by
              have all := (sound.fits.compressed compressed).2
              rw [next] at all
              rw [length_decodedUpTo step, ← sound.uncompressedSize, ← all]
              simp only [uncompressedTotal, List.map_append, List.sum_append]
              omega
            rw [Library.Routine.continueWith_ok]
            refine Library.Routine.wp_mono ?_
              (Delivers.afterRows progressed future room fed (fun m later held progress => by
                have last := deliverSubblocks_delivers sound fits positive compressed unshuffled
                  imageIndex rest (done ++ [subblock]) next nextLength step held progress
                rw [List.length_append] at last
                exact last) (s ++ computed))
            rintro result n u ⟨later, rfl, delivered⟩
            refine ⟨computed ++ later, by rw [List.append_assoc], ?_⟩
            unfold DeliveredSoFar at delivered ⊢
            simpa only [List.append_assoc] using delivered
      · exact ⟨computed, rfl, .stopped progressed cancelled⟩

/-- What the counters of a finished delivery are. -/
theorem Holding.counts (sound : context.plan.Sound) (rows : context.rows = rowSizes context.plan)
    (length : decoded.length = context.plan.expectedBytes)
    (holding : Holding context serialized decoded l) :
    l.rowFill = 0 ∧ l.sourceRowOrdinal = context.rows.sourceRowCount ∧
      l.rowsDelivered = context.rows.planarRowCount ∧
      l.bytesDelivered = context.plan.expectedBytes := by
  have fits := rowSizes_fits context.plan
  rw [← rows] at fits
  have total : context.rows.sourceRowCount * context.rows.sourceRowBytes =
      context.plan.expectedBytes := by
    rw [fits.sourceRow, ← Nat.mul_assoc, fits.sourceRows, fits.planarRows, fits.planeRow,
      fits.height, fits.width]
    exact sound.rowsTotal
  have positive : 0 < context.rows.sourceRowBytes := by
    rw [fits.sourceRow, fits.planeRow, fits.width]
    exact Nat.mul_pos (rowsPerSource_pos sound)
      (Nat.mul_pos (Nat.pos_of_ne_zero sound.width) sound.sample_pos)
  have ordinal : l.sourceRowOrdinal = context.rows.sourceRowCount := by
    rw [holding.ordinal, length, ← total, Nat.mul_div_cancel _ positive]
  refine ⟨?_, ordinal, ?_, ?_⟩
  · rw [holding.rowFill, length, ← total, Nat.mul_mod_left]
  · rw [holding.rows, ordinal, fits.sourceRows]
  · rw [holding.bytes, ordinal, total]

/-- The whole delivery, with the checks that follow it. -/
theorem deliverRows_delivers (sound : context.plan.Sound)
    (rows : context.rows = rowSizes context.plan)
    (unshuffled : context.plan.compression.byteShuffled = true →
      context.plan.compression.subblocks.length ≤ 1) (imageIndex : Nat) (s : Trace) :
    wp (env.world platform) (deliverRows platform context imageIndex)
      (fun result m t => ∃ events, t = s ++ events ∧
        DeliveryOutcome platform env context (result.map fun _ => ()) events ∧
        ∀ u, result = .ok u → m.rowsDelivered = context.rows.planarRowCount ∧
          m.bytesDelivered = context.plan.expectedBytes)
      (RowDelivery.start context.plan context.rows) s := by
  have fits := rowSizes_fits context.plan
  rw [← rows] at fits
  have positive : 0 < context.rows.sourceRowBytes := by
    rw [fits.sourceRow, fits.planeRow, fits.width]
    exact Nat.mul_pos (rowsPerSource_pos sound)
      (Nat.mul_pos (Nat.pos_of_ne_zero sound.width) sound.sample_pos)
  have start : Holding context [] [] (RowDelivery.start context.plan context.rows) := by
    have holding := Holding.start context.plan context.outputByteOrder
    rwa [← rows] at holding
  have reached {whole decoded : Bytes} (length : whole.length = context.plan.serializedBytes)
      (run : blockBytes platform context.plan.compression whole = .ok decoded) :
      decoded.length = context.plan.expectedBytes :=
    (length_blockBytes sound.fits length run).trans sound.uncompressedSize
  have delivered : Delivers platform env context
      (fun whole decoded => whole.length = context.plan.serializedBytes ∧
        blockBytes platform context.plan.compression whole = .ok decoded) []
      (if context.plan.compression.codec = .none then
        deliverUncompressed context imageIndex context.rows.sourceRowCount 0
      else deliverCompressed platform context imageIndex)
      (RowDelivery.start context.plan context.rows) := by
    by_cases uncompressed : context.plan.compression.codec = .none
    · rw [if_pos uncompressed]
      refine deliverUncompressed_delivers sound fits positive uncompressed ?_ imageIndex _ 0
        (by omega) (by simp) start (.start context)
      rw [sound.serialized_eq uncompressed, fits.sourceRow, ← Nat.mul_assoc, fits.sourceRows,
        fits.planarRows, fits.planeRow, fits.height, fits.width]
      exact sound.rowsTotal
    · rw [if_neg uncompressed]
      intro s
      unfold deliverCompressed
      rw [Library.Routine.wp_bind]
      have empty : decodedUpTo platform [] context.plan.compression [] = .ok [] := by
        simp only [decodedUpTo, decompressedPieces, Except.map, assembled, uncompressedTotal, zeros,
          List.map_nil, List.sum_nil, List.replicate_zero, List.flatten_nil, Library.scatter,
          Library.overwrite_nil, ite_self]
      refine Library.Routine.wp_mono ?_ (deliverSubblocks_delivers sound fits positive uncompressed
        unshuffled imageIndex context.plan.compression.subblocks [] rfl rfl empty start
        (.start context) s)
      rintro (e | _) m t ⟨events, rfl, soFar⟩
      · exact ⟨events, rfl, soFar⟩
      · obtain ⟨whole, decoded, ⟨length, run⟩, holding, progress⟩ := soFar
        rw [Library.Routine.continueWith_ok, Library.Routine.wp_bind, Library.Routine.wp_getStore,
          Library.Routine.continueWith_ok]
        unfold refuse reject
        rw [if_neg (not_not.mpr (holding.counts sound rows (reached length run)).1),
          Library.Routine.wp_ofExcept]
        exact ⟨events, rfl, whole, decoded, ⟨length, run⟩, holding, progress⟩
  unfold deliverRows
  rw [Library.Routine.wp_bind]
  refine Library.Routine.wp_mono ?_ (delivered s)
  rintro (e | _) m t ⟨events, rfl, soFar⟩
  · simp only [DeliveredSoFar, List.nil_append] at soFar
    exact ⟨events, rfl, soFar, by simp⟩
  · obtain ⟨whole, decoded, ⟨length, run⟩, holding, progress⟩ := soFar
    rw [List.nil_append] at progress
    obtain ⟨-, ordinal, rowCount, byteCount⟩ := holding.counts sound rows (reached length run)
    rw [Library.Routine.continueWith_ok, Library.Routine.wp_bind, Library.Routine.wp_getStore,
      Library.Routine.continueWith_ok]
    unfold refuse
    rw [show reject (m.sourceRowOrdinal ≠ context.rows.sourceRowCount ∨
          m.rowsDelivered ≠ context.rows.planarRowCount ∨
          m.bytesDelivered ≠ context.plan.expectedBytes) .invalidBlock
          "Decoded image row extent does not match geometry" = .ok () by
        simp [ordinal, rowCount, byteCount],
      Library.Routine.ofExcept_ok_bind]
    refine wp_afterStop ?_ fun e cancelled =>
      ⟨events, rfl, .stopped progress cancelled, by simp⟩
    rw [Library.Routine.wp_ofExcept, holding.hashed]
    unfold reject
    by_cases bad : context.plan.checksum.algorithm ≠ .none ∧
        digestMatches platform context.plan.checksum whole = false
    · rw [if_pos bad]
      exact ⟨events, rfl, .mismatch progress length bad.1 bad.2, fun u impossible => by
        cases impossible⟩
    · rw [if_neg bad]
      exact ⟨events, rfl, .complete progress length run
        (fun declared => by simpa [declared] using bad), fun _ _ => ⟨rowCount, byteCount⟩⟩

/-! ## The whole row read -/

/-- How `read_image_rows` ends for a plan, with the events it adds: refused
before any request, after the verification pass, or after a delivery. -/
inductive RowReadOutcome (platform : Platform) (env : Environment) (plan : ImageReadPlan)
    (readOptions : ImageRowReadOptions) (outputByteOrder : ByteOrder) :
    Result ImageRowReadSummary → Trace → Prop
  | zeroLimits {e : Error} (zero : readOptions.maxRowBytes = 0 ∨ readOptions.maxSubblockBytes = 0) :
      RowReadOutcome platform env plan readOptions outputByteOrder (.error e) []
  | stopped {e : Error} (cancelled : Cancelled env e) :
      RowReadOutcome platform env plan readOptions outputByteOrder (.error e) []
  | beyondLimits {e : Error} (beyond : ¬ WithinRowLimits plan readOptions) :
      RowReadOutcome platform env plan readOptions outputByteOrder (.error e) []
  | unverified {e : Error} {events : Trace} (declared : plan.checksum.algorithm ≠ .none)
      (within : ReadsWithin env plan.place 0 plan.serializedBytes events)
      (cause : FailedRead env events e ∨ ∃ bytes, bytes.length = plan.serializedBytes ∧
        Obtained env plan.place plan.serializedBytes 0 bytes events ∧
        digestMatches platform plan.checksum bytes = false) :
      RowReadOutcome platform env plan readOptions outputByteOrder (.error e) events
  | delivered {result : Result ImageRowReadSummary} {verifying delivering : Trace}
      (limits : WithinRowLimits plan readOptions)
      (within : ReadsWithin env plan.place 0 plan.serializedBytes verifying)
      (verified : plan.checksum.algorithm ≠ .none → ∃ bytes,
        bytes.length = plan.serializedBytes ∧
        Obtained env plan.place plan.serializedBytes 0 bytes verifying ∧
        digestMatches platform plan.checksum bytes = true)
      (outcome : DeliveryOutcome platform env ⟨plan, rowSizes plan, outputByteOrder⟩
        (result.map fun _ => ()) delivering)
      (summary : ∀ summary, result = .ok summary →
        summary = ⟨(rowSizes plan).planarRowCount, plan.expectedBytes,
          planVerification plan.checksum⟩) :
      RowReadOutcome platform env plan readOptions outputByteOrder result (verifying ++ delivering)

theorem readImageRows_reads {L : Type} (reader : Impl) (imageIndex : Nat)
    (readOptions : ImageRowReadOptions) :
    ReadsPlanned platform env
      (planImageRead reader.document reader.options reader.embeddedBlocks imageIndex)
      (fun plan => RowReadOutcome platform env plan readOptions
        (resolveByteOrder platform plan.image.byteOrder readOptions.byteOrder))
      (readImageRows (L := L) platform reader imageIndex readOptions) := by
  refine .of_plan fun plan planned l s => ?_
  obtain ⟨sound, -⟩ := planImageRead_sound reader.wellFormed planned
  unfold refuse reject
  by_cases zero : readOptions.maxRowBytes = 0 ∨ readOptions.maxSubblockBytes = 0
  · rw [if_pos zero]
    exact ⟨rfl, [], by simp, .zeroLimits zero⟩
  · rw [if_neg zero, Library.Routine.ofExcept_ok_bind]
    refine wp_afterStop ?_ fun e cancelled => ⟨rfl, [], by simp, .stopped cancelled⟩
    cases sizes : planRows plan readOptions with
    | error e =>
        have beyond : ¬ WithinRowLimits plan readOptions := by
          intro limits
          have accepted := (planRows_eq_ok sound).mpr ⟨limits, rfl⟩
          rw [sizes] at accepted
          cases accepted
        exact ⟨rfl, [], by simp, .beyondLimits beyond⟩
    | ok rows =>
        obtain ⟨limits, rfl⟩ := (planRows_eq_ok sound).mp sizes
        rw [Library.Routine.ofExcept_ok_bind, Library.Routine.wp_bind]
        refine Library.Routine.wp_mono ?_
          (verifyImageChecksumStreaming_spec sound.place l s)
        rintro (e | _) m t ⟨rfl, verifying, rfl, within, ended⟩
        · exact ⟨rfl, verifying, rfl, .unverified ended.1 within ended.2⟩
        · have verified : plan.checksum.algorithm ≠ .none → ∃ bytes,
              bytes.length = plan.serializedBytes ∧
              Obtained env plan.place plan.serializedBytes 0 bytes verifying ∧
              digestMatches platform plan.checksum bytes = true := by
            rcases ended with ⟨undeclared, -⟩ | ⟨-, passed⟩
            · exact fun declared => absurd undeclared declared
            · exact fun _ => passed
          rw [Library.Routine.continueWith_ok, Library.Routine.wp_bind, Library.Routine.wp_within]
          refine Library.Routine.wp_mono ?_ (deliverRows_delivers
            sound rfl limits.unshuffled imageIndex (s ++ verifying))
          rintro (e | u) n t ⟨delivering, rfl, outcome, counts⟩
          · exact ⟨rfl, verifying ++ delivering, by rw [List.append_assoc],
              .delivered limits within verified outcome (by simp)⟩
          · obtain ⟨rowCount, byteCount⟩ := counts u rfl
            refine ⟨rfl, verifying ++ delivering, by rw [List.append_assoc],
              .delivered limits within verified outcome ?_⟩
            rintro summary same
            rw [Except.ok.injEq] at same
            rw [← same, rowCount, byteCount]

end

end Mmxisf.Reader
