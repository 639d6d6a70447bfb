/-
# Writer.Sizes -- the blocks that are prepared, and the outputs of the codecs

A codec fills at most the buffer that it was given (`CodecsFit`); nothing else is
assumed of a reply.  `Prepares` accounts for what is done before the output: no
event of it is the output's, and the sizes of the codecs' outputs are measured, in
order.  The size of a compressed block is the sum of as many of them as the block
has chunks (`serializedSizes`).
-/
import Mathlib.Algebra.GroupWithZero.Nat
import Mmxisf.Library.Log
import Mmxisf.Writer.Write

namespace Mmxisf.Writer

set_option autoImplicit false

open Library (Program Routine World Accounts Ended slice)

/-! ## The log of a writer -/

abbrev WriteEvent : Type := Library.Event WriteOp WriteOp.Reply

/-- A codec keeps to its buffer. -/
def CodecsFit : (op : WriteOp) → op.Reply → Prop
  | .compress _ _ capacity, reply => ∀ output, reply = .produced output → output.length ≤ capacity
  | _, _ => True

/-- The outside of a writer, as its log. -/
def outside : World WriteOp WriteOp.Reply (List WriteEvent) := .logged fun _ => CodecsFit

/-- The sink of the caller gets bytes, or the temporary file of the destination is
created. -/
def WriteCall.IsOutput (call : WriteCall) (event : WriteEvent) : Prop :=
  match event.1 with
  | .sinkWrite _ => True
  | .create path => path = call.temporary
  | _ => False

/-- The size of the output of a codec. -/
def codecOutput : WriteEvent → List Nat
  | ⟨.compress _ _ _, reply⟩ =>
      match (reply : CompressReply) with
      | .produced output => [output.length]
      | _ => []
  | _ => []

/-- What is done before the output. -/
abbrev Prepares {α : Type} (call : WriteCall) (value : α → List Nat → Prop) (x : WriteRoutine α) :
    Prop :=
  Accounts (fun _ => CodecsFit) (fun event => ¬ call.IsOutput event) codecOutput value
    (fun _ => True) x

/-- It has no output of a codec. -/
abbrev Silent {α : Type} (call : WriteCall) (known : α → Prop) (x : WriteRoutine α) : Prop :=
  Prepares call (fun a seen => seen = [] ∧ known a) x

section

variable {call : WriteCall} {α β : Type}

theorem Silent.bind {x : WriteRoutine α} {f : α → WriteRoutine β} {known : α → Prop}
    {value : β → List Nat → Prop} (first : Silent call known x)
    (rest : ∀ a, known a → Prepares call value (f a)) : Prepares call value (x >>= f) := by
  apply Accounts.bind first
  · exact fun _ _ => trivial
  · rintro a _ ⟨rfl, holds⟩
    exact rest a holds

theorem Silent.ok {a : α} {known : α → Prop} (holds : known a) : Silent call known (pure a) :=
  Accounts.pure ⟨rfl, holds⟩

theorem Silent.fails {e : Error} {value : α → List Nat → Prop} :
    Prepares call value (Routine.fail e : WriteRoutine α) :=
  Accounts.fail trivial

theorem Silent.failsEither {condition : Prop} [Decidable condition] {e e' : Error}
    {value : α → List Nat → Prop} :
    Prepares call value (if condition then Routine.fail e else Routine.fail e' : WriteRoutine α) :=
  Accounts.ite (fun _ => Silent.fails) fun _ => Silent.fails

theorem Silent.result {result : Result α} :
    Silent call (fun a => result = .ok a) (Routine.ofExcept result : WriteRoutine α) :=
  Accounts.ofExcept (fun _ same => ⟨rfl, same⟩) trivial

/-- A call that is neither the output's nor a codec's. -/
theorem Silent.request (op : WriteOp) (fine : ∀ reply, ¬ call.IsOutput ⟨op, reply⟩)
    (nothing : ∀ reply, codecOutput ⟨op, reply⟩ = []) :
    Silent call (fun _ => True) (Routine.request op : WriteRoutine op.Reply) :=
  Accounts.request fun _ reply _ => ⟨fine reply, nothing reply, trivial⟩

theorem refuse_silent (bad : Prop) [Decidable bad] (code : ErrorCode) (message : String) :
    Silent call (fun _ => ¬ bad) (refuse bad code message) :=
  Silent.result.mono (fun _ _ passed => ⟨passed.1, reject_eq_ok.mp passed.2⟩) fun _ _ => trivial

theorem checkStop_silent : Silent call (fun _ => True) checkStop := by
  apply Silent.bind (Silent.request .stopRequested (fun _ => id) fun _ => rfl)
  intro (stopped : Bool) _
  exact (refuse_silent _ _ _).mono (fun _ _ passed => ⟨passed.1, trivial⟩) fun _ _ => trivial

theorem allocate_silent (site : AllocationSite) : Silent call (fun _ => True) (allocate site) := by
  apply Silent.bind (Silent.request (.allocate site) (fun _ => id) fun _ => rfl)
  intro (allocated : Bool) _
  apply Accounts.ite
  · intro _
    exact Silent.ok trivial
  · intro _
    exact Silent.fails

/-! ## Spool files -/

theorem createFile_silent {path : Path} (other : path ≠ call.temporary) :
    Silent call (fun sink => ∃ descriptor, sink = .file descriptor) (createFile path) := by
  apply Silent.bind (Silent.request (.create path) (fun _ => other) fun _ => rfl)
  rintro (_ | descriptor) _
  · exact Silent.fails
  · apply Silent.bind (allocate_silent _)
    intro _ _
    apply Silent.bind (Accounts.modifyStore ⟨rfl, trivial⟩ : Silent call (fun _ => True) _)
    intro _ _
    exact Silent.ok ⟨descriptor, rfl⟩

theorem track_silent (path : Path) : Silent call (fun _ => True) (track path) := by
  apply Silent.bind (allocate_silent _)
  intro _ _
  exact Accounts.modifyStore ⟨rfl, trivial⟩

theorem write_silent (descriptor : Nat) (bytes : Bytes) :
    Silent call (fun _ => True) ((Sink.file descriptor).write bytes) := by
  unfold Sink.write
  apply Accounts.ite
  · intro _
    exact Silent.ok trivial
  · intro _
    apply Silent.bind (Silent.request (.write descriptor bytes) (fun _ => id) fun _ => rfl)
    intro written _
    exact Silent.result.mono (fun _ _ passed => ⟨passed.1, trivial⟩) fun _ _ => trivial

theorem writeFrom_silent (descriptor : Nat) (bytes : Bytes) :
    ∀ fuel written, Silent call (fun _ => True) (writeFrom (.file descriptor) bytes fuel written)
  | 0, _ => Silent.ok trivial
  | fuel + 1, written => by
      apply Accounts.ite
      · intro _
        apply Silent.bind checkStop_silent
        intro _ _
        apply Silent.bind (write_silent descriptor _)
        intro result _
        apply Silent.bind (refuse_silent _ _ _)
        intro _ _
        exact writeFrom_silent descriptor bytes fuel (written + result)
      · intro _
        exact Silent.ok trivial

theorem writeAll_silent (descriptor : Nat) (bytes : Bytes) :
    Silent call (fun _ => True) (writeAll (.file descriptor) bytes) :=
  writeFrom_silent descriptor bytes bytes.length 0

theorem closeSpool_silent {spool : Option Sink}
    (file : ∀ sink ∈ spool, ∃ descriptor, sink = .file descriptor) :
    Silent call (fun _ => True) (closeSpool spool) := by
  cases spool with
  | none => exact Silent.ok trivial
  | some sink =>
      obtain ⟨descriptor, rfl⟩ := file sink rfl
      have flushes : Silent call (fun _ => True) (Sink.file descriptor).flush := by
        apply Silent.bind (Silent.request (.flush descriptor) (fun _ => id) fun _ => rfl)
        intro (flushed : Bool) _
        exact (refuse_silent _ _ _).mono (fun _ _ passed => ⟨passed.1, trivial⟩) fun _ _ => trivial
      apply Silent.bind flushes
      intro _ _
      apply Silent.bind (Accounts.modifyStore ⟨rfl, trivial⟩ : Silent call (fun _ => True) _)
      intro _ _
      apply Silent.bind (Silent.request (.close descriptor) (fun _ => id) fun _ => rfl)
      intro (closed : Bool) _
      exact (refuse_silent _ _ _).mono (fun _ _ passed => ⟨passed.1, trivial⟩) fun _ _ => trivial

theorem readSpoolChunk_silent (handle count : Nat) :
    Silent call (fun _ => True) (readSpoolChunk handle count) := by
  apply Silent.bind (Silent.request (.readSpool handle count) (fun _ => id) fun _ => rfl)
  intro (bytes : Bytes) _
  apply Silent.bind (refuse_silent _ _ _)
  intro _ _
  exact Silent.ok trivial

theorem hashSpoolFrom_silent (handle expectedSize : Nat) :
    ∀ fuel remaining hashed,
      Silent call (fun _ => True) (hashSpoolFrom handle expectedSize fuel remaining hashed)
  | 0, _, _ => Silent.ok trivial
  | fuel + 1, remaining, hashed => by
      apply Accounts.ite
      · intro _
        apply Silent.bind checkStop_silent
        intro _ _
        apply Silent.bind (readSpoolChunk_silent handle _)
        intro bytes _
        exact hashSpoolFrom_silent handle expectedSize fuel _ _
      · intro _
        exact Silent.ok trivial

/-! ## Codecs -/

section

variable {platform : Platform} {input : Bytes} {maxOutputBytes : Nat}

/-- What a codec's function returns is the one output, and fits the budget. -/
abbrev Compresses (call : WriteCall) (maxOutputBytes : Nat) (x : WriteRoutine Bytes) : Prop :=
  Prepares call (fun output seen => seen = [output.length] ∧ output.length ≤ maxOutputBytes) x

theorem boundedCapacity_le (codecBound : Nat) : boundedCapacity codecBound maxOutputBytes ≤
    maxOutputBytes := by
  unfold boundedCapacity
  omega

/-- A call of a codec: its output fits, when it has one. -/
theorem compress_accounts (codec : CompressionCodec) (codecBound : Nat) :
    Prepares call (fun reply seen => ∀ output, reply = .produced output →
        seen = [output.length] ∧ output.length ≤ maxOutputBytes)
      (Routine.request (WriteOp.compress codec input (boundedCapacity codecBound maxOutputBytes)) :
        WriteRoutine CompressReply) := by
  apply Accounts.request
  intro _ reply fits
  refine ⟨id, ?_⟩
  rintro output rfl
  exact ⟨rfl, Nat.le_trans (fits output rfl) (boundedCapacity_le codecBound)⟩

theorem compressZlib_accounts :
    Compresses call maxOutputBytes (compressZlib platform input maxOutputBytes) := by
  apply Silent.bind (refuse_silent _ _ _)
  intro _ _
  apply Silent.bind (allocate_silent _)
  intro _ _
  apply Accounts.bind (compress_accounts .zlib _) fun _ _ => trivial
  rintro (output | _ | _) seen known
  · apply Accounts.pure
    rw [List.append_nil]
    exact known output rfl
  · exact Silent.fails
  · exact Silent.fails

theorem compressLz4_accounts (codec : CompressionCodec) :
    Compresses call maxOutputBytes (compressLz4 platform codec input maxOutputBytes) := by
  apply Silent.bind (refuse_silent _ _ _)
  intro _ _
  apply Silent.bind (refuse_silent _ _ _)
  intro _ _
  apply Silent.bind (allocate_silent _)
  intro _ _
  apply Accounts.bind (compress_accounts codec _) fun _ _ => trivial
  rintro ((_ | ⟨first, rest⟩) | _ | _) seen known
  · exact Silent.failsEither
  · apply Accounts.pure
    rw [List.append_nil]
    exact known (first :: rest) rfl
  · exact Silent.failsEither
  · exact Silent.failsEither

theorem compressZstd_accounts :
    Compresses call maxOutputBytes (compressZstd platform input maxOutputBytes) := by
  apply Silent.bind (refuse_silent _ _ _)
  intro _ _
  apply Silent.bind (allocate_silent _)
  intro _ _
  apply Accounts.bind (compress_accounts .zstd _) fun _ _ => trivial
  rintro (output | _ | _) seen known
  · apply Accounts.pure
    rw [List.append_nil]
    exact known output rfl
  · exact Silent.failsEither
  · exact Silent.failsEither

theorem compressBytes_accounts (codec : CompressionCodec) :
    Compresses call maxOutputBytes (compressBytes platform input codec maxOutputBytes) := by
  apply Silent.bind checkStop_silent
  intro _ _
  apply Silent.bind (refuse_silent _ _ _)
  intro _ _
  refine Accounts.bind (?produced : Compresses call maxOutputBytes _) (fun _ _ => trivial) ?_
  · cases codec with
    | none => exact Silent.fails
    | zlib => exact compressZlib_accounts
    | lz4 => exact compressLz4_accounts .lz4
    | lz4hc => exact compressLz4_accounts .lz4hc
    | zstd => exact compressZstd_accounts
  rintro output seen known
  apply Silent.bind checkStop_silent
  intro _ _
  apply Accounts.pure
  rw [List.append_nil]
  exact known

end

/-! ## Chunks -/

/-- The number of chunks of a block. -/
def chunkCount (limit size : Nat) : Nat := (size + limit - 1) / limit

theorem chunkCount_zero {limit : Nat} (positive : 0 < limit) : chunkCount limit 0 = 0 :=
  Nat.div_eq_of_lt (by omega)

/-- The first chunk, and those of what it leaves. -/
theorem chunkCount_next {limit size : Nat} (positive : 0 < limit) (more : 0 < size) :
    chunkCount limit size = chunkCount limit (size - min limit size) + 1 := by
  unfold chunkCount
  rcases Nat.le_total limit size with whole | last
  · rw [Nat.min_eq_left whole, show size + limit - 1 = size - limit + limit - 1 + limit by omega,
      Nat.add_div_right _ positive]
  · rw [Nat.min_eq_right last, Nat.sub_self, Nat.zero_add,
      show size + limit - 1 = size - 1 + limit by omega, Nat.add_div_right _ positive,
      Nat.div_eq_of_lt (by omega), Nat.div_eq_of_lt (by omega)]

/-- The sizes and budgets of a request fit the source's types. -/
structure BlockPrepareRequest.Typed (request : BlockPrepareRequest) : Prop where
  bytes : request.bytes.length ≤ u64Max
  maxSerializedBytes : request.maxSerializedBytes ≤ u64Max
  maxCumulativeRemaining : request.maxCumulativeRemaining ≤ u64Max

/-- A number of bytes is within both budgets of a request. -/
structure BlockPrepareRequest.Allows (request : BlockPrepareRequest) (size : Nat) : Prop where
  serialized : size ≤ request.maxSerializedBytes
  cumulative : size ≤ request.maxCumulativeRemaining

section

variable {platform : Platform} {request : BlockPrepareRequest} {options : WriterOptions}
  {spool : Option Sink}

/-- One round of the compression loop has one output. -/
structure NextChunk (request : BlockPrepareRequest) (options : WriterOptions)
    (chunks next : CompressedChunks) (output : Nat) : Prop where
  inputOffset : next.inputOffset = chunks.inputOffset +
    min (chunkLimit request.compression options.compressionSubblockBytes)
      (request.bytes.length - chunks.inputOffset)
  serialized : next.serializedSoFar = chunks.serializedSoFar + output
  subblocks : next.subblocks.length = chunks.subblocks.length + 1
  few : next.subblocks.length ≤ options.maxCompressionSubblocks
  allowed : request.Allows next.serializedSoFar

/-- A round that was allowed, with an output that fits what is left. -/
theorem nextChunk_of (typed : request.Typed) {chunks : CompressedChunks} {output : Nat}
    (more : chunks.inputOffset < request.bytes.length)
    (few : ¬ chunks.subblocks.length ≥ options.maxCompressionSubblocks)
    (budget : ¬ (chunks.serializedSoFar ≥ request.maxSerializedBytes ∨
      chunks.serializedSoFar ≥ request.maxCumulativeRemaining))
    (fits : output ≤ min (request.maxSerializedBytes - chunks.serializedSoFar)
      (request.maxCumulativeRemaining - chunks.serializedSoFar)) (storage : Bytes) :
    NextChunk request options chunks {
      subblocks := chunks.subblocks ++ [(output,
        min (chunkLimit request.compression options.compressionSubblockBytes)
          (request.bytes.length - chunks.inputOffset))]
      storage
      inputOffset := wrapAdd chunks.inputOffset
        (min (chunkLimit request.compression options.compressionSubblockBytes)
          (request.bytes.length - chunks.inputOffset))
      serializedSoFar := wrapAdd chunks.serializedSoFar output } output := by
  have bytesSmall := typed.bytes
  have serializedSmall := typed.maxSerializedBytes
  have sum : wrapAdd chunks.serializedSoFar output = chunks.serializedSoFar + output :=
    wrapAdd_eq (by omega)
  constructor
  · exact wrapAdd_eq (by omega)
  · exact sum
  · rw [List.length_append, List.length_singleton]
  · rw [List.length_append, List.length_singleton]
    omega
  · constructor
    · show wrapAdd chunks.serializedSoFar output ≤ request.maxSerializedBytes
      omega
    · show wrapAdd chunks.serializedSoFar output ≤ request.maxCumulativeRemaining
      omega

theorem compressChunk_accounts (typed : request.Typed)
    (file : ∀ sink ∈ spool, ∃ descriptor, sink = .file descriptor) {chunks : CompressedChunks}
    (more : chunks.inputOffset < request.bytes.length) :
    Prepares call (fun next seen => ∃ output, seen = [output] ∧
      NextChunk request options chunks next output)
      (compressChunk platform request options spool chunks) := by
  have bytesSmall := typed.bytes
  have serializedSmall := typed.maxSerializedBytes
  have cumulativeSmall := typed.maxCumulativeRemaining
  unfold compressChunk
  rw [wrapSubtract_eq bytesSmall (Nat.le_of_lt more)]
  apply Silent.bind checkStop_silent
  intro _ _
  apply Silent.bind (refuse_silent _ _ _)
  intro _ few
  apply Silent.bind (allocate_silent _)
  intro _ _
  have input : Silent call (fun _ => True) (if request.byteShuffle = true then
        Routine.ofExcept (shuffledRange request.bytes request.itemSize chunks.inputOffset
          (min (chunkLimit request.compression options.compressionSubblockBytes)
            (request.bytes.length - chunks.inputOffset)))
      else pure (slice request.bytes chunks.inputOffset
        (min (chunkLimit request.compression options.compressionSubblockBytes)
          (request.bytes.length - chunks.inputOffset)))) := by
    apply Accounts.ite
    · intro _
      exact Silent.result.mono (fun _ _ passed => ⟨passed.1, trivial⟩) fun _ _ => trivial
    · intro _
      exact Silent.ok trivial
  apply Silent.bind input
  intro compressionInput _
  apply Silent.bind (refuse_silent _ _ _)
  intro _ budget
  rw [wrapSubtract_eq serializedSmall (by omega), wrapSubtract_eq cumulativeSmall (by omega)]
  apply Accounts.bind (compressBytes_accounts _) fun _ _ => trivial
  rintro compressed _ ⟨rfl, fits⟩
  refine Accounts.bind (?stored : Silent call (fun _ => True) _) (fun _ _ => trivial) ?_
  · cases spool with
    | none => exact Silent.ok trivial
    | some sink =>
        obtain ⟨descriptor, rfl⟩ := file sink rfl
        apply Silent.bind (writeAll_silent descriptor compressed)
        intro _ _
        exact Silent.ok trivial
  rintro storage _ ⟨rfl, -⟩
  apply Accounts.bind (allocate_silent _) fun _ _ => trivial
  rintro _ _ ⟨rfl, -⟩
  apply Accounts.pure
  exact ⟨compressed.length, rfl, nextChunk_of typed more few budget fits storage⟩

/-- The chunks of a block from an offset on have an output each. -/
structure RestOfChunks (request : BlockPrepareRequest) (options : WriterOptions)
    (chunks final : CompressedChunks) (outputs : List Nat) : Prop where
  count : outputs.length =
    chunkCount (chunkLimit request.compression options.compressionSubblockBytes)
      (request.bytes.length - chunks.inputOffset)
  serialized : final.serializedSoFar = chunks.serializedSoFar + outputs.sum
  few : outputs ≠ [] →
    chunks.subblocks.length + outputs.length ≤ options.maxCompressionSubblocks
  allowed : request.Allows chunks.serializedSoFar → request.Allows final.serializedSoFar

theorem compressChunks_accounts (typed : request.Typed)
    (positive : 0 < chunkLimit request.compression options.compressionSubblockBytes)
    (file : ∀ sink ∈ spool, ∃ descriptor, sink = .file descriptor) :
    ∀ (fuel : Nat) {chunks : CompressedChunks}, chunks.inputOffset ≤ request.bytes.length →
      request.bytes.length - chunks.inputOffset ≤ fuel →
      Prepares call (RestOfChunks request options chunks)
        (compressChunks platform request options spool fuel chunks)
  | 0, chunks, inside, enough => by
      have done : request.bytes.length - chunks.inputOffset = 0 := Nat.le_zero.mp enough
      apply Accounts.pure
      refine ⟨?_, rfl, fun some => absurd rfl some, id⟩
      rw [done, chunkCount_zero positive]
      rfl
  | fuel + 1, chunks, inside, enough => by
      unfold compressChunks
      apply Accounts.ite
      · intro more
        apply Accounts.bind (compressChunk_accounts typed file more) fun _ _ => trivial
        rintro next _ ⟨output, rfl, step⟩
        have offset := step.inputOffset
        have later : Prepares call (RestOfChunks request options next)
            (compressChunks platform request options spool fuel next) :=
          compressChunks_accounts typed positive file fuel (by omega) (by omega)
        apply later.mono _ fun _ _ => trivial
        intro final outputs rest
        have left : request.bytes.length - next.inputOffset = request.bytes.length -
            chunks.inputOffset - min (chunkLimit request.compression
              options.compressionSubblockBytes)
              (request.bytes.length - chunks.inputOffset) := by omega
        refine ⟨?_, ?_, ?_, fun _ => rest.allowed step.allowed⟩
        · rw [chunkCount_next positive (by omega), ← left, ← rest.count, List.length_append,
            List.length_singleton, Nat.add_comm]
        · rw [rest.serialized, step.serialized, List.sum_append, List.sum_singleton, Nat.add_assoc]
        · intro _
          rw [List.length_append, List.length_singleton]
          have subblocks := step.subblocks
          have few := step.few
          rcases List.eq_nil_or_concat outputs with none | ⟨before, last, rfl⟩
          · rw [none, List.length_nil]
            omega
          · have bound := rest.few (by simp)
            omega
      · intro done
        have none : request.bytes.length - chunks.inputOffset = 0 := by omega
        apply Accounts.pure
        refine ⟨?_, rfl, fun some => absurd rfl some, id⟩
        rw [none, chunkCount_zero positive]
        rfl

/-! ## Blocks -/

/-- A block before it is prepared. -/
structure BlockSource where
  compression : CompressionCodec
  size : Nat
  deriving DecidableEq, Repr

/-- How many outputs of its codec a block has. -/
def BlockSource.outputs (options : WriterOptions) (source : BlockSource) : Nat :=
  if source.compression = .none then 0
  else chunkCount (chunkLimit source.compression options.compressionSubblockBytes) source.size

/-- The size of a block whose codec has these outputs. -/
def BlockSource.serialized (source : BlockSource) (outputs : List Nat) : Nat :=
  if source.compression = .none then source.size else outputs.sum

/-- A prepared block has the size of its outputs, and is within its budgets. -/
structure SizedBlock (request : BlockPrepareRequest) (options : WriterOptions)
    (source : BlockSource)
    (block : PreparedBlock) (outputs : List Nat) : Prop where
  count : outputs.length = source.outputs options
  size : block.serializedSize = source.serialized outputs
  few : source.outputs options ≤ options.maxCompressionSubblocks
  allowed : request.Allows block.serializedSize

theorem openBlockSpool_silent {destination : Path}
    (other : destination ++ request.spoolSuffix ≠ call.temporary) :
    Silent call (fun opened => ∀ sink ∈ opened.1, ∃ descriptor, sink = .file descriptor)
      (openBlockSpool destination request options) := by
  apply Accounts.ite
  · intro _
    apply Silent.bind (refuse_silent _ _ _)
    intro _ _
    apply Silent.bind (allocate_silent _)
    intro _ _
    apply Silent.bind (createFile_silent other)
    rintro sink ⟨descriptor, rfl⟩
    apply Silent.bind (track_silent _)
    intro _ _
    apply Silent.ok
    rintro sink ⟨⟩
    exact ⟨descriptor, rfl⟩
  · intro _
    apply Silent.ok
    rintro sink ⟨⟩

theorem compressBlock_accounts (typed : request.Typed) {destination : Path}
    (other : destination ++ request.spoolSuffix ≠ call.temporary) :
    Prepares call (fun block outputs => block.serializedSize = outputs.sum ∧
        outputs.length = chunkCount (chunkLimit request.compression
          options.compressionSubblockBytes)
          request.bytes.length ∧
        outputs.length ≤ options.maxCompressionSubblocks)
      (compressBlock platform destination request options) := by
  apply Silent.bind (refuse_silent _ _ _)
  intro _ geometry
  have positive : 0 < chunkLimit request.compression options.compressionSubblockBytes := by omega
  apply Silent.bind (openBlockSpool_silent other)
  rintro ⟨spool, spoolPath⟩ file
  apply Accounts.bind (compressChunks_accounts typed positive file request.bytes.length
    (Nat.zero_le _) (Nat.sub_le _ _)) fun _ _ => trivial
  intro chunks outputs rest
  apply Accounts.bind (closeSpool_silent file) fun _ _ => trivial
  rintro _ _ ⟨rfl, -⟩
  apply Accounts.bind (allocate_silent _) fun _ _ => trivial
  rintro _ _ ⟨rfl, -⟩
  apply Accounts.pure
  rw [List.append_nil, List.append_nil, List.append_nil]
  refine ⟨?_, rest.count, ?_⟩
  · exact rest.serialized.trans (Nat.zero_add _)
  · by_cases none : outputs = []
    · rw [none]
      exact Nat.zero_le _
    · have few := rest.few none
      rwa [List.length_nil, Nat.zero_add] at few

theorem blockChecksum_silent (block : PreparedBlock) :
    Silent call (fun _ => True) (blockChecksum platform request block) := by
  apply Accounts.ite
  · intro _
    apply Accounts.ite
    · intro _
      apply Silent.bind (refuse_silent _ _ _)
      intro _ _
      apply Silent.bind (allocate_silent _)
      intro _ _
      exact Silent.ok trivial
    · intro _
      apply Silent.bind (refuse_silent _ _ _)
      intro _ _
      apply Silent.bind (allocate_silent _)
      intro _ _
      have opens : Silent call (fun _ => True) (openSpool block.spoolPath) := by
        apply Silent.bind (Silent.request (.openSpool block.spoolPath) (fun _ => id) fun _ => rfl)
        intro opened _
        exact Silent.result.mono (fun _ _ passed => ⟨passed.1, trivial⟩) fun _ _ => trivial
      apply Silent.bind opens
      intro handle _
      apply Silent.bind (hashSpoolFrom_silent handle _ _ _ _)
      intro hashed _
      have ends : Silent call (fun _ => True) (checkSpoolEnd handle) := by
        apply Silent.bind (Silent.request (.spoolHasMore handle) (fun _ => id) fun _ => rfl)
        intro (more : Bool) _
        exact (refuse_silent _ _ _).mono (fun _ _ passed => ⟨passed.1, trivial⟩) fun _ _ => trivial
      apply Silent.bind ends
      intro _ _
      apply Silent.bind (allocate_silent _)
      intro _ _
      exact Silent.ok trivial
  · intro _
    exact Silent.ok trivial

/-- The destructors of sink objects close, and nothing else. -/
theorem closeAll_quiet : ∀ (descriptors : List Nat) (s : List WriteEvent),
    Program.wp outside (closeAll descriptors)
      (fun _ t => ∃ events, t = s ++ events ∧ (∀ event ∈ events, ¬ call.IsOutput event) ∧
        events.flatMap codecOutput = []) s
  | [], s => ⟨[], (List.append_nil s).symm, List.forall_mem_nil _, rfl⟩
  | descriptor :: rest, s => by
      refine ⟨trivial, ?_⟩
      rintro reply _ ⟨rfl, -⟩
      apply Program.wp_mono _ (closeAll_quiet rest _)
      rintro _ t ⟨events, rfl, all, nothing⟩
      refine ⟨_ :: events, List.append_assoc _ _ _, ?_, ?_⟩
      · intro event member
        rcases List.mem_cons.mp member with rfl | late
        · exact id
        · exact all event late
      · rw [List.flatMap_cons, nothing]
        rfl

theorem prepareBlock_accounts (typed : request.Typed) {destination : Path}
    (other : destination ++ request.spoolSuffix ≠ call.temporary) :
    Prepares call (SizedBlock request options ⟨request.compression, request.bytes.length⟩)
      (prepareBlock platform destination request options) := by
  apply Accounts.ensuring
  · have made : Prepares call (fun (block : PreparedBlock) outputs =>
          outputs.length = (BlockSource.mk request.compression request.bytes.length).outputs
            options ∧
          block.serializedSize =
            (BlockSource.mk request.compression request.bytes.length).serialized outputs ∧
          outputs.length ≤ options.maxCompressionSubblocks)
        (if request.compression ≠ .none then compressBlock platform destination request options
          else pure { serializedSize := request.bytes.length }) := by
      unfold BlockSource.outputs BlockSource.serialized
      apply Accounts.ite
      · intro coded
        apply (compressBlock_accounts typed other).mono _ fun _ _ => trivial
        rintro block outputs ⟨size, count, few⟩
        rw [if_neg coded, if_neg coded]
        exact ⟨count, size, few⟩
      · intro plain
        apply Accounts.pure
        rw [if_pos (not_not.mp plain), if_pos (not_not.mp plain)]
        exact ⟨rfl, rfl, Nat.zero_le _⟩
    apply Accounts.bind made fun _ _ => trivial
    rintro block outputs ⟨count, size, few⟩
    apply Accounts.bind (refuse_silent _ _ _) fun _ _ => trivial
    rintro _ _ ⟨rfl, within⟩
    apply Accounts.bind (blockChecksum_silent block) fun _ _ => trivial
    rintro checksum _ ⟨rfl, -⟩
    apply Accounts.pure
    rw [List.append_nil, List.append_nil, List.append_nil]
    exact ⟨count, size, count ▸ few, ⟨by dsimp only; omega, by dsimp only; omega⟩⟩
  · intro m s
    unfold destroySinks
    rw [Program.wp_bind]
    exact closeAll_quiet m.descriptors s

end

end

end Mmxisf.Writer
