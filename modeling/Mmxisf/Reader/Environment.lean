/-
# Reader.Environment -- what a source, a sink and a stop token may do

A run of a reading function is recorded in a trace: every `read_at` with its
reply, every decompressor call and every row with the sink's answer.  An
`Environment` says which answers there may be; nothing relates one answer to
another, so a source may return other bytes for the same range at every call.

* `Computes` is for the functions that touch no source: they have the value of a
  pure function unless a stop was requested.
* `Pass` is a complete pass over a range of the source, in order.
-/
import Mmxisf.Reader.Blocks

namespace Mmxisf.Reader

set_option autoImplicit false

open Library (World slice)
open Library.Routine (wp request)

inductive ReadEvent
  | read (offset size : Nat) (reply : Result Bytes)
  | decompressed (codec : CompressionCodec) (input : Bytes) (size windowLog : Nat)
  | consumed (row : ImageRowView) (reply : Result Unit)
  deriving DecidableEq

abbrev Trace := List ReadEvent

/-- The answers that may be given. -/
structure Environment where
  size : Result UInt64 → Prop
  source : Nat → Nat → Result Bytes → Prop
  stops : Bool → Prop
  sink : ImageRowView → Result Unit → Prop

namespace Environment

/-- The world of an environment: the decompressor is the platform's, and every
answer is recorded. -/
def world (platform : Platform) (env : Environment) : World ReadOp ReadOp.Reply Trace where
  allowed _ _ := True
  reply trace op :=
    match op with
    | .size => fun reply next => env.size reply ∧ next = trace
    | .readAt offset size => fun reply next =>
        env.source offset size reply ∧ next = trace ++ [.read offset size reply]
    | .stopRequested => fun reply next => env.stops reply ∧ next = trace
    | .decompress codec input size windowLog => fun reply next =>
        reply = platform.decompress codec input size windowLog ∧
          next = trace ++ [.decompressed codec input size windowLog]
    | .consume row => fun reply next => env.sink row reply ∧ next = trace ++ [.consumed row reply]

/-- Any answer at all. -/
def any : Environment := ⟨fun _ => True, fun _ _ _ => True, fun _ => True, fun _ _ => True⟩

/-- A source that keeps its bytes.  A request inside the file is answered with
some of the bytes asked for, at least one; no stop is requested. -/
def stable (file : Bytes) : Environment where
  size reply := ∃ size : UInt64, reply = .ok size ∧ size.toNat = file.length
  source offset size reply :=
    0 < size → offset + size ≤ file.length →
      ∃ count, 0 < count ∧ count ≤ size ∧ reply = .ok (slice file offset count)
  stops reply := reply = false
  sink _ _ := True

theorem stable_live {platform : Platform} {file : Bytes} (small : file.length ≤ u64Max) :
    ((stable file).world platform).Live := by
  intro trace op
  cases op with
  | size =>
      have lower : file.length < UInt64.size := Nat.lt_succ_of_le small
      exact ⟨.ok (UInt64.ofNat file.length), trace,
        ⟨_, rfl, UInt64.toNat_ofNat_of_lt lower⟩, rfl⟩
  | readAt offset size =>
      exact ⟨.ok (slice file offset size), _, fun some _ => ⟨size, some, le_rfl, rfl⟩, rfl⟩
  | stopRequested => exact ⟨false, trace, rfl, rfl⟩
  | decompress codec input size windowLog => exact ⟨_, _, rfl, rfl⟩
  | consume row => exact ⟨.ok (), _, trivial, rfl⟩

end Environment

section

variable {L α β : Type} {platform : Platform} {env : Environment}

/-- The answer to a stop that was requested. -/
def Cancelled (env : Environment) (e : Error) : Prop := env.stops true ∧ e.code = .cancelled

/-! ## Functions that touch no source -/

/-- `x` leaves its store, has this value unless it was cancelled, and adds to
the trace only what `emits` holds of. -/
def Computes (platform : Platform) (env : Environment) (emits : ReadEvent → Prop)
    (x : ReadRoutine L α) (value : Result α) : Prop :=
  ∀ l s, wp (env.world platform) x
    (fun result m t => m = l ∧ (result = value ∨ ∃ e, result = .error e ∧ Cancelled env e) ∧
      ∃ added, t = s ++ added ∧ ∀ event ∈ added, emits event) l s

namespace Computes

variable {emits : ReadEvent → Prop}

theorem pure (value : α) : Computes platform env emits (L := L) (Pure.pure value) (.ok value) := by
  intro l s
  rw [Library.Routine.wp_pure]
  exact ⟨rfl, .inl rfl, [], by simp, by simp⟩

theorem fail (e : Error) :
    Computes platform env emits (L := L) (α := α) (Library.Routine.fail e) (.error e) := by
  intro l s
  rw [Library.Routine.wp_fail]
  exact ⟨rfl, .inl rfl, [], by simp, by simp⟩

theorem ofExcept (result : Result α) :
    Computes platform env emits (L := L) (Library.Routine.ofExcept result) result := by
  cases result with
  | error e => exact fail e
  | ok value => exact pure value

theorem refuse (bad : Prop) [Decidable bad] (code : ErrorCode) (message : String) :
    Computes platform env emits (L := L) (Reader.refuse bad code message)
      (reject bad code message) :=
  ofExcept _

theorem bind {x : ReadRoutine L α} {next : α → ReadRoutine L β} {value : Result α}
    {value' : Result β} (first : Computes platform env emits x value)
    (failed : ∀ e, value = .error e → value' = .error e)
    (rest : ∀ a, value = .ok a → Computes platform env emits (next a) value') :
    Computes platform env emits (x >>= next) value' := by
  intro l s
  rw [Library.Routine.wp_bind]
  refine Library.Routine.wp_mono ?_ (first l s)
  rintro result m t ⟨rfl, outcome, added, rfl, emitted⟩
  rcases outcome with rfl | ⟨e, rfl, cancelled⟩
  · cases result with
    | error e => exact ⟨rfl, .inl (failed e rfl).symm, added, rfl, emitted⟩
    | ok a =>
        rw [Library.Routine.continueWith_ok]
        refine Library.Routine.wp_mono ?_ (rest a rfl m (s ++ added))
        rintro result n u ⟨rfl, outcome, more, rfl, emittedMore⟩
        refine ⟨rfl, outcome, added ++ more, by rw [List.append_assoc], ?_⟩
        simp only [List.mem_append]
        rintro event (before | after)
        · exact emitted event before
        · exact emittedMore event after
  · exact ⟨rfl, .inr ⟨e, rfl, cancelled⟩, added, rfl, emitted⟩

/-- A sequence whose first part succeeds. -/
theorem bind_ok {x : ReadRoutine L α} {next : α → ReadRoutine L β} {a : α} {value' : Result β}
    (first : Computes platform env emits x (.ok a))
    (rest : Computes platform env emits (next a) value') :
    Computes platform env emits (x >>= next) value' :=
  first.bind (fun e impossible => by cases impossible) fun b same => by
    cases same
    exact rest

/-- A sequence, by the sequence of the values. -/
theorem bind_value {x : ReadRoutine L α} {next : α → ReadRoutine L β} {value : Result α}
    {value' : α → Result β} (first : Computes platform env emits x value)
    (rest : ∀ a, value = .ok a → Computes platform env emits (next a) (value' a)) :
    Computes platform env emits (x >>= next) (value >>= value') := by
  refine first.bind ?_ ?_
  · rintro e rfl
    rfl
  · rintro a rfl
    exact rest a rfl

theorem checkStop (message : String) :
    Computes platform env emits (L := L) (Reader.checkStop message) (.ok ()) := by
  intro l s
  unfold Reader.checkStop Reader.refuse
  rw [Library.Routine.wp_bind, Library.Routine.wp_request]
  refine ⟨trivial, ?_⟩
  rintro stopped t ⟨allowed, rfl⟩
  rw [Library.Routine.continueWith_ok, Library.Routine.wp_ofExcept]
  cases stopped with
  | false => exact ⟨rfl, .inl (by simp [reject]), [], by simp, by simp⟩
  | true => exact ⟨rfl, .inr ⟨_, rfl, allowed, rfl⟩, [], by simp, by simp⟩

theorem checkStopAt (round : Nat) (message : String) :
    Computes platform env emits (L := L) (Reader.checkStopAt round message) (.ok ()) := by
  unfold Reader.checkStopAt
  split
  · exact checkStop message
  · exact pure ()

theorem mono {emits' : ReadEvent → Prop} {x : ReadRoutine L α} {value : Result α}
    (weaker : ∀ event, emits event → emits' event) (holds : Computes platform env emits x value) :
    Computes platform env emits' x value := by
  intro l s
  refine Library.Routine.wp_mono ?_ (holds l s)
  rintro result m t ⟨same, outcome, added, grown, emitted⟩
  exact ⟨same, outcome, added, grown, fun event member => weaker event (emitted event member)⟩

end Computes

/-! ## Passes over the source -/

/-- Successful reads from `offset` on, each where the last one ended, none beyond
`stop`; `bytes` is what they returned. -/
inductive Pass (env : Environment) (stop : Nat) : Nat → Bytes → Trace → Prop
  | nil (offset : Nat) : Pass env stop offset [] []
  | read {offset size : Nat} {piece rest : Bytes} {events : Trace}
      (allowed : env.source offset size (.ok piece)) (nonempty : piece ≠ [])
      (short : piece.length ≤ size) (inside : offset + size ≤ stop)
      (later : Pass env stop (offset + piece.length) rest events) :
      Pass env stop offset (piece ++ rest) (.read offset size (.ok piece) :: events)

namespace Pass

variable {stop offset : Nat} {bytes more : Bytes} {events later : Trace}

theorem append (first : Pass env stop offset bytes events)
    (second : Pass env stop (offset + bytes.length) more later) :
    Pass env stop offset (bytes ++ more) (events ++ later) := by
  induction first with
  | nil offset => simpa using second
  | read allowed nonempty short inside tail ih =>
      rw [List.length_append, ← Nat.add_assoc] at second
      rw [List.append_assoc, List.cons_append]
      exact .read allowed nonempty short inside (ih second)

theorem mono {stop' : Nat} (wider : stop ≤ stop') (pass : Pass env stop offset bytes events) :
    Pass env stop' offset bytes events := by
  induction pass with
  | nil offset => exact .nil offset
  | read allowed nonempty short inside tail ih =>
      exact .read allowed nonempty short (inside.trans wider) ih

/-- A pass over a source that keeps its bytes returns them. -/
theorem eq_slice {file : Bytes} (inFile : stop ≤ file.length)
    (pass : Pass (.stable file) stop offset bytes events) :
    bytes = slice file offset bytes.length := by
  induction pass with
  | nil offset => simp
  | @read offset size piece rest events allowed nonempty short inside tail ih =>
      have positive : 0 < size :=
        Nat.lt_of_lt_of_le (List.length_pos_iff.mpr nonempty) short
      obtain ⟨count, -, small, same⟩ := allowed positive (by omega)
      rw [Except.ok.injEq] at same
      have pieceLength : piece.length = count := by
        rw [same, Library.length_slice (by omega)]
      rw [List.length_append, ← Library.slice_append_slice, ← ih, pieceLength, ← same]

end Pass

/-- Where the serialized bytes of a block are: in the document, or in the source
from `offset` on. -/
structure BlockPlace where
  inlineBlock : Option Bytes
  offset : Nat

/-- Reads of the bytes `start` to `stop` of a place, whatever the replies: none
if they are in the document.  An offset whose sum had wrapped around would lie
before `start`. -/
def ReadsWithin (env : Environment) (place : BlockPlace) (start stop : Nat) (events : Trace) :
    Prop :=
  ∀ event ∈ events, place.inlineBlock = none ∧ ∃ offset size reply,
    event = .read offset size reply ∧ env.source offset size reply ∧ 0 < size ∧
      place.offset + start ≤ offset ∧ offset + size ≤ place.offset + stop

namespace ReadsWithin

variable {place : BlockPlace} {start stop : Nat} {events later : Trace}

theorem nil : ReadsWithin env place start stop [] := by
  simp [ReadsWithin]

theorem append (first : ReadsWithin env place start stop events)
    (second : ReadsWithin env place start stop later) :
    ReadsWithin env place start stop (events ++ later) := by
  simp only [ReadsWithin, List.mem_append]
  rintro event (before | after)
  · exact first event before
  · exact second event after

theorem mono {start' stop' : Nat} (low : start' ≤ start) (high : stop ≤ stop')
    (holds : ReadsWithin env place start stop events) :
    ReadsWithin env place start' stop' events := by
  intro event member
  obtain ⟨attached, offset, size, reply, rfl, allowed, positive, above, inside⟩ :=
    holds event member
  exact ⟨attached, offset, size, reply, rfl, allowed, positive, by omega, by omega⟩

end ReadsWithin

/-- A reply that a reading function refuses. -/
def BadReply (size : Nat) : Result Bytes → Prop
  | .error _ => True
  | .ok bytes => bytes = [] ∨ size < bytes.length

/-- A read failed: it was cancelled, or the source gave a bad reply. -/
def FailedRead (env : Environment) (events : Trace) (e : Error) : Prop :=
  Cancelled env e ∨ ∃ offset size reply, .read offset size reply ∈ events ∧ BadReply size reply

theorem FailedRead.later {events later : Trace} {e : Error} (failed : FailedRead env later e) :
    FailedRead env (events ++ later) e := by
  rcases failed with cancelled | ⟨offset, size, reply, member, bad⟩
  · exact .inl cancelled
  · exact .inr ⟨offset, size, reply, List.mem_append_right _ member, bad⟩

/-- A source that keeps its bytes gives no bad reply inside the file. -/
theorem not_failedRead {file : Bytes} {place : BlockPlace} {start stop : Nat} {events : Trace}
    {e : Error} (inFile : place.inlineBlock = none → place.offset + stop ≤ file.length)
    (within : ReadsWithin (.stable file) place start stop events) :
    ¬ FailedRead (.stable file) events e := by
  rintro (⟨stopped, -⟩ | ⟨offset, size, reply, member, bad⟩)
  · cases stopped
  · obtain ⟨attached, _, _, _, same, allowed, positive, -, inside⟩ := within _ member
    have room := inFile attached
    cases same
    obtain ⟨count, some, small, rfl⟩ := allowed positive (by omega)
    rcases bad with empty | long
    · have length : (slice file offset count).length = count := Library.length_slice (by omega)
      rw [empty, List.length_nil] at length
      omega
    · rw [Library.length_slice (by omega)] at long
      omega

end

end Mmxisf.Reader
