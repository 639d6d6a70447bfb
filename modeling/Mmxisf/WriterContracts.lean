/-
# WriterContracts -- what the callers of a writer are promised

Three promises, each of every run.  Calls that go on at once publish a destination once
and for good, touch no file but those that they made, and leave nothing else when all
have returned (`concurrentWriters`).  A call that fails leaves every path leading to what
it led to, and one that succeeds changes what its destination leads to and nothing else
(`atomicWrite`).  A sink of the caller takes nothing before the unit is laid out, then a
beginning of it, and all of it from a call that succeeds (`sinkContract`).
-/
import Mmxisf.HeaderPlaces
import Mmxisf.ReferenceLibraries

namespace Mmxisf.Writer

set_option autoImplicit false

open Library (Program Routine Disk Pool Event)

/-! ## Calls at once -/

section

variable {ι : Type}

/-- The file that an operation writes to, or takes a name from. -/
def touchedFile (disk : Disk Path Byte) : WriteOp → Option Nat
  | .write file _ => some file
  | .remove path => disk.names path
  | _ => none

/-- A call has gone on, and what it did not make is as it was. -/
structure LeavesOthers (pool next : WriterPool ι) (i : ι) : Prop where
  names : ∀ {path file}, pool.state.names path = some file → ¬ Made pool.history i file →
    next.state.names path = some file
  contents : ∀ {file held}, pool.state.contents file = some held → ¬ Made pool.history i file →
    next.state.contents file = some held

variable [DecidableEq ι] (platform : Platform) (codecs : Codecs) (calls : ι → TypedCall)

/-- What calls at once may do to a disk, and to each other. -/
structure WritersSafe (before : Disk Path Byte) (pool : WriterPool ι) : Prop where
  one : ∀ {i j summary other}, (calls i).call.writesFile = true → pool.Returned i (.ok summary) →
    (calls j).call.writesFile = true → pool.Returned j (.ok other) →
    (calls i).call.destinationOrScratch = (calls j).call.destinationOrScratch → i = j
  stays : ∀ later : PoolRun codecs pool,
    PublishedStays platform codecs calls before pool later.pool
  touches : ∀ {i event next}, pool.Step (shared codecs Ordinary) i event next →
    ∀ file, touchedFile pool.state event.1 = some file → Made pool.history i file
  others : ∀ {i event next}, pool.Step (shared codecs Ordinary) i event next →
    LeavesOthers pool next i
  finished : (∀ i, ∃ result, pool.Returned i result) → ∀ {path file},
    pool.state.names path = some file ↔ before.names path = some file ∨ ∃ i summary bytes,
      (calls i).call.writesFile = true ∧ pool.Returned i (.ok summary) ∧
        path = (calls i).call.destinationOrScratch ∧
        Succeeded platform codecs calls before pool i summary file bytes
  kept : ∀ {file held}, before.contents file = some held →
    pool.state.contents file = some held

variable {platform codecs calls} {before : Disk Path Byte} {pool next : WriterPool ι}
  {now : ι → CallState} {i : ι} {event : Event WriteOp WriteOp.Reply}

/-- A call is about to write to, or to unname, a file that it made. -/
theorem SafePool.touches (safe : SafePool platform codecs calls before pool now)
    (step : pool.Step (shared codecs Ordinary) i event next) {file : Nat}
    (touched : touchedFile pool.state event.1 = some file) : Made pool.history i file := by
  have own := Library.Owns.lets safe step
  obtain ⟨op, reply⟩ := event
  cases op with
  | write other bytes =>
      cases touched
      exact safe.joint.made i file own.1
  | remove path =>
      have there : (now i).disk.names path = some file :=
        (safe.joint.together.names.whole_eq (i := some i) own).symm.trans touched
      exact safe.joint.made i file ((now i).disk.named there)
  | _ => cases touched

/-- Names that lead elsewhere, and other files, are not changed by what a disk answers. -/
theorem filesReply_others {mayFail : AllocationSite → Prop} {disk after : Disk Path Byte}
    {op : WriteOp} {reply : op.Reply} {mine : Nat → Prop}
    (answer : FilesReply codecs mayFail disk op reply after)
    (touches : ∀ file, touchedFile disk op = some file → mine file) :
    (∀ {path file}, disk.names path = some file → ¬ mine file → after.names path = some file) ∧
      ∀ {file held}, disk.contents file = some held → ¬ mine file →
        after.contents file = some held := by
  have same (unchanged : after = disk) :
      (∀ {path file}, disk.names path = some file → ¬ mine file → after.names path = some file) ∧
        ∀ {file held}, disk.contents file = some held → ¬ mine file →
          after.contents file = some held := by
    subst unchanged
    exact ⟨fun there _ => there, fun there _ => there⟩
  cases op with
  | create path =>
      cases answer with
      | failed => exact same rfl
      | @created made free fresh =>
          constructor
          · intro other file there _
            refine (Function.update_of_ne ?_ _ _).trans there
            rintro rfl
            rw [free] at there
            cases there
          · intro file held there _
            refine (Function.update_of_ne ?_ _ _).trans there
            rintro rfl
            rw [fresh] at there
            cases there
  | write other bytes =>
      have appended (cells : Bytes) {file : Nat} {held : Bytes}
          (there : disk.contents file = some held) (others : ¬ mine file) :
          (disk.append other cells).contents file = some held := by
        refine (Disk.append_of_ne ?_ cells).trans there
        rintro rfl
        exact others (touches file rfl)
      cases answer with
      | failed count => exact ⟨fun there _ => there, appended _⟩
      | appended count => exact ⟨fun there _ => there, appended _⟩
  | link path other =>
      cases answer with
      | failed => exact same rfl
      | linked _ free =>
          refine ⟨fun {name file} there _ => ?_, fun there _ => there⟩
          refine (Function.update_of_ne ?_ _ _).trans there
          rintro rfl
          rw [free] at there
          cases there
  | remove path =>
      subst answer
      refine ⟨fun {name file} there others => ?_, fun there _ => there⟩
      refine (Function.update_of_ne ?_ _ _).trans there
      rintro rfl
      exact others (touches file there)
  | openSpool _ | readSpool _ _ =>
      cases answer <;> exact ⟨fun there _ => there, fun there _ => there⟩
  | allocate _ | compress _ _ _ => exact same answer.2
  | _ => exact same answer

theorem SafePool.others (safe : SafePool platform codecs calls before pool now)
    (step : pool.Step (shared codecs Ordinary) i event next) : LeavesOthers pool next i := by
  have touches : ∀ file, touchedFile pool.state event.1 = some file →
      Made pool.history i file := fun _ => safe.touches step
  cases step with
  | call _ answer =>
      obtain ⟨names, contents⟩ := filesReply_others answer touches
      exact ⟨names, contents⟩

omit [DecidableEq ι] in
/-- When all calls have returned, a new name is a destination that one of them has
published. -/
theorem SafePool.finished (safe : SafePool platform codecs calls before pool now)
    (all : ∀ i, ∃ result, pool.Returned i result) {path : Path} {file : Nat} :
    pool.state.names path = some file ↔ before.names path = some file ∨ ∃ i summary bytes,
      (calls i).call.writesFile = true ∧ pool.Returned i (.ok summary) ∧
        path = (calls i).call.destinationOrScratch ∧
        Succeeded platform codecs calls before pool i summary file bytes := by
  constructor
  · intro there
    rcases safe.consistent.new there with old | new
    · exact .inl old
    · right
      cases new with
      | @published i _ _ writes destination _ _ _ succeeds =>
          obtain ⟨e | summary, returned⟩ := all i
          · exact absurd returned (succeeds e)
          · obtain ⟨other, bytes, succeeded, -⟩ := safe.succeeded writes returned
            have same : file = other := by
              rw [destination, succeeded.named] at there
              exact (Option.some.inj there).symm
            exact ⟨i, summary, bytes, writes, returned, destination, same ▸ succeeded⟩
      | @working i _ _ _ running =>
          obtain ⟨result, returned⟩ := all i
          exact absurd returned (running result)
  · rintro (old | ⟨i, summary, bytes, -, -, rfl, succeeded⟩)
    · exact safe.consistent.names old
    · exact succeeded.named

end

/-- Whatever order the steps of calls take, they are safe after each of them. -/
theorem concurrentWriters {ι : Type} [DecidableEq ι] (platform : Platform) (codecs : Codecs)
    (calls : ι → TypedCall) (before : Disk Path Byte)
    (run : PoolRun codecs (startPool platform calls before)) :
    WritersSafe platform codecs calls before run.pool := by
  obtain ⟨now, safe, -⟩ := (owns _ before).reaches start_safe run.reaches
  have consistent := SafePool.consistent safe
  exact ⟨consistent.one, SafePool.stays safe, fun step _ => SafePool.touches safe step,
    SafePool.others safe, SafePool.finished safe, consistent.contents⟩

/-! ## A call that fails -/

/-- What the paths of a disk lead to after a call: what they led to, or its unit under
its destination. -/
inductive AtomicEnd (platform : Platform) (codecs : Codecs) (call : WriteCall)
    (before after : Disk Path Byte) : Result WriteSummary → Prop
  | failed {e : Error} (same : after.lookup = before.lookup) :
      AtomicEnd platform codecs call before after (.error e)
  | published {summary : WriteSummary} {unit : Bytes} (writes : call.writesFile = true)
      (free : before.lookup call.destinationOrScratch = none)
      (only : after.lookup =
        Function.update before.lookup call.destinationOrScratch (some unit))
      (whole : FileOf platform codecs call summary unit) (size : unit.length = summary.fileSize) :
      AtomicEnd platform codecs call before after (.ok summary)
  | delivered {summary : WriteSummary} (external : call.writesFile = false)
      (same : after.lookup = before.lookup) :
      AtomicEnd platform codecs call before after (.ok summary)

section

variable {before after : Disk Path Byte} {calls : Unit → CallState}

/-- A path that was there leads to what it led to. -/
theorem Together.lookup_old (together : Together before calls after) {path : Path}
    (same : after.names path = before.names path) : after.lookup path = before.lookup path := by
  unfold Disk.lookup
  rw [same]
  cases there : before.names path with
  | none => rfl
  | some file =>
      obtain ⟨held, holds⟩ := Option.isSome_iff_exists.mp (before.named there)
      rw [Option.bind_some, Option.bind_some, holds]
      exact together.contents.holds (i := none) holds

theorem Together.lookup_same (together : Together before calls after)
    (names : ∀ path, (calls ()).disk.names path = none) : after.lookup = before.lookup :=
  funext fun path => together.lookup_old (congrFun (together.same_names names) path)

theorem Together.lookup_one (together : Together before calls after) {destination : Path}
    {file : Nat} {held : Bytes}
    (names : ∀ path, (calls ()).disk.names path = if path = destination then some file else none)
    (holds : (calls ()).disk.contents file = some held) :
    before.lookup destination = none ∧
      after.lookup = Function.update before.lookup destination (some held) := by
  obtain ⟨free, only⟩ := together.one_name names
  constructor
  · rw [Disk.lookup, free, Option.bind_none]
  · funext path
    by_cases here : path = destination
    · subst here
      rw [Function.update_self, Disk.lookup, only, Function.update_self, Option.bind_some]
      exact together.contents.holds (i := some ()) holds
    · rw [Function.update_of_ne here]
      exact together.lookup_old (by rw [only, Function.update_of_ne here])

end

/-- A call changes what its destination leads to, or nothing. -/
theorem atomicWrite (platform : Platform) (codecs : Codecs) (call : TypedCall)
    (before : Disk Path Byte) :
    Program.wp (shared codecs Ordinary) (write platform call.call)
      (fun result after => AtomicEnd platform codecs call.call before after result) before := by
  apply Program.wp_mono _ (write_together platform codecs call before)
  rintro result after ⟨part, together, ended⟩
  cases ended with
  | published writes isUnit names holds =>
      obtain ⟨free, only⟩ := together.lookup_one names holds
      exact .published writes free only isUnit.fileOf isUnit.length
  | delivered external isUnit names => exact .delivered external (together.lookup_same names)
  | failed names => exact .failed (together.lookup_same names)

/-! ## A sink of the caller -/

/-- A call with a sink of the caller. -/
structure SinkCall extends TypedCall where
  external : call.writesFile = false

/-- A unit with its header, zeros and blocks where they belong; the header names these
blocks. -/
structure EmittedUnit (platform : Platform) (codecs : Codecs) (call : WriteCall)
    (settled : SettledUnit) (contents : List Bytes) (unit : Bytes) : Prop where
  isUnit : IsUnitOf platform codecs call settled contents
  whole : unit = unitBytes call.options settled contents
  laidOut : LaidOut call.options settled contents unit
  places : (headerPlaces settled.header).Perm (settled.plan.locations.map BlockLocation.raw)

/-- What a sink has taken of this unit when the output has ended. -/
inductive SinkTakes (settled : SettledUnit) (unit : Bytes) (s : CallState) :
    Result WriteSummary → Prop
  | all (accepted : s.accepted = unit) (flushed : s.flushed = [unit.length])
      (size : unit.length = (summarize settled).fileSize) :
      SinkTakes settled unit s (.ok (summarize settled))
  | part {e : Error} (accepted : s.accepted <+: unit)
      (flushed : s.flushed = [] ∨ s.accepted = unit ∧ s.flushed = [unit.length]) :
      SinkTakes settled unit s (.error e)

/-- Checking, preparing blocks and laying out put nothing out; what is put out after that
is of the one unit that was laid out. -/
structure SinkContract (platform : Platform) (codecs : Codecs) (call : WriteCall) : Prop where
  prepares : Routine.wp (ofCall codecs Ordinary (call.goal platform codecs))
    (prepareUnit platform call) (fun prepared l s => s.accepted = [] ∧ s.flushed = [] ∧
      ∀ settled, prepared = .ok settled → ∃ contents unit,
        EmittedUnit platform codecs call settled contents unit ∧
          Routine.wp (ofCall codecs Ordinary (call.goal platform codecs)) (publish call settled)
            (fun result _ t => SinkTakes settled unit t result) l s) {} {}
  returns : Program.wp (ofCall codecs Ordinary (call.goal platform codecs)) (write platform call)
    (fun result s => SinkGot platform codecs call s result) {}

/-- A sink of the caller gets a unit that was laid out before, and is flushed once. -/
theorem sinkContract (platform : Platform) (codecs : Codecs) (call : SinkCall)
    (printed : PrintsTidy platform) : SinkContract platform codecs call.call := by
  have start : Tracks Ordinary (call.call.goal platform codecs) {} {} :=
    ⟨List.forall_mem_nil _, List.nodup_nil, fun _ _ => by rintro ⟨⟩, rfl⟩
  have fresh : Fresh {} := ⟨rfl, rfl⟩
  constructor
  · refine Routine.wp_mono ?_ (prepareUnit_ends call.typed rfl start)
    rintro _ l s (⟨keeps, contents, isUnit, held⟩ | keeps)
    · have fresh := fresh.grows keeps.grows
      refine ⟨fresh.accepted, fresh.flushed, ?_⟩
      rintro settled ⟨⟩
      refine ⟨contents, _, ⟨isUnit, rfl, isUnit.laidOut, isUnit.namesPlaces printed⟩, ?_⟩
      refine Routine.wp_mono ?_
        (publishTo_takes careful_ordinary call.external isUnit held keeps.tracks fresh)
      rintro _ _ t (⟨rfl, -, accepted, flushed⟩ | ⟨-, taken⟩)
      · exact .all accepted (accepted ▸ flushed) isUnit.length
      · cases taken with
        | part accepted flushed => exact .part accepted (.inl flushed)
        | all accepted flushed =>
            exact .part (accepted ▸ List.prefix_rfl) (.inr ⟨accepted, accepted ▸ flushed⟩)
    · have fresh := fresh.grows keeps.grows
      exact ⟨fresh.accepted, fresh.flushed, by rintro _ ⟨⟩⟩
  · exact Program.wp_mono (fun _ _ ended => (CallEnded.sinkGot ended).2)
      (write_ends careful_ordinary call.typed)

/-- One pixel for a sink. -/
def onePixelTo : SinkCall where
  call := { onePixel.call with writesFile := false }
  typed := onePixel.typed
  external := rfl

theorem onePixel_toSink : SinkContract referencePlatform storingCodecs onePixelTo.call :=
  sinkContract referencePlatform storingCodecs onePixelTo referenceNumbers.tidy

end Mmxisf.Writer
