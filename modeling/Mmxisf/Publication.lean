/-
# Publication -- a destination is there whole, or not at all

Calls of a writer go on at once, on one disk that has files of others, in any order
of what they ask of it, with failures anywhere.  After every step what was there
before is there, unchanged.  A name that is new is the destination of a call and
leads to all of its unit, or a working name of a call that has not returned
(`publication`).  One of several calls with one destination can succeed, and what a
call has published stays (`publishedStays`).  A call alone is `writeAlone`.

An allocation may fail wherever the call owns no file that it does not know yet.
-/
import Mmxisf.Writer.Published

namespace Mmxisf.Writer

set_option autoImplicit false

open Library (Program Disk Pool)

/-! ## What is published -/

/-- The bytes of a file, and the summary that its caller gets. -/
structure IsFileOf (platform : Platform) (codecs : Codecs) (call : WriteCall)
    (settled : SettledUnit)
    (contents : List Bytes) (summary : WriteSummary) (bytes : Bytes) : Prop where
  isUnit : IsUnitOf platform codecs call settled contents
  whole : bytes = unitBytes call.options settled contents
  laidOut : LaidOut call.options settled contents bytes
  reported : summary = summarize settled
  length : bytes.length = summary.fileSize

/-- A whole file of a call. -/
def FileOf (platform : Platform) (codecs : Codecs) (call : WriteCall) (summary : WriteSummary)
    (bytes : Bytes) : Prop :=
  ∃ settled contents, IsFileOf platform codecs call settled contents summary bytes

/-- Allocations that no file depends on. -/
def Ordinary (site : AllocationSite) : Prop := site = .work

theorem careful_ordinary : Careful Ordinary :=
  ⟨by rintro ⟨⟩, by rintro ⟨⟩, by rintro ⟨⟩⟩

section

variable {platform : Platform} {codecs : Codecs}

theorem IsUnitOf.fileOf {call : WriteCall} {settled : SettledUnit} {contents : List Bytes}
    (isUnit : IsUnitOf platform codecs call settled contents) :
    FileOf platform codecs call (summarize settled) (unitBytes call.options settled contents) :=
  ⟨settled, contents, isUnit, rfl, isUnit.laidOut, rfl, isUnit.length⟩

end

/-! ## Calls at once -/

section

variable {ι : Type}

abbrev WriterPool (ι : Type) : Type :=
  Pool ι WriteOp WriteOp.Reply (Result WriteSummary) (Disk Path Byte)

/-- Calls that have not begun. -/
def startPool (platform : Platform) (calls : ι → TypedCall) (before : Disk Path Byte) :
    WriterPool ι where
  programs i := write platform (calls i).call
  state := before

/-- Where any order of steps may have led. -/
structure PoolRun [DecidableEq ι] (codecs : Codecs) (start : WriterPool ι) where
  pool : WriterPool ι
  reaches : start.Reaches (shared codecs Ordinary) pool

variable (platform : Platform) (codecs : Codecs) (calls : ι → TypedCall)

/-- Why a name leads to a file that a call has made. -/
inductive NewName (pool : WriterPool ι) (path : Path) (file : Nat) : Prop
  | published {i : ι} {summary : WriteSummary} {bytes : Bytes}
      (writes : (calls i).call.writesFile = true)
      (destination : path = (calls i).call.destinationOrScratch) (made : Made pool.history i file)
      (holds : pool.state.contents file = some bytes)
      (whole : FileOf platform codecs (calls i).call summary bytes)
      (succeeds : ∀ e, ¬ pool.Returned i (.error e))
  | working {i : ι} {suffix : Text} (made : Made pool.history i file)
      (derived : path = (calls i).call.destinationOrScratch ++ (lit ".mmxisf-" ++ suffix))
      (running : ∀ result, ¬ pool.Returned i result)

/-- What a call that has succeeded has left on the disk. -/
structure Succeeded (before : Disk Path Byte) (pool : WriterPool ι) (i : ι) (summary : WriteSummary)
    (file : Nat) (bytes : Bytes) : Prop where
  free : before.names (calls i).call.destinationOrScratch = none
  made : Made pool.history i file
  named : pool.state.names (calls i).call.destinationOrScratch = some file
  holds : pool.state.contents file = some bytes
  whole : FileOf platform codecs (calls i).call summary bytes

/-- What is so of the disk whenever one looks at it. -/
structure DiskConsistent (before : Disk Path Byte) (pool : WriterPool ι) : Prop where
  names : ∀ {path file}, before.names path = some file → pool.state.names path = some file
  contents : ∀ {file held}, before.contents file = some held → pool.state.contents file = some held
  new : ∀ {path file}, pool.state.names path = some file →
    before.names path = some file ∨ NewName platform codecs calls pool path file
  succeeded : ∀ {i summary}, (calls i).call.writesFile = true → pool.Returned i (.ok summary) →
    ∃ file bytes, Succeeded platform codecs calls before pool i summary file bytes
  one : ∀ {i j summary other}, (calls i).call.writesFile = true → pool.Returned i (.ok summary) →
    (calls j).call.writesFile = true → pool.Returned j (.ok other) →
    (calls i).call.destinationOrScratch = (calls j).call.destinationOrScratch → i = j

/-- What a call has published is what it has published later. -/
def PublishedStays (before : Disk Path Byte) (pool later : WriterPool ι) : Prop :=
  ∀ i summary, (calls i).call.writesFile = true → pool.Returned i (.ok summary) →
    later.Returned i (.ok summary) ∧ ∃ file bytes,
      Succeeded platform codecs calls before pool i summary file bytes ∧
      Succeeded platform codecs calls before later i summary file bytes

variable {platform codecs calls} {before : Disk Path Byte}

/-- What the calls have to keep. -/
abbrev CallsJoined (platform : Platform) (codecs : Codecs) (calls : ι → TypedCall)
    (before : Disk Path Byte) :=
  Joined (fun i => (calls i).call.goal platform codecs) before

/-- How the calls have to end. -/
def CallsEnd (platform : Platform) (codecs : Codecs) (calls : ι → TypedCall) (i : ι)
    (result : Result WriteSummary) (s : CallState) : Prop :=
  CallEnded platform codecs (calls i).call s result

abbrev SafePool (platform : Platform) (codecs : Codecs) (calls : ι → TypedCall)
    (before : Disk Path Byte) (pool : WriterPool ι) (now : ι → CallState) : Prop :=
  pool.Safe (fun i => ofCall codecs Ordinary ((calls i).call.goal platform codecs))
    (CallsJoined platform codecs calls before) (CallsEnd platform codecs calls) now

theorem start_safe :
    SafePool platform codecs calls before (startPool platform calls before) (fun _ => {}) :=
  ⟨joined_start _ before, fun i => write_ends careful_ordinary (calls i).typed⟩

/-- A name is one that was there, or one of a call's own. -/
theorem SafePool.name {pool : WriterPool ι} {now : ι → CallState} {path : Path} {file : Nat}
    (safe : SafePool platform codecs calls before pool now)
    (there : pool.state.names path = some file) :
    before.names path = some file ∨ ∃ i, (now i).disk.names path = some file := by
  obtain ⟨k, held⟩ := safe.joint.together.names.covered there
  cases k with
  | none => exact .inl held
  | some i => exact .inr ⟨i, held⟩

/-- What a call's own file holds, the disk has. -/
theorem SafePool.own {pool : WriterPool ι} {now : ι → CallState} {i : ι} {file : Nat} {held : Bytes}
    (safe : SafePool platform codecs calls before pool now)
    (holds : (now i).disk.contents file = some held) :
    Made pool.history i file ∧ pool.state.contents file = some held :=
  ⟨safe.joint.made i file (holds ▸ rfl), safe.joint.together.contents.holds (i := some i) holds⟩

/-- A name of a call's own is there for a reason. -/
theorem SafePool.new {pool : WriterPool ι} {now : ι → CallState} {i : ι} {path : Path} {file : Nat}
    (safe : SafePool platform codecs calls before pool now)
    (there : (now i).disk.names path = some file) : NewName platform codecs calls pool
      path file := by
  have made : Made pool.history i file := safe.joint.made i file ((now i).disk.named there)
  have ended : ∀ result, pool.Returned i result →
      CallEnded platform codecs (calls i).call (now i) result :=
    fun result returned => Library.Owns.ended safe returned
  have unnamed : ∀ e, ¬ pool.Returned i (.error e) := by
    intro e returned
    cases ended _ returned with
    | failed names _ =>
        rw [names path] at there
        cases there
  rcases safe.joint.names i path (there ▸ rfl) with here | ⟨suffix, derived⟩
  · obtain ⟨held, holds, writes, settled, contents, isUnit, rfl⟩ :=
      safe.joint.complete i file (here ▸ there)
    exact .published writes here made (safe.own holds).2 isUnit.fileOf unnamed
  · refine .working made derived ?_
    intro result returned
    cases ended _ returned with
    | published writes isUnit names =>
        have other : path ≠ (calls i).call.destinationOrScratch :=
          Goal.Working.ne (⟨suffix, derived⟩ : ((calls i).call.goal platform codecs).Working path)
        rw [names path, if_neg other] at there
        cases there
    | delivered external isUnit names =>
        rw [names path] at there
        cases there
    | failed names _ =>
        rw [names path] at there
        cases there

theorem SafePool.succeeded {pool : WriterPool ι} {now : ι → CallState} {i : ι}
    {summary : WriteSummary}
    (safe : SafePool platform codecs calls before pool now)
    (writes : (calls i).call.writesFile = true) (returned : pool.Returned i (.ok summary)) :
    ∃ file bytes, Succeeded platform codecs calls before pool i summary file bytes ∧
      (now i).disk.names (calls i).call.destinationOrScratch = some file ∧
      (now i).disk.contents file = some bytes := by
  have ended : CallEnded platform codecs (calls i).call (now i) (.ok summary) :=
    Library.Owns.ended safe returned
  cases ended with
  | @published settled contents file _ isUnit names holds _ _ =>
      have there : (now i).disk.names (calls i).call.destinationOrScratch = some file := by
        rw [names, if_pos rfl]
      obtain ⟨made, held⟩ := safe.own holds
      have names := safe.joint.together.names
      refine ⟨file, _, ⟨?_, made, ?_, held, isUnit.fileOf⟩, there, holds⟩
      · exact names.elsewhere (i := some i) (j := none) there (by rintro ⟨⟩)
      · exact names.holds (i := some i) there
  | delivered external =>
      rw [external] at writes
      cases writes

theorem SafePool.consistent {pool : WriterPool ι} {now : ι → CallState}
    (safe : SafePool platform codecs calls before pool now) :
    DiskConsistent platform codecs calls before pool := by
  constructor
  · exact fun there => safe.joint.together.names.holds (i := none) there
  · exact fun there => safe.joint.together.contents.holds (i := none) there
  · intro path file there
    rcases safe.name there with old | ⟨i, own⟩
    · exact .inl old
    · exact .inr (safe.new own)
  · intro i summary writes returned
    obtain ⟨file, bytes, succeeded, -⟩ := safe.succeeded writes returned
    exact ⟨file, bytes, succeeded⟩
  · intro i j summary other writes returned otherWrites otherReturned same
    obtain ⟨file, bytes, -, there, -⟩ := safe.succeeded writes returned
    obtain ⟨otherFile, otherBytes, -, otherThere, -⟩ := safe.succeeded otherWrites otherReturned
    rw [← same] at otherThere
    exact Option.some.inj (safe.joint.together.names.apart (i := some i) (j := some j)
      (x := (calls i).call.destinationOrScratch) (there ▸ rfl) (otherThere ▸ rfl))

/-- What a call has published it keeps, in every order of the steps that follow. -/
theorem SafePool.stays [DecidableEq ι] {now : ι → CallState} {pool : WriterPool ι}
    (safe : SafePool platform codecs calls before pool now) (later : PoolRun codecs pool) :
    PublishedStays platform codecs calls before pool later.pool := by
  obtain ⟨then', safeLater, kept⟩ := (owns _ before).reaches safe later.reaches
  intro i summary writes returned
  obtain ⟨returnedLater, same⟩ := kept i _ returned
  obtain ⟨file, bytes, succeeded, named, holds⟩ := safe.succeeded writes returned
  obtain ⟨fileLater, bytesLater, succeededLater, namedLater, holdsLater⟩ :=
    SafePool.succeeded safeLater writes returnedLater
  rw [same, named, Option.some.injEq] at namedLater
  subst namedLater
  rw [same, holds, Option.some.injEq] at holdsLater
  subst holdsLater
  exact ⟨returnedLater, file, bytes, succeeded, succeededLater⟩

end

/-- In every order of steps the disk is consistent after each of them. -/
theorem publication {ι : Type} [DecidableEq ι] (platform : Platform) (codecs : Codecs)
    (calls : ι → TypedCall) (before : Disk Path Byte)
    (run : PoolRun codecs (startPool platform calls before)) :
    DiskConsistent platform codecs calls before run.pool := by
  obtain ⟨now, safe, -⟩ := (owns _ before).reaches start_safe run.reaches
  exact SafePool.consistent safe

/-- A destination of a call that has succeeded leads to the same bytes from then on,
whatever other calls do. -/
theorem publishedStays {ι : Type} [DecidableEq ι] (platform : Platform) (codecs : Codecs)
    (calls : ι → TypedCall) (before : Disk Path Byte)
    (run : PoolRun codecs (startPool platform calls before)) (later : PoolRun codecs run.pool) :
    PublishedStays platform codecs calls before run.pool later.pool := by
  obtain ⟨now, safe, -⟩ := (owns _ before).reaches start_safe run.reaches
  exact SafePool.stays safe later

/-! ## A call alone -/

/-- What a call changes on a disk that no one else uses. -/
inductive LeavesDisk (platform : Platform) (codecs : Codecs) (call : WriteCall)
    (before after : Disk Path Byte) : Result WriteSummary → Prop
  | published {summary : WriteSummary} {file : Nat} {bytes : Bytes}
      (writes : call.writesFile = true)
      (free : before.names call.destinationOrScratch = none) (fresh : before.contents file = none)
      (names : after.names = Function.update before.names call.destinationOrScratch (some file))
      (holds : after.contents file = some bytes)
      (whole : FileOf platform codecs call summary bytes) :
      LeavesDisk platform codecs call before after (.ok summary)
  | delivered {summary : WriteSummary} (external : call.writesFile = false)
      (names : after.names = before.names) : LeavesDisk platform codecs call before after
      (.ok summary)
  | failed {e : Error} (names : after.names = before.names) :
      LeavesDisk platform codecs call before after (.error e)

/-- The files that were there are there, and hold what they held. -/
structure LeavesFiles (before after : Disk Path Byte) : Prop where
  contents : ∀ {file held}, before.contents file = some held → after.contents file = some held

section

variable {before after : Disk Path Byte} {calls : Unit → CallState}

/-- The names on the disk are those that were there, and those of the one call. -/
theorem Together.name_iff (together : Together before calls after) {path : Path} {file : Nat} :
    after.names path = some file ↔
      before.names path = some file ∨ (calls ()).disk.names path = some file := by
  constructor
  · intro there
    obtain ⟨k, held⟩ := together.names.covered there
    cases k with
    | none => exact .inl held
    | some _ => exact .inr held
  · rintro (old | own)
    · exact together.names.holds (i := none) old
    · exact together.names.holds (i := some ()) own

theorem Together.same_names (together : Together before calls after)
    (names : ∀ path, (calls ()).disk.names path = none) : after.names = before.names := by
  funext path
  apply Option.ext
  intro file
  rw [together.name_iff, names path]
  exact or_iff_left (by rintro ⟨⟩)

theorem Together.one_name (together : Together before calls after) {destination : Path} {file : Nat}
    (names : ∀ path, (calls ()).disk.names path = if path = destination then some file else none) :
    before.names destination = none ∧
      after.names = Function.update before.names destination (some file) := by
  have there : (calls ()).disk.names destination = some file := by rw [names, if_pos rfl]
  have free : before.names destination = none :=
    together.names.elsewhere (i := some ()) (j := none) there (by rintro ⟨⟩)
  refine ⟨free, ?_⟩
  funext path
  apply Option.ext
  intro found
  rw [together.name_iff, names path]
  by_cases here : path = destination
  · rw [here, free, Function.update_self, if_pos rfl]
    exact or_iff_right (by rintro ⟨⟩)
  · rw [Function.update_of_ne here, if_neg here]
    exact or_iff_left (by rintro ⟨⟩)

end

/-- On any disk a call ends as it does alone. -/
theorem write_together (platform : Platform) (codecs : Codecs) (call : TypedCall)
    (before : Disk Path Byte) :
    Program.wp (shared codecs Ordinary) (write platform call.call)
      (fun result after => ∃ part : CallState, Together before (fun _ : Unit => part) after ∧
        CallEnded platform codecs call.call part result) before := by
  have own : Library.Owns (fun _ : Unit => ofCall codecs Ordinary (call.call.goal platform codecs))
      (shared codecs Ordinary) (Joined (fun _ => call.call.goal platform codecs) before) :=
    owns _ before
  apply Program.wp_mono _ (own.alone (i := ()) (fun _ _ => trivial) (joined_start _ before)
    (write_ends careful_ordinary call.typed))
  rintro result after ⟨history, part, joined, ended⟩
  have alone : Function.update (fun _ : Unit => ({} : CallState)) () part = fun _ => part :=
    funext fun _ => Function.update_self _ _ _
  exact ⟨part, alone ▸ joined.together, ended⟩

/-- A call alone publishes its unit, or leaves the disk as it was. -/
theorem writeAlone (platform : Platform) (codecs : Codecs) (call : TypedCall)
    (before : Disk Path Byte) :
    Program.wp (shared codecs Ordinary) (write platform call.call)
      (fun result after => LeavesFiles before after ∧
        LeavesDisk platform codecs call.call before after result) before := by
  apply Program.wp_mono _ (write_together platform codecs call before)
  rintro result after ⟨part, together, ended⟩
  refine ⟨⟨fun there => together.contents.holds (i := none) there⟩, ?_⟩
  cases ended with
  | published writes isUnit names holds =>
      obtain ⟨free, after⟩ := together.one_name names
      exact .published writes free
        (together.contents.elsewhere (i := some ()) (j := none) holds (by rintro ⟨⟩)) after
        (together.contents.holds (i := some ()) holds) isUnit.fileOf
  | delivered external isUnit names => exact .delivered external (together.same_names names)
  | failed names => exact .failed (together.same_names names)

/-- A disk with room for one file, on which nothing fails but codecs and spools. -/
def reliable (disk : Disk Path Byte) : (op : WriteOp) → op.Reply × Disk Path Byte
  | .create path =>
      if disk.names path = none ∧ disk.contents 0 = none then
        (some (0 : Nat), disk.create path 0)
      else (none, disk)
  | .write file bytes => (some bytes.length, disk.append file bytes)
  | .link path destination =>
      if (disk.names path).isSome = true ∧ disk.names destination = none then
        (true, disk.link path destination)
      else (false, disk)
  | .remove path => ((), disk.remove path)
  | op => (obliging op, disk)

theorem reliable_answers {codecs : Codecs} {mayFail : AllocationSite → Prop} (disk : Disk Path Byte)
    (op : WriteOp) : (shared codecs mayFail).reply disk op (reliable disk op).1
    (reliable disk op).2 := by
  cases op with
  | allocate site => exact ⟨by rintro ⟨⟩, rfl⟩
  | create path =>
      by_cases free : disk.names path = none ∧ disk.contents 0 = none
      · have creates : reliable disk (.create path) = (some (0 : Nat), disk.create path 0) :=
          if_pos free
        rw [creates]
        exact .created free.1 free.2
      · have fails : reliable disk (.create path) = (none, disk) := if_neg free
        rw [fails]
        exact .failed
  | write file bytes =>
      have all := @Disk.Appends.appended _ _ disk file bytes bytes.length
      rwa [List.take_length] at all
  | link path destination =>
      by_cases free : (disk.names path).isSome = true ∧ disk.names destination = none
      · have links : reliable disk (.link path destination) = (true, disk.link path destination) :=
          if_pos free
        rw [links]
        exact .linked free.1 free.2
      · have fails : reliable disk (.link path destination) = (false, disk) := if_neg free
        rw [fails]
        exact .failed
  | compress codec input capacity => exact ⟨by rintro _ ⟨⟩, rfl⟩
  | openSpool path => exact .failed
  | readSpool reader size => exact .failed
  | _ => rfl

/-- A call that succeeds there has a file. -/
theorem reliable_file (platform : Platform) (codecs : Codecs) (call : TypedCall)
    (succeeds : ((write platform call.call).answered reliable .empty).1.isOk = true) :
    ∃ summary bytes, FileOf platform codecs call.call summary bytes := by
  have ended := Program.run_of_wp (write_together platform codecs call .empty)
    (Program.run_answered reliable_answers (write platform call.call) .empty)
  generalize (write platform call.call).answered reliable .empty = result at ended succeeds
  obtain ⟨_ | summary, after⟩ := result
  · cases succeeds
  · obtain ⟨part, -, ended⟩ := ended
    cases ended with
    | published _ isUnit => exact ⟨_, _, isUnit.fileOf⟩
    | delivered _ isUnit => exact ⟨_, _, isUnit.fileOf⟩

example (codecs : Codecs) : ∃ summary bytes, FileOf barePlatform codecs onePixel.call
    summary bytes :=
  reliable_file barePlatform codecs onePixel (by decide +kernel)

/-! ## A sink of the caller -/

/-- What the sink of a call has taken in the end, and where it was flushed. -/
inductive SinkGot (platform : Platform) (codecs : Codecs) (call : WriteCall) (s : CallState) :
    Result WriteSummary → Prop
  | file {result : Result WriteSummary} (writes : call.writesFile = true)
      (accepted : s.accepted = [])
      (flushed : s.flushed = []) : SinkGot platform codecs call s result
  | all {summary : WriteSummary} (whole : FileOf platform codecs call summary s.accepted)
      (flushed : s.flushed = [s.accepted.length]) : SinkGot platform codecs call s (.ok summary)
  | nothing {e : Error} (accepted : s.accepted = []) (flushed : s.flushed = []) :
      SinkGot platform codecs call s (.error e)
  | part {e : Error} {summary : WriteSummary} {unit : Bytes}
      (whole : FileOf platform codecs call summary unit) (accepted : s.accepted <+: unit)
      (flushed : s.flushed = [] ∨ s.accepted = unit ∧ s.flushed = [unit.length]) :
      SinkGot platform codecs call s (.error e)

/-- What a call that has ended leaves to a sink of the caller. -/
theorem CallEnded.sinkGot {platform : Platform} {codecs : Codecs} {call : WriteCall}
    {s : CallState} {result : Result WriteSummary}
    (ended : CallEnded platform codecs call s result) :
    (call.writesFile = false → ∀ path, s.disk.names path = none) ∧
      SinkGot platform codecs call s result := by
  cases ended with
  | published writes isUnit names holds accepted flushed =>
      refine ⟨fun external => ?_, .file writes accepted flushed⟩
      rw [external] at writes
      cases writes
  | delivered external isUnit names accepted flushed =>
      exact ⟨fun _ => names, .all (accepted ▸ isUnit.fileOf) flushed⟩
  | failed names offered =>
      refine ⟨fun _ => names, ?_⟩
      cases offered with
      | nothing accepted flushed => exact .nothing accepted flushed
      | part external isUnit accepted flushed => exact .part isUnit.fileOf accepted (.inl flushed)
      | all external isUnit accepted flushed =>
          refine .part isUnit.fileOf (accepted ▸ List.prefix_rfl) (.inr ⟨accepted, ?_⟩)
          rw [← accepted]
          exact flushed

/-- A sink gets the unit and is flushed once, after it; from a call that fails it gets
the first bytes of a unit that was laid out. -/
theorem sinkGets (platform : Platform) (codecs : Codecs) (call : TypedCall) :
    Program.wp (ofCall codecs Ordinary (call.call.goal platform codecs)) (write platform call.call)
      (fun result s => (call.call.writesFile = false → ∀ path, s.disk.names path = none) ∧
        SinkGot platform codecs call.call s result) {} :=
  Program.wp_mono (fun _ _ => CallEnded.sinkGot) (write_ends careful_ordinary call.typed)

end Mmxisf.Writer
