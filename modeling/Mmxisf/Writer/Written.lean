/-
# Writer.Written -- what the functions of a writer write

Most of what a writer does changes nothing (`Still`): it checks, allocates and
compresses.  The rest adds bytes to one output, the sink of the caller or a file of
the call, and leaves everything else (`CallState.Wrote`); a reader's place is not
counted.  A function that fails has written the first of the bytes that it would
have written.
-/
import Mmxisf.Library.Outcomes
import Mmxisf.Writer.UnitBytes

namespace Mmxisf.Writer

set_option autoImplicit false

open Library (Routine Disk slice)

/-! ## States -/

namespace CallState

/-- Bytes were added to an output. -/
def wrote (s : CallState) : Sink → Bytes → CallState
  | .external, bytes => { s with accepted := s.accepted ++ bytes }
  | .file file, bytes => { s with disk := s.disk.append file bytes }

/-- The sink was flushed. -/
def flushedNow (s : CallState) : CallState := { s with flushed := s.flushed ++ [s.accepted.length] }

/-- The output is there, and nothing has been published. -/
def Has (s : CallState) (goal : Goal) : Sink → Prop
  | .external => True
  | .file file => (s.disk.contents file).isSome = true ∧ s.disk.names goal.destination = none

/-- Two states that differ in the places of readers at most. -/
structure Alike (s t : CallState) : Prop where
  names : t.disk.names = s.disk.names
  contents : t.disk.contents = s.disk.contents
  accepted : t.accepted = s.accepted
  flushed : t.flushed = s.flushed

/-- These bytes were added to the output, and nothing else was changed. -/
def Wrote (output : Sink) (bytes : Bytes) (s t : CallState) : Prop := (s.wrote output bytes).Alike t

theorem Alike.refl (s : CallState) : s.Alike s := ⟨rfl, rfl, rfl, rfl⟩

theorem Alike.trans {s t u : CallState} (first : s.Alike t) (second : t.Alike u) : s.Alike u :=
  ⟨second.names.trans first.names, second.contents.trans first.contents,
    second.accepted.trans first.accepted, second.flushed.trans first.flushed⟩

theorem Alike.wrote {s t : CallState} (alike : s.Alike t) (output : Sink) (bytes : Bytes) :
    (s.wrote output bytes).Alike (t.wrote output bytes) := by
  obtain ⟨names, contents, accepted, flushed⟩ := alike
  cases output with
  | external => exact ⟨names, contents, congrArg (· ++ bytes) accepted, flushed⟩
  | file file =>
      refine ⟨names, ?_, accepted, flushed⟩
      show Function.update t.disk.contents file _ = Function.update s.disk.contents file _
      rw [contents]

theorem Alike.has {s t : CallState} {goal : Goal} {output : Sink} (alike : s.Alike t)
    (has : s.Has goal output) : t.Has goal output := by
  cases output with
  | external => trivial
  | file file =>
      show (t.disk.contents file).isSome = true ∧ t.disk.names goal.destination = none
      rw [alike.contents, alike.names]
      exact has

section

variable {s t u : CallState} {goal : Goal} {output : Sink} {bytes more : Bytes}

theorem wrote_wrote (s : CallState) (output : Sink) (bytes more : Bytes) :
    (s.wrote output bytes).wrote output more = s.wrote output (bytes ++ more) := by
  cases output with
  | external =>
      show CallState.mk s.disk (s.accepted ++ bytes ++ more) s.flushed = _
      rw [List.append_assoc]
      rfl
  | file file =>
      show CallState.mk ((s.disk.append file bytes).append file more) s.accepted s.flushed = _
      rw [Disk.append_append]
      rfl

theorem wrote_nil (has : s.Has goal output) : s.wrote output [] = s := by
  cases output with
  | external =>
      show CallState.mk s.disk (s.accepted ++ []) s.flushed = _
      rw [List.append_nil]
  | file file =>
      show CallState.mk (s.disk.append file []) s.accepted s.flushed = _
      rw [Disk.append_nil has.1]

theorem has_wrote (has : s.Has goal output) (other : Sink) :
    (s.wrote other bytes).Has goal output := by
  cases output with
  | external => trivial
  | file file =>
      cases other with
      | external => exact has
      | file other =>
          refine ⟨?_, has.2⟩
          show ((s.disk.append other bytes).contents file).isSome = true
          by_cases same : file = other
          · rw [same, Disk.append_self]
            rfl
          · rw [Disk.append_of_ne same]
            exact has.1

namespace Wrote

theorem nothing (has : s.Has goal output) : Wrote output [] s s := by
  unfold Wrote
  rw [wrote_nil has]
  exact .refl s

theorem trans (first : Wrote output bytes s t) (second : Wrote output more t u) :
    Wrote output (bytes ++ more) s u := by
  unfold Wrote
  rw [← wrote_wrote]
  exact (first.wrote output more).trans second

theorem has (wrote : Wrote output bytes s t) (has : s.Has goal output) : t.Has goal output :=
  Alike.has wrote (has_wrote has output)

theorem alike (wrote : Wrote output bytes s t) (alike : t.Alike u) : Wrote output bytes s u :=
  Alike.trans wrote alike

/-- Other files are as they were. -/
theorem contents (wrote : Wrote output bytes s t) {file : Nat} (other : output ≠ .file file) :
    t.disk.contents file = s.disk.contents file := by
  refine (congrFun (Alike.contents wrote) file).trans ?_
  cases output with
  | external => rfl
  | file written => exact Disk.append_of_ne (fun same => other (congrArg Sink.file same.symm)) bytes

theorem names (wrote : Wrote output bytes s t) : t.disk.names = s.disk.names := by
  refine (Alike.names wrote).trans ?_
  cases output <;> rfl

end Wrote

end

end CallState

open CallState (Wrote Alike)

section

variable {codecs : Codecs} {mayFail : AllocationSite → Prop} {goal : Goal} {α β : Type}

theorem CallState.ext_of {s t : CallState} (disk : t.disk = s.disk)
    (sink : t.accepted = s.accepted ∧ t.flushed = s.flushed) : t = s := by
  cases s
  cases t
  cases disk
  obtain ⟨rfl, rfl⟩ := sink
  rfl

/-! ## What changes nothing -/

/-- Nothing is changed. -/
def Still (codecs : Codecs) (mayFail : AllocationSite → Prop) (goal : Goal) (known : α → Prop)
    (x : WriteRoutine α) : Prop :=
  ∀ l s, Routine.Ends (ofCall codecs mayFail goal) x (fun a m t => known a ∧ m = l ∧ t = s)
    (fun m t => m = l ∧ t = s) l s

namespace Still

variable {known : α → Prop} {x : WriteRoutine α}

theorem bind {f : α → WriteRoutine β} {value : β → OwnedFiles → CallState → Prop}
    {failed : OwnedFiles → CallState → Prop} {l : OwnedFiles} {s : CallState}
    (first : Still codecs mayFail goal known x) (stops : failed l s)
    (rest : ∀ a, known a → Routine.Ends (ofCall codecs mayFail goal) (f a) value failed l s) :
    Routine.Ends (ofCall codecs mayFail goal) (x >>= f) value failed l s := by
  apply Routine.Ends.bind (first l s)
  · rintro m t ⟨rfl, rfl⟩
    exact stops
  · rintro a m t ⟨holds, rfl, rfl⟩
    exact rest a holds

theorem seq {f : α → WriteRoutine β} {later : β → Prop} (first : Still codecs mayFail goal known x)
    (rest : ∀ a, known a → Still codecs mayFail goal later (f a)) :
    Still codecs mayFail goal later (x >>= f) :=
  fun l s => first.bind ⟨rfl, rfl⟩ fun a holds => rest a holds l s

theorem ok {a : α} (holds : known a) : Still codecs mayFail goal known (pure a) :=
  fun _ _ => .pure ⟨holds, rfl, rfl⟩

theorem fails {e : Error} : Still codecs mayFail goal known (Routine.fail e) :=
  fun _ _ => .fail ⟨rfl, rfl⟩

theorem result {result : Result α} :
    Still codecs mayFail goal (fun a => result = .ok a) (Routine.ofExcept result) :=
  fun _ _ => .ofExcept (fun _ same => ⟨same, rfl, rfl⟩) ⟨rfl, rfl⟩

theorem weaken {less : α → Prop} (still : Still codecs mayFail goal known x)
    (weaker : ∀ a, known a → less a) : Still codecs mayFail goal less x :=
  fun l s => (still l s).mono (fun a _ _ kept => ⟨weaker a kept.1, kept.2⟩) fun _ _ => id

theorem any (still : Still codecs mayFail goal known x) :
    Still codecs mayFail goal (fun _ => True) x :=
  still.weaken fun _ _ => trivial

theorem ite {condition : Prop} [Decidable condition] {yes no : WriteRoutine α}
    (first : condition → Still codecs mayFail goal known yes)
    (second : ¬ condition → Still codecs mayFail goal known no) :
    Still codecs mayFail goal known (if condition then yes else no) :=
  fun l s => .ite (fun holds => first holds l s) fun fails => second fails l s

theorem request {op : WriteOp} {known : op.Reply → Prop} (lets : ∀ disk, Touches goal disk op)
    (same : ∀ s reply t, (ofCall codecs mayFail goal).reply s op reply t → known reply ∧ t = s) :
    Still codecs mayFail goal known (Routine.request op) :=
  fun _ s => .request (lets s.disk) fun reply t answer => by
    obtain ⟨holds, kept⟩ := same s reply t answer
    exact ⟨holds, rfl, kept⟩

end Still

theorem refuse_still (bad : Prop) [Decidable bad] (code : ErrorCode) (message : String) :
    Still codecs mayFail goal (fun _ => ¬ bad) (refuse bad code message) :=
  Still.result.weaken fun _ passed => reject_eq_ok.mp passed

theorem checkStop_still : Still codecs mayFail goal (fun _ => True) checkStop := by
  have asks : Still codecs mayFail goal (fun _ => True)
      (Routine.request WriteOp.stopRequested : WriteRoutine Bool) :=
    .request (fun _ => trivial) fun s reply t answer =>
      ⟨trivial, CallState.ext_of answer.1 answer.2⟩
  apply asks.seq
  intro (stopped : Bool) _
  exact (refuse_still _ _ _).any

/-- An allocation that fails is one that may. -/
theorem allocate_ends (site : AllocationSite) (l : OwnedFiles) (s : CallState) :
    Routine.Ends (ofCall codecs mayFail goal) (allocate site) (fun _ m t => m = l ∧ t = s)
      (fun m t => mayFail site ∧ m = l ∧ t = s) l s := by
  have asks : Routine.Ends (ofCall codecs mayFail goal)
      (Routine.request (WriteOp.allocate site) : WriteRoutine Bool)
      (fun allocated m t => (allocated = false → mayFail site) ∧ m = l ∧ t = s)
      (fun m t => mayFail site ∧ m = l ∧ t = s) l s :=
    .request trivial fun reply t answer => ⟨answer.1.1, rfl, CallState.ext_of answer.1.2 answer.2⟩
  apply asks.bind
  · exact fun _ _ => id
  · rintro (allocated : Bool) m t ⟨known, rfl, rfl⟩
    apply Routine.Ends.ite
    · intro _
      exact .pure ⟨rfl, rfl⟩
    · intro failed
      exact .fail ⟨known (eq_false_of_ne_true failed), rfl, rfl⟩

theorem allocate_still (site : AllocationSite) : Still codecs mayFail goal (fun _ => True)
    (allocate site) :=
  fun l s => (allocate_ends site l s).mono (fun _ _ _ kept => ⟨trivial, kept⟩) fun _ _ => And.right

/-! ## Codecs -/

section

variable {platform : Platform} {input : Bytes} {maxOutputBytes : Nat}

/-- An output of the codec that fits the budget is returned. -/
abbrev Encodes (codecs : Codecs) (mayFail : AllocationSite → Prop) (goal : Goal)
    (codec : CompressionCodec)
    (input : Bytes) (maxOutputBytes : Nat) (x : WriteRoutine Bytes) : Prop :=
  Still codecs mayFail goal
    (fun output => codecs.outputs codec input output ∧ output.length ≤ maxOutputBytes) x

theorem compress_still (codec : CompressionCodec) (codecBound : Nat) :
    Still codecs mayFail goal (fun reply => ∀ output, reply = .produced output →
        codecs.outputs codec input output ∧ output.length ≤ maxOutputBytes)
      (Routine.request (WriteOp.compress codec input (boundedCapacity codecBound maxOutputBytes)) :
        WriteRoutine CompressReply) := by
  refine Still.request (fun _ => trivial) ?_
  intro s reply t answer
  refine ⟨?_, CallState.ext_of answer.1.2 answer.2⟩
  intro output produced
  obtain ⟨encoded, fits⟩ := answer.1.1 output produced
  exact ⟨encoded, Nat.le_trans fits (boundedCapacity_le codecBound)⟩

theorem compressZlib_still : Encodes codecs mayFail goal .zlib input maxOutputBytes
    (compressZlib platform input maxOutputBytes) := by
  apply (refuse_still _ _ _).seq
  intro _ _
  apply (allocate_still _).seq
  intro _ _
  apply (compress_still .zlib _).seq
  rintro (output | _ | _) known
  · exact .ok (known output rfl)
  · exact .fails
  · exact .fails

theorem compressLz4_still (codec : CompressionCodec) : Encodes codecs mayFail goal codec input
    maxOutputBytes (compressLz4 platform codec input maxOutputBytes) := by
  apply (refuse_still _ _ _).seq
  intro _ _
  apply (refuse_still _ _ _).seq
  intro _ _
  apply (allocate_still _).seq
  intro _ _
  apply (compress_still codec _).seq
  rintro ((_ | ⟨first, rest⟩) | _ | _) known
  · exact .ite (fun _ => .fails) fun _ => .fails
  · exact .ok (known (first :: rest) rfl)
  · exact .ite (fun _ => .fails) fun _ => .fails
  · exact .ite (fun _ => .fails) fun _ => .fails

theorem compressZstd_still : Encodes codecs mayFail goal .zstd input maxOutputBytes
    (compressZstd platform input maxOutputBytes) := by
  apply (refuse_still _ _ _).seq
  intro _ _
  apply (allocate_still _).seq
  intro _ _
  apply (compress_still .zstd _).seq
  rintro (output | _ | _) known
  · exact .ok (known output rfl)
  · exact .ite (fun _ => .fails) fun _ => .fails
  · exact .ite (fun _ => .fails) fun _ => .fails

theorem compressBytes_still (codec : CompressionCodec) :
    Encodes codecs mayFail goal codec input maxOutputBytes
      (compressBytes platform input codec maxOutputBytes) := by
  apply checkStop_still.seq
  intro _ _
  apply (refuse_still _ _ _).seq
  intro _ _
  refine Still.seq (?produced : Encodes codecs mayFail goal codec input maxOutputBytes _) ?_
  · cases codec with
    | none => exact .fails
    | zlib => exact compressZlib_still
    | lz4 => exact compressLz4_still .lz4
    | lz4hc => exact compressLz4_still .lz4hc
    | zstd => exact compressZstd_still
  intro output known
  apply checkStop_still.seq
  intro _ _
  exact .ok known

end

/-! ## Sinks -/

section

variable {output : Sink} {bytes : Bytes} {l : OwnedFiles} {s : CallState}

/-- All of these bytes were written, or the first of them before a failure. -/
def Writes (codecs : Codecs) (mayFail : AllocationSite → Prop) (goal : Goal) (output : Sink)
    (bytes : Bytes) (known : α → Prop) (x : WriteRoutine α) (l : OwnedFiles) (s : CallState) :
    Prop :=
  Routine.Ends (ofCall codecs mayFail goal) x
    (fun a m t => known a ∧ m = l ∧ Wrote output bytes s t)
    (fun m t => m = l ∧ ∃ some, some <+: bytes ∧ Wrote output some s t) l s

namespace Writes

variable {known : α → Prop} {x : WriteRoutine α} {more : Bytes}

/-- Bytes, and more bytes. -/
theorem bind {f : α → WriteRoutine β} {later : β → Prop}
    (first : Writes codecs mayFail goal output bytes known x l s)
    (rest : ∀ a t, known a → Wrote output bytes s t →
      Writes codecs mayFail goal output more later (f a) l t) :
    Writes codecs mayFail goal output (bytes ++ more) later (x >>= f) l s := by
  apply Routine.Ends.bind first
  · rintro m t ⟨rfl, some, early, wrote⟩
    exact ⟨rfl, some, early.trans (List.prefix_append _ _), wrote⟩
  · rintro a m t ⟨holds, rfl, wrote⟩
    apply (rest a t holds wrote).mono
    · rintro b n u ⟨known, rfl, later⟩
      exact ⟨known, rfl, wrote.trans later⟩
    · rintro n u ⟨rfl, some, early, later⟩
      exact ⟨rfl, bytes ++ some, List.prefix_append_right_inj bytes |>.mpr early, wrote.trans later⟩

/-- What changes nothing comes before. -/
theorem after {known : α → Prop} {later : β → Prop} {f : α → WriteRoutine β}
    (has : s.Has goal output)
    (first : Still codecs mayFail goal known x)
    (rest : ∀ a, known a → Writes codecs mayFail goal output bytes later (f a) l s) :
    Writes codecs mayFail goal output bytes later (x >>= f) l s :=
  first.bind ⟨rfl, [], List.nil_prefix, .nothing has⟩ rest

/-- What changes nothing follows. -/
theorem before {f : α → WriteRoutine β} {later : β → Prop}
    (first : Writes codecs mayFail goal output bytes known x l s)
    (rest : ∀ a, Still codecs mayFail goal later (f a)) :
    Writes codecs mayFail goal output bytes later (x >>= f) l s := by
  apply Routine.Ends.bind first
  · exact fun _ _ => id
  · rintro a m t ⟨-, rfl, wrote⟩
    apply (rest a m t).mono
    · rintro b n u ⟨holds, rfl, rfl⟩
      exact ⟨holds, rfl, wrote⟩
    · rintro n u ⟨rfl, rfl⟩
      exact ⟨rfl, bytes, List.prefix_rfl, wrote⟩

theorem none {a : α} (has : s.Has goal output) (holds : known a) :
    Writes codecs mayFail goal output [] known (pure a) l s :=
  .pure ⟨holds, rfl, .nothing has⟩

end Writes

/-- One write takes the first of its bytes. -/
theorem Sink.write_ends (has : s.Has goal output) (chunk : Bytes) :
    Routine.Ends (ofCall codecs mayFail goal) (output.write chunk)
      (fun count m t => m = l ∧ Wrote output (chunk.take count) s t ∧
        t.disk.readers = s.disk.readers)
      (fun m t => m = l ∧ ∃ some, some <+: chunk ∧ Wrote output some s t) l s := by
  cases output with
  | external =>
      have takes : Routine.Ends (ofCall codecs mayFail goal)
          (Routine.request (WriteOp.sinkWrite chunk) : WriteRoutine (Result Nat))
          (fun reply m t => m = l ∧ ∃ count, (∀ taken, reply = .ok taken → taken = count) ∧
            Wrote .external (chunk.take count) s t ∧ t.disk.readers = s.disk.readers)
          (fun m t => m = l ∧ ∃ some, some <+: chunk ∧ Wrote .external some s t) l s := by
        refine .request trivial ?_
        rintro reply t ⟨disk, count, counted, accepted, flushed⟩
        exact ⟨rfl, count, counted,
          ⟨congrArg Disk.names disk, congrArg Disk.contents disk, accepted, flushed⟩,
          congrArg Disk.readers disk⟩
      apply takes.bind
      · exact fun _ _ => id
      · rintro reply m t ⟨rfl, count, counted, wrote, readers⟩
        apply Routine.Ends.ofExcept
        · intro taken same
          exact ⟨rfl, counted taken same ▸ wrote, readers⟩
        · exact ⟨rfl, _, List.take_prefix _ _, wrote⟩
  | file file =>
      unfold Sink.write
      apply Routine.Ends.ite
      · rintro rfl
        exact .pure ⟨rfl, by rw [List.take_nil]; exact .nothing has, rfl⟩
      · intro _
        have appends : Routine.Ends (ofCall codecs mayFail goal)
            (Routine.request (WriteOp.write file chunk) : WriteRoutine (Option Nat))
            (fun reply m t => m = l ∧ ∃ count, (∀ taken, reply = some taken → taken = count) ∧
              Wrote (.file file) (chunk.take count) s t ∧ t.disk.readers = s.disk.readers)
            (fun m t => m = l ∧ ∃ some, some <+: chunk ∧ Wrote (.file file) some s t) l s := by
          refine .request has ?_
          rintro reply t ⟨appended, accepted, flushed⟩
          generalize written : t.disk = after at appended
          cases appended with
          | failed count =>
              exact ⟨rfl, count, by rintro _ ⟨⟩, ⟨congrArg Disk.names written,
                congrArg Disk.contents written, accepted, flushed⟩, rfl⟩
          | appended count =>
              exact ⟨rfl, count, by rintro _ ⟨⟩; rfl, ⟨congrArg Disk.names written,
                congrArg Disk.contents written, accepted, flushed⟩, rfl⟩
        apply appends.bind
        · exact fun _ _ => id
        · rintro (reply : Option Nat) m t ⟨rfl, count, counted, wrote, readers⟩
          apply Routine.Ends.ofExcept
          · intro taken same
            exact ⟨rfl, counted taken (orFail_eq_ok.mp same) ▸ wrote, readers⟩
          · exact ⟨rfl, _, List.take_prefix _ _, wrote⟩

/-- The loop of `write_all` writes what is left, and moves no reader. -/
theorem writeFrom_ends : ∀ (fuel written : Nat) {l : OwnedFiles} {s : CallState},
    s.Has goal output → bytes.length - written ≤ fuel →
    Routine.Ends (ofCall codecs mayFail goal) (writeFrom output bytes fuel written)
      (fun _ m t => m = l ∧ Wrote output (bytes.drop written) s t ∧ t.disk.readers = s.disk.readers)
      (fun m t => m = l ∧ ∃ some, some <+: bytes.drop written ∧ Wrote output some s t) l s
  | 0, written, l, s, has, enough => by
      rw [List.drop_of_length_le (by omega)]
      exact .pure ⟨rfl, .nothing has, rfl⟩
  | fuel + 1, written, l, s, has, enough => by
      apply Routine.Ends.ite
      · intro more
        apply checkStop_still.bind ⟨rfl, [], List.nil_prefix, .nothing has⟩
        intro _ _
        have left : bytes.length - written = (bytes.drop written).length := List.length_drop.symm
        apply Routine.Ends.bind (Sink.write_ends has _)
        · rintro m t ⟨rfl, some, early, wrote⟩
          exact ⟨rfl, some, early.trans (List.take_prefix _ _), wrote⟩
        · rintro count m t ⟨rfl, wrote, readers⟩
          have chunk :
              (slice bytes written (min kWriteChunk (bytes.length - written))).take count <+:
                bytes.drop written := (List.take_prefix _ _).trans (List.take_prefix _ _)
          apply (refuse_still _ _ _).bind ⟨rfl, _, chunk, wrote⟩
          intro _ counted
          have whole : (slice bytes written (min kWriteChunk (bytes.length - written))).take count =
              (bytes.drop written).take count := by
            rw [slice, List.take_take, Nat.min_eq_left (by omega)]
          rw [whole] at wrote
          have parts : (bytes.drop written).take count ++ bytes.drop (written + count) =
              bytes.drop written := by
            rw [← List.drop_drop, List.take_append_drop]
          apply Routine.Ends.mono (writeFrom_ends fuel (written + count) (wrote.has has) (by omega))
          · rintro _ n u ⟨rfl, rest, same⟩
            exact ⟨rfl, parts ▸ wrote.trans rest, same.trans readers⟩
          · rintro n u ⟨rfl, some, early, rest⟩
            have both := (List.prefix_append_right_inj ((bytes.drop written).take count)).mpr early
            rw [parts] at both
            exact ⟨rfl, _, both, wrote.trans rest⟩
      · intro none
        rw [List.drop_of_length_le (by omega)]
        exact .pure ⟨rfl, .nothing has, rfl⟩

theorem writeAll_ends (has : s.Has goal output) :
    Routine.Ends (ofCall codecs mayFail goal) (writeAll output bytes)
      (fun _ m t => m = l ∧ Wrote output bytes s t ∧ t.disk.readers = s.disk.readers)
      (fun m t => m = l ∧ ∃ some, some <+: bytes ∧ Wrote output some s t) l s :=
  writeFrom_ends bytes.length 0 has (Nat.sub_le _ _)

theorem writeAll_writes (has : s.Has goal output) :
    Writes codecs mayFail goal output bytes (fun _ => True) (writeAll output bytes) l s := by
  apply (writeAll_ends has).mono
  · rintro _ m t ⟨rfl, wrote, -⟩
    exact ⟨trivial, rfl, wrote⟩
  · exact fun _ _ => id

end

end

end Mmxisf.Writer
