/-
# ShortReads -- a source may answer with less than it was asked for

Five loops of `reader.cpp` read a range of serialized bytes: `read_exact`,
`read_serialized_chunk`, and the three that copy a whole block.  Each advances by
what the source returned, so the replies may split the range in any way.

`Ends` says how a run of reads ends as its replies decide it: a refused reply is
the last one, and the error is the one it stands for; without a refused reply the
run can only be stopped (`Stops`: a cancellation, or an offset that would
overflow).  `Ends` composes along a sequence (`EndsAs.bind`) and a loop
(`EndsAs.collect`), whatever the pieces are; that the pieces make up the range is
`Fetches`.
-/
import Mmxisf.Reader.PlanFacts
import Mmxisf.Reader.Serialized

namespace Mmxisf.Reader

set_option autoImplicit false

open Library (slice)
open Library.Routine (wp EndsWith request collect collectFrom)

/-- The error that a refused reply stands for. -/
def refusal (annotate : Error → Error) : Result Bytes → Error
  | .error e => annotate e
  | .ok _ => annotate (makeError .ioError "ByteSource returned an invalid short read")

/-- No reply was refused. -/
def NoneRefused (events : Trace) : Prop :=
  ∀ offset size reply, .read offset size reply ∈ events → ¬ BadReply size reply

theorem NoneRefused.nil : NoneRefused [] := fun _ _ _ member => absurd member List.not_mem_nil

theorem NoneRefused.append {events later : Trace} (first : NoneRefused events)
    (second : NoneRefused later) : NoneRefused (events ++ later) := by
  intro offset size reply member
  rcases List.mem_append.mp member with before | after
  · exact first offset size reply before
  · exact second offset size reply after

section

variable {L α β : Type} {platform : Platform} {env : Environment} {annotate : Error → Error}
  {Stops : Error → Prop}

/-- How a run of reads ends. -/
def Ends (annotate : Error → Error) (Stops : Error → Prop) (result : Result α) (events : Trace) :
    Prop :=
  match result with
  | .ok _ => NoneRefused events
  | .error e => NoneRefused events ∧ Stops e ∨
      ∃ before offset size reply, events = before ++ [.read offset size reply] ∧
        NoneRefused before ∧ BadReply size reply ∧ e = refusal annotate reply

theorem Ends.after {result : Result α} {events later : Trace} (first : NoneRefused events)
    (ended : Ends annotate Stops result later) : Ends annotate Stops result (events ++ later) := by
  cases result with
  | ok value => exact first.append ended
  | error e =>
      rcases ended with ⟨none, stopped⟩ | ⟨before, offset, size, reply, rfl, none, bad, same⟩
      · exact .inl ⟨first.append none, stopped⟩
      · exact .inr ⟨events ++ before, offset, size, reply, by rw [List.append_assoc],
          first.append none, bad, same⟩

/-- A refused reply decides the error. -/
theorem Ends.refused {result : Result α} {events : Trace} {offset size : Nat}
    {reply : Result Bytes} (ended : Ends annotate Stops result events)
    (member : .read offset size reply ∈ events) (bad : BadReply size reply) :
    result = .error (refusal annotate reply) := by
  cases result with
  | ok value => exact absurd bad (ended offset size reply member)
  | error e =>
      rcases ended with ⟨none, -⟩ | ⟨before, offset', size', reply', rfl, none, bad', rfl⟩
      · exact absurd bad (none offset size reply member)
      · rcases List.mem_append.mp member with earlier | last
        · exact absurd bad (none offset size reply earlier)
        · cases List.mem_singleton.mp last
          rfl

/-- An error has a cause among the replies, or the run was stopped. -/
theorem Ends.cause {e : Error} {events : Trace}
    (ended : Ends annotate Stops (.error e : Result α) events) :
    Stops e ∨ ∃ offset size reply, .read offset size reply ∈ events ∧ BadReply size reply ∧
      e = refusal annotate reply := by
  rcases ended with ⟨-, stopped⟩ | ⟨before, offset, size, reply, rfl, -, bad, same⟩
  · exact .inl stopped
  · exact .inr ⟨offset, size, reply, by simp, bad, same⟩

/-- Every run of `x` ends as its replies decide. -/
def EndsAs (platform : Platform) (env : Environment) (annotate : Error → Error)
    (Stops : Error → Prop) (x : ReadRoutine L α) : Prop :=
  ∀ l s, wp (env.world platform) x
    (fun result m t => m = l ∧ ∃ events, t = s ++ events ∧ Ends annotate Stops result events) l s

namespace EndsAs

theorem pure (value : α) : EndsAs platform env annotate Stops
    (Pure.pure value : ReadRoutine L α) := by
  intro l s
  rw [Library.Routine.wp_pure]
  exact ⟨rfl, [], by simp, .nil⟩

theorem bind {x : ReadRoutine L α} {next : α → ReadRoutine L β}
    (first : EndsAs platform env annotate Stops x)
    (rest : ∀ a, EndsAs platform env annotate Stops (next a)) :
    EndsAs platform env annotate Stops (x >>= next) := by
  intro l s
  rw [Library.Routine.wp_bind]
  refine Library.Routine.wp_mono ?_ (first l s)
  rintro result m t ⟨rfl, events, rfl, ended⟩
  cases result with
  | error e => exact ⟨rfl, events, rfl, ended⟩
  | ok a =>
      rw [Library.Routine.continueWith_ok]
      refine Library.Routine.wp_mono ?_ (rest a m _)
      rintro result n u ⟨rfl, later, rfl, endedLater⟩
      exact ⟨rfl, events ++ later, by rw [List.append_assoc], endedLater.after ended⟩

/-- A check that touches no source. -/
theorem refuse {bad : Prop} [Decidable bad] {code : ErrorCode} {message : String}
    (stops : bad → Stops (makeError code message)) :
    EndsAs platform env annotate Stops (Reader.refuse (L := L) bad code message) := by
  intro l s
  unfold Reader.refuse reject
  rw [Library.Routine.wp_ofExcept]
  split
  · rename_i holds
    exact ⟨rfl, [], by simp, .inl ⟨.nil, stops holds⟩⟩
  · exact ⟨rfl, [], by simp, .nil⟩

theorem checkStop {message : String} (stops : ∀ e, Cancelled env e → Stops e) :
    EndsAs platform env annotate Stops (Reader.checkStop (L := L) message) := by
  intro l s
  unfold Reader.checkStop
  rw [Library.Routine.wp_bind, Library.Routine.wp_request]
  refine ⟨trivial, ?_⟩
  rintro stopped t ⟨allowed, rfl⟩
  rw [Library.Routine.continueWith_ok]
  apply EndsAs.refuse
  rintro rfl
  exact stops _ ⟨allowed, rfl⟩

theorem readAt {offset size : Nat} :
    EndsAs platform env annotate Stops (Reader.readAt (L := L) annotate offset size) := by
  intro l s
  unfold Reader.readAt
  rw [Library.Routine.wp_bind, Library.Routine.wp_request]
  refine ⟨trivial, ?_⟩
  rintro reply t ⟨-, rfl⟩
  rw [Library.Routine.continueWith_ok]
  cases reply with
  | error e =>
      rw [Library.Routine.wp_fail]
      exact ⟨rfl, _, rfl, .inr ⟨[], offset, size, _, rfl, .nil, trivial, rfl⟩⟩
  | ok bytes =>
      dsimp only
      split
      · rename_i bad
        rw [Library.Routine.wp_fail]
        exact ⟨rfl, _, rfl, .inr ⟨[], offset, size, _, rfl, .nil, bad, rfl⟩⟩
      · rename_i good
        rw [Library.Routine.wp_pure]
        refine ⟨rfl, _, rfl, ?_⟩
        intro offset' size' reply' member
        cases List.mem_singleton.mp member
        exact good

/-- A loop ends as its rounds do.  The induction is on the fuel. -/
theorem collect {step : Nat → ReadRoutine L Bytes} {size : Nat}
    (rounds : ∀ total, EndsAs platform env annotate Stops (step total)) :
    EndsAs platform env annotate Stops (Library.Routine.collect step size) := by
  have from_ : ∀ fuel total, EndsAs platform env annotate Stops
      (collectFrom step size fuel total) := by
    intro fuel
    induction fuel with
    | zero => exact fun _ => EndsAs.pure _
    | succ fuel ih =>
        intro total
        unfold collectFrom
        split
        · apply (rounds total).bind
          intro piece
          apply (ih _).bind
          intro rest
          exact EndsAs.pure _
        · exact EndsAs.pure _
  exact from_ size 0

end EndsAs

/-! ## The five loops -/

/-- A stop that was requested, or an offset beyond the 64-bit range. -/
def ExactStops (env : Environment) (e : Error) : Prop := Cancelled env e ∨ e.code = .overflow

theorem readExact_ends (offset size : Nat) :
    EndsAs platform env id (ExactStops env) (readExact (L := L) offset size) := by
  unfold readExact
  apply EndsAs.collect
  intro total
  apply EndsAs.bind
  · exact EndsAs.refuse fun _ => .inr rfl
  · exact fun _ => EndsAs.readAt

theorem readSerializedChunk_ends (plan : ImageReadPlan) (start size imageIndex : Nat) :
    EndsAs platform env (annotateImage imageIndex) (Cancelled env)
      (readSerializedChunk (L := L) plan start size imageIndex) := by
  unfold readSerializedChunk
  cases plan.embeddedBlock with
  | some block =>
      apply EndsAs.bind
      · exact EndsAs.checkStop fun _ cancelled => cancelled
      · exact fun _ => EndsAs.pure _
  | none =>
      apply EndsAs.collect
      intro total
      apply EndsAs.bind
      · exact EndsAs.checkStop fun _ cancelled => cancelled
      · exact fun _ => EndsAs.readAt

theorem copySerializedImage_ends (plan : ImageReadPlan) (imageIndex : Nat) :
    EndsAs platform env (annotateImage imageIndex) (Cancelled env)
      (copySerializedImage (L := L) plan imageIndex) := by
  unfold copySerializedImage
  apply EndsAs.collect
  exact fun total => readSerializedChunk_ends plan total _ imageIndex

theorem copySerialized_ends (inlineBlock : Option Bytes) (offset serializedBytes : Nat)
    (cancelled : String) :
    EndsAs platform env id (Cancelled env)
      (copySerialized (L := L) inlineBlock offset serializedBytes cancelled) := by
  unfold copySerialized
  apply EndsAs.collect
  intro total
  apply EndsAs.bind
  · exact EndsAs.checkStop fun _ stopped => stopped
  · intro _
    cases inlineBlock with
    | some block => exact EndsAs.pure _
    | none => exact EndsAs.readAt

/-! ## Reading a range -/

/-- A routine that reads the `size` bytes from `start` on of a place. -/
structure ReadsRange (platform : Platform) (place : BlockPlace) (start size : Nat)
    (annotate : Error → Error) (Stops : Environment → Error → Prop) (x : ReadRoutine L Bytes) :
    Prop where
  /-- From a source that keeps its bytes and answers with any nonempty part of
  what was asked for from its start on: some run ends, and every run ends with the
  bytes of the range. -/
  stable : ∀ file : Bytes, file.length ≤ u64Max →
    (place.inlineBlock = none → place.offset + (start + size) ≤ file.length) → ∀ l s,
    EndsWith ((Environment.stable file).world platform) x l s (.ok (place.bytesIn file start size))
  /-- Whatever the source answers: nothing outside the range is asked for, a reply
  of no bytes, of too many, or an error ends the run as the error it stands for,
  and a run that succeeds returns what one pass over the range was answered with.
  An error that no reply stands for is a stop. -/
  any : ∀ (env : Environment) l s, wp (env.world platform) x
    (fun result m t => m = l ∧ ∃ events, t = s ++ events ∧
      ReadsWithin env place start (start + size) events ∧
      (∀ offset count reply, .read offset count reply ∈ events → BadReply count reply →
        result = .error (refusal annotate reply)) ∧
      match result with
      | .ok bytes => bytes.length = size ∧ Obtained env place (start + size) start bytes events
      | .error e => Stops env e ∨ ∃ offset count reply, .read offset count reply ∈ events ∧
          BadReply count reply ∧ e = refusal annotate reply) l s

theorem ReadsRange.of_fetches {place : BlockPlace} {start size : Nat}
    {Stops : Environment → Error → Prop} {x : ReadRoutine L Bytes}
    (fetches : ∀ env, Fetches platform env place start size x)
    (ends : ∀ env, EndsAs platform env annotate (Stops env) x) :
    ReadsRange platform place start size annotate Stops x where
  stable file small inFile l s := by
    apply Library.Routine.endsWith_of_wp (Environment.stable_live small)
    refine Library.Routine.wp_mono ?_ (fetches (.stable file) l s)
    rintro result m t ⟨-, events, -, within, ended⟩
    cases result with
    | error e =>
        exact absurd ended (not_failedRead inFile within)
    | ok bytes =>
        obtain ⟨length, obtained⟩ := ended
        rw [obtained.eq_bytesIn inFile, length]
  any env l s := by
    refine Library.Routine.wp_mono ?_ (Library.Routine.wp_and (fetches env l s) (ends env l s))
    rintro result m t ⟨⟨same, events, grown, within, ended⟩, -, events', grown', ends⟩
    obtain rfl : events = events' := List.append_cancel_left (grown.symm.trans grown')
    refine ⟨same, events, grown, within, fun _ _ _ member bad => ends.refused member bad, ?_⟩
    cases result with
    | ok bytes => exact ended
    | error e => exact ends.cause

end

/-- The five loops read their ranges, for every plan that a reader makes. -/
structure ShortReads (platform : Platform) : Prop where
  readExact : ∀ (L : Type) (offset size : Nat), offset + size ≤ u64Max →
    ReadsRange platform ⟨none, offset⟩ 0 size id ExactStops (readExact (L := L) offset size)
  readSerializedChunk : ∀ (L : Type) (reader : Impl) (imageIndex : Nat) (plan : ImageReadPlan),
    planImageRead reader.document reader.options reader.embeddedBlocks imageIndex = .ok plan →
    ∀ start size, start + size ≤ plan.serializedBytes →
      ReadsRange platform plan.place start size (annotateImage imageIndex) Cancelled
        (readSerializedChunk (L := L) plan start size imageIndex)
  copySerializedImage : ∀ (L : Type) (reader : Impl) (imageIndex : Nat) (plan : ImageReadPlan),
    planImageRead reader.document reader.options reader.embeddedBlocks imageIndex = .ok plan →
      ReadsRange platform plan.place 0 plan.serializedBytes (annotateImage imageIndex) Cancelled
        (copySerializedImage (L := L) plan imageIndex)
  copySerializedProperty : ∀ (L : Type) (reader : Impl) (metadataIndex : Nat)
    (plan : PropertyReadPlan),
    planPropertyRead reader.document reader.options reader.inlineMetadataBlocks metadataIndex =
      .ok plan →
      ReadsRange platform ⟨plan.inlineBlock, plan.property.block.offset⟩ 0 plan.serializedBytes id
        Cancelled (copySerializedProperty (L := L) plan)
  copySerializedIccProfile : ∀ (L : Type) (reader : Impl) (profileIndex : Nat)
    (plan : IccProfileReadPlan),
    planIccProfileRead reader.document reader.options reader.inlineIccProfileBlocks profileIndex =
      .ok plan →
      ReadsRange platform ⟨plan.inlineBlock, plan.profile.block.offset⟩ 0 plan.serializedBytes id
        Cancelled (copySerializedIccProfile (L := L) plan)

theorem shortReads (platform : Platform) : ShortReads platform where
  readExact L offset size noWrap :=
    .of_fetches (fun env => readExact_fetches noWrap) fun env => readExact_ends offset size
  readSerializedChunk L reader imageIndex plan planned start size inside := by
    obtain ⟨sound, -⟩ := planImageRead_sound reader.wellFormed planned
    exact .of_fetches (fun env => readSerializedChunk_fetches (sound.place.mono inside))
      fun env => readSerializedChunk_ends plan start size imageIndex
  copySerializedImage L reader imageIndex plan planned := by
    obtain ⟨sound, -⟩ := planImageRead_sound reader.wellFormed planned
    exact .of_fetches (fun env => copySerializedImage_fetches sound.place)
      fun env => copySerializedImage_ends plan imageIndex
  copySerializedProperty L reader metadataIndex plan planned := by
    obtain ⟨sound, -⟩ := planPropertyRead_sound reader.wellFormed planned
    exact .of_fetches (fun env => copySerialized_fetches sound.place)
      fun env => copySerialized_ends _ _ _ _
  copySerializedIccProfile L reader profileIndex plan planned := by
    obtain ⟨sound, -⟩ := planIccProfileRead_sound reader.wellFormed planned
    exact .of_fetches (fun env => copySerialized_fetches sound.place)
      fun env => copySerialized_ends _ _ _ _

end Mmxisf.Reader
