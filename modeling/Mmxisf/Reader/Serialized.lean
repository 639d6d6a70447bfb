/-
# Reader.Serialized -- what the reads of serialized bytes return

Every function that reads serialized bytes does one thing: it returns the whole
of a range, as one pass over the source returned it or as the document holds it
inline, or it fails because it was cancelled or the source answered badly.
Either way it asks for nothing outside the range.  `Fetches` says this, and
`Fetches.of_rounds` proves it of a loop from its rounds.
-/
import Mmxisf.Reader.Environment
import Mmxisf.Reader.Reads

namespace Mmxisf.Reader

set_option autoImplicit false

open Library (slice)
open Library.Routine (wp request collect)

/-- The first `size` bytes of the place are there: no offset of the source
wraps. -/
def BlockPlace.Holds (place : BlockPlace) (size : Nat) : Prop :=
  match place.inlineBlock with
  | some block => size ≤ block.length
  | none => place.offset + size ≤ u64Max

/-- `bytes` are the bytes of the place from `start` on, as `events` read them. -/
def Obtained (env : Environment) (place : BlockPlace) (stop start : Nat) (bytes : Bytes)
    (events : Trace) : Prop :=
  match place.inlineBlock with
  | some block => bytes = slice block start bytes.length ∧ events = []
  | none => Pass env (place.offset + stop) (place.offset + start) bytes events

namespace ImageReadPlan

/-- Where the block of an image is. -/
def place (plan : ImageReadPlan) : BlockPlace := ⟨plan.embeddedBlock, plan.image.block.offset⟩

end ImageReadPlan

section

variable {L : Type} {platform : Platform} {env : Environment} {place : BlockPlace}
  {stop start size : Nat}

theorem Obtained.nil : Obtained env place stop start [] [] := by
  unfold Obtained
  split
  · simp
  · exact .nil _

theorem Obtained.append {bytes more : Bytes} {events later : Trace}
    (first : Obtained env place stop start bytes events)
    (second : Obtained env place stop (start + bytes.length) more later) :
    Obtained env place stop start (bytes ++ more) (events ++ later) := by
  unfold Obtained at first second ⊢
  cases isInline : place.inlineBlock with
  | some block =>
      simp only [isInline] at first second ⊢
      obtain ⟨same, rfl⟩ := first
      obtain ⟨sameMore, rfl⟩ := second
      refine ⟨?_, rfl⟩
      rw [List.length_append, ← Library.slice_append_slice, ← sameMore, ← same]
  | none =>
      simp only [isInline] at first second ⊢
      rw [← Nat.add_assoc] at second
      exact first.append second

theorem Obtained.mono {stop' : Nat} {bytes : Bytes} {events : Trace} (wider : stop ≤ stop')
    (holds : Obtained env place stop start bytes events) :
    Obtained env place stop' start bytes events := by
  unfold Obtained at holds ⊢
  cases isInline : place.inlineBlock with
  | some block =>
      simp only [isInline] at holds ⊢
      exact holds
  | none =>
      simp only [isInline] at holds ⊢
      exact holds.mono (Nat.add_le_add_left wider _)

/-- The bytes of the place in a file: those of the document, or the file's. -/
def BlockPlace.bytesIn (place : BlockPlace) (file : Bytes) (start size : Nat) : Bytes :=
  match place.inlineBlock with
  | some block => slice block start size
  | none => slice file (place.offset + start) size

theorem BlockPlace.length_bytesIn {place : BlockPlace} {file : Bytes} {size : Nat}
    (holds : place.Holds size)
    (inFile : place.inlineBlock = none → place.offset + size ≤ file.length) :
    (place.bytesIn file 0 size).length = size := by
  unfold BlockPlace.bytesIn
  unfold BlockPlace.Holds at holds
  split
  · rename_i isInline
    rw [isInline] at holds
    exact Library.length_slice (by omega)
  · rename_i isAttached
    exact Library.length_slice (by have room := inFile isAttached; omega)

/-- The bytes up to an earlier stop are the first of them. -/
theorem BlockPlace.bytesIn_first (place : BlockPlace) (file : Bytes) {start size size' : Nat}
    (less : size ≤ size') : place.bytesIn file start size <+: place.bytesIn file start size' := by
  have first (buffer : Bytes) (offset : Nat) :
      slice buffer offset size <+: slice buffer offset size' := by
    rw [← Nat.add_sub_cancel' less, ← Library.slice_append_slice]
    exact List.prefix_append _ _
  unfold BlockPlace.bytesIn
  split
  · exact first _ _
  · exact first _ _

/-- From a source that keeps its bytes, the bytes of the file. -/
theorem Obtained.eq_bytesIn {file bytes : Bytes} {events : Trace}
    (inFile : place.inlineBlock = none → place.offset + stop ≤ file.length)
    (holds : Obtained (.stable file) place stop start bytes events) :
    bytes = place.bytesIn file start bytes.length := by
  unfold Obtained at holds
  unfold BlockPlace.bytesIn
  split at holds
  · exact holds.1
  · rename_i isAttached
    exact holds.eq_slice (inFile isAttached)

/-- A read of at most `limit` bytes from `start` on: some of them, or a failure,
and no request outside. -/
def FetchesSome (platform : Platform) (env : Environment) (place : BlockPlace)
    (start limit : Nat) (x : ReadRoutine L Bytes) : Prop :=
  ∀ l s, wp (env.world platform) x
    (fun result m t => m = l ∧ ∃ events, t = s ++ events ∧
      ReadsWithin env place start (start + limit) events ∧
      match result with
      | .ok bytes => bytes ≠ [] ∧ bytes.length ≤ limit ∧
          Obtained env place (start + limit) start bytes events
      | .error e => FailedRead env events e) l s

/-- A read of the `size` bytes from `start` on: all of them, or a failure, and no
request outside. -/
def Fetches (platform : Platform) (env : Environment) (place : BlockPlace)
    (start size : Nat) (x : ReadRoutine L Bytes) : Prop :=
  ∀ l s, wp (env.world platform) x
    (fun result m t => m = l ∧ ∃ events, t = s ++ events ∧
      ReadsWithin env place start (start + size) events ∧
      match result with
      | .ok bytes => bytes.length = size ∧ Obtained env place (start + size) start bytes events
      | .error e => FailedRead env events e) l s

theorem FetchesSome.mono {limit limit' : Nat} {x : ReadRoutine L Bytes} (wider : limit ≤ limit')
    (holds : FetchesSome platform env place start limit x) :
    FetchesSome platform env place start limit' x := by
  intro l s
  refine Library.Routine.wp_mono ?_ (holds l s)
  rintro result m t ⟨same, events, grown, within, ended⟩
  refine ⟨same, events, grown, within.mono le_rfl (by omega), ?_⟩
  cases result with
  | error e => exact ended
  | ok bytes => exact ⟨ended.1, ended.2.1.trans wider, ended.2.2.mono (by omega)⟩

theorem Fetches.some {x : ReadRoutine L Bytes} (positive : 0 < size)
    (holds : Fetches platform env place start size x) :
    FetchesSome platform env place start size x := by
  intro l s
  refine Library.Routine.wp_mono ?_ (holds l s)
  rintro result m t ⟨same, events, grown, within, ended⟩
  refine ⟨same, events, grown, within, ?_⟩
  cases result with
  | error e => exact ended
  | ok bytes =>
      refine ⟨?_, ended.1.le, ended.2⟩
      rintro rfl
      simp only [List.length_nil] at ended
      omega

/-- A loop whose rounds read some of what is left reads everything. -/
theorem Fetches.of_rounds {step : Nat → ReadRoutine L Bytes}
    (rounds : ∀ total < size,
      FetchesSome platform env place (start + total) (size - total) (step total)) :
    Fetches platform env place start size (collect step size) := by
  intro l s
  have keeps : Library.Routine.KeepsCollecting (env.world platform) step size
      (fun got m t => m = l ∧ ∃ events, t = s ++ events ∧
        ReadsWithin env place start (start + size) events ∧
        Obtained env place (start + size) start got events)
      (fun e m t => m = l ∧ ∃ events, t = s ++ events ∧
        ReadsWithin env place start (start + size) events ∧
        FailedRead env events e) := by
    rintro got _ _ ⟨rfl, events, rfl, within, obtained⟩ more
    refine Library.Routine.wp_mono ?_ (rounds got.length more _ _)
    rintro result m t ⟨rfl, later, rfl, withinLater, ended⟩
    have together : ReadsWithin env place start (start + size)
        (events ++ later) :=
      within.append (withinLater.mono (by omega) (by omega))
    cases result with
    | error e =>
        exact ⟨rfl, events ++ later, by rw [List.append_assoc], together, ended.later⟩
    | ok piece =>
        obtain ⟨nonempty, short, obtainedPiece⟩ := ended
        refine ⟨nonempty, by omega, rfl, events ++ later, by rw [List.append_assoc], together, ?_⟩
        exact obtained.append (obtainedPiece.mono (by omega))
  refine Library.Routine.wp_mono ?_
    (Library.Routine.wp_collect keeps ⟨rfl, [], by simp, .nil, .nil⟩)
  rintro (e | bytes) m t ended
  · exact ended
  · obtain ⟨total, rfl, events, grown, within, obtained⟩ := ended
    exact ⟨rfl, events, grown, within, total, obtained⟩

/-! ## The reading functions -/

/-- A stop is looked for first. -/
theorem wp_afterStop {α : Type} {message : String} {x : ReadRoutine L α}
    {post : Except Error α → L → Trace → Prop} {l : L} {s : Trace}
    (rest : wp (env.world platform) x post l s)
    (stopped : ∀ e, Cancelled env e → post (.error e) l s) :
    wp (env.world platform) (checkStop message >>= fun _ => x) post l s := by
  rw [Library.Routine.wp_bind]
  refine Library.Routine.wp_mono ?_
    (@Computes.checkStop _ platform _ (fun _ => False) message l s)
  rintro result m t ⟨rfl, outcome, added, rfl, none⟩
  have nothing : added = [] := List.eq_nil_iff_forall_not_mem.mpr none
  subst nothing
  rw [List.append_nil]
  rcases outcome with rfl | ⟨e, rfl, cancelled⟩
  · exact rest
  · exact stopped e cancelled

theorem FetchesSome.afterStop {limit : Nat} {message : String} {x : ReadRoutine L Bytes}
    (holds : FetchesSome platform env place start limit x) :
    FetchesSome platform env place start limit (checkStop message >>= fun _ => x) := fun l s =>
  wp_afterStop (holds l s) fun _ cancelled => ⟨rfl, [], by simp, .nil, .inl cancelled⟩

theorem Fetches.afterStop {message : String} {x : ReadRoutine L Bytes}
    (holds : Fetches platform env place start size x) :
    Fetches platform env place start size (checkStop message >>= fun _ => x) := fun l s =>
  wp_afterStop (holds l s) fun _ cancelled => ⟨rfl, [], by simp, .nil, .inl cancelled⟩

theorem readAt_fetchesSome {annotate : Error → Error} {offset limit : Nat}
    (attached : place.inlineBlock = none) (same : offset = place.offset + start)
    (positive : 0 < limit) :
    FetchesSome platform env place start limit (readAt (L := L) annotate offset limit) := by
  intro l s
  subst same
  unfold readAt
  rw [Library.Routine.wp_bind, Library.Routine.wp_request]
  refine ⟨trivial, ?_⟩
  rintro reply t ⟨allowed, rfl⟩
  rw [Library.Routine.continueWith_ok]
  have within : ReadsWithin env place start (start + limit)
      [.read (place.offset + start) limit reply] := by
    simp only [ReadsWithin, List.forall_mem_singleton]
    exact ⟨attached, _, _, _, rfl, allowed, positive, le_rfl, by omega⟩
  cases reply with
  | error e =>
      rw [Library.Routine.wp_fail]
      exact ⟨rfl, _, rfl, within, .inr ⟨_, _, _, List.mem_singleton_self _, trivial⟩⟩
  | ok bytes =>
      dsimp only
      split
      · rename_i bad
        rw [Library.Routine.wp_fail]
        exact ⟨rfl, _, rfl, within, .inr ⟨_, _, _, List.mem_singleton_self _, bad⟩⟩
      · rename_i good
        rw [not_or] at good
        rw [Library.Routine.wp_pure]
        refine ⟨rfl, _, rfl, within, good.1, by omega, ?_⟩
        unfold Obtained
        rw [attached]
        have pass : Pass env (place.offset + (start + limit)) (place.offset + start) (bytes ++ [])
            [.read (place.offset + start) limit (.ok bytes)] :=
          .read allowed good.1 (by omega) (by omega) (.nil _)
        rwa [List.append_nil] at pass

theorem inline_fetches {block : Bytes} (isInline : place.inlineBlock = some block)
    (there : start + size ≤ block.length) :
    Fetches platform env place start size
      (pure (slice block start size) : ReadRoutine L Bytes) := by
  intro l s
  have length := Library.length_slice there
  rw [Library.Routine.wp_pure]
  refine ⟨rfl, [], by simp, .nil, length, ?_⟩
  unfold Obtained
  rw [isInline]
  simp only [length, and_true]

theorem readExact_fetches {offset size : Nat} (noWrap : offset + size ≤ u64Max) :
    Fetches platform env ⟨none, offset⟩ 0 size (readExact (L := L) offset size) := by
  unfold readExact
  refine .of_rounds fun total more => ?_
  have small : ¬ offset > u64Max - total := by omega
  unfold refuse reject
  rw [if_neg small]
  have read : FetchesSome platform env ⟨none, offset⟩ (0 + total) (size - total)
      (readAt (L := L) id (wrapAdd offset total) (size - total)) := by
    refine readAt_fetchesSome rfl ?_ (by omega)
    rw [wrapAdd_eq (by omega), Nat.zero_add]
  intro l s
  rw [Library.Routine.wp_bind, Library.Routine.wp_ofExcept]
  exact read l s

theorem readSerializedChunk_fetches {plan : ImageReadPlan} {imageIndex : Nat}
    (holds : plan.place.Holds (start + size)) :
    Fetches platform env plan.place start size
      (readSerializedChunk (L := L) plan start size imageIndex) := by
  unfold readSerializedChunk
  unfold BlockPlace.Holds at holds
  cases isInline : plan.embeddedBlock with
  | some block =>
      have place : plan.place.inlineBlock = some block := isInline
      rw [place] at holds
      exact (inline_fetches place holds).afterStop
  | none =>
      have place : plan.place.inlineBlock = none := isInline
      rw [place] at holds
      refine .of_rounds fun total more => ?_
      refine .afterStop (readAt_fetchesSome place ?_ (by omega))
      have base : plan.place.offset = plan.image.block.offset := rfl
      rw [base] at holds ⊢
      rw [@wrapAdd_eq plan.image.block.offset _ (by omega), wrapAdd_eq (by omega)]
      omega

theorem BlockPlace.Holds.mono {size' : Nat} (smaller : size' ≤ size) (holds : place.Holds size) :
    place.Holds size' := by
  unfold BlockPlace.Holds at holds ⊢
  split at holds <;> omega

/-- The chunks that `copy_serialized_image` and the streaming checksum read. -/
theorem chunk_fetchesSome {plan : ImageReadPlan} {imageIndex total : Nat}
    (holds : plan.place.Holds plan.serializedBytes) (more : total < plan.serializedBytes) :
    FetchesSome platform env plan.place (0 + total) (plan.serializedBytes - total)
      (readSerializedChunk (L := L) plan total
        (min kReadChunkBytes (plan.serializedBytes - total)) imageIndex) := by
  rw [Nat.zero_add]
  have positive : 0 < min kReadChunkBytes (plan.serializedBytes - total) := by
    unfold kReadChunkBytes
    omega
  refine ((readSerializedChunk_fetches (holds.mono ?_)).some positive).mono (by omega)
  omega

theorem copySerializedImage_fetches {plan : ImageReadPlan} {imageIndex : Nat}
    (holds : plan.place.Holds plan.serializedBytes) :
    Fetches platform env plan.place 0 plan.serializedBytes
      (copySerializedImage (L := L) plan imageIndex) :=
  .of_rounds fun _ more => chunk_fetchesSome holds more

theorem copySerialized_fetches {inlineBlock : Option Bytes} {offset serializedBytes : Nat}
    {cancelled : String} (holds : BlockPlace.Holds ⟨inlineBlock, offset⟩ serializedBytes) :
    Fetches platform env ⟨inlineBlock, offset⟩ 0 serializedBytes
      (copySerialized (L := L) inlineBlock offset serializedBytes cancelled) := by
  refine .of_rounds fun total more => .afterStop ?_
  rw [Nat.zero_add]
  have positive : 0 < min kReadChunkBytes (serializedBytes - total) := by
    unfold kReadChunkBytes
    omega
  unfold BlockPlace.Holds at holds
  cases inlineBlock with
  | some block =>
      dsimp only at holds ⊢
      exact ((inline_fetches rfl (by omega)).some positive).mono (by omega)
  | none =>
      dsimp only at holds ⊢
      refine (readAt_fetchesSome rfl ?_ positive).mono (by omega)
      rw [wrapAdd_eq (by omega)]

/-- The streaming checksum: it succeeds only after one complete pass whose
digest is the declared one. -/
theorem verifyImageChecksumStreaming_spec {plan : ImageReadPlan} {imageIndex : Nat}
    (holds : plan.place.Holds plan.serializedBytes) (l : L) (s : Trace) :
    wp (env.world platform) (verifyImageChecksumStreaming platform plan imageIndex)
      (fun result m t => m = l ∧ ∃ events, t = s ++ events ∧
        ReadsWithin env plan.place 0 plan.serializedBytes events ∧
        match result with
        | .ok _ => plan.checksum.algorithm = .none ∧ events = [] ∨
            plan.checksum.algorithm ≠ .none ∧ ∃ bytes, bytes.length = plan.serializedBytes ∧
              Obtained env plan.place plan.serializedBytes 0 bytes events ∧
              digestMatches platform plan.checksum bytes = true
        | .error e => plan.checksum.algorithm ≠ .none ∧ (FailedRead env events e ∨
            ∃ bytes, bytes.length = plan.serializedBytes ∧
              Obtained env plan.place plan.serializedBytes 0 bytes events ∧
              digestMatches platform plan.checksum bytes = false)) l s := by
  unfold verifyImageChecksumStreaming
  by_cases declared : plan.checksum.algorithm = .none
  · rw [if_pos declared, Library.Routine.wp_pure]
    exact ⟨rfl, [], by simp, .nil, .inl ⟨declared, rfl⟩⟩
  · rw [if_neg declared, Library.Routine.wp_bind]
    have fetched : Fetches platform env plan.place 0 plan.serializedBytes _ :=
      .of_rounds fun total more =>
        @FetchesSome.afterStop _ _ _ _ _ _ "Image read was cancelled" _
          (@chunk_fetchesSome L _ _ _ imageIndex _ holds more)
    refine Library.Routine.wp_mono ?_ (fetched l s)
    rintro result m t ⟨rfl, events, rfl, within, ended⟩
    rw [Nat.zero_add] at within
    cases result with
    | error e => exact ⟨rfl, events, rfl, within, declared, .inl ended⟩
    | ok bytes =>
        rw [Nat.zero_add] at ended
        rw [Library.Routine.continueWith_ok]
        unfold refuse
        rw [Library.Routine.wp_ofExcept]
        refine ⟨rfl, events, rfl, within, ?_⟩
        cases matched : digestMatches platform plan.checksum bytes with
        | true => exact .inr ⟨declared, bytes, ended.1, ended.2, matched⟩
        | false => exact ⟨declared, .inr ⟨bytes, ended.1, ended.2, matched⟩⟩

end

end Mmxisf.Reader
