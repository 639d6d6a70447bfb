/-
# Writer.Spools -- blocks are prepared into files of their own

What a call keeps while it prepares its blocks: the paths that its cleanup object
tracks are names of its files, each once, and where the allocations that follow the
creation of a file do not fail, they are all of them; the destination is not among
them (`Tracks`).  Files that were
there before a block keep what they hold (`Grows`).  A block that was prepared is
held in memory or by its spool file, as the outputs of its codec (`Held`).
-/
import Mmxisf.Writer.Written

namespace Mmxisf.Writer

set_option autoImplicit false

open Library (Routine Program Disk slice)
open CallState (Wrote Alike)

/-! ## Files of a call -/

/-- The allocations that a file or a summary depends on do not fail. -/
structure Careful (mayFail : AllocationSite → Prop) : Prop where
  openedSink : ¬ mayFail .openedSink
  trackedPath : ¬ mayFail .trackedPath
  summary : ¬ mayFail .summary

/-- The cleanup object knows the files of its call. -/
structure Tracks (mayFail : AllocationSite → Prop) (goal : Goal) (l : OwnedFiles) (s : CallState) :
    Prop where
  held : ∀ path ∈ l.paths, (s.disk.names path).isSome = true
  apart : l.paths.Nodup
  all : Careful mayFail → ∀ path, (s.disk.names path).isSome = true → path ∈ l.paths
  hidden : s.disk.names goal.destination = none

/-- What was there is there, and the sink was not used. -/
structure Grows (s t : CallState) : Prop where
  names : ∀ {path file}, s.disk.names path = some file → t.disk.names path = some file
  contents : ∀ {file held}, s.disk.contents file = some held → t.disk.contents file = some held
  accepted : t.accepted = s.accepted
  flushed : t.flushed = s.flushed

namespace Grows

theorem refl (s : CallState) : Grows s s := ⟨id, id, rfl, rfl⟩

theorem trans {s t u : CallState} (first : Grows s t) (second : Grows t u) : Grows s u :=
  ⟨fun there => second.names (first.names there),
    fun there => second.contents (first.contents there),
    second.accepted.trans first.accepted, second.flushed.trans first.flushed⟩

end Grows

theorem Alike.grows {s t : CallState} (alike : s.Alike t) : Grows s t :=
  ⟨fun there => (congrFun alike.names _).trans there,
    fun there => (congrFun alike.contents _).trans there, alike.accepted, alike.flushed⟩

section

variable {codecs : Codecs} {mayFail : AllocationSite → Prop} {goal : Goal} {α β : Type}
  {l m : OwnedFiles}
  {s t u : CallState} {path : Path} {file : Nat} {bytes : Bytes}

theorem Tracks.same_names (tracks : Tracks mayFail goal l s) (paths : m.paths = l.paths)
    (names : t.disk.names = s.disk.names) : Tracks mayFail goal m t := by
  constructor
  · rw [paths, names]
    exact tracks.held
  · rw [paths]
    exact tracks.apart
  · rw [paths, names]
    exact tracks.all
  · rw [names]
    exact tracks.hidden

/-- A file was created. -/
structure Created (path : Path) (file : Nat) (s t : CallState) : Prop where
  free : s.disk.names path = none
  fresh : s.disk.contents file = none
  names : t.disk.names = Function.update s.disk.names path (some file)
  contents : t.disk.contents = Function.update s.disk.contents file (some [])
  accepted : t.accepted = s.accepted
  flushed : t.flushed = s.flushed

namespace Created

theorem named (created : Created path file s t) : t.disk.names path = some file := by
  rw [created.names]
  exact Function.update_self _ _ _

theorem holds (created : Created path file s t) : t.disk.contents file = some [] := by
  rw [created.contents]
  exact Function.update_self _ _ _

theorem has (created : Created path file s t) (tracks : Tracks mayFail goal m t) :
    t.Has goal (.file file) := by
  refine ⟨?_, tracks.hidden⟩
  rw [created.holds]
  rfl

theorem grows (created : Created path file s t) : Grows s t := by
  refine ⟨?_, ?_, created.accepted, created.flushed⟩
  · intro other found there
    rw [created.names, Function.update_of_ne]
    · exact there
    · rintro rfl
      rw [created.free] at there
      cases there
  · intro other held there
    rw [created.contents, Function.update_of_ne]
    · exact there
    · rintro rfl
      rw [created.fresh] at there
      cases there

/-- What is written to a file that was created leaves what was there before. -/
theorem grows_wrote (created : Created path file s t) (wrote : Wrote (.file file) bytes t u) :
    Grows s u := by
  refine ⟨?_, ?_, ?_, ?_⟩
  · intro other found there
    rw [wrote.names]
    exact created.grows.names there
  · intro other held there
    rw [wrote.contents]
    · exact created.grows.contents there
    · rintro ⟨⟩
      rw [created.fresh] at there
      cases there
  · exact (Alike.accepted wrote).trans created.accepted
  · exact (Alike.flushed wrote).trans created.flushed

theorem holds_wrote (created : Created path file s t) (wrote : Wrote (.file file) bytes t u) :
    u.disk.contents file = some bytes := by
  rw [Alike.contents wrote]
  show (t.disk.append file bytes).contents file = some bytes
  rw [Disk.append_self, created.holds]
  rfl

/-- The path of a file that was created is tracked next. -/
theorem tracks (created : Created path file s t) (working : goal.Working path)
    (tracks : Tracks mayFail goal l s) (paths : m.paths = l.paths ++ [path]) :
    Tracks mayFail goal m t := by
  have fresh : path ∉ l.paths := by
    intro member
    have there := tracks.held path member
    rw [created.free] at there
    cases there
  constructor
  · intro other member
    rw [created.names]
    by_cases same : other = path
    · rw [same, Function.update_self]
      rfl
    · rw [Function.update_of_ne same]
      rw [paths] at member
      rcases List.mem_append.mp member with old | new
      · exact tracks.held other old
      · exact absurd (List.mem_singleton.mp new) same
  · rw [paths]
    exact List.nodup_append.mpr ⟨tracks.apart, List.nodup_singleton _, by
      rintro other old _ new rfl
      exact fresh (List.mem_singleton.mp new ▸ old)⟩
  · intro careful other there
    rw [paths]
    by_cases same : other = path
    · exact List.mem_append_right _ (List.mem_singleton.mpr same)
    · rw [created.names, Function.update_of_ne same] at there
      exact List.mem_append_left _ (tracks.all careful other there)
  · rw [created.names, Function.update_of_ne working.ne.symm]
    exact tracks.hidden

/-- A file that was created and is not tracked is there for a reason. -/
theorem untracked (created : Created path file s t) (working : goal.Working path)
    (tracks : Tracks mayFail goal l s) (paths : m.paths = l.paths) (careless : ¬ Careful mayFail) :
    Tracks mayFail goal m t := by
  constructor
  · intro other member
    rw [paths] at member
    obtain ⟨found, there⟩ := Option.isSome_iff_exists.mp (tracks.held other member)
    rw [created.grows.names there]
    rfl
  · rw [paths]
    exact tracks.apart
  · intro careful
    exact absurd careful careless
  · rw [created.names, Function.update_of_ne working.ne.symm]
    exact tracks.hidden

end Created

/-! ## Creating -/

theorem createFile_ends (working : goal.Working path) :
    Routine.Ends (ofCall codecs mayFail goal) (createFile path)
      (fun sink m t => ∃ file, sink = .file file ∧ Created path file s t ∧
        m = { l with descriptors := l.descriptors ++ [file] })
      (fun m t => m = l ∧ (t = s ∨ mayFail .openedSink ∧ ∃ file, Created path file s t)) l s := by
  have creates : Routine.Ends (ofCall codecs mayFail goal)
      (Routine.request (WriteOp.create path) : WriteRoutine (Option Nat))
      (fun reply m t => m = l ∧ (reply = none → t = s) ∧
        ∀ file, reply = some file → Created path file s t)
      (fun m t => m = l ∧ (t = s ∨ mayFail .openedSink ∧ ∃ file, Created path file s t)) l s := by
    refine .request working ?_
    rintro reply t ⟨created, accepted, flushed⟩
    generalize after : t.disk = disk at created
    cases created with
    | failed =>
        refine ⟨rfl, fun _ => CallState.ext_of after ⟨accepted, flushed⟩, ?_⟩
        rintro _ ⟨⟩
    | created free fresh =>
        refine ⟨rfl, by rintro ⟨⟩, ?_⟩
        rintro _ ⟨⟩
        exact ⟨free, fresh, congrArg Disk.names after, congrArg Disk.contents after,
          accepted, flushed⟩
  apply creates.bind
  · exact fun _ _ => id
  · rintro (_ | file) m t ⟨rfl, none, some⟩
    · exact .fail ⟨rfl, .inl (none rfl)⟩
    · apply (allocate_ends _ _ _).bind
      · rintro n u ⟨fails, rfl, rfl⟩
        exact ⟨rfl, .inr ⟨fails, file, some file rfl⟩⟩
      · rintro _ n u ⟨rfl, rfl⟩
        apply Routine.Ends.modify
        exact .pure ⟨file, rfl, some file rfl, rfl⟩

theorem track_ends :
    Routine.Ends (ofCall codecs mayFail goal) (track path)
      (fun _ m t => m = { l with paths := l.paths ++ [path] } ∧ t = s)
      (fun m t => mayFail .trackedPath ∧ m = l ∧ t = s) l s := by
  apply (allocate_ends _ _ _).bind
  · exact fun _ _ => id
  · rintro _ m t ⟨rfl, rfl⟩
    exact .modifyStore ⟨rfl, rfl⟩

/-- A file that is created and tracked. -/
theorem createTracked {f : Sink → WriteRoutine β} {value : β → OwnedFiles → CallState → Prop}
    {failed : OwnedFiles → CallState → Prop} (working : goal.Working path)
    (tracks : Tracks mayFail goal l s)
    (stops : ∀ m t, Grows s t → Tracks mayFail goal m t → failed m t)
    (rest : ∀ file m t, Created path file s t → Tracks mayFail goal m t →
      Routine.Ends (ofCall codecs mayFail goal) (f (.file file)) value failed m t) :
    Routine.Ends (ofCall codecs mayFail goal)
      (createFile path >>= fun sink => track path >>= fun _ => f sink)
      value failed l s := by
  apply (createFile_ends working).bind
  · rintro m t ⟨rfl, rfl | ⟨fails, file, created⟩⟩
    · exact stops _ _ (.refl _) tracks
    · exact stops _ _ created.grows
        (created.untracked working tracks rfl fun careful => careful.openedSink fails)
  · rintro _ m t ⟨file, rfl, created, rfl⟩
    apply track_ends.bind
    · rintro n u ⟨fails, rfl, rfl⟩
      exact stops _ _ created.grows
        (created.untracked working tracks rfl fun careful => careful.trackedPath fails)
    · rintro _ n u ⟨rfl, rfl⟩
      exact rest file _ _ created (created.tracks working tracks rfl)

/-! ## Reading a spool -/

theorem openSpool_ends (there : s.disk.names path = some file) :
    Routine.Ends (ofCall codecs mayFail goal) (openSpool path)
      (fun reader m t => m = l ∧ s.Alike t ∧ t.disk.readers reader = some (file, 0))
      (fun m t => m = l ∧ s.Alike t) l s := by
  have opens : Routine.Ends (ofCall codecs mayFail goal)
      (Routine.request (WriteOp.openSpool path) : WriteRoutine (Option Nat))
      (fun reply m t => m = l ∧ s.Alike t ∧
        ∀ reader, reply = some reader → t.disk.readers reader = some (file, 0))
      (fun m t => m = l ∧ s.Alike t) l s := by
    refine .request (Option.isSome_iff_exists.mpr ⟨file, there⟩) ?_
    rintro reply t ⟨opened, accepted, flushed⟩
    generalize after : t.disk = disk at opened
    cases opened with
    | failed =>
        refine ⟨rfl, ⟨(congrArg Disk.names after :), (congrArg Disk.contents after :), accepted,
          flushed⟩, ?_⟩
        rintro _ ⟨⟩
    | @opened found reader named fresh =>
        refine ⟨rfl, ⟨(congrArg Disk.names after :), (congrArg Disk.contents after :), accepted,
          flushed⟩, ?_⟩
        rintro _ ⟨⟩
        rw [there, Option.some.injEq] at named
        subst named
        exact Function.update_self _ _ _
  apply opens.bind
  · exact fun _ _ => id
  · rintro (reply : Option Nat) m t ⟨rfl, alike, placed⟩
    apply Routine.Ends.ofExcept
    · intro reader same
      exact ⟨rfl, alike, placed reader (orFail_eq_ok.mp same)⟩
    · exact ⟨rfl, alike⟩

/-- A chunk that is read in full is what the file holds at the reader's place. -/
theorem readSpoolChunk_ends {reader position count : Nat} {held : Bytes}
    (opened : s.disk.readers reader = some (file, position))
    (there : s.disk.contents file = some held) :
    Routine.Ends (ofCall codecs mayFail goal) (readSpoolChunk reader count)
      (fun chunk m t => m = l ∧ s.Alike t ∧ chunk = slice held position count ∧
        chunk.length = count ∧
        t.disk.readers reader = some (file, position + count))
      (fun m t => m = l ∧ s.Alike t) l s := by
  have reads : Routine.Ends (ofCall codecs mayFail goal)
      (Routine.request (WriteOp.readSpool reader count) : WriteRoutine Bytes)
      (fun chunk m t => m = l ∧ s.Alike t ∧ chunk <+: held.drop position ∧
        t.disk.readers reader = some (file, position + chunk.length))
      (fun m t => m = l ∧ s.Alike t) l s := by
    refine .request (Option.isSome_iff_exists.mpr ⟨_, opened⟩) ?_
    rintro reply t ⟨read, accepted, flushed⟩
    generalize after : t.disk = disk at read
    cases read with
    | failed =>
        exact ⟨rfl, ⟨(congrArg Disk.names after :), (congrArg Disk.contents after :),
          accepted, flushed⟩,
          List.nil_prefix, opened⟩
    | read placed holds some =>
        rw [opened, Option.some.injEq, Prod.mk.injEq] at placed
        obtain ⟨rfl, rfl⟩ := placed
        rw [there, Option.some.injEq] at holds
        subst holds
        refine ⟨rfl, ⟨(congrArg Disk.names after :), (congrArg Disk.contents after :),
          accepted, flushed⟩,
          some, ?_⟩
        exact Function.update_self _ _ _
  apply reads.bind
  · exact fun _ _ => id
  · rintro (chunk : Bytes) m t ⟨rfl, alike, some, placed⟩
    apply (refuse_still _ _ _).bind ⟨rfl, alike⟩
    intro _ whole
    rw [not_not] at whole
    subst whole
    exact .pure ⟨rfl, alike, List.prefix_iff_eq_take.mp some, rfl, placed⟩

theorem checkSpoolEnd_still {reader : Nat} :
    Still codecs mayFail goal (fun _ => True) (checkSpoolEnd reader) := by
  have asks : Still codecs mayFail goal (fun _ => True)
      (Routine.request (WriteOp.spoolHasMore reader) : WriteRoutine Bool) :=
    .request (fun _ => trivial) fun s reply t answer =>
      ⟨trivial, CallState.ext_of answer.1 answer.2⟩
  apply asks.seq
  intro (more : Bool) _
  exact (refuse_still _ _ _).any

/-- Hashing a spool leaves it, and takes what it holds. -/
theorem hashSpoolFrom_ends {reader expectedSize : Nat} {held : Bytes} :
    ∀ (fuel remaining : Nat) (hashed : Bytes) {position : Nat} {l : OwnedFiles} {s : CallState},
      remaining ≤ fuel → remaining ≤ expectedSize →
      s.disk.readers reader = some (file, position) → s.disk.contents file = some held →
      Routine.Ends (ofCall codecs mayFail goal)
        (hashSpoolFrom reader expectedSize fuel remaining hashed)
        (fun all m t => m = l ∧ s.Alike t ∧ all = hashed ++ slice held position remaining)
        (fun m t => m = l ∧ s.Alike t) l s
  | 0, remaining, hashed, position, _, s, enough, _, _, _ => by
      obtain rfl := Nat.le_zero.mp enough
      refine .pure ⟨rfl, .refl s, ?_⟩
      rw [Library.slice_zero, List.append_nil]
  | fuel + 1, remaining, hashed, position, l, s, enough, within, opened, there => by
      apply Routine.Ends.ite
      · intro more
        apply checkStop_still.bind ⟨rfl, .refl s⟩
        intro _ _
        apply (readSpoolChunk_ends opened there).bind
        · exact fun _ _ => id
        · rintro chunk m t ⟨rfl, alike, rfl, -, placed⟩
          have still : t.disk.contents file = some held :=
              (congrFun alike.contents file).trans there
          have count : 0 < min remaining (min expectedSize kSpoolChunk) := by
            have chunk : 0 < kSpoolChunk := by decide
            omega
          apply (hashSpoolFrom_ends fuel _ _ (by omega) (by omega) placed still).mono
          · rintro all n u ⟨rfl, later, rfl⟩
            refine ⟨rfl, alike.trans later, ?_⟩
            rw [List.append_assoc, Library.slice_append_slice,
              Nat.add_sub_cancel' (Nat.min_le_left _ _)]
          · rintro n u ⟨rfl, later⟩
            exact ⟨rfl, alike.trans later⟩
      · intro none
        rw [not_not] at none
        refine .pure ⟨rfl, .refl s, ?_⟩
        rw [none, Library.slice_zero, List.append_nil]

/-! ## Compressing -/

/-- What was written to a spool, if there is one. -/
def SpoolWrote (spool : Option Sink) (bytes : Bytes) (s t : CallState) : Prop :=
  spool.elim (s.Alike t) fun sink => Wrote sink bytes s t

/-- The spool is there, if there is one. -/
def HasSpool (goal : Goal) (spool : Option Sink) (s : CallState) : Prop :=
  ∀ sink ∈ spool, s.Has goal sink

namespace SpoolWrote

variable {spool : Option Sink} {more : Bytes}

theorem nothing (has : HasSpool goal spool s) : SpoolWrote spool [] s s := by
  cases spool with
  | none => exact Alike.refl s
  | some sink => exact .nothing (has sink rfl)

theorem trans (first : SpoolWrote spool bytes s t) (second : SpoolWrote spool more t u) :
    SpoolWrote spool (bytes ++ more) s u := by
  cases spool with
  | none => exact Alike.trans first second
  | some sink => exact Wrote.trans first second

theorem has (wrote : SpoolWrote spool bytes s t) (has : HasSpool goal spool s) :
    HasSpool goal spool t := by
  rintro sink member
  obtain rfl := Option.mem_def.mp member
  exact Wrote.has wrote (has sink rfl)

end SpoolWrote

section

variable {platform : Platform} {request : BlockPrepareRequest} {options : WriterOptions}
  {spool : Option Sink}

/-- A round of the compression loop adds the output of a chunk. -/
structure AddsChunk (codecs : Codecs) (request : BlockPrepareRequest) (options : WriterOptions)
    (spool : Option Sink) (chunks next : CompressedChunks) (output : Bytes) : Prop where
  encoded : ∃ input, request.payload.chunk chunks.inputOffset
      (request.payload.chunkSize options chunks.inputOffset) = .ok input ∧
    codecs.outputs request.compression input output
  subblocks : next.subblocks = chunks.subblocks ++
    [(output.length, request.payload.chunkSize options chunks.inputOffset)]
  inputOffset : next.inputOffset =
    chunks.inputOffset + request.payload.chunkSize options chunks.inputOffset
  serialized : next.serializedSoFar = chunks.serializedSoFar + output.length
  storage : next.storage = if spool.isSome = true then chunks.storage else output

theorem compressChunk_ends (typed : request.Typed) (has : HasSpool goal spool s)
    {chunks : CompressedChunks} (more : chunks.inputOffset < request.bytes.length) :
    Routine.Ends (ofCall codecs mayFail goal) (compressChunk platform request options spool chunks)
      (fun next m t => m = l ∧ ∃ output, SpoolWrote spool output s t ∧
        AddsChunk codecs request options spool chunks next output)
      (fun m t => m = l ∧ ∃ some, SpoolWrote spool some s t) l s := by
  have bytesSmall := typed.bytes
  have serializedSmall := typed.maxSerializedBytes
  have cumulativeSmall := typed.maxCumulativeRemaining
  have stops : l = l ∧ ∃ some, SpoolWrote spool some s s := ⟨rfl, [], .nothing has⟩
  unfold compressChunk
  rw [wrapSubtract_eq bytesSmall (Nat.le_of_lt more)]
  apply checkStop_still.bind stops
  intro _ _
  apply (refuse_still _ _ _).bind stops
  intro _ few
  apply (allocate_still _).bind stops
  intro _ _
  refine Still.bind (?_ : Still codecs mayFail goal
    (fun input => request.payload.chunk chunks.inputOffset
    (request.payload.chunkSize options chunks.inputOffset) = .ok input) _) stops ?_
  · apply Still.ite
    · intro shuffle
      apply Still.result.weaken
      intro input made
      exact (if_pos shuffle).trans made
    · intro plain
      exact Still.ok (if_neg plain)
  intro input made
  apply (refuse_still _ _ _).bind stops
  intro _ budget
  rw [wrapSubtract_eq serializedSmall (by omega), wrapSubtract_eq cumulativeSmall (by omega)]
  apply (compressBytes_still _).bind stops
  rintro output ⟨encoded, fits⟩
  refine Routine.Ends.bind (?_ : Routine.Ends (ofCall codecs mayFail goal) _
    (fun storage m t => m = l ∧ SpoolWrote spool output s t ∧
      storage = if spool.isSome = true then chunks.storage else output)
    (fun m t => m = l ∧ ∃ some, SpoolWrote spool some s t) l s) (fun _ _ => id) ?_
  · cases spool with
    | none => exact .pure ⟨rfl, Alike.refl s, rfl⟩
    | some sink =>
        apply Routine.Ends.bind (writeAll_writes (has sink rfl))
        · rintro m t ⟨rfl, some, -, wrote⟩
          exact ⟨rfl, some, wrote⟩
        · rintro _ m t ⟨-, rfl, wrote⟩
          exact .pure ⟨rfl, wrote, rfl⟩
  rintro storage m t ⟨rfl, wrote, stored⟩
  apply (allocate_still _).bind ⟨rfl, output, wrote⟩
  intro _ _
  have next := nextChunk_of typed more few budget fits storage
  exact .pure ⟨rfl, output, wrote, ⟨input, made, encoded⟩, rfl, next.inputOffset,
    next.serialized, stored⟩

/-- What the compression loop does from here on. -/
structure AddsChunks (codecs : Codecs) (request : BlockPrepareRequest) (options : WriterOptions)
    (spool : Option Sink) (chunks final : CompressedChunks) (outputs : List (Bytes × Nat)) :
    Prop where
  encoded : ChunksEncoded codecs options request.payload chunks.inputOffset outputs
  subblocks : final.subblocks = chunks.subblocks ++ outputs.map subblockSizes
  serialized : final.serializedSoFar =
    chunks.serializedSoFar + (outputs.map Prod.fst).flatten.length
  storage : final.storage = if spool.isSome = true then chunks.storage else
    (outputs.getLast?.map Prod.fst).getD chunks.storage

theorem compressChunks_ends (typed : request.Typed)
    (positive : 0 < chunkLimit request.compression options.compressionSubblockBytes) :
    ∀ (fuel : Nat) {chunks : CompressedChunks} {l : OwnedFiles} {s : CallState},
      HasSpool goal spool s →
      request.bytes.length - chunks.inputOffset ≤ fuel →
      Routine.Ends (ofCall codecs mayFail goal)
        (compressChunks platform request options spool fuel chunks)
        (fun final m t => m = l ∧ ∃ outputs, SpoolWrote spool (outputs.map Prod.fst).flatten s t ∧
          AddsChunks codecs request options spool chunks final outputs)
        (fun m t => m = l ∧ ∃ some, SpoolWrote spool some s t) l s
  | 0, chunks, l, s, has, enough => by
      apply Routine.Ends.pure
      refine ⟨rfl, [], .nothing has, .done (show request.bytes.length ≤ _ by omega), ?_, rfl, ?_⟩
      · rw [List.map_nil, List.append_nil]
      · exact (ite_self _).symm
  | fuel + 1, chunks, l, s, has, enough => by
      unfold compressChunks
      apply Routine.Ends.ite
      · intro more
        apply Routine.Ends.bind (compressChunk_ends typed has more) (fun _ _ => id)
        rintro next m t ⟨rfl, output, wrote, adds⟩
        have offset := adds.inputOffset
        have step : 0 < request.payload.chunkSize options chunks.inputOffset :=
          Nat.lt_min.mpr ⟨positive, Nat.sub_pos_of_lt more⟩
        apply (compressChunks_ends typed positive fuel (wrote.has has) (by omega)).mono
        · rintro final n u ⟨rfl, outputs, later, rest⟩
          refine ⟨rfl, (output, request.payload.chunkSize options chunks.inputOffset) :: outputs,
            wrote.trans later, ?_, ?_, ?_, ?_⟩
          · obtain ⟨input, made, encoded⟩ := adds.encoded
            exact .chunk more made encoded (offset ▸ rest.encoded)
          · rw [rest.subblocks, adds.subblocks, List.append_assoc]
            rfl
          · rw [rest.serialized, adds.serialized, List.map_cons, List.flatten_cons,
              List.length_append, Nat.add_assoc]
          · rw [rest.storage, adds.storage, List.getLast?_cons]
            cases spool with
            | none => cases outputs.getLast? <;> rfl
            | some sink => rfl
        · rintro n u ⟨rfl, some, later⟩
          exact ⟨rfl, output ++ some, wrote.trans later⟩
      · intro done
        apply Routine.Ends.pure
        refine ⟨rfl, [], .nothing has, .done (show request.bytes.length ≤ _ by omega), ?_, rfl, ?_⟩
        · rw [List.map_nil, List.append_nil]
        · exact (ite_self _).symm

/-- A payload of one chunk at most. -/
theorem ChunksEncoded.single {payload : Payload} {chunks : List (Bytes × Nat)}
    (encoded : ChunksEncoded codecs options payload 0 chunks)
    (small : payload.bytes.length ≤
      chunkLimit payload.compression options.compressionSubblockBytes) :
    chunks = [] ∧ payload.bytes = [] ∨ ∃ output size, chunks = [(output, size)] ∧ output ≠ [] := by
  cases encoded with
  | done all => exact .inl ⟨rfl, List.eq_nil_of_length_eq_zero (Nat.le_zero.mp all)⟩
  | chunk more made encoded later =>
      right
      refine ⟨_, _, congrArg (_ :: ·) ?_, codecs.nonempty encoded⟩
      cases later with
      | done _ => rfl
      | chunk beyond _ _ _ =>
          rw [Payload.chunkSize] at beyond
          omega

/-! ## Blocks -/

/-- Where the content of a prepared block is. -/
structure Held (disk : Disk Path Byte) (payload : Payload) (block : PreparedBlock)
    (content : Bytes) :
    Prop where
  memory : block.spoolPath = [] →
    content = if block.storage = [] then payload.bytes else block.storage
  spooled : block.spoolPath ≠ [] →
    ∃ file, disk.names block.spoolPath = some file ∧ disk.contents file = some content

theorem Held.grows {payload : Payload} {block : PreparedBlock} {content : Bytes}
    (held : Held s.disk payload block content) (grows : Grows s t) :
    Held t.disk payload block content := by
  refine ⟨held.memory, ?_⟩
  intro some
  obtain ⟨file, named, holds⟩ := held.spooled some
  exact ⟨file, grows.names named, grows.contents holds⟩

/-- What every function that prepares keeps, also when it fails. -/
structure Keeps (mayFail : AllocationSite → Prop) (goal : Goal) (s : CallState) (m : OwnedFiles)
    (t : CallState) : Prop where
  grows : Grows s t
  tracks : Tracks mayFail goal m t

theorem Keeps.after {first : CallState} (keeps : Keeps mayFail goal s m t) (grows : Grows first s) :
    Keeps mayFail goal first m t :=
  ⟨grows.trans keeps.grows, keeps.tracks⟩

/-- The spool of a block, when it needs one. -/
inductive SpoolOpened (request : BlockPrepareRequest) (options : WriterOptions) (s t : CallState) :
    Option Sink × Path → Prop
  | memory (small : request.bytes.length ≤
        chunkLimit request.compression options.compressionSubblockBytes) (same : t = s) :
      SpoolOpened request options s t (none, [])
  | file {path : Path} {file : Nat} (nonempty : path ≠ []) (created : Created path file s t) :
      SpoolOpened request options s t (some (.file file), path)

theorem openBlockSpool_ends (working : goal.Working (goal.destination ++ request.spoolSuffix))
    (tracks : Tracks mayFail goal l s) :
    Routine.Ends (ofCall codecs mayFail goal) (openBlockSpool goal.destination request options)
      (fun opened m t => SpoolOpened request options s t opened ∧ Tracks mayFail goal m t)
      (Keeps mayFail goal s) l s := by
  have kept : Keeps mayFail goal s l s := ⟨.refl s, tracks⟩
  apply Routine.Ends.ite
  · intro _
    apply (refuse_still _ _ _).bind kept
    intro _ some
    apply (allocate_still _).bind kept
    intro _ _
    apply createTracked working tracks
    · exact fun m t grows tracks => ⟨grows, tracks⟩
    · intro file m t created tracks
      refine .pure ⟨.file ?_ created, tracks⟩
      exact fun none => some (List.append_eq_nil_iff.mp none).1
  · intro small
    exact .pure ⟨.memory (Nat.not_lt.mp small) rfl, tracks⟩

/-- Closing a spool leaves the files. -/
theorem closeSpool_ends {spool : Option Sink}
    (file : ∀ sink ∈ spool, ∃ descriptor, sink = .file descriptor) :
    Routine.Ends (ofCall codecs mayFail goal) (closeSpool spool)
      (fun _ m t => m.paths = l.paths ∧ t = s) (fun m t => m.paths = l.paths ∧ t = s) l s := by
  cases spool with
  | none => exact .pure ⟨rfl, rfl⟩
  | some sink =>
      obtain ⟨descriptor, rfl⟩ := file sink rfl
      have flushes : Still codecs mayFail goal (fun _ => True) (Sink.file descriptor).flush := by
        have asks : Still codecs mayFail goal (fun _ => True)
            (Routine.request (WriteOp.flush descriptor) : WriteRoutine Bool) :=
          .request (fun _ => trivial) fun s reply t answer =>
            ⟨trivial, CallState.ext_of answer.1 answer.2⟩
        apply asks.seq
        intro (flushed : Bool) _
        exact (refuse_still _ _ _).any
      apply flushes.bind ⟨rfl, rfl⟩
      intro _ _
      apply Routine.Ends.modify
      have asks : Still codecs mayFail goal (fun _ => True)
          (Routine.request (WriteOp.close descriptor) : WriteRoutine Bool) :=
        .request (fun _ => trivial) fun s reply t answer =>
          ⟨trivial, CallState.ext_of answer.1 answer.2⟩
      apply asks.bind ⟨rfl, rfl⟩
      intro (closed : Bool) _
      apply (refuse_still _ _ _ _ _).mono
      · rintro _ m t ⟨-, rfl, rfl⟩
        exact ⟨rfl, rfl⟩
      · rintro m t ⟨rfl, rfl⟩
        exact ⟨rfl, rfl⟩

/-- A block was compressed, and is held. -/
theorem compressBlock_ends (typed : request.Typed)
    (working : goal.Working (goal.destination ++ request.spoolSuffix))
    (tracks : Tracks mayFail goal l s) :
    Routine.Ends (ofCall codecs mayFail goal)
      (compressBlock platform goal.destination request options)
      (fun block m t => Keeps mayFail goal s m t ∧ ∃ chunks,
        ChunksEncoded codecs options request.payload 0 chunks ∧
        block.compression = compressionText request ∧
        block.subblocks = subblocksText (chunks.map subblockSizes) ∧
        block.serializedSize = (chunks.map Prod.fst).flatten.length ∧
        Held t.disk request.payload block (chunks.map Prod.fst).flatten)
      (Keeps mayFail goal s) l s := by
  have kept : Keeps mayFail goal s l s := ⟨.refl s, tracks⟩
  apply (refuse_still _ _ _).bind kept
  intro _ geometry
  have positive : 0 < chunkLimit request.compression options.compressionSubblockBytes := by omega
  apply Routine.Ends.bind (openBlockSpool_ends working tracks) (fun _ _ => id)
  rintro ⟨spool, spoolPath⟩ m t ⟨opened, tracks⟩
  have file : ∀ sink ∈ spool, ∃ descriptor, sink = .file descriptor := by
    cases opened with
    | memory => rintro _ ⟨⟩
    | file _ _ => rintro _ ⟨⟩; exact ⟨_, rfl⟩
  have has : HasSpool goal spool t := by
    cases opened with
    | memory => rintro _ ⟨⟩
    | file _ created => rintro _ ⟨⟩; exact created.has tracks
  have grows {bytes : Bytes} {u : CallState} (wrote : SpoolWrote spool bytes t u) : Grows s u := by
    cases opened with
    | memory _ same => exact same ▸ Alike.grows wrote
    | file _ created => exact created.grows_wrote wrote
  have names {bytes : Bytes} {u : CallState} (wrote : SpoolWrote spool bytes t u) :
      u.disk.names = t.disk.names := by
    cases spool with
    | none => exact Alike.names wrote
    | some sink => exact Wrote.names wrote
  apply Routine.Ends.bind (compressChunks_ends typed positive request.bytes.length has
    (Nat.sub_le _ _))
  · rintro n u ⟨rfl, some, wrote⟩
    exact ⟨grows wrote, tracks.same_names rfl (names wrote)⟩
  · rintro final n u ⟨rfl, chunks, wrote, adds⟩
    have keeps : ∀ o : OwnedFiles, o.paths = n.paths → Keeps mayFail goal s o u := fun o paths =>
      ⟨grows wrote, tracks.same_names paths (names wrote)⟩
    apply Routine.Ends.bind (closeSpool_ends file)
    · rintro o v ⟨paths, rfl⟩
      exact keeps o paths
    · rintro _ o v ⟨paths, rfl⟩
      apply (allocate_still _).bind (keeps o paths)
      intro _ _
      refine .pure ⟨keeps o paths, chunks, adds.encoded, rfl, ?_, ?_, ?_⟩
      · show subblocksText final.subblocks = _
        rw [adds.subblocks]
        rfl
      · exact adds.serialized.trans (Nat.zero_add _)
      · cases opened with
        | memory small _ =>
            refine ⟨?_, fun some => absurd rfl some⟩
            intro _
            show _ = if final.storage = [] then request.bytes else final.storage
            have storage := adds.storage
            rcases adds.encoded.single small with ⟨rfl, none⟩ | ⟨output, size, rfl, some⟩
            · rw [show final.storage = [] from storage, if_pos rfl]
              exact none.symm
            · rw [show final.storage = output from storage, if_neg some]
              exact List.append_nil output
        | file nonempty created =>
            refine ⟨fun none => absurd none nonempty, ?_⟩
            intro _
            exact ⟨_, (congrFun (names wrote) _).trans created.named, created.holds_wrote wrote⟩

/-- A checksum is that of the content, read back where it was spooled. -/
theorem blockChecksum_ends {block : PreparedBlock} {content : Bytes}
    (held : Held s.disk request.payload block content)
    (size : block.serializedSize = content.length) :
    Routine.Ends (ofCall codecs mayFail goal) (blockChecksum platform request block)
      (fun checksum m t => m = l ∧ s.Alike t ∧ checksum =
        if request.checksum = .none then [] else checksumText platform request.checksum content)
      (fun m t => m = l ∧ s.Alike t) l s := by
  apply Routine.Ends.ite
  · intro wanted
    apply Routine.Ends.ite
    · intro memory
      apply (refuse_still _ _ _).bind ⟨rfl, .refl s⟩
      intro _ _
      apply (allocate_still _).bind ⟨rfl, .refl s⟩
      intro _ _
      refine .pure ⟨rfl, .refl s, ?_⟩
      rw [if_neg wanted, held.memory memory]
      rfl
    · intro spooled
      obtain ⟨file, named, holds⟩ := held.spooled spooled
      apply (refuse_still _ _ _).bind ⟨rfl, .refl s⟩
      intro _ _
      apply (allocate_still _).bind ⟨rfl, .refl s⟩
      intro _ _
      apply (openSpool_ends named).bind (fun _ _ => id)
      rintro reader m t ⟨rfl, alike, placed⟩
      have there : t.disk.contents file = some content := (congrFun alike.contents file).trans holds
      apply (hashSpoolFrom_ends _ _ _ (Nat.le_refl _) (Nat.le_refl _) placed there).bind
      · rintro n u ⟨rfl, later⟩
        exact ⟨rfl, alike.trans later⟩
      · rintro hashed n u ⟨rfl, later, rfl⟩
        apply checkSpoolEnd_still.bind ⟨rfl, alike.trans later⟩
        intro _ _
        apply (allocate_still _).bind ⟨rfl, alike.trans later⟩
        intro _ _
        refine .pure ⟨rfl, alike.trans later, ?_⟩
        rw [if_neg wanted, List.nil_append, size, Library.slice_all (Nat.le_refl _)]
  · intro unwanted
    rw [not_not] at unwanted
    refine .pure ⟨rfl, .refl s, ?_⟩
    rw [if_pos unwanted]

/-- The destructors of sink objects leave the files. -/
theorem closeAll_leaves : ∀ (descriptors : List Nat) (s : CallState),
    Program.wp (ofCall codecs mayFail goal) (closeAll descriptors) (fun _ t => t = s) s
  | [], _ => rfl
  | descriptor :: rest, s => by
      refine ⟨trivial, ?_⟩
      rintro reply t answer
      obtain rfl := CallState.ext_of answer.1 answer.2
      exact closeAll_leaves rest t

theorem destroySinks_leaves {post : OwnedFiles → CallState → Prop}
    (holds : post { l with descriptors := [] } s) :
    Program.wp (ofCall codecs mayFail goal) (destroySinks l) post s := by
  unfold destroySinks
  rw [Program.wp_bind]
  apply Program.wp_mono _ (closeAll_leaves l.descriptors s)
  rintro _ t rfl
  exact holds

/-- A block is prepared: it is stored as this content, which is held. -/
structure Ready (platform : Platform) (codecs : Codecs) (options : WriterOptions)
    (payload : Payload) (block : PreparedBlock) (content : Bytes) (t : CallState) : Prop where
  stored : StoredAs platform codecs options payload block content
  held : Held t.disk payload block content

theorem Ready.grows {payload : Payload} {block : PreparedBlock} {content : Bytes}
    (ready : Ready platform codecs options payload block content s) (grows : Grows s t) :
    Ready platform codecs options payload block content t :=
  ⟨ready.stored, ready.held.grows grows⟩

theorem prepareBlock_ends (typed : request.Typed)
    (working : goal.Working (goal.destination ++ request.spoolSuffix))
    (tracks : Tracks mayFail goal l s) :
    Routine.Ends (ofCall codecs mayFail goal)
      (prepareBlock platform goal.destination request options)
      (fun block m t => Keeps mayFail goal s m t ∧
        ∃ content, Ready platform codecs options request.payload block content t)
      (Keeps mayFail goal s) l s := by
  have cleans {m : OwnedFiles} {t : CallState} (keeps : Keeps mayFail goal s m t) :
      Keeps mayFail goal s { m with descriptors := [] } t :=
    ⟨keeps.grows, keeps.tracks.same_names rfl rfl⟩
  refine Routine.Ends.ensuring (?_ : Routine.Ends _ _ (fun block m t => Keeps mayFail goal s m t ∧
      ∃ content, Ready platform codecs options request.payload block content t)
    (Keeps mayFail goal s) l s) ?_ ?_
  · refine Routine.Ends.bind (?_ : Routine.Ends _ _ (fun block m t => Keeps mayFail goal s m t ∧
        ∃ content, SerializedAs codecs options request.payload block content ∧
          Held t.disk request.payload block content)
      (Keeps mayFail goal s) l s) (fun _ _ => id) ?_
    · apply Routine.Ends.ite
      · intro coded
        apply (compressBlock_ends typed working tracks).mono _ fun _ _ => id
        rintro block m t ⟨keeps, chunks, encoded, compression, subblocks, size, held⟩
        exact ⟨keeps, _, ⟨fun plain => absurd plain coded,
          fun _ => ⟨chunks, encoded, rfl, compression, subblocks⟩, size⟩, held⟩
      · intro plain
        rw [not_not] at plain
        refine .pure ⟨⟨.refl s, tracks⟩, request.bytes, ⟨fun _ => ⟨rfl, rfl, rfl⟩, ?_, rfl⟩, ?_⟩
        · exact fun coded => absurd plain coded
        · exact ⟨fun _ => rfl, fun some => absurd rfl some⟩
    rintro block m t ⟨keeps, content, serialized, held⟩
    apply (refuse_still _ _ _).bind keeps
    intro _ _
    apply Routine.Ends.bind (blockChecksum_ends held serialized.size)
    · rintro n u ⟨rfl, alike⟩
      exact ⟨keeps.grows.trans (Alike.grows alike), keeps.tracks.same_names rfl alike.names⟩
    · rintro checksum n u ⟨rfl, alike, known⟩
      refine .pure ⟨⟨keeps.grows.trans (Alike.grows alike),
        keeps.tracks.same_names rfl alike.names⟩, content, ⟨?_, known⟩, ?_⟩
      · exact ⟨serialized.plain, serialized.coded, serialized.size⟩
      · have later := held.grows (Alike.grows alike)
        exact ⟨later.memory, later.spooled⟩
  · rintro block m t ⟨keeps, ready⟩
    exact destroySinks_leaves ⟨cleans keeps, ready⟩
  · intro m t keeps
    exact destroySinks_leaves (cleans keeps)

end

end

end Mmxisf.Writer
