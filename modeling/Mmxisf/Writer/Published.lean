/-
# Writer.Published -- a whole call, alone

The destination appears by one link, to a temporary file that has the whole unit;
then nothing is written any more, and the cleanup object removes every other name of
the call.  What the call leaves when it has returned is `CallEnded`: the destination
alone, or with a sink of the caller nothing but what the sink has taken; and no file
at all after an error.
-/
import Mmxisf.Writer.Emitted

namespace Mmxisf.Writer

set_option autoImplicit false

open Library (Routine Program Disk)
open CallState (Wrote Alike)

/-- A call publishes its unit. -/
def WriteCall.goal (platform : Platform) (codecs : Codecs) (call : WriteCall) : Goal where
  destination := call.destinationOrScratch
  complete bytes := call.writesFile = true ∧ ∃ settled contents,
    IsUnitOf platform codecs call settled contents ∧ bytes = unitBytes call.options settled contents

/-- What a sink has taken of a unit. -/
inductive Taken (unit : Bytes) (s : CallState) : Prop
  | part (accepted : s.accepted <+: unit) (flushed : s.flushed = [])
  | all (accepted : s.accepted = unit) (flushed : s.flushed = [s.accepted.length])

/-- What a sink has got of a call that failed. -/
inductive Offered (platform : Platform) (codecs : Codecs) (call : WriteCall) (s : CallState) : Prop
  | nothing (accepted : s.accepted = []) (flushed : s.flushed = [])
  | part {settled : SettledUnit} {contents : List Bytes} (external : call.writesFile = false)
      (isUnit : IsUnitOf platform codecs call settled contents)
      (accepted : s.accepted <+: unitBytes call.options settled contents) (flushed : s.flushed = [])
  | all {settled : SettledUnit} {contents : List Bytes} (external : call.writesFile = false)
      (isUnit : IsUnitOf platform codecs call settled contents)
      (accepted : s.accepted = unitBytes call.options settled contents)
      (flushed : s.flushed = [s.accepted.length])

/-- What is so when a call has returned. -/
inductive CallEnded (platform : Platform) (codecs : Codecs) (call : WriteCall) (s : CallState) :
    Result WriteSummary → Prop
  | published {settled : SettledUnit} {contents : List Bytes} {file : Nat}
      (writes : call.writesFile = true) (isUnit : IsUnitOf platform codecs call settled contents)
      (names : ∀ path, s.disk.names path =
        if path = call.destinationOrScratch then some file else none)
      (holds : s.disk.contents file = some (unitBytes call.options settled contents))
      (accepted : s.accepted = []) (flushed : s.flushed = []) :
      CallEnded platform codecs call s (.ok (summarize settled))
  | delivered {settled : SettledUnit} {contents : List Bytes} (external : call.writesFile = false)
      (isUnit : IsUnitOf platform codecs call settled contents)
      (names : ∀ path, s.disk.names path = none)
      (accepted : s.accepted = unitBytes call.options settled contents)
      (flushed : s.flushed = [s.accepted.length]) :
      CallEnded platform codecs call s (.ok (summarize settled))
  | failed {e : Error} (names : ∀ path, s.disk.names path = none)
      (offered : Offered platform codecs call s) : CallEnded platform codecs call s (.error e)

section

variable {platform : Platform} {codecs : Codecs} {mayFail : AllocationSite → Prop} {goal : Goal}
  {call : WriteCall} {l m : OwnedFiles} {s t : CallState} {settled : SettledUnit}
  {contents : List Bytes}

/-! ## The end of the routine -/

/-- Nothing was published, and the cleanup object knows every file. -/
structure Stopped (mayFail : AllocationSite → Prop) (platform : Platform) (codecs : Codecs)
    (call : WriteCall) (m : OwnedFiles) (t : CallState) : Prop where
  tracks : Tracks mayFail (call.goal platform codecs) m t
  offered : Offered platform codecs call t

/-- The unit is where it was wanted. -/
inductive Delivered (mayFail : AllocationSite → Prop) (platform : Platform) (codecs : Codecs)
    (call : WriteCall) (settled : SettledUnit) (contents : List Bytes) (m : OwnedFiles)
    (t : CallState) : Prop
  | file {file : Nat} {before : CallState} (writes : call.writesFile = true)
      (tracks : Tracks mayFail (call.goal platform codecs) m before)
      (names : t.disk.names =
        Function.update before.disk.names call.destinationOrScratch (some file))
      (holds : t.disk.contents file = some (unitBytes call.options settled contents))
      (accepted : t.accepted = []) (flushed : t.flushed = [])
  | sink (external : call.writesFile = false)
      (tracks : Tracks mayFail (call.goal platform codecs) m t)
      (accepted : t.accepted = unitBytes call.options settled contents)
      (flushed : t.flushed = [t.accepted.length])

/-- Nothing was put out before. -/
structure Fresh (s : CallState) : Prop where
  accepted : s.accepted = []
  flushed : s.flushed = []

theorem Fresh.grows (fresh : Fresh s) (grows : Grows s t) : Fresh t :=
  ⟨grows.accepted.trans fresh.accepted, grows.flushed.trans fresh.flushed⟩

theorem Fresh.offered (fresh : Fresh s) : Offered platform codecs call s :=
  .nothing fresh.accepted fresh.flushed

theorem temporary_working : (call.goal platform codecs).Working call.temporary := ⟨lit "tmp", rfl⟩

/-- The hard link is made, or nothing was changed. -/
theorem link_ends {path : Path} {file : Nat} {held : Bytes} (there : s.disk.names path = some file)
    (holds : s.disk.contents file = some held) (complete : goal.complete held) :
    Routine.Ends (ofCall codecs mayFail goal)
      (Routine.request (WriteOp.link path goal.destination) : WriteRoutine Bool)
      (fun reply m t => m = l ∧ (reply = false → t = s) ∧ (reply = true →
        t.disk.names = Function.update s.disk.names goal.destination (some file) ∧
        t.disk.contents = s.disk.contents ∧ t.accepted = s.accepted ∧ t.flushed = s.flushed))
      (fun m t => m = l ∧ t = s) l s := by
  refine .request ⟨rfl, file, held, there, holds, complete⟩ ?_
  rintro reply t ⟨linked, sink⟩
  generalize after : t.disk = disk at linked
  cases linked with
  | failed =>
      refine ⟨rfl, fun _ => CallState.ext_of after sink, ?_⟩
      rintro ⟨⟩
  | linked _ _ =>
      refine ⟨rfl, by rintro ⟨⟩, ?_⟩
      intro _
      refine ⟨?_, rfl, sink⟩
      rw [← there]
      rfl

/-- From the output of a file on. -/
theorem publishFile_ends (careful : Careful mayFail) (writes : call.writesFile = true)
    (isUnit : IsUnitOf platform codecs call settled contents)
    (held : AllHeld s settled.plan.blocks contents)
    (tracks : Tracks mayFail (call.goal platform codecs) l s) (fresh : Fresh s) :
    Routine.Ends (ofCall codecs mayFail (call.goal platform codecs)) (publish call settled)
      (fun summary m t => summary = summarize settled ∧
        Delivered mayFail platform codecs call settled contents m t)
      (Stopped mayFail platform codecs call) l s := by
  unfold publish openOutput
  rw [if_pos writes]
  refine Routine.Ends.bind (?_ : Routine.Ends (ofCall codecs mayFail (call.goal platform codecs)) _
    (fun output m t => ∃ file, output = .file file ∧ Created call.temporary file s t ∧
      Tracks mayFail (call.goal platform codecs) m t)
    (Stopped mayFail platform codecs call) l s) (fun _ _ => id) ?_
  · apply createTracked temporary_working tracks
    · exact fun m t grows tracks => ⟨tracks, (fresh.grows grows).offered⟩
    · exact fun file m t created tracks => .pure ⟨file, rfl, created, tracks⟩
  rintro _ m t ⟨file, rfl, created, tracks⟩
  apply (emitUnit_ends isUnit (created.has tracks)
    fun bytes u wrote => held.grows (created.grows_wrote wrote)).bind
  · rintro n u ⟨paths, partly⟩
    obtain ⟨bytes, wrote⟩ : ∃ bytes, Wrote (.file file) bytes t u := by
      cases partly with
      | first _ wrote => exact ⟨_, wrote⟩
      | all emitted => exact ⟨_, emitted⟩
    exact ⟨tracks.same_names paths wrote.names, (fresh.grows (created.grows_wrote wrote)).offered⟩
  rintro _ n u ⟨paths, emitted⟩
  have wrote : Wrote (.file file) (unitBytes call.options settled contents) t u := emitted
  have stopped : Stopped mayFail platform codecs call n u :=
    ⟨tracks.same_names paths wrote.names, (fresh.grows (created.grows_wrote wrote)).offered⟩
  refine Routine.Ends.bind (?_ : Routine.Ends (ofCall codecs mayFail (call.goal platform codecs)) _
    (fun _ o v => Delivered mayFail platform codecs call settled contents o v)
    (Stopped mayFail platform codecs call) n u) (fun _ _ => id) ?_
  · apply checkStop_still.bind stopped
    intro _ _
    rw [if_pos writes]
    have there : u.disk.names call.temporary = some file :=
      (congrFun wrote.names _).trans created.named
    have holds := created.holds_wrote wrote
    have complete : (call.goal platform codecs).complete
        (unitBytes call.options settled contents) :=
      ⟨writes, settled, contents, isUnit, rfl⟩
    apply (link_ends there holds complete).bind
    · rintro o v ⟨rfl, rfl⟩
      exact stopped
    rintro (linked : Bool) o v ⟨rfl, same, done⟩
    cases linked with
    | false =>
        obtain rfl := same rfl
        exact .fail stopped
    | true =>
        obtain ⟨names, contents, accepted, flushed⟩ := done rfl
        have fresh := fresh.grows (created.grows_wrote wrote)
        refine .pure (.file writes stopped.tracks names ?_ ?_ ?_)
        · rw [contents]
          exact holds
        · exact accepted.trans fresh.accepted
        · exact flushed.trans fresh.flushed
  rintro _ o v delivered
  apply (allocate_ends _ _ _).bind
  · rintro _ _ ⟨fails, -⟩
    exact absurd fails careful.summary
  · rintro _ _ _ ⟨rfl, rfl⟩
    exact .pure ⟨rfl, delivered⟩

/-- What a sink has when bytes were written to it. -/
theorem Fresh.wrote {bytes : Bytes} (fresh : Fresh s) (wrote : Wrote .external bytes s t) :
    Grows s { t with accepted := [], flushed := [] } ∧ t.accepted = bytes ∧ t.flushed = [] := by
  have accepted : t.accepted = s.accepted ++ bytes := (Alike.accepted wrote :)
  have flushed : t.flushed = s.flushed := (Alike.flushed wrote :)
  refine ⟨⟨?_, ?_, fresh.accepted.symm, fresh.flushed.symm⟩, ?_, ?_⟩
  · exact fun there => (congrFun wrote.names _).trans there
  · exact fun there => (wrote.contents (by rintro ⟨⟩)).trans there
  · rw [accepted, fresh.accepted, List.nil_append]
  · rw [flushed, fresh.flushed]

/-- What it has when it was flushed after that. -/
theorem Fresh.emitted {unit : Bytes} (fresh : Fresh s) (emitted : Emitted .external unit s t) :
    t.disk.names = s.disk.names ∧ t.accepted = unit ∧ t.flushed = [t.accepted.length] := by
  have names : t.disk.names = s.disk.names := (Alike.names emitted :)
  have accepted : t.accepted = s.accepted ++ unit := (Alike.accepted emitted :)
  have flushed : t.flushed = s.flushed ++ [(s.accepted ++ unit).length] := (Alike.flushed emitted :)
  rw [fresh.accepted, List.nil_append] at accepted flushed
  rw [fresh.flushed, List.nil_append, ← accepted] at flushed
  exact ⟨names, accepted, flushed⟩

/-- To the sink of the caller. -/
theorem publishTo_takes (careful : Careful mayFail) (external : call.writesFile = false)
    (isUnit : IsUnitOf platform codecs call settled contents)
    (held : AllHeld s settled.plan.blocks contents)
    (tracks : Tracks mayFail (call.goal platform codecs) l s) (fresh : Fresh s) :
    Routine.Ends (ofCall codecs mayFail (call.goal platform codecs)) (publish call settled)
      (fun summary m t => summary = summarize settled ∧
        Tracks mayFail (call.goal platform codecs) m t ∧
        t.accepted = unitBytes call.options settled contents ∧ t.flushed = [t.accepted.length])
      (fun m t => Tracks mayFail (call.goal platform codecs) m t ∧
        Taken (unitBytes call.options settled contents) t) l s := by
  have notFile : ¬ call.writesFile = true := by
    rw [external]
    decide
  unfold publish openOutput
  rw [if_neg notFile]
  have opens : Still codecs mayFail (call.goal platform codecs) (· = .external)
      (pure .external : WriteRoutine Sink) := .ok rfl
  apply opens.bind ⟨tracks, .part (fresh.accepted ▸ List.nil_prefix) fresh.flushed⟩
  rintro _ rfl
  have stays : ∀ bytes t, Wrote .external bytes s t → AllHeld t settled.plan.blocks contents := by
    intro bytes t wrote
    show AllHeld { t with accepted := [], flushed := [] } settled.plan.blocks contents
    exact held.grows (fresh.wrote wrote).1
  apply (emitUnit_ends isUnit (show s.Has (call.goal platform codecs) .external from trivial)
    stays).bind
  · rintro m t ⟨paths, partly⟩
    cases partly with
    | first early wrote =>
        obtain ⟨-, accepted, flushed⟩ := fresh.wrote wrote
        exact ⟨tracks.same_names paths wrote.names, .part (accepted ▸ early) flushed⟩
    | all emitted =>
        obtain ⟨names, accepted, flushed⟩ := fresh.emitted emitted
        exact ⟨tracks.same_names paths names, .all accepted flushed⟩
  rintro _ m t ⟨paths, emitted⟩
  obtain ⟨names, accepted, flushed⟩ := fresh.emitted emitted
  have tracks := tracks.same_names paths names
  have commits : Still codecs mayFail (call.goal platform codecs) (fun _ => True)
      (commit call) := by
    apply checkStop_still.seq
    intro _ _
    rw [if_neg notFile]
    exact .ok trivial
  apply commits.bind ⟨tracks, .all accepted flushed⟩
  intro _ _
  apply (allocate_ends _ _ _).bind
  · rintro _ _ ⟨fails, -⟩
    exact absurd fails careful.summary
  · rintro _ _ _ ⟨rfl, rfl⟩
    exact .pure ⟨rfl, tracks, accepted, flushed⟩

theorem publishTo_ends (careful : Careful mayFail) (external : call.writesFile = false)
    (isUnit : IsUnitOf platform codecs call settled contents)
    (held : AllHeld s settled.plan.blocks contents)
    (tracks : Tracks mayFail (call.goal platform codecs) l s) (fresh : Fresh s) :
    Routine.Ends (ofCall codecs mayFail (call.goal platform codecs)) (publish call settled)
      (fun summary m t => summary = summarize settled ∧
        Delivered mayFail platform codecs call settled contents m t)
      (Stopped mayFail platform codecs call) l s := by
  apply (publishTo_takes careful external isUnit held tracks fresh).mono
  · rintro summary m t ⟨same, tracks, accepted, flushed⟩
    exact ⟨same, .sink external tracks accepted flushed⟩
  · rintro m t ⟨tracks, taken⟩
    refine ⟨tracks, ?_⟩
    cases taken with
    | part accepted flushed => exact .part external isUnit accepted flushed
    | all accepted flushed => exact .all external isUnit accepted flushed

theorem writeImpl_ends (careful : Careful mayFail) (typed : call.options.Typed)
    (tracks : Tracks mayFail (call.goal platform codecs) l s) (fresh : Fresh s) :
    Routine.Ends (ofCall codecs mayFail (call.goal platform codecs)) (writeImpl platform call)
      (fun summary m t => ∃ settled contents, IsUnitOf platform codecs call settled contents ∧
        summary = summarize settled ∧ Delivered mayFail platform codecs call settled contents m t)
      (Stopped mayFail platform codecs call) l s := by
  apply Routine.Ends.bind (prepareUnit_ends typed rfl tracks)
  · intro m t keeps
    exact ⟨keeps.tracks, (fresh.grows keeps.grows).offered⟩
  rintro settled m t ⟨keeps, contents, isUnit, held⟩
  have fresh := fresh.grows keeps.grows
  cases writes : call.writesFile with
  | true =>
      apply (publishFile_ends careful writes isUnit held keeps.tracks fresh).mono
      · rintro summary n u ⟨same, delivered⟩
        exact ⟨settled, contents, isUnit, same, delivered⟩
      · exact fun _ _ => id
  | false =>
      apply (publishTo_ends careful writes isUnit held keeps.tracks fresh).mono
      · rintro summary n u ⟨same, delivered⟩
        exact ⟨settled, contents, isUnit, same, delivered⟩
      · exact fun _ _ => id

/-! ## The destructors -/

/-- These names are gone. -/
structure Removed (paths : List Path) (s t : CallState) : Prop where
  names : ∀ path, t.disk.names path = if path ∈ paths then none else s.disk.names path
  contents : t.disk.contents = s.disk.contents
  accepted : t.accepted = s.accepted
  flushed : t.flushed = s.flushed

theorem removeAll_removes : ∀ (paths : List Path) (s : CallState), paths.Nodup →
    (∀ path ∈ paths, (s.disk.names path).isSome = true) →
    Program.wp (ofCall codecs mayFail goal) (removeAll paths) (fun _ t => Removed paths s t) s
  | [], _, _, _ => ⟨fun _ => rfl, rfl, rfl, rfl⟩
  | path :: rest, s, apart, held => by
      obtain ⟨first, apart⟩ := List.nodup_cons.mp apart
      refine ⟨held path List.mem_cons_self, ?_⟩
      rintro reply t ⟨disk, accepted, flushed⟩
      have names : t.disk.names = Function.update s.disk.names path none := congrArg Disk.names disk
      have restHeld : ∀ other ∈ rest, (t.disk.names other).isSome = true := by
        intro other member
        rw [names, Function.update_of_ne]
        · exact held other (List.mem_cons_of_mem _ member)
        · rintro rfl
          exact first member
      apply Program.wp_mono _ (removeAll_removes rest t apart restHeld)
      rintro _ u removed
      refine ⟨?_, ?_, removed.accepted.trans accepted, removed.flushed.trans flushed⟩
      · intro other
        rw [removed.names, names]
        by_cases here : other = path
        · rw [here, if_neg first, Function.update_self, if_pos List.mem_cons_self]
        · rw [Function.update_of_ne here]
          simp only [List.mem_cons, here, false_or]
      · exact removed.contents.trans (congrArg Disk.contents disk :)

theorem destroyCleanup_removes {post : OwnedFiles → CallState → Prop} (apart : l.paths.Nodup)
    (held : ∀ path ∈ l.paths, (s.disk.names path).isSome = true)
    (holds : ∀ m t, Removed l.paths s t → post m t) :
    Program.wp (ofCall codecs mayFail goal) (destroyCleanup l) post s := by
  unfold destroyCleanup
  rw [Program.wp_bind]
  apply Program.wp_mono _ (removeAll_removes l.paths s apart held)
  exact fun _ t removed => holds _ t removed

/-! ## The call -/

theorem Stopped.removed {e : Error} (careful : Careful mayFail)
    (stopped : Stopped mayFail platform codecs call l s) (removed : Removed l.paths s t) :
    CallEnded platform codecs call t (.error e) := by
  refine .failed ?_ ?_
  · intro path
    rw [removed.names]
    split
    · rfl
    · rename_i untracked
      exact Option.not_isSome_iff_eq_none.mp
        fun there => untracked (stopped.tracks.all careful path there)
  · cases stopped.offered with
    | nothing accepted flushed =>
        exact .nothing (removed.accepted.trans accepted) (removed.flushed.trans flushed)
    | part external isUnit accepted flushed =>
        exact .part external isUnit (removed.accepted ▸ accepted) (removed.flushed.trans flushed)
    | all external isUnit accepted flushed =>
        refine .all external isUnit (removed.accepted.trans accepted) ?_
        rw [removed.flushed, removed.accepted]
        exact flushed

namespace Delivered

theorem apart (delivered : Delivered mayFail platform codecs call settled contents l s) :
    l.paths.Nodup := by
  cases delivered with
  | file _ tracks => exact tracks.apart
  | sink _ tracks => exact tracks.apart

/-- The names that the cleanup object knows are there. -/
theorem held (delivered : Delivered mayFail platform codecs call settled contents l s) :
    ∀ path ∈ l.paths, (s.disk.names path).isSome = true := by
  cases delivered with
  | file _ tracks names =>
      intro path member
      rw [names]
      by_cases here : path = call.destinationOrScratch
      · rw [here, Function.update_self]
        rfl
      · rw [Function.update_of_ne here]
        exact tracks.held path member
  | sink _ tracks => exact tracks.held

theorem removed (careful : Careful mayFail)
    (isUnit : IsUnitOf platform codecs call settled contents)
    (delivered : Delivered mayFail platform codecs call settled contents l s)
    (removed : Removed l.paths s t) :
    CallEnded platform codecs call t (.ok (summarize settled)) := by
  cases delivered with
  | @file file before writes tracks names holds accepted flushed =>
      have hidden : call.destinationOrScratch ∉ l.paths := by
        intro member
        have there := tracks.held _ member
        rw [show before.disk.names call.destinationOrScratch = none from tracks.hidden] at there
        cases there
      refine .published writes isUnit (?_ : ∀ path, t.disk.names path =
          if path = call.destinationOrScratch then some file else none) ?_
        (removed.accepted.trans accepted) (removed.flushed.trans flushed)
      · intro path
        rw [removed.names, names]
        by_cases here : path = call.destinationOrScratch
        · rw [here, if_neg hidden, Function.update_self, if_pos rfl]
        · rw [Function.update_of_ne here, if_neg here]
          split
          · rfl
          · rename_i untracked
            exact Option.not_isSome_iff_eq_none.mp
              fun there => untracked (tracks.all careful path there)
      · rw [removed.contents]
        exact holds
  | sink external tracks accepted flushed =>
      refine .delivered external isUnit ?_ (removed.accepted.trans accepted) ?_
      · intro path
        rw [removed.names]
        split
        · rfl
        · rename_i untracked
          exact Option.not_isSome_iff_eq_none.mp
            fun there => untracked (tracks.all careful path there)
      · rw [removed.flushed, removed.accepted]
        exact flushed

end Delivered

/-- A call that starts without files ends as it should. -/
theorem write_ends (careful : Careful mayFail) (typed : call.options.Typed) :
    Program.wp (ofCall codecs mayFail (call.goal platform codecs)) (write platform call)
      (fun result t => CallEnded platform codecs call t result) {} := by
  unfold write
  rw [Program.wp_bind]
  have start : Tracks mayFail (call.goal platform codecs) {} {} :=
    ⟨List.forall_mem_nil _, List.nodup_nil, fun _ _ => by rintro ⟨⟩, rfl⟩
  have closed : Routine.Ends (ofCall codecs mayFail (call.goal platform codecs))
      (Routine.ensuring (writeImpl platform call) destroySinks)
      (fun summary m t => ∃ settled contents, IsUnitOf platform codecs call settled contents ∧
        summary = summarize settled ∧ Delivered mayFail platform codecs call settled contents m t)
      (Stopped mayFail platform codecs call) {} {} := by
    apply Routine.Ends.ensuring (writeImpl_ends careful typed start ⟨rfl, rfl⟩)
    · rintro summary m t ⟨settled, contents, isUnit, same, delivered⟩
      refine destroySinks_leaves ⟨settled, contents, isUnit, same, ?_⟩
      cases delivered with
      | file writes tracks names holds accepted flushed =>
          exact .file writes (tracks.same_names rfl rfl) names holds accepted flushed
      | sink external tracks accepted flushed =>
          exact .sink external (tracks.same_names rfl rfl) accepted flushed
    · intro m t stopped
      exact destroySinks_leaves ⟨stopped.tracks.same_names rfl rfl, stopped.offered⟩
  have cleaned : Routine.Ends (ofCall codecs mayFail (call.goal platform codecs))
      (Routine.ensuring (Routine.ensuring (writeImpl platform call) destroySinks) destroyCleanup)
      (fun summary _ t => CallEnded platform codecs call t (.ok summary))
      (fun _ t => ∀ e, CallEnded platform codecs call t (.error e)) {} {} := by
    apply closed.ensuring
    · rintro summary m t ⟨settled, contents, isUnit, rfl, delivered⟩
      apply destroyCleanup_removes delivered.apart delivered.held
      exact fun _ _ removed => delivered.removed careful isUnit removed
    · intro m t stopped
      apply destroyCleanup_removes stopped.tracks.apart stopped.tracks.held
      exact fun _ _ removed _ => stopped.removed careful removed
  show Routine.wp (ofCall codecs mayFail (call.goal platform codecs)) _
    (fun result _ t => CallEnded platform codecs call t result) ({} : OwnedFiles) {}
  refine Routine.wp_mono ?_ cleaned
  rintro _ _ t (ended | ended)
  · exact ended
  · exact ended _

end

end Mmxisf.Writer
