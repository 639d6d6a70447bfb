/-
# Writer.Outside -- the file system, the codecs and the sink around a call

What may be answered to a writer: a call to the file system may fail, and a write
that fails may have written some of its bytes; a codec returns one of the outputs it
has for an input, which is not empty and fits the buffer; a sink takes some of the bytes it is
given.
Any check may find the call cancelled, and allocations may fail at the sites that
`mayFail` names.

`ofCall` is the world of one call: the files that it made, and its sink.  It lets
through what touches these alone, and the destination only by a link to a file that
is complete, after which there is no write.  `shared` is the disk that several calls
have.  Every answer of the disk is one that the call's own files allow (`owns`), so
what is proved of a call alone holds on any disk, whatever else is on it and whoever
else writes to it; and after every step a destination that a call has made leads to
a complete file (`Complete`).
-/
import Mmxisf.Library.Files
import Mmxisf.Library.Pool
import Mmxisf.Writer.Write

namespace Mmxisf.Writer

set_option autoImplicit false

open Library (World Disk Event History Joins Owns)

/-- The outputs that codecs have for an input; each starts with a header. -/
structure Codecs where
  outputs : CompressionCodec → Bytes → Bytes → Prop
  nonempty : ∀ {codec : CompressionCodec} {input output : Bytes}, outputs codec input output →
    output ≠ []

/-- The files of a call, what its sink has taken, and where it was flushed. -/
structure CallState where
  disk : Disk Path Byte := .empty
  accepted : Bytes := []
  flushed : List Nat := []

section

variable (codecs : Codecs) (mayFail : AllocationSite → Prop)

/-- The answers of the disk, the codecs and the allocator. -/
def FilesReply (disk : Disk Path Byte) : (op : WriteOp) → op.Reply → Disk Path Byte → Prop
  | .allocate site, reply, after => ((reply : Bool) = false → mayFail site) ∧ after = disk
  | .create path, reply, after => disk.Creates path reply after
  | .write file bytes, reply, after => disk.Appends file bytes reply after
  | .compress codec input capacity, reply, after =>
      (∀ output, (reply : CompressReply) = .produced output →
        codecs.outputs codec input output ∧ output.length ≤ capacity) ∧ after = disk
  | .openSpool path, reply, after => disk.Opens path reply after
  | .readSpool reader _, reply, after => disk.Reads reader reply after
  | .link path destination, reply, after => disk.Links path destination reply after
  | .remove path, _, after => after = disk.remove path
  | _, _, after => after = disk

/-- The answers of the sink: it has taken some of the bytes, and the count it returns
is theirs. -/
def SinkReply (s : CallState) : (op : WriteOp) → op.Reply → CallState → Prop
  | .sinkWrite bytes, reply, t =>
      ∃ count, (∀ taken, (reply : Result Nat) = .ok taken → taken = count) ∧
      t.accepted = s.accepted ++ bytes.take count ∧ t.flushed = s.flushed
  | .sinkFlush, _, t => t.accepted = s.accepted ∧ t.flushed = s.flushed ++ [s.accepted.length]
  | _, _, t => t.accepted = s.accepted ∧ t.flushed = s.flushed

/-- Where a call publishes, and what. -/
structure Goal where
  destination : Path
  complete : Bytes → Prop

/-- The names that a call derives for its own use. -/
def Goal.Working (goal : Goal) (path : Path) : Prop :=
  ∃ suffix, path = goal.destination ++ (lit ".mmxisf-" ++ suffix)

theorem Goal.Working.ne {goal : Goal} {path : Path} (working : goal.Working path) :
    path ≠ goal.destination := by
  obtain ⟨suffix, rfl⟩ := working
  intro same
  exact List.append_ne_nil_of_left_ne_nil (by decide) suffix (List.append_right_eq_self.mp same)

/-- A destination that is there leads to a complete file. -/
def Complete (goal : Goal) (disk : Disk Path Byte) : Prop :=
  ∀ file, disk.names goal.destination = some file →
    ∃ held, disk.contents file = some held ∧ goal.complete held

/-- A call touches its own files, and its destination only in the end. -/
def Touches (goal : Goal) (disk : Disk Path Byte) : WriteOp → Prop
  | .create path => goal.Working path
  | .write file _ => (disk.contents file).isSome = true ∧ disk.names goal.destination = none
  | .openSpool path => (disk.names path).isSome = true
  | .readSpool reader _ => (disk.readers reader).isSome = true
  | .link path other => other = goal.destination ∧ ∃ file held, disk.names path = some file ∧
      disk.contents file = some held ∧ goal.complete held
  | .remove path => (disk.names path).isSome = true
  | _ => True

/-- The world of one call. -/
def ofCall (goal : Goal) : World WriteOp WriteOp.Reply CallState where
  allowed s op := Touches goal s.disk op
  reply s op reply t := FilesReply codecs mayFail s.disk op reply t.disk ∧ SinkReply s op reply t

/-- The disk that calls share. -/
def shared : World WriteOp WriteOp.Reply (Disk Path Byte) where
  allowed _ _ := True
  reply disk op reply after := FilesReply codecs mayFail disk op reply after

end

/-! ## A call among others -/

/-- What a sink may have done when its answer is this one. -/
theorem sinkReply_exists (s : CallState) (op : WriteOp) (reply : op.Reply) (disk : Disk Path Byte) :
    ∃ t : CallState, t.disk = disk ∧ SinkReply s op reply t := by
  cases op with
  | sinkWrite bytes =>
      obtain ⟨count, counted⟩ : ∃ count, ∀ taken, (reply : Result Nat) = .ok taken →
        taken = count := by
        obtain _ | count := (reply : Result Nat)
        · exact ⟨0, by rintro _ ⟨⟩⟩
        · exact ⟨count, by rintro _ ⟨⟩; rfl⟩
      exact ⟨⟨disk, s.accepted ++ bytes.take count, s.flushed⟩, rfl, count, counted, rfl, rfl⟩
  | sinkFlush => exact ⟨⟨disk, s.accepted, s.flushed ++ [s.accepted.length]⟩, rfl, rfl, rfl⟩
  | _ => exact ⟨⟨disk, s.accepted, s.flushed⟩, rfl, rfl, rfl⟩

section

variable {codecs : Codecs} {mayFail : AllocationSite → Prop} {ι : Type} [DecidableEq ι]

/-- What a disk answers to a call about its own files, the files alone would. -/
theorem filesReply_part {parts : ι → Disk Path Byte} {whole after : Disk Path Byte} {i : ι}
    {op : WriteOp} {reply : op.Reply} (splits : Disk.Splits parts whole)
    {goal : Goal} (own : Touches goal (parts i) op)
    (answer : FilesReply codecs mayFail whole op reply after) :
    ∃ part, FilesReply codecs mayFail (parts i) op reply part ∧
      Disk.Splits (Function.update parts i part) after := by
  cases op with
  | allocate _ | compress _ _ _ =>
      obtain ⟨known, rfl⟩ := answer
      exact ⟨parts i, ⟨known, rfl⟩, splits.same⟩
  | create _ => exact splits.creates answer
  | write _ _ => exact splits.appends own.1 answer
  | openSpool _ => exact splits.opens own answer
  | readSpool _ _ => exact splits.reads own answer
  | link _ _ =>
      obtain ⟨-, file, held, there, -⟩ := own
      exact splits.links (Option.isSome_iff_exists.mpr ⟨file, there⟩) answer
  | remove _ =>
      subst answer
      exact ⟨_, rfl, splits.removes own⟩
  | _ =>
      subst answer
      exact ⟨parts i, rfl, splits.same⟩

/-- A call has made a file. -/
def Made (history : History ι WriteOp WriteOp.Reply) (i : ι) (file : Nat) : Prop :=
  ∃ path, (i, (⟨.create path, (some file : Option Nat)⟩ : Event WriteOp WriteOp.Reply)) ∈ history

/-- A file is there because it was, or because it was just made. -/
theorem filesReply_made {goal : Goal} {disk after : Disk Path Byte} {op : WriteOp}
    {reply : op.Reply}
    {file : Nat} (own : Touches goal disk op)
      (answer : FilesReply codecs mayFail disk op reply after)
    (there : (after.contents file).isSome = true) : (disk.contents file).isSome = true ∨
      ∃ path, (⟨op, reply⟩ : Event WriteOp WriteOp.Reply) =
      ⟨.create path, (some file : Option Nat)⟩ := by
  cases op with
  | create path =>
      cases answer with
      | failed => exact .inl there
      | @created made _ _ =>
          by_cases same : file = made
          · exact .inr ⟨path, same ▸ rfl⟩
          · left
            rwa [show ((disk.create path made).contents file) = disk.contents file from
              Function.update_of_ne same _ _] at there
  | write other bytes =>
      have kept {cells : Bytes} (there : ((disk.append other cells).contents file).isSome = true) :
          (disk.contents file).isSome = true := by
        by_cases same : file = other
        · exact same ▸ own.1
        · rwa [show ((disk.append other cells).contents file) = disk.contents file from
            Function.update_of_ne same _ _] at there
      cases answer with
      | failed _ => exact .inl (kept there)
      | appended _ => exact .inl (kept there)
  | allocate _ | compress _ _ _ =>
      obtain ⟨-, rfl⟩ := answer
      exact .inl there
  | openSpool _ | readSpool _ _ | link _ _ =>
      cases answer <;> exact .inl there
  | _ =>
      subst answer
      exact .inl there

/-- What a call touches leaves its destination complete. -/
theorem filesReply_complete {goal : Goal} {disk after : Disk Path Byte} {op : WriteOp}
    {reply : op.Reply} (own : Touches goal disk op)
    (answer : FilesReply codecs mayFail disk op reply after) (complete : Complete goal disk) :
    Complete goal after := by
  cases op with
  | create path =>
      cases answer with
      | failed => exact complete
      | @created made _ fresh =>
          intro file there
          rw [show (disk.create path made).names =
            Function.update disk.names path (some made) from rfl,
            Function.update_of_ne (Goal.Working.ne own).symm] at there
          obtain ⟨held, holds, whole⟩ := complete file there
          refine ⟨held, ?_, whole⟩
          rw [show (disk.create path made).contents =
            Function.update disk.contents made (some []) from rfl,
            Function.update_of_ne]
          · exact holds
          · rintro rfl
            rw [fresh] at holds
            cases holds
  | write other bytes =>
      have unpublished {cells : Bytes} : Complete goal (disk.append other cells) := by
        intro file there
        rw [Disk.append_names, own.2] at there
        cases there
      cases answer with
      | failed _ => exact unpublished
      | appended _ => exact unpublished
  | link path other =>
      obtain ⟨rfl, file, held, named, holds, whole⟩ := own
      cases answer with
      | failed => exact complete
      | linked _ _ =>
          intro found there
          rw [show (disk.link path goal.destination).names =
            Function.update disk.names goal.destination (disk.names path) from rfl,
            Function.update_self, named, Option.some.injEq] at there
          subst there
          exact ⟨held, holds, whole⟩
  | remove path =>
      subst answer
      intro file there
      rw [show (disk.remove path).names = Function.update disk.names path none from rfl] at there
      by_cases same : goal.destination = path
      · rw [same, Function.update_self] at there
        cases there
      · rw [Function.update_of_ne same] at there
        exact complete file there
  | allocate _ | compress _ _ _ =>
      obtain ⟨-, rfl⟩ := answer
      exact complete
  | openSpool _ | readSpool _ _ =>
      cases answer <;> exact complete
  | _ =>
      subst answer
      exact complete

/-- The names of a call are its destination and its working names. -/
def OwnNames (goal : Goal) (disk : Disk Path Byte) : Prop :=
  ∀ path, (disk.names path).isSome = true → path = goal.destination ∨ goal.Working path

theorem filesReply_names {goal : Goal} {disk after : Disk Path Byte} {op : WriteOp}
    {reply : op.Reply} (own : Touches goal disk op)
    (answer : FilesReply codecs mayFail disk op reply after) (ownNames : OwnNames goal disk) :
    OwnNames goal after := by
  have renamed {path : Path} {file : Option Nat}
      (here : path = goal.destination ∨ goal.Working path)
      (names : after.names = Function.update disk.names path file) : OwnNames goal after := by
    intro other there
    by_cases same : other = path
    · exact same ▸ here
    · rw [names, Function.update_of_ne same] at there
      exact ownNames other there
  cases op with
  | create path =>
      cases answer with
      | failed => exact ownNames
      | created _ _ => exact renamed (.inr own) rfl
  | link path other =>
      obtain ⟨here, -⟩ := own
      cases answer with
      | failed => exact ownNames
      | linked _ _ => exact renamed (.inl here) rfl
  | remove path =>
      subst answer
      exact renamed (ownNames path own) rfl
  | allocate _ | compress _ _ _ =>
      obtain ⟨-, rfl⟩ := answer
      exact ownNames
  | write _ _ | openSpool _ | readSpool _ _ =>
      cases answer <;> exact ownNames
  | _ =>
      subst answer
      exact ownNames

/-- A disk is what was there before, and the files of the calls. -/
def Together (before : Disk Path Byte) (calls : ι → CallState) (whole : Disk Path Byte) : Prop :=
  Disk.Splits (fun k : Option ι => k.elim before fun i => (calls i).disk) whole

omit [DecidableEq ι] in
theorem together_start {before : Disk Path Byte} : Together before (fun _ : ι => {}) before := by
  have joins {X Y : Type} (get : Disk Path Byte → X → Option Y) (none : ∀ x, get .empty x = none) :
      Joins (fun k : Option ι => get (k.elim before fun _ => .empty)) (get before) := by
    have only : ∀ {k : Option ι} {x y}, get (k.elim before fun _ => .empty) x = some y →
        k = Option.none := by
      intro k x y there
      cases k with
      | none => rfl
      | some i =>
          rw [show get ((Option.some i).elim before fun _ => .empty) x =
            Option.none from none x] at there
          cases there
    constructor
    · intro k x y there
      obtain rfl := only there
      exact there
    · exact fun there => ⟨Option.none, there⟩
    · intro i j x first second
      obtain ⟨_, first⟩ := Option.isSome_iff_exists.mp first
      obtain ⟨_, second⟩ := Option.isSome_iff_exists.mp second
      rw [only first, only second]
  exact ⟨joins Disk.names fun _ => rfl, joins Disk.contents fun _ => rfl,
    joins Disk.readers fun _ => rfl⟩

theorem elim_update {before : Disk Path Byte} {calls : ι → CallState} {i : ι} {call : CallState} :
    (fun k : Option ι => k.elim before fun j => (Function.update calls i call j).disk) =
      Function.update (fun k : Option ι => k.elim before fun j => (calls j).disk) (some i)
        call.disk := by
  funext k
  cases k with
  | none => rw [Function.update_of_ne (Option.some_ne_none i).symm]; rfl
  | some j =>
      by_cases same : j = i
      · subst same
        simp only [Option.elim_some, Function.update_self]
      · have other : some j ≠ some i := fun equal => same (Option.some.inj equal)
        rw [Function.update_of_ne other]
        simp only [Option.elim_some, Function.update_of_ne same]

/-- Calls on one disk: the files of a call are those that it made. -/
structure Joined (goals : ι → Goal) (before : Disk Path Byte)
    (history : History ι WriteOp WriteOp.Reply) (calls : ι → CallState) (whole : Disk Path Byte) :
    Prop where
  together : Together before calls whole
  made : ∀ i file, ((calls i).disk.contents file).isSome = true → Made history i file
  complete : ∀ i, Complete (goals i) (calls i).disk
  names : ∀ i, OwnNames (goals i) (calls i).disk

omit [DecidableEq ι] in
theorem joined_start (goals : ι → Goal) (before : Disk Path Byte) :
    Joined goals before [] (fun _ => {}) before := by
  refine ⟨together_start, ?_, ?_, ?_⟩
  · rintro i file ⟨⟩
  · rintro i file ⟨⟩
  · rintro i path ⟨⟩

/-- Calls own their files. -/
theorem owns (goals : ι → Goal) (before : Disk Path Byte) :
    Owns (fun i => ofCall codecs mayFail (goals i)) (shared codecs mayFail)
    (Joined goals before) := by
  constructor
  intro history calls s t i op reply joined own answer
  obtain ⟨part, partAnswer, splits⟩ := @filesReply_part codecs mayFail (Option ι) _ _ s t (some i)
    op reply joined.together _ own answer
  obtain ⟨call, rfl, sinkAnswer⟩ := sinkReply_exists (calls i) op reply part
  have each {P : ι → Disk Path Byte → Prop} (here : P i call.disk) (all : ∀ j, P j (calls j).disk) :
      ∀ j, P j (Function.update calls i call j).disk := by
    intro j
    by_cases mine : j = i
    · subst mine
      rw [Function.update_self]
      exact here
    · rw [Function.update_of_ne mine]
      exact all j
  refine ⟨call, ⟨partAnswer, sinkAnswer⟩, ?_, ?_, ?_, ?_⟩
  · unfold Together
    rwa [elim_update]
  · intro j file there
    have earlier (there : ((calls j).disk.contents file).isSome = true) :
        Made (history ++ [(i, ⟨op, reply⟩)]) j file := by
      obtain ⟨path, member⟩ := joined.made j file there
      exact ⟨path, List.mem_append_left _ member⟩
    by_cases mine : j = i
    · subst mine
      rw [Function.update_self] at there
      rcases filesReply_made own partAnswer there with before | ⟨path, event⟩
      · exact earlier before
      · exact ⟨path, List.mem_append_right _ (List.mem_singleton.mpr (event ▸ rfl))⟩
    · rw [Function.update_of_ne mine] at there
      exact earlier there
  · exact each (filesReply_complete own partAnswer (joined.complete i)) joined.complete
  · exact each (filesReply_names own partAnswer (joined.names i)) joined.names

end

end Mmxisf.Writer
