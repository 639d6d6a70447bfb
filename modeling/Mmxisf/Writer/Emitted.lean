/-
# Writer.Emitted -- the bytes that a call puts out

Zeros, blocks from memory and blocks from their spools are written one after
another; where the output is afterwards is where the next padding is counted from.
What was written when `emitUnit` has succeeded is the unit, byte for byte, and the
first bytes of it when it has failed (`emitUnit_ends`).
-/
import Mmxisf.Writer.Readied

namespace Mmxisf.Writer

set_option autoImplicit false

open Library (Routine Disk slice stacked spread spreadEnd placed Ascends)
open CallState (Wrote Alike)

theorem CallState.Alike.wrote_since {s t u : CallState} {output : Sink} {bytes : Bytes}
    (alike : s.Alike t) (wrote : Wrote output bytes t u) : Wrote output bytes s u :=
  (alike.wrote output bytes).trans wrote

section

variable {platform : Platform} {codecs : Codecs} {mayFail : AllocationSite → Prop} {goal : Goal}
  {call : WriteCall} {output : Sink} {l : OwnedFiles} {s t : CallState}

/-! ## Zeros and spools -/

theorem writePadding_writes : ∀ (fuel padding : Nat) {l : OwnedFiles} {s : CallState},
    s.Has goal output → padding ≤ fuel →
    Writes codecs mayFail goal output (List.replicate padding 0) (fun _ => True)
      (writePadding output fuel padding) l s
  | 0, padding, l, s, has, enough => by
      obtain rfl := Nat.le_zero.mp enough
      exact Writes.none has trivial
  | fuel + 1, padding, l, s, has, enough => by
      apply Routine.Ends.ite
      · intro more
        have chunk : 0 < kZeroBytes := by decide
        have parts : List.replicate padding (0 : Byte) =
            List.replicate (min padding kZeroBytes) 0 ++
              List.replicate (padding - min padding kZeroBytes) 0 := by
          rw [List.replicate_append_replicate, Nat.add_sub_cancel' (Nat.min_le_left _ _)]
        rw [parts]
        apply Writes.bind (writeAll_writes has)
        intro _ t _ wrote
        exact writePadding_writes fuel _ (wrote.has has) (by omega)
      · intro none
        rw [not_not] at none
        subst none
        exact Writes.none has trivial

/-- The rest of a spool is copied; the output is no spool. -/
theorem copySpoolFrom_writes {reader file : Nat} {held : Bytes} :
    ∀ (fuel written : Nat) {l : OwnedFiles} {s : CallState}, s.Has goal output →
      held.length - written ≤ fuel → s.disk.readers reader = some (file, written) →
      (∀ bytes t, Wrote output bytes s t → t.disk.contents file = some held) →
      Writes codecs mayFail goal output (held.drop written) (fun _ => True)
        (copySpoolFrom output reader held.length fuel written) l s
  | 0, written, l, s, has, enough, _, _ => by
      rw [List.drop_of_length_le (by omega)]
      exact Writes.none has trivial
  | fuel + 1, written, l, s, has, enough, opened, stays => by
      have stops : l = l ∧ ∃ some, some <+: held.drop written ∧ Wrote output some s s :=
        ⟨rfl, [], List.nil_prefix, .nothing has⟩
      apply Routine.Ends.ite
      · intro more
        apply checkStop_still.bind stops
        intro _ _
        apply (readSpoolChunk_ends opened (stays [] s (.nothing has))).bind
        · rintro m t ⟨rfl, alike⟩
          exact ⟨rfl, [], List.nil_prefix, Wrote.alike (.nothing has) alike⟩
        rintro chunk m t ⟨rfl, alike, chunkIs, count, placed⟩
        have positive : 0 < kSpoolChunk := by decide
        have parts : chunk ++ held.drop (written + min (held.length - written)
            (min held.length kSpoolChunk)) = held.drop written := by
          rw [chunkIs, slice, ← List.drop_drop, List.take_append_drop]
        apply (writeAll_ends (alike.has has)).bind
        · rintro n u ⟨rfl, some, early, wrote⟩
          refine ⟨rfl, some, early.trans ?_, alike.wrote_since wrote⟩
          rw [← parts]
          exact List.prefix_append _ _
        rintro _ n u ⟨rfl, wrote, readers⟩
        have since := alike.wrote_since wrote
        apply Routine.Ends.mono (copySpoolFrom_writes fuel _ (since.has has) (by omega)
          (readers ▸ placed) fun bytes v later => stays _ v (since.trans later))
        · rintro _ o v ⟨-, rfl, later⟩
          exact ⟨trivial, rfl, parts ▸ since.trans later⟩
        · rintro o v ⟨rfl, some, early, later⟩
          have both := (List.prefix_append_right_inj chunk).mpr early
          rw [parts] at both
          exact ⟨rfl, _, both, since.trans later⟩
      · intro done
        rw [List.drop_of_length_le (by omega)]
        exact Writes.none has trivial

theorem writeFileContents_writes {path : Path} {file : Nat} {held : Bytes} (has : s.Has goal output)
    (there : s.disk.names path = some file)
    (stays : ∀ bytes t, Wrote output bytes s t → t.disk.contents file = some held) :
    Writes codecs mayFail goal output held (fun _ => True)
      (writeFileContents output path held.length) l s := by
  apply Writes.after has (allocate_still _)
  intro _ _
  apply (openSpool_ends there).bind
  · rintro m t ⟨rfl, alike⟩
    exact ⟨rfl, [], List.nil_prefix, Wrote.alike (.nothing has) alike⟩
  rintro reader m t ⟨rfl, alike, placed⟩
  have copies : Writes codecs mayFail goal output held (fun _ => True)
      (copySpoolFrom output reader held.length held.length 0) m t :=
    copySpoolFrom_writes held.length 0 (alike.has has) (Nat.sub_le _ _) placed
      fun bytes u wrote => stays bytes u (alike.wrote_since wrote)
  apply Routine.Ends.bind copies
  · rintro n u ⟨rfl, some, early, wrote⟩
    exact ⟨rfl, some, early, alike.wrote_since wrote⟩
  rintro _ n u ⟨-, rfl, wrote⟩
  have since : Wrote output held s u := alike.wrote_since wrote
  apply checkSpoolEnd_still.bind ⟨rfl, held, List.prefix_rfl, since⟩
  intro _ _
  exact .pure ⟨trivial, rfl, since⟩

/-! ## Blocks -/

/-- A block is to be written at its place, and the output is no spool of it. -/
structure Placed (output : Sink) (payload : Payload) (block : PlannedBlock) (place : Nat × Bytes)
    (s : CallState) : Prop where
  location : block.location = placeOf (place.1, place.2.length)
  serialized : block.prepared.serializedSize = place.2.length
  held : ∀ bytes t, Wrote output bytes s t → Held t.disk payload block.prepared place.2

theorem Placed.wrote {payload : Payload} {block : PlannedBlock} {place : Nat × Bytes}
    {bytes : Bytes}
    (placed : Placed output payload block place s) (wrote : Wrote output bytes s t) :
    Placed output payload block place t :=
  ⟨placed.location, placed.serialized, fun _ u later => placed.held _ u (wrote.trans later)⟩

theorem writeBlock_writes {payload : Payload} {block : PlannedBlock} {place : Nat × Bytes}
    {position : Nat} (has : s.Has goal output) (placed : Placed output payload block place s)
    (after : position ≤ place.1) (inside : place.1 + place.2.length ≤ u64Max) :
    Writes codecs mayFail goal output (List.replicate (place.1 - position) 0 ++ place.2)
      (· = place.1 + place.2.length) (writeBlock output position payload.bytes block) l s := by
  have offset : block.location.offset = place.1 := congrArg BlockLocation.offset placed.location
  have size : block.location.size = place.2.length := congrArg BlockLocation.size placed.location
  unfold writeBlock
  rw [offset, size, wrapSubtract_eq (by omega) after, wrapAdd_eq inside]
  apply Writes.bind (writePadding_writes _ _ has (Nat.le_refl _))
  intro _ t _ wrote
  have has := wrote.has has
  refine Writes.before (?_ : Writes codecs mayFail goal output place.2 (fun _ => True) _ l t)
    fun _ => Still.ok rfl
  apply Routine.Ends.ite
  · intro memory
    rw [← (placed.held _ t wrote).memory memory]
    exact writeAll_writes has
  · intro spooled
    obtain ⟨file, there, -⟩ := (placed.held _ t wrote).spooled spooled
    rw [placed.serialized]
    apply writeFileContents_writes has there
    intro bytes u later
    obtain ⟨other, named, holds⟩ := (placed.held _ u (wrote.trans later)).spooled spooled
    rw [later.names, there, Option.some.injEq] at named
    exact named ▸ holds

/-- A loop over blocks writes them at their places, with zeros before each. -/
theorem writeBlocks_writes {α : Type} {attached : α → Bool} {payload : α → Payload} :
    ∀ (items : List (α × PlannedBlock)) {places : List (Nat × Bytes)} {position : Nat}
      {l : OwnedFiles} {s : CallState}, s.Has goal output →
      List.Forall₂ (fun block place => Placed output block.1 block.2 place s)
        ((items.filter fun item => attached item.1).map fun item => (payload item.1, item.2))
        places →
      Ascends u64Max position places →
      Writes codecs mayFail goal output (spread 0 position places) (· = spreadEnd position places)
        (writeBlocks output attached (fun item => (payload item).bytes) position items) l s
  | [], places, position, l, s, has, all, _ => by
      cases all
      exact Writes.none has rfl
  | (item, block) :: rest, places, position, l, s, has, all, ascends => by
      apply Routine.Ends.ite
      · intro isAttached
        have kept : ((item, block) :: rest).filter (fun item => attached item.1) =
            (item, block) :: rest.filter fun item => attached item.1 :=
          List.filter_cons_of_pos isAttached
        rw [kept, List.map_cons] at all
        cases all with
        | @cons _ place _ places first later =>
            cases ascends with
            | cons after inside later' =>
                apply Writes.bind (writeBlock_writes has first after inside)
                rintro _ t rfl wrote
                refine writeBlocks_writes rest (wrote.has has) ?_ later'
                exact List.Forall₂.imp (fun _ _ placed => placed.wrote wrote) later
      · intro notAttached
        have left : ((item, block) :: rest).filter (fun item => attached item.1) =
            rest.filter fun item => attached item.1 :=
          List.filter_cons_of_neg notAttached
        rw [left] at all
        exact writeBlocks_writes rest has all ascends

/-! ## The unit -/

/-- What is flushed when an output is. -/
def CallState.flushedBy (s : CallState) : Sink → CallState
  | .external => s.flushedNow
  | .file _ => s

/-- All of a unit was written and flushed. -/
def Emitted (output : Sink) (unit : Bytes) (s t : CallState) : Prop :=
  ((s.wrote output unit).flushedBy output).Alike t

/-- The first bytes of a unit were written, or all of it was, and flushed. -/
inductive Partly (output : Sink) (unit : Bytes) (s t : CallState) : Prop
  | first {bytes : Bytes} (early : bytes <+: unit) (wrote : Wrote output bytes s t)
  | all (emitted : Emitted output unit s t)

/-- The blocks of a plan, images first. -/
def UnitPlan.planned (plan : UnitPlan) : List (Payload × PlannedBlock) :=
  plan.images.map (fun item => (imagePayload item.1, item.2)) ++
    (plan.metadata.filter fun item => hasBlock item.1).map fun item =>
      (propertyPayload item.1, item.2)

theorem UnitPlan.blocks_eq (plan : UnitPlan) :
    plan.blocks = plan.planned.map fun block => (block.1, block.2.prepared) := by
  rw [UnitPlan.blocks, UnitPlan.planned, List.map_append, List.map_map, List.map_map]
  rfl

theorem UnitPlan.locations_eq (plan : UnitPlan) :
    plan.locations = plan.planned.map fun block => block.2.location := by
  rw [UnitPlan.locations, UnitPlan.planned, List.map_append, List.map_map, List.map_map]
  rfl

/-- Blocks in ranges one after another are at the places of their contents. -/
theorem placed_stacked {known : Payload × PlannedBlock → Bytes → Prop} {alignment : Nat}
    {blocks : List (Payload × PlannedBlock)} {contents : List Bytes}
    (all : List.Forall₂ known blocks contents) : ∀ {offset : Nat},
      blocks.map (fun block => block.2.location) =
        (stacked alignment offset (contents.map List.length)).map placeOf →
      List.Forall₂ (fun block place => known block place.2 ∧
        block.2.location = placeOf (place.1, place.2.length)) blocks
        (placed alignment offset contents) := by
  induction all with
  | nil => exact fun _ => .nil
  | cons first _ ih =>
      intro offset same
      rw [List.map_cons, List.map_cons, stacked, List.map_cons, List.cons.injEq] at same
      exact .cons ⟨first, same.1⟩ (ih same.2)

variable {settled : SettledUnit} {contents : List Bytes}

theorem IsUnitOf.places (isUnit : IsUnitOf platform codecs call settled contents)
    (held : ∀ bytes t, Wrote output bytes s t → AllHeld t settled.plan.blocks contents) :
    List.Forall₂ (fun block place => Placed output block.1 block.2 place s) settled.plan.planned
      (placed call.options.attachmentAlignment settled.attachmentOffset contents) := by
  have stored := isUnit.stored
  rw [UnitPlan.blocks_eq, List.forall₂_map_left_iff] at stored
  have known : List.Forall₂ (fun block content => block.2.prepared.serializedSize = content.length ∧
      ∀ bytes t, Wrote output bytes s t → Held t.disk block.1 block.2.prepared content)
      settled.plan.planned contents := by
    rw [List.forall₂_iff_get] at stored ⊢
    refine ⟨stored.1, fun i inPlan inContents => ⟨(stored.2 i inPlan inContents).size, ?_⟩⟩
    intro bytes t wrote
    have all := held bytes t wrote
    rw [AllHeld, UnitPlan.blocks_eq, List.forall₂_map_left_iff, List.forall₂_iff_get] at all
    exact all.2 i inPlan inContents
  have locations := isUnit.locations
  rw [UnitPlan.locations_eq] at locations
  refine List.Forall₂.imp ?_ (placed_stacked known locations)
  rintro block place ⟨⟨size, stays⟩, location⟩
  exact ⟨location, size, stays⟩

/-- The places ascend from the end of the header on. -/
theorem IsUnitOf.ascends (isUnit : IsUnitOf platform codecs call settled contents) :
    Ascends u64Max settled.front.length
      (placed call.options.attachmentAlignment settled.attachmentOffset contents) := by
  apply Library.ascends_placed isUnit.before
  rw [← isUnit.sizes, ← isUnit.agrees.stacked.fileSize]
  exact isUnit.agrees.stacked.small

/-- More of a unit is written. -/
theorem Writes.toward {α β : Type} {bytes more unit : Bytes} {known : α → Prop} {x : WriteRoutine α}
    {f : α → WriteRoutine β} {value : β → OwnedFiles → CallState → Prop} {tracked : List Path}
    (first : Writes codecs mayFail goal output more known x l t) (sofar : Wrote output bytes s t)
    (paths : l.paths = tracked) (part : bytes ++ more <+: unit)
    (rest : ∀ a u, known a → Wrote output (bytes ++ more) s u →
      Routine.Ends (ofCall codecs mayFail goal) (f a) value
        (fun m u => m.paths = tracked ∧ Partly output unit s u) l u) :
    Routine.Ends (ofCall codecs mayFail goal) (x >>= f) value
      (fun m u => m.paths = tracked ∧ Partly output unit s u) l t := by
  apply Routine.Ends.bind first
  · rintro m u ⟨rfl, some, early, wrote⟩
    have early := ((List.prefix_append_right_inj bytes).mpr early).trans part
    exact ⟨paths, .first early (sofar.trans wrote)⟩
  · rintro a m u ⟨holds, rfl, wrote⟩
    exact rest a u holds (sofar.trans wrote)

/-- Flushing and closing an output that has everything. -/
theorem finish_ends {unit : Bytes} (wrote : Wrote output unit s t) :
    Routine.Ends (ofCall codecs mayFail goal) (do
        output.flush
        if call.writesFile = true then output.close else pure ())
      (fun _ m u => m.paths = l.paths ∧ Emitted output unit s u)
      (fun m u => m.paths = l.paths ∧ Partly output unit s u) l t := by
  have flushes : Routine.Ends (ofCall codecs mayFail goal) output.flush
      (fun _ m u => m = l ∧ Emitted output unit s u)
      (fun m u => m.paths = l.paths ∧ Partly output unit s u) l t := by
    cases output with
    | external =>
        have asks : Routine.Ends (ofCall codecs mayFail goal)
            (Routine.request WriteOp.sinkFlush : WriteRoutine (Result Unit))
            (fun _ m u => m = l ∧ Emitted .external unit s u)
            (fun m u => m.paths = l.paths ∧ Partly .external unit s u) l t := by
          refine .request trivial ?_
          rintro reply u ⟨disk, accepted, flushed⟩
          have flushedBefore : t.flushed = s.flushed := (Alike.flushed wrote :)
          have acceptedBefore : t.accepted = s.accepted ++ unit := (Alike.accepted wrote :)
          refine ⟨rfl, ?_, ?_, accepted.trans acceptedBefore, ?_⟩
          · exact (congrArg Disk.names disk).trans (Alike.names wrote :)
          · exact (congrArg Disk.contents disk).trans (Alike.contents wrote :)
          · rw [flushed, flushedBefore, acceptedBefore]
            rfl
        apply asks.bind
        · exact fun _ _ => id
        · rintro reply m u ⟨rfl, emitted⟩
          exact .ofExcept (fun _ _ => ⟨rfl, emitted⟩) ⟨rfl, .all emitted⟩
    | file file =>
        have asks : Still codecs mayFail goal (fun _ => True)
            (Routine.request (WriteOp.flush file) : WriteRoutine Bool) :=
          .request (fun _ => trivial) fun s reply t answer =>
            ⟨trivial, CallState.ext_of answer.1 answer.2⟩
        apply asks.bind ⟨rfl, .first List.prefix_rfl wrote⟩
        intro (flushed : Bool) _
        apply (refuse_still _ _ _ _ _).mono
        · rintro _ m u ⟨-, rfl, rfl⟩
          exact ⟨rfl, wrote⟩
        · rintro m u ⟨rfl, rfl⟩
          exact ⟨rfl, .first List.prefix_rfl wrote⟩
  apply flushes.bind
  · exact fun _ _ => id
  rintro _ m u ⟨rfl, emitted⟩
  apply Routine.Ends.ite
  · intro _
    cases output with
    | external => exact .pure ⟨rfl, emitted⟩
    | file file =>
        apply Routine.Ends.modify
        have asks : Still codecs mayFail goal (fun _ => True)
            (Routine.request (WriteOp.close file) : WriteRoutine Bool) :=
          .request (fun _ => trivial) fun s reply t answer =>
            ⟨trivial, CallState.ext_of answer.1 answer.2⟩
        apply asks.bind ⟨rfl, .all emitted⟩
        intro (closed : Bool) _
        apply (refuse_still _ _ _ _ _).mono
        · rintro _ n v ⟨-, rfl, rfl⟩
          exact ⟨rfl, emitted⟩
        · rintro n v ⟨rfl, rfl⟩
          exact ⟨rfl, .all emitted⟩
  · intro _
    exact .pure ⟨rfl, emitted⟩

/-- A unit is written as it is laid out. -/
theorem emitUnit_ends (isUnit : IsUnitOf platform codecs call settled contents)
    (has : s.Has goal output)
    (held : ∀ bytes t, Wrote output bytes s t → AllHeld t settled.plan.blocks contents) :
    Routine.Ends (ofCall codecs mayFail goal) (emitUnit call output settled)
      (fun _ m t => m.paths = l.paths ∧
        Emitted output (unitBytes call.options settled contents) s t)
      (fun m t => m.paths = l.paths ∧
        Partly output (unitBytes call.options settled contents) s t) l s := by
  have places := isUnit.places held
  have ascends := isUnit.ascends
  rw [unitBytes, ← Library.spread_placed]
  generalize placed call.options.attachmentAlignment settled.attachmentOffset contents = all
    at places ascends
  have images := List.forall₂_take settled.plan.images.length places
  have metadata := List.forall₂_drop settled.plan.images.length places
  rw [UnitPlan.planned, List.take_left' (List.length_map _)] at images
  rw [UnitPlan.planned, List.drop_left' (List.length_map _)] at metadata
  rw [← List.take_append_drop settled.plan.images.length all] at ascends ⊢
  generalize all.take settled.plan.images.length = imagePlaces at images ascends
  generalize all.drop settled.plan.images.length = metadataPlaces at metadata ascends
  obtain ⟨imagesAscend, metadataAscend⟩ := ascends.append
  rw [Library.spread_append]
  have start : 16 + settled.header.length = settled.front.length := (length_front settled).symm
  unfold emitUnit
  rw [start]
  have none : Wrote output [] s s := .nothing has
  apply Writes.toward (writeAll_writes has) none rfl
  · rw [List.nil_append, SettledUnit.front, List.append_assoc]
    exact List.prefix_append _ _
  intro _ t _ wrote
  rw [List.nil_append] at wrote
  apply Writes.toward (writeAll_writes (wrote.has has)) wrote rfl
  · exact List.prefix_append _ _
  intro _ t _ wrote
  have imagesHere := List.Forall₂.imp (fun _ _ placed => Placed.wrote placed wrote) images
  have imagesWrite : Writes codecs mayFail goal output (spread 0 settled.front.length imagePlaces)
      (· = spreadEnd settled.front.length imagePlaces) (writeBlocks output (fun _ => true)
        ImageWriteView.pixels settled.front.length settled.plan.images) l t := by
    refine @writeBlocks_writes codecs mayFail goal output _ (fun _ => true) imagePayload
      settled.plan.images _ _ _ _ (wrote.has has) ?_ imagesAscend
    rw [List.filter_true]
    exact imagesHere
  apply Writes.toward imagesWrite wrote rfl
  · rw [← List.append_assoc]
    exact List.prefix_append _ _
  rintro _ t rfl wrote
  have metadataHere := List.Forall₂.imp (fun _ _ placed => Placed.wrote placed wrote) metadata
  apply Writes.toward (writeBlocks_writes settled.plan.metadata (wrote.has has) metadataHere
    metadataAscend) wrote rfl
  · rw [List.append_assoc]
    exact List.prefix_rfl
  rintro _ t rfl wrote
  rw [List.append_assoc] at wrote
  exact finish_ends wrote

end

end Mmxisf.Writer
