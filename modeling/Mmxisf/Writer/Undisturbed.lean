/-
# Writer.Undisturbed -- what a writer does when nothing fails

A call can always be cancelled, and whatever it asks for can fail, so what is proved of
all its runs says nothing of success.  Some runs are not disturbed: a routine may return a
value and leave the files and the sink alone (`CanReturn`), or end well whatever the sink
has taken (`CanEnd`).  A call for a sink, all of whose blocks are stored as they are, can
deliver its unit when its checks, its budgets and its layout let it (`plain_delivered`).
-/
import Mmxisf.Writer.Published

namespace Mmxisf.Writer

set_option autoImplicit false

open Library (Program Routine slice)

section

variable (codecs : Codecs) (mayFail : AllocationSite → Prop) (goal : Goal) {α : Type}

/-- The routine may give this result, change nothing and own nothing. -/
def CanGive (x : WriteRoutine α) (given : Result α) : Prop :=
  ∀ s, Routine.may (ofCall codecs mayFail goal) x
    (fun result m t => result = given ∧ m = {} ∧ t = s) {} s

def CanReturn (x : WriteRoutine α) (value : α) : Prop := CanGive codecs mayFail goal x (.ok value)

/-- The routine may end with such a value, and own nothing. -/
def CanEnd (x : WriteRoutine α) (good : α → Prop) : Prop :=
  ∀ s, Routine.may (ofCall codecs mayFail goal) x
    (fun result m _ => ∃ value, result = .ok value ∧ good value ∧ m = {}) {} s

end

section

variable {codecs : Codecs} {mayFail : AllocationSite → Prop} {goal : Goal} {α β : Type}

theorem CanReturn.gives {x : WriteRoutine α} {f : α → WriteRoutine β} {value : α}
    {given : Result β} (first : CanReturn codecs mayFail goal x value)
    (rest : CanGive codecs mayFail goal (f value) given) :
    CanGive codecs mayFail goal (x >>= f) given := by
  intro s
  rw [Routine.may_bind]
  apply Routine.may_mono _ (first s)
  rintro _ _ t ⟨rfl, rfl, rfl⟩
  exact rest t

theorem CanReturn.bind {x : WriteRoutine α} {f : α → WriteRoutine β} {value : α} {result : β}
    (first : CanReturn codecs mayFail goal x value)
    (rest : CanReturn codecs mayFail goal (f value) result) :
    CanReturn codecs mayFail goal (x >>= f) result :=
  first.gives rest

theorem canReturn_pure (value : α) : CanReturn codecs mayFail goal (pure value) value :=
  fun _ => ⟨rfl, rfl, rfl⟩

theorem canGive_ofExcept (given : Result α) :
    CanGive codecs mayFail goal (Routine.ofExcept given) given := by
  cases given with
  | ok value => exact canReturn_pure value
  | error e => exact fun _ => ⟨rfl, rfl, rfl⟩

theorem canReturn_ofExcept {result : Result α} {value : α} (same : result = .ok value) :
    CanReturn codecs mayFail goal (Routine.ofExcept result) value :=
  same ▸ canGive_ofExcept result

theorem canReturn_refuse {bad : Prop} [Decidable bad] (good : ¬ bad) (code : ErrorCode)
    (message : String) : CanReturn codecs mayFail goal (refuse bad code message) () := by
  unfold refuse
  rw [reject, if_neg good]
  exact canReturn_pure ()

theorem canReturn_request {op : WriteOp} {reply : op.Reply}
    (answers : ∀ s, (ofCall codecs mayFail goal).reply s op reply s) :
    CanReturn codecs mayFail goal (Routine.request op : WriteRoutine op.Reply) reply :=
  fun s => ⟨reply, s, answers s, rfl, rfl, rfl⟩

theorem canReturn_checkStop : CanReturn codecs mayFail goal checkStop () :=
  .bind (@canReturn_request codecs mayFail goal .stopRequested false fun _ => ⟨rfl, rfl, rfl⟩)
    (canReturn_refuse Bool.false_ne_true _ _)

theorem canReturn_allocate (site : AllocationSite) :
    CanReturn codecs mayFail goal (allocate site) () :=
  .bind (@canReturn_request codecs mayFail goal (.allocate site) true
    fun _ => ⟨⟨by rintro ⟨⟩, rfl⟩, rfl, rfl⟩) (canReturn_pure ())

theorem CanReturn.ends {x : WriteRoutine α} {value : α} {good : α → Prop} (holds : good value)
    (returns : CanReturn codecs mayFail goal x value) : CanEnd codecs mayFail goal x good := by
  intro s
  apply Routine.may_mono _ (returns s)
  rintro _ _ _ ⟨rfl, rfl, -⟩
  exact ⟨value, rfl, holds, rfl⟩

theorem CanEnd.bind {x : WriteRoutine α} {f : α → WriteRoutine β} {middle : α → Prop}
    {good : β → Prop} (first : CanEnd codecs mayFail goal x middle)
    (rest : ∀ value, middle value → CanEnd codecs mayFail goal (f value) good) :
    CanEnd codecs mayFail goal (x >>= f) good := by
  intro s
  rw [Routine.may_bind]
  apply Routine.may_mono _ (first s)
  rintro _ _ t ⟨value, rfl, holds, rfl⟩
  exact rest value holds t

/-- What changes nothing comes first. -/
theorem CanReturn.then {x : WriteRoutine α} {f : α → WriteRoutine β} {value : α}
    {good : β → Prop} (first : CanReturn codecs mayFail goal x value)
    (rest : CanEnd codecs mayFail goal (f value) good) :
    CanEnd codecs mayFail goal (x >>= f) good :=
  (first.ends rfl).bind fun _ same => same ▸ rest

/-! ## Output to a sink -/

/-- The sink may take everything. -/
theorem sinkWrite_canEnd (bytes : Bytes) :
    CanEnd codecs mayFail goal (Sink.external.write bytes) (· = bytes.length) := by
  intro s
  refine ⟨.ok bytes.length, { s with accepted := s.accepted ++ bytes }, ⟨rfl, bytes.length, ?_,
    ?_, rfl⟩, bytes.length, rfl, rfl, rfl⟩
  · rintro _ ⟨⟩
    rfl
  · rw [List.take_length]

theorem sinkFlush_canEnd : CanEnd codecs mayFail goal Sink.external.flush fun _ => True :=
  fun s => ⟨.ok (), { s with flushed := s.flushed ++ [s.accepted.length] }, ⟨rfl, rfl, rfl⟩,
    (), rfl, trivial, rfl⟩

theorem writeFrom_canEnd (bytes : Bytes) : ∀ fuel written,
    CanEnd codecs mayFail goal (writeFrom .external bytes fuel written) fun _ => True
  | 0, _ => (canReturn_pure _).ends trivial
  | fuel + 1, written => by
      rw [writeFrom]
      split
      next more =>
        refine canReturn_checkStop.then ((sinkWrite_canEnd _).bind ?_)
        rintro _ rfl
        have inside : written + min kWriteChunk (bytes.length - written) ≤ bytes.length := by omega
        rw [Library.length_slice inside]
        refine (canReturn_refuse ?_ _ _).then (writeFrom_canEnd bytes fuel _)
        simp only [kWriteChunk]
        omega
      next => exact (canReturn_pure _).ends trivial

theorem writeAll_canEnd (bytes : Bytes) :
    CanEnd codecs mayFail goal (writeAll .external bytes) fun _ => True :=
  writeFrom_canEnd bytes _ _

theorem writePadding_canEnd : ∀ fuel padding,
    CanEnd codecs mayFail goal (writePadding .external fuel padding) fun _ => True
  | 0, _ => (canReturn_pure _).ends trivial
  | fuel + 1, padding => by
      rw [writePadding]
      split
      next => exact (writeAll_canEnd _).bind fun _ _ => writePadding_canEnd fuel _
      next => exact (canReturn_pure _).ends trivial

theorem writeBlock_canEnd {position : Nat} {bytes : Bytes} {block : PlannedBlock}
    (spool : block.prepared.spoolPath = []) :
    CanEnd codecs mayFail goal (writeBlock .external position bytes block) fun _ => True := by
  unfold writeBlock
  refine (writePadding_canEnd _ _).bind fun _ _ => ?_
  rw [if_pos spool]
  exact (writeAll_canEnd _).bind fun _ _ => (canReturn_pure _).ends trivial

theorem writeBlocks_canEnd {γ : Type} {attached : γ → Bool} {bytes : γ → Bytes} :
    ∀ {position : Nat} {blocks : List (γ × PlannedBlock)},
      (∀ item ∈ blocks, item.2.prepared.spoolPath = []) →
      CanEnd codecs mayFail goal (writeBlocks .external attached bytes position blocks)
        fun _ => True
  | position, [], _ => (canReturn_pure position).ends trivial
  | position, (item, block) :: rest, spools => by
      obtain ⟨spool, spools⟩ := List.forall_mem_cons.mp spools
      rw [writeBlocks]
      split
      next => exact (writeBlock_canEnd spool).bind fun _ _ => writeBlocks_canEnd spools
      next => exact writeBlocks_canEnd spools

variable {call : WriteCall} {settled : SettledUnit}

theorem emitUnit_canEnd (external : ¬ call.writesFile = true)
    (images : ∀ item ∈ settled.plan.images, item.2.prepared.spoolPath = [])
    (metadata : ∀ item ∈ settled.plan.metadata, item.2.prepared.spoolPath = []) :
    CanEnd codecs mayFail goal (emitUnit call .external settled) fun _ => True := by
  unfold emitUnit
  rw [if_neg external]
  refine (writeAll_canEnd _).bind fun _ _ => (writeAll_canEnd _).bind fun _ _ => ?_
  refine (writeBlocks_canEnd images).bind fun _ _ => (writeBlocks_canEnd metadata).bind
    fun _ _ => ?_
  exact sinkFlush_canEnd.bind fun _ _ => (canReturn_pure ()).ends trivial

/-- A unit without spools may be put out. -/
theorem publish_canEnd (external : ¬ call.writesFile = true)
    (images : ∀ item ∈ settled.plan.images, item.2.prepared.spoolPath = [])
    (metadata : ∀ item ∈ settled.plan.metadata, item.2.prepared.spoolPath = []) :
    CanEnd codecs mayFail goal (publish call settled) (· = summarize settled) := by
  have commits : CanReturn codecs mayFail goal (commit call) () := by
    unfold commit
    rw [if_neg external]
    exact canReturn_checkStop.bind (canReturn_pure ())
  unfold publish openOutput
  rw [if_neg external]
  refine (canReturn_pure Sink.external).then ((emitUnit_canEnd external images metadata).bind
    fun _ _ => ?_)
  exact commits.then ((canReturn_allocate _).then ((canReturn_pure _).ends rfl))

/-! ## Preparation -/

/-- The plan for blocks that are stored as they are. -/
def plainPlan (call : WriteCall) : UnitPlan where
  images := call.images.map fun image =>
    (image, { prepared := { serializedSize := image.pixels.length } })
  metadata := call.metadata.map fun entry =>
    (entry, if hasBlock entry then { prepared := { serializedSize := entry.blockBytes.length } }
      else {})

/-- A call for a sink that stores what it is given, and has room for it. -/
structure PlainCall (call : WriteCall) : Prop where
  external : ¬ call.writesFile = true
  checked : ∃ total, checkUnit call.options call.images call.metadata = .ok total
  images : ∀ image ∈ call.images, image.compression = .none ∧ image.checksum = .none ∧
    image.pixels.length ≤ call.options.maxSerializedImageBytes
  entries : ∀ entry ∈ call.metadata, hasBlock entry = true →
    (∃ layout, propertyElementLayout entry.type = some layout) ∧
      entry.compression = .none ∧ entry.checksum = .none ∧
        entry.blockBytes.length ≤ call.options.maxSerializedPropertyBytes
  imageTotal : (call.images.map fun image => image.pixels.length).sum ≤
    call.options.maxCumulativeSerializedBytes
  entryTotal : ((call.metadata.filter hasBlock).map fun entry => entry.blockBytes.length).sum ≤
    call.options.maxCumulativeSerializedPropertyBytes

variable {platform : Platform}

/-- A block that is stored as it is. -/
theorem prepareBlock_plain {path : Path} {request : BlockPrepareRequest} {options : WriterOptions}
    (plain : request.compression = .none) (unchecked : request.checksum = .none)
    (fits : request.bytes.length ≤ request.maxSerializedBytes)
    (remains : request.bytes.length ≤ request.maxCumulativeRemaining) :
    CanReturn codecs mayFail goal (prepareBlock platform path request options)
      { serializedSize := request.bytes.length } := by
  have within : ¬ (request.bytes.length > request.maxSerializedBytes ∨
      request.bytes.length > request.maxCumulativeRemaining) := by omega
  let block : PreparedBlock := { serializedSize := request.bytes.length }
  have digest : CanReturn codecs mayFail goal (do
      let checksum ← blockChecksum platform request block
      pure { block with checksum }) block := by
    unfold blockChecksum
    rw [if_neg (not_not.mpr unchecked)]
    exact (canReturn_pure []).bind (canReturn_pure _)
  intro s
  unfold prepareBlock
  rw [if_neg (not_not.mpr plain), Routine.may_ensuring]
  apply Routine.may_mono _ ((canReturn_pure _).bind ((canReturn_refuse within _ _).bind digest) s)
  rintro _ _ _ ⟨rfl, rfl, rfl⟩
  exact ⟨rfl, rfl, rfl⟩

/-- One more block, within what is left of its budget. -/
theorem prepareNext_plain {cumulative limit : Nat} {message : String}
    {request : Nat → Result BlockPrepareRequest} {made : BlockPrepareRequest}
    (isMade : request (wrapSubtract limit cumulative) = .ok made)
    (remaining : made.maxCumulativeRemaining = wrapSubtract limit cumulative)
    (plain : made.compression = .none) (unchecked : made.checksum = .none)
    (fits : made.bytes.length ≤ made.maxSerializedBytes)
    (room : cumulative + made.bytes.length ≤ limit) (small : limit ≤ u64Max) :
    CanReturn codecs mayFail goal (prepareNext platform call cumulative limit message request)
      ({ serializedSize := made.bytes.length }, cumulative + made.bytes.length) := by
  have left : wrapSubtract limit cumulative = limit - cumulative :=
    wrapSubtract_eq small (by omega)
  have sum : orFail ((checkedAdd cumulative made.bytes.length).filter (· ≤ limit)) .resourceLimit
      message = .ok (cumulative + made.bytes.length) := by
    rw [(checkedAdd_eq_some (by omega)).mpr ⟨rfl, by omega⟩, Option.filter_some,
      if_pos (decide_eq_true (by omega))]
    rfl
  unfold prepareNext
  exact (canReturn_refuse (by omega) _ _).bind ((canReturn_ofExcept isMade).bind
    ((canReturn_allocate _).bind ((prepareBlock_plain plain unchecked fits (by omega)).bind
      ((canReturn_ofExcept sum).bind (canReturn_pure _)))))

theorem prepareImages_plain (typed : call.options.Typed) :
    ∀ {images : List ImageWriteView} {index cumulative : Nat},
      (∀ image ∈ images, image.compression = .none ∧ image.checksum = .none ∧
        image.pixels.length ≤ call.options.maxSerializedImageBytes) →
      cumulative + (images.map fun image => image.pixels.length).sum ≤
        call.options.maxCumulativeSerializedBytes →
      CanReturn codecs mayFail goal (prepareImages platform call index cumulative images)
        (images.map fun image => (image, { prepared := { serializedSize := image.pixels.length } }))
  | [], _, _, _, _ => canReturn_pure []
  | image :: rest, index, cumulative, plain, total => by
      obtain ⟨⟨uncompressed, unchecked, fits⟩, plain⟩ := List.forall_mem_cons.mp plain
      rw [List.map_cons, List.sum_cons] at total
      rw [← Nat.add_assoc] at total
      have room : cumulative + image.pixels.length ≤ call.options.maxCumulativeSerializedBytes :=
        (Nat.le_add_right ..).trans total
      have made : imageRequest call index image
          (wrapSubtract call.options.maxCumulativeSerializedBytes cumulative) = .ok {
            bytes := image.pixels
            itemSize := (sampleFormatDescription image.sampleFormat).2
            compression := image.compression
            byteShuffle := image.byteShuffle
            checksum := image.checksum
            maxSerializedBytes := call.options.maxSerializedImageBytes
            maxCumulativeRemaining :=
              wrapSubtract call.options.maxCumulativeSerializedBytes cumulative
            spoolSuffix := lit ".mmxisf-block-" ++ Writer.decimal index ++ lit "-tmp" } := rfl
      rw [prepareImages]
      exact (prepareNext_plain made rfl uncompressed unchecked fits room
        typed.maxCumulativeSerializedBytes).bind
          ((prepareImages_plain typed plain total).bind (canReturn_pure _))

theorem prepareMetadata_plain (typed : call.options.Typed) :
    ∀ {metadata : List MetadataWriteEntry} {index cumulative : Nat},
      (∀ entry ∈ metadata, hasBlock entry = true →
        (∃ layout, propertyElementLayout entry.type = some layout) ∧
          entry.compression = .none ∧ entry.checksum = .none ∧
            entry.blockBytes.length ≤ call.options.maxSerializedPropertyBytes) →
      cumulative + ((metadata.filter hasBlock).map fun entry => entry.blockBytes.length).sum ≤
        call.options.maxCumulativeSerializedPropertyBytes →
      CanReturn codecs mayFail goal (prepareMetadata platform call index cumulative metadata)
        (metadata.map fun entry => (entry, if hasBlock entry then
          { prepared := { serializedSize := entry.blockBytes.length } } else {}))
  | [], _, _, _, _ => canReturn_pure []
  | entry :: rest, index, cumulative, plain, total => by
      obtain ⟨own, plain⟩ := List.forall_mem_cons.mp plain
      rw [prepareMetadata, List.map_cons]
      by_cases block : hasBlock entry = true
      · obtain ⟨⟨layout, known⟩, uncompressed, unchecked, fits⟩ := own block
        rw [List.filter_cons_of_pos block, List.map_cons, List.sum_cons, ← Nat.add_assoc] at total
        have made : propertyRequest call index entry
            (wrapSubtract call.options.maxCumulativeSerializedPropertyBytes cumulative) = .ok {
              bytes := entry.blockBytes
              itemSize := layout.elementSize
              compression := entry.compression
              byteShuffle := entry.byteShuffle
              checksum := entry.checksum
              maxSerializedBytes := call.options.maxSerializedPropertyBytes
              maxCumulativeRemaining :=
                wrapSubtract call.options.maxCumulativeSerializedPropertyBytes cumulative
              spoolSuffix := lit ".mmxisf-property-block-" ++ Writer.decimal index ++
                lit "-tmp" } := by
          unfold propertyRequest
          rw [known]
          rfl
        have room : cumulative + entry.blockBytes.length ≤
            call.options.maxCumulativeSerializedPropertyBytes :=
          (Nat.le_add_right ..).trans total
        rw [if_pos block, if_pos block]
        exact (prepareNext_plain made rfl uncompressed unchecked fits room
          typed.maxCumulativeSerializedPropertyBytes).bind
            ((prepareMetadata_plain typed plain total).bind (canReturn_pure _))
      · rw [List.filter_cons_of_neg block] at total
        rw [if_neg block, if_neg block]
        exact (prepareMetadata_plain typed plain total).bind (canReturn_pure _)

/-- Its preparation may end as its layout does. -/
theorem prepareUnit_plain (typed : call.options.Typed) (plain : PlainCall call) :
    CanGive codecs mayFail goal (prepareUnit platform call)
      (layoutUnit platform call.options (plainPlan call)) := by
  obtain ⟨total, checked⟩ := plain.checked
  unfold prepareUnit
  rw [if_neg plain.external]
  refine canReturn_checkStop.gives ((canReturn_refuse (fun file => plain.external file.1) _ _).gives
    ((canReturn_allocate _).gives ((canReturn_ofExcept checked).gives
      ((canReturn_pure ()).gives ?_))))
  have images := @prepareImages_plain codecs mayFail goal call platform typed call.images 0 0
    plain.images (by rw [Nat.zero_add]; exact plain.imageTotal)
  have metadata := @prepareMetadata_plain codecs mayFail goal call platform typed call.metadata 0 0
    plain.entries (by rw [Nat.zero_add]; exact plain.entryTotal)
  exact images.gives (metadata.gives ((canReturn_allocate _).gives (canGive_ofExcept _)))

/-- The blocks of a plain unit have no spools. -/
theorem plain_spoolless (typed : call.options.Typed) (plain : PlainCall call)
    (laidOut : layoutUnit platform call.options (plainPlan call) = .ok settled) :
    (∀ item ∈ settled.plan.images, item.2.prepared.spoolPath = []) ∧
      ∀ item ∈ settled.plan.metadata, item.2.prepared.spoolPath = [] := by
  obtain ⟨total, checked⟩ := plain.checked
  obtain ⟨-, some, power⟩ := checkUnit_within typed checked
  have nonempty : (plainPlan call).images ≠ [] := fun none => some (List.map_eq_nil_iff.mp none)
  obtain ⟨same, -⟩ := layoutUnit_agrees power typed.attachmentAlignment nonempty laidOut
  constructor
  · intro item member
    have own := List.mem_map_of_mem (f := preparedItem) member
    rw [same.images, plainPlan, List.map_map, List.mem_map] at own
    obtain ⟨image, -, prepared⟩ := own
    rw [← show _ = item.2.prepared from congrArg Prod.snd prepared]
    rfl
  · intro item member
    have own := List.mem_map_of_mem (f := preparedItem) member
    rw [same.metadata, plainPlan, List.map_map, List.mem_map] at own
    obtain ⟨entry, -, prepared⟩ := own
    rw [← show _ = item.2.prepared from congrArg Prod.snd prepared]
    dsimp only [Function.comp_apply, preparedItem]
    split <;> rfl

/-- What `write` does is what `write_impl` does, when nothing is left to clean up. -/
theorem write_may {good : Result WriteSummary → CallState → Prop}
    (writes : Routine.may (ofCall codecs mayFail goal) (writeImpl platform call)
      (fun result m t => good result t ∧ m = {}) {} {}) :
    Program.may (ofCall codecs mayFail goal) (write platform call) good {} := by
  unfold write
  rw [Program.may_bind]
  show Routine.may (ofCall codecs mayFail goal)
    (Routine.ensuring (Routine.ensuring (writeImpl platform call) destroySinks) destroyCleanup)
    (fun result _ t => good result t) {} {}
  rw [Routine.may_ensuring, Routine.may_ensuring]
  apply Routine.may_mono _ writes
  rintro result _ t ⟨delivered, rfl⟩
  exact delivered

/-- Such a call may deliver its unit. -/
theorem plain_delivered (careful : Careful mayFail) (typed : call.options.Typed)
    (plain : PlainCall call)
    (laidOut : layoutUnit platform call.options (plainPlan call) = .ok settled) :
    Program.may (ofCall codecs mayFail (call.goal platform codecs)) (write platform call)
      (fun result t => result = .ok (summarize settled) ∧ ∃ contents,
        IsUnitOf platform codecs call settled contents ∧
        t.accepted = unitBytes call.options settled contents) {} := by
  have start : Tracks mayFail (call.goal platform codecs) {} {} :=
    ⟨List.forall_mem_nil _, List.nodup_nil, fun _ _ => by rintro ⟨⟩, rfl⟩
  have fresh : Fresh {} := ⟨rfl, rfl⟩
  obtain ⟨images, metadata⟩ := plain_spoolless typed plain laidOut
  have external : call.writesFile = false := Bool.not_eq_true _ ▸ plain.external
  have prepares : CanGive codecs mayFail (call.goal platform codecs) (prepareUnit platform call)
      (.ok settled) := laidOut ▸ prepareUnit_plain typed plain
  apply write_may
  unfold writeImpl
  rw [Routine.may_bind]
  apply Routine.may_mono _ (Routine.may_and (prepares {}) (prepareUnit_ends typed rfl start))
  rintro _ _ _ ⟨⟨rfl, rfl, rfl⟩, ended⟩
  obtain ⟨keeps, contents, isUnit, held⟩ | keeps := ended
  unfold Routine.mayContinue
  apply Routine.may_mono _ (Routine.may_and (publish_canEnd plain.external images metadata {})
    (publishTo_takes careful external isUnit held keeps.tracks (fresh.grows keeps.grows)))
  rintro _ _ t ⟨⟨_, rfl, rfl, rfl⟩, delivered⟩
  obtain ⟨-, -, accepted, -⟩ | stopped := delivered
  exact ⟨⟨rfl, contents, isUnit, accepted⟩, rfl⟩
end

end Mmxisf.Writer
