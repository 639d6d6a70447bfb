/-
# Writer.Readied -- a call up to its output

The loops over the images and the entries prepare each block into memory or a spool
file of its own, and none of the later ones touches an earlier spool.  When
everything before the output has succeeded, the unit is known: its layout agrees
with its header, and every block is held as the content that the layout has a
place for (`prepareUnit_ends`).
-/
import Mmxisf.Writer.Spools
import Mmxisf.WriterBudgets

namespace Mmxisf.Writer

set_option autoImplicit false

open Library (Routine Program)

/-- The block of an image, as it was prepared. -/
def imageBlock (item : ImageWriteView × PlannedBlock) : Payload × PreparedBlock :=
  (imagePayload item.1, item.2.prepared)

/-- The block of an entry, as it was prepared. -/
def propertyBlock (item : MetadataWriteEntry × PlannedBlock) : Payload × PreparedBlock :=
  (propertyPayload item.1, item.2.prepared)

/-- Blocks are prepared, each as its content. -/
def AllReady (platform : Platform) (codecs : Codecs) (options : WriterOptions)
    (blocks : List (Payload × PreparedBlock)) (contents : List Bytes) (t : CallState) : Prop :=
  List.Forall₂ (fun block content => Ready platform codecs options block.1 block.2 content t)
    blocks contents

/-- The contents of blocks are where they were prepared. -/
def AllHeld (t : CallState) (blocks : List (Payload × PreparedBlock)) (contents : List Bytes) :
    Prop :=
  List.Forall₂ (fun block content => Held t.disk block.1 block.2 content) blocks contents

section

variable {platform : Platform} {codecs : Codecs} {mayFail : AllocationSite → Prop} {goal : Goal}
  {call : WriteCall}
  {options : WriterOptions} {blocks : List (Payload × PreparedBlock)} {contents : List Bytes}
  {l : OwnedFiles} {s t : CallState}

theorem AllReady.grows (ready : AllReady platform codecs options blocks contents s)
    (grows : Grows s t) : AllReady platform codecs options blocks contents t :=
  List.Forall₂.imp (fun _ _ one => one.grows grows) ready

theorem AllReady.held (ready : AllReady platform codecs options blocks contents s) :
    AllHeld s blocks contents :=
  List.Forall₂.imp (fun _ _ one => one.held) ready

theorem AllHeld.grows (held : AllHeld s blocks contents) (grows : Grows s t) :
    AllHeld t blocks contents :=
  List.Forall₂.imp (fun _ _ one => one.grows grows) held

theorem Keeps.refl (tracks : Tracks mayFail goal l s) : Keeps mayFail goal s l s :=
    ⟨.refl s, tracks⟩

/-! ## The loops -/

theorem prepareNext_ends {cumulative limit : Nat} {message : String}
    {request : Nat → Result BlockPrepareRequest} {payload : Payload} (fits : limit ≤ u64Max)
    (made : ∀ remaining wanted, remaining ≤ u64Max → request remaining = .ok wanted →
      wanted.payload = payload ∧ wanted.Typed ∧ ∃ rest, wanted.spoolSuffix = lit ".mmxisf-" ++ rest)
    (here : goal.destination = call.destinationOrScratch) (tracks : Tracks mayFail goal l s) :
    Routine.Ends (ofCall codecs mayFail goal)
      (prepareNext platform call cumulative limit message request)
      (fun prepared m t => Keeps mayFail goal s m t ∧
        ∃ content, Ready platform codecs call.options payload prepared.1 content t)
      (Keeps mayFail goal s) l s := by
  have kept := Keeps.refl tracks
  apply (refuse_still _ _ _).bind kept
  intro _ inside
  rw [Nat.not_lt] at inside
  rw [wrapSubtract_eq fits inside]
  apply Still.result.bind kept
  intro wanted wantedIs
  obtain ⟨rfl, typed, rest, suffix⟩ := made _ _ (by omega) wantedIs
  apply (allocate_still _).bind kept
  intro _ _
  rw [← here]
  apply Routine.Ends.bind (prepareBlock_ends typed ⟨rest, congrArg _ suffix⟩ tracks) fun _ _ => id
  rintro block m t ⟨keeps, ready⟩
  apply Still.result.bind keeps
  intro next _
  exact .pure ⟨keeps, ready⟩

theorem prepareImages_ends (typed : call.options.Typed)
    (here : goal.destination = call.destinationOrScratch) :
    ∀ (images : List ImageWriteView) (index cumulative : Nat) {l : OwnedFiles} {s : CallState},
      (∀ image ∈ images, image.pixels.length ≤ u64Max) → Tracks mayFail goal l s →
      Routine.Ends (ofCall codecs mayFail goal)
        (prepareImages platform call index cumulative images)
        (fun planned m t => Keeps mayFail goal s m t ∧ planned.map Prod.fst = images ∧
          ∃ contents, AllReady platform codecs call.options (planned.map imageBlock) contents t)
        (Keeps mayFail goal s) l s
  | [], _, _, _, _, _, tracks => .pure ⟨.refl tracks, rfl, [], .nil⟩
  | image :: rest, index, cumulative, l, s, small, tracks => by
      have first : ∀ remaining wanted, remaining ≤ u64Max →
          imageRequest call index image remaining = .ok wanted →
          wanted.payload = imagePayload image ∧ wanted.Typed ∧
            ∃ rest, wanted.spoolSuffix = lit ".mmxisf-" ++ rest := by
        rintro remaining wanted left ⟨⟩
        exact ⟨rfl, ⟨small image List.mem_cons_self, typed.maxSerializedImageBytes, left⟩,
          lit "block-" ++ decimal index ++ lit "-tmp", rfl⟩
      apply Routine.Ends.bind (prepareNext_ends typed.maxCumulativeSerializedBytes
        first here tracks)
        fun _ _ => id
      rintro ⟨block, next⟩ m t ⟨keeps, content, ready⟩
      apply Routine.Ends.bind (prepareImages_ends typed here rest (index + 1) next
        (fun other member => small other (List.mem_cons_of_mem _ member)) keeps.tracks)
      · intro n u later
        exact later.after keeps.grows
      · rintro planned n u ⟨later, items, contents, restReady⟩
        refine .pure ⟨later.after keeps.grows, congrArg (image :: ·) items, content :: contents, ?_⟩
        exact .cons (ready.grows later.grows) restReady

theorem prepareMetadata_ends (typed : call.options.Typed)
    (here : goal.destination = call.destinationOrScratch) :
    ∀ (metadata : List MetadataWriteEntry) (index cumulative : Nat) {l : OwnedFiles}
      {s : CallState},
      (∀ entry ∈ metadata, hasBlock entry = true → entry.blockBytes.length ≤ u64Max) →
      Tracks mayFail goal l s →
      Routine.Ends (ofCall codecs mayFail goal)
        (prepareMetadata platform call index cumulative metadata)
        (fun planned m t => Keeps mayFail goal s m t ∧ planned.map Prod.fst = metadata ∧
          ∃ contents, AllReady platform codecs call.options
            ((planned.filter fun entry => hasBlock entry.1).map propertyBlock) contents t)
        (Keeps mayFail goal s) l s
  | [], _, _, _, _, _, tracks => .pure ⟨.refl tracks, rfl, [], .nil⟩
  | entry :: rest, index, cumulative, l, s, small, tracks => by
      have smallRest : ∀ entry ∈ rest, hasBlock entry = true → entry.blockBytes.length ≤ u64Max :=
        fun entry member => small entry (List.mem_cons_of_mem _ member)
      unfold prepareMetadata
      apply Routine.Ends.ite
      · intro block
        have first : ∀ remaining wanted, remaining ≤ u64Max →
            propertyRequest call index entry remaining = .ok wanted →
            wanted.payload = propertyPayload entry ∧ wanted.Typed ∧
              ∃ rest, wanted.spoolSuffix = lit ".mmxisf-" ++ rest := by
          intro remaining wanted left asked
          simp only [propertyRequest, bind_eq_ok, orFail_eq_ok] at asked
          obtain ⟨layout, known, ⟨⟩⟩ := asked
          refine ⟨?_, ⟨small entry List.mem_cons_self block,
            typed.maxSerializedPropertyBytes, left⟩,
            lit "property-block-" ++ decimal index ++ lit "-tmp", rfl⟩
          rw [propertyPayload, known]
          rfl
        apply Routine.Ends.bind
          (prepareNext_ends typed.maxCumulativeSerializedPropertyBytes first here tracks) fun _ _ =>
          id
        rintro ⟨prepared, next⟩ m t ⟨keeps, content, ready⟩
        apply Routine.Ends.bind (prepareMetadata_ends typed here rest (index + 1) next smallRest
          keeps.tracks)
        · intro n u later
          exact later.after keeps.grows
        · rintro planned n u ⟨later, items, contents, restReady⟩
          refine .pure ⟨later.after keeps.grows, congrArg (entry :: ·) items,
            content :: contents, ?_⟩
          have kept : ((entry, { prepared := prepared }) :: planned).filter
              (fun entry => hasBlock entry.1) =
              (entry, { prepared := prepared }) :: planned.filter fun entry => hasBlock entry.1 :=
            List.filter_cons_of_pos block
          rw [kept]
          exact .cons (ready.grows later.grows) restReady
      · intro none
        apply Routine.Ends.bind (prepareMetadata_ends typed here rest (index + 1) cumulative
          smallRest tracks)
          fun _ _ => id
        rintro planned m t ⟨keeps, items, contents, ready⟩
        refine .pure ⟨keeps, congrArg (entry :: ·) items, contents, ?_⟩
        have left : ((entry, ({} : PlannedBlock)) :: planned).filter
            (fun entry => hasBlock entry.1) = planned.filter fun entry => hasBlock entry.1 :=
          List.filter_cons_of_neg none
        rw [left]
        exact ready

/-! ## Everything before the output -/

theorem checkUnit_alignment {images : List ImageWriteView} {metadata : List MetadataWriteEntry}
    {total : Nat} (run : checkUnit options images metadata = .ok total) :
    16 ≤ options.attachmentAlignment := by
  simp only [checkUnit, bind_eq_ok, reject_eq_ok, not_or, Nat.not_lt] at run
  obtain ⟨_, -, _, -, _, -, _, ⟨-, least, -⟩, -⟩ := run
  exact least

/-- The blocks of the unit are prepared, and the layout is that of its header. -/
theorem prepareUnit_ends (typed : call.options.Typed)
    (here : goal.destination = call.destinationOrScratch) (tracks : Tracks mayFail goal l s) :
    Routine.Ends (ofCall codecs mayFail goal) (prepareUnit platform call)
      (fun settled m t => Keeps mayFail goal s m t ∧ ∃ contents,
        IsUnitOf platform codecs call settled contents ∧ AllHeld t settled.plan.blocks contents)
      (Keeps mayFail goal s) l s := by
  have kept := Keeps.refl tracks
  apply checkStop_still.bind kept
  intro _ _
  apply (refuse_still _ _ _).bind kept
  intro _ _
  apply (allocate_still _).bind kept
  intro _ _
  apply Still.result.bind kept
  intro total checked
  obtain ⟨decoded, some, power⟩ := checkUnit_within typed checked
  have imageSmall : ∀ image ∈ call.images, image.pixels.length ≤ u64Max :=
    fun image member => Nat.le_trans (decoded.imageBytes image member) typed.maxImageBytes
  have propertySmall : ∀ entry ∈ call.metadata, hasBlock entry = true →
      entry.blockBytes.length ≤ u64Max := by
    intro entry member block
    simp only [hasBlock, Bool.and_eq_true] at block
    exact Nat.le_trans (decoded.propertyBytes entry member block.1) typed.maxPropertyBytes
  have destination : Still codecs mayFail goal (fun _ => True) (if call.writesFile = true then do
        let available : Bool ← Routine.request (WriteOp.isAvailable call.destinationOrScratch)
        refuse (available = false) .ioError
          "Writer destination already exists or cannot be checked"
        allocate .work
      else pure ()) := by
    apply Still.ite
    · intro _
      have asks : Still codecs mayFail goal (fun _ => True)
          (Routine.request (WriteOp.isAvailable call.destinationOrScratch) : WriteRoutine Bool) :=
        .request (fun _ => trivial) fun s reply t answer =>
          ⟨trivial, CallState.ext_of answer.1 answer.2⟩
      apply asks.seq
      intro (available : Bool) _
      apply (refuse_still _ _ _).seq
      intro _ _
      exact allocate_still _
    · intro _
      exact Still.ok trivial
  apply destination.bind kept
  intro _ _
  apply Routine.Ends.bind (prepareImages_ends typed here call.images 0 0 imageSmall tracks)
    fun _ _ => id
  rintro images m t ⟨keeps, imageItems, imageContents, imagesReady⟩
  apply Routine.Ends.bind (prepareMetadata_ends typed here call.metadata 0 0 propertySmall
    keeps.tracks)
  · intro n u later
    exact later.after keeps.grows
  rintro metadata n u ⟨later, metadataItems, metadataContents, metadataReady⟩
  apply (allocate_still _).bind (later.after keeps.grows)
  intro _ _
  apply Routine.Ends.ofExcept _ (later.after keeps.grows)
  intro settled laidOut
  have nonempty : images ≠ [] := by
    rintro rfl
    exact some imageItems.symm
  obtain ⟨same, agrees, -, length⟩ :=
    layoutUnit_agrees power typed.attachmentAlignment nonempty laidOut
  have ready : AllReady platform codecs call.options settled.plan.blocks
      (imageContents ++ metadataContents) u := by
    rw [same.blocks]
    exact List.rel_append (imagesReady.grows later.grows) metadataReady
  refine ⟨later.after keeps.grows, imageContents ++ metadataContents, ?_, ready.held⟩
  constructor
  · exact ⟨total, checked⟩
  · exact some
  · exact checkUnit_alignment checked
  · exact same.imageItems.trans imageItems
  · exact same.metadataItems.trans metadataItems
  · exact agrees
  · exact List.Forall₂.imp (fun _ _ one => one.stored) ready
  · exact length

end

end Mmxisf.Writer
