/-
# UnitDocument -- the document that a header of a unit is read to

`parse_header` checks what only the whole document can show.  For the header of a unit
that a writer accepted every one of these checks passes: an entry is bound where it
stands, no identifier occurs twice in its image or in the unit, and the attached ranges,
sorted, are the blocks in the order of the file.  So the header is read to the document
that lists the unit (`header_parses`), unless a limit stops it.
-/
import Mmxisf.Library.Grouping
import Mmxisf.UnitHeader

namespace Mmxisf

set_option autoImplicit false

open Library (stacked stackEnd grouped)
open Writer (ImageWriteView MetadataWriteEntry PlannedBlock WriterOptions UnitPlan)
open Reader (XmlBuilder ReaderOptions Suffices Splits AttachedRange MetadataBindingEvent)

/-! ## Bindings -/

/-- The binding of an event that is not a Reference. -/
def bindingOf (event : MetadataBindingEvent) : MetadataBinding :=
  ⟨event.metadataIndex.getD 0, event.scope, event.imageIndex, false⟩

section

variable {state : XmlBuilder}

/-- Each of these events is an entry where it stands. -/
def DirectEvents (state : XmlBuilder) (events : List MetadataBindingEvent) : Prop :=
  ∀ event ∈ events, event.byReference = false ∧ ∃ index entry, event.metadataIndex = some index ∧
    state.metadata[index]? = some entry ∧ (event.scope = .xisfUnit → entry.kind ≠ .fitsKeyword)

theorem metadataBindings_direct {events : List MetadataBindingEvent}
    (direct : DirectEvents state events) :
    Reader.metadataBindings state events = .ok (events.map bindingOf) := by
  induction events with
  | nil => rfl
  | cons event rest ih =>
      obtain ⟨⟨byPlace, index, entry, isIndex, there, named⟩, later⟩ :=
        List.forall_mem_cons.mp direct
      have bound : Reader.metadataBinding state event = .ok (some (bindingOf event)) := by
        unfold Reader.metadataBinding bindingOf
        rw [byPlace, isIndex]
        simp only [Bool.false_eq_true, false_and, reject, if_false, Option.some_or, there, bind,
          Except.bind]
        rw [if_neg fun both => named both.1 both.2]
        rfl
      rw [Reader.metadataBindings, bound, ih later]
      rfl

theorem referencedBindings_direct {events : List MetadataBindingEvent}
    (direct : ∀ event ∈ events, event.byReference = false) (uids : List (Text × Nat)) (limit : Nat)
    (message : String) (bindings : List ObjectBinding) :
    Reader.referencedBindings uids limit message events bindings = .ok bindings := by
  induction events with
  | nil => rfl
  | cons event rest ih =>
      obtain ⟨byPlace, later⟩ := List.forall_mem_cons.mp direct
      unfold Reader.referencedBindings
      rw [byPlace]
      exact ih later

theorem referencedTables_direct {events : List MetadataBindingEvent}
    (direct : ∀ event ∈ events, event.byReference = false) (uids : List (Text × Nat)) (limit : Nat)
    (bindings : List ObjectBinding) :
    Reader.referencedTables uids limit events bindings = .ok bindings := by
  induction events with
  | nil => rfl
  | cons event rest ih =>
      obtain ⟨byPlace, later⟩ := List.forall_mem_cons.mp direct
      unfold Reader.referencedTables
      rw [byPlace]
      exact ih later

theorem checkIdentifiers_apart {bindings : List MetadataBinding} {seen : List (Option Nat × Text)}
    (inside : ∀ binding ∈ bindings, Reader.bindsAnImage state binding = true)
    (apart : (seen ++ Reader.associatedIdentifiers state bindings).Nodup) :
    ∃ all, Reader.checkIdentifiers state bindings seen = .ok all := by
  induction bindings generalizing seen with
  | nil => exact ⟨seen, rfl⟩
  | cons binding rest ih =>
      obtain ⟨here, later⟩ := List.forall_mem_cons.mp inside
      have split : Reader.associatedIdentifiers state (binding :: rest) =
          Reader.associatedIdentifiers state [binding] ++
            Reader.associatedIdentifiers state rest := by
        rw [Reader.associatedIdentifiers, Reader.associatedIdentifiers,
          Reader.associatedIdentifiers, ← List.filterMap_append]
        rfl
      rw [split, ← List.append_assoc] at apart
      have fresh : ¬ (Reader.associatedIdentifiers state [binding]).any (· ∈ seen) = true := by
        rw [List.any_eq_true]
        rintro ⟨identifier, inserted, before⟩
        have first := (List.nodup_append.mp (List.nodup_append.mp apart).1).2.2
        exact first identifier (of_decide_eq_true before) identifier inserted rfl
      obtain ⟨all, checked⟩ := ih later apart
      refine ⟨all, ?_⟩
      rw [Reader.checkIdentifiers, here]
      simp only [Bool.true_eq_false, reject, if_false, if_neg fresh, bind, Except.bind]
      exact checked

end

/-! ## The order of the entries -/

section

variable {writer : WriterOptions} {plan : UnitPlan}

/-- The entries that were given, and the two that the writer adds. -/
def allEntries (writer : WriterOptions) (plan : UnitPlan) :
    List (MetadataWriteEntry × PlannedBlock) :=
  (creationTimeEntry writer, {}) :: (creatorEntry writer, {}) :: plan.metadata

theorem imageItems_eq (metadata : List (MetadataWriteEntry × PlannedBlock))
    (images : List (ImageWriteView × PlannedBlock)) :
    imageItems metadata images.zipIdx =
      grouped (fun item => item.1.imageIndex) images.length metadata := by
  unfold imageItems grouped
  rw [List.range_eq_range', ← List.zipIdx_map_snd 0 images, List.flatMap_map]
  rfl

/-- The header lists the entries in another order. -/
theorem unitItems_perm (accepted : AcceptedUnit writer (plan.images.map Prod.fst)
      (plan.metadata.map Prod.fst)) :
    (unitItems writer plan).Perm (allEntries writer plan) := by
  have inside : ∀ item ∈ plan.metadata, ∀ index, item.1.imageIndex = some index →
      index < plan.images.length := by
    intro item member
    have entry := accepted.entry _ (List.mem_map_of_mem member)
    rw [List.length_map] at entry
    exact entry.inRange
  have groups := Library.grouped_append_perm inside
  unfold unitItems unitEntries allEntries
  rw [imageItems_eq]
  refine List.perm_middle.trans (.cons _ (List.perm_middle.trans (.cons _ ?_)))
  exact groups

/-- No identifier occurs twice in an image or in the unit. -/
theorem unitItems_apart (ready : UnitReady writer plan) :
    ((unitItems writer plan).filterMap fun item => association item.1).Nodup := by
  rw [((unitItems_perm ready.accepted).filterMap _).nodup_iff]
  have given := ready.accepted.identifiers
  rw [List.filterMap_map] at given
  have other : ∀ name, (none, name) ∈ plan.metadata.filterMap (association ∘ Prod.fst) →
      name ≠ lit "XISF:CreationTime" ∧ name ≠ lit "XISF:CreatorApplication" := by
    intro name member
    obtain ⟨item, there, isName⟩ := List.mem_filterMap.mp member
    simp only [Function.comp_apply, association, Option.ite_none_right_eq_some, Option.some.injEq,
      Prod.mk.injEq] at isName
    obtain ⟨kind, noImage, rfl⟩ := isName
    cases (ready.entries item there).accepted.valid with
    | fitsKeyword isKeyword =>
        rw [kind] at isKeyword
        cases isKeyword
    | direct _ _ _ unit => exact (unit noImage).2
    | block _ _ _ unit => exact (unit noImage).2
  have whole : ((allEntries writer plan).filterMap fun item => association item.1) =
      (none, lit "XISF:CreationTime") :: (none, lit "XISF:CreatorApplication") ::
        plan.metadata.filterMap (association ∘ Prod.fst) := rfl
  rw [whole, List.nodup_cons, List.nodup_cons, List.mem_cons, not_or]
  refine ⟨⟨by decide, fun member => ?_⟩, fun member => ?_, given⟩
  · exact (other _ member).1 rfl
  · exact (other _ member).2 rfl

end

/-! ## What is bound -/

section

variable {writer : WriterOptions} {plan : UnitPlan} {nodes : Nat}

/-- The binding of a listed entry to its image, or to the unit. -/
def listedBinding (index : Nat) (entry : MetadataEntry) : MetadataBinding :=
  bindingOf (directEvent index entry)

/-- The entries of a unit and their bindings, in the order of the header. -/
def listedEntries (writer : WriterOptions) (plan : UnitPlan) : List MetadataEntry :=
  (unitItems writer plan).map listedEntry

def listedBindings (writer : WriterOptions) (plan : UnitPlan) : List MetadataBinding :=
  (listedEntries writer plan).mapIdx listedBinding

theorem mem_listedEntries (ready : UnitReady writer plan) {entry : MetadataEntry}
    (member : entry ∈ listedEntries writer plan) :
    (entry.scope = .xisfUnit → entry.kind ≠ .fitsKeyword) ∧
      ∀ index, entry.imageIndex = some index → index < plan.images.length := by
  obtain ⟨item, there, rfl⟩ := List.mem_map.mp member
  have own := (unitItems_perm ready.accepted).mem_iff.mp there
  unfold allEntries at own
  rw [List.mem_cons, List.mem_cons] at own
  rcases own with rfl | rfl | given
  · exact ⟨fun _ => by rintro ⟨⟩, fun _ => by rintro ⟨⟩⟩
  · exact ⟨fun _ => by rintro ⟨⟩, fun _ => by rintro ⟨⟩⟩
  · have accepted := (ready.entries item given).accepted
    refine ⟨fun ofUnit keyword => ?_, accepted.inRange⟩
    have isKeyword : item.1.kind = .fitsKeyword := keyword
    cases accepted.valid with
    | fitsKeyword _ inImage =>
        have scope : (listedEntry item).scope =
            if item.1.imageIndex.isSome then .image else .xisfUnit := rfl
        rw [scope, if_pos inImage] at ofUnit
        cases ofUnit
    | direct isProperty =>
        rw [isKeyword] at isProperty
        cases isProperty
    | block isProperty =>
        rw [isKeyword] at isProperty
        cases isProperty

theorem headerRead_direct (ready : UnitReady writer plan) :
    DirectEvents (headerRead writer plan nodes).builder
      ((listedEntries writer plan).mapIdx directEvent) := by
  intro event member
  obtain ⟨index, inside, rfl⟩ := List.mem_mapIdx.mp member
  refine ⟨rfl, index, _, rfl, List.getElem?_eq_getElem inside, fun ofUnit => ?_⟩
  refine (mem_listedEntries ready (List.getElem_mem inside)).1 ?_
  by_contra ofImage
  obtain ⟨item, -, isItem⟩ := List.mem_map.mp (List.getElem_mem inside)
  rw [← isItem] at ofUnit ofImage
  unfold directEvent listedEntry at ofUnit
  unfold listedEntry at ofImage
  cases image : item.1.imageIndex with
  | none => simp [image] at ofImage
  | some number => simp [image] at ofUnit

theorem headerRead_bindings (ready : UnitReady writer plan) :
    Reader.metadataBindings (headerRead writer plan nodes).builder
      ((listedEntries writer plan).mapIdx directEvent) = .ok (listedBindings writer plan) := by
  rw [metadataBindings_direct (headerRead_direct ready), listedBindings]
  refine congrArg Except.ok (List.ext_getElem? fun index => ?_)
  rw [List.getElem?_map, List.getElem?_mapIdx, List.getElem?_mapIdx, Option.map_map]
  rfl

theorem headerRead_identifiers (ready : UnitReady writer plan) :
    ∃ all, Reader.checkIdentifiers (headerRead writer plan nodes).builder
      (listedBindings writer plan) [] = .ok all := by
  refine checkIdentifiers_apart ?_ ?_
  · intro binding member
    obtain ⟨index, inside, rfl⟩ := List.mem_mapIdx.mp member
    have there : (headerRead writer plan nodes).builder.metadata[
        (listedBinding index ((listedEntries writer plan)[index])).metadataIndex]? =
        some ((listedEntries writer plan)[index]) := List.getElem?_eq_getElem inside
    have inRange := (mem_listedEntries ready (List.getElem_mem inside)).2
    obtain ⟨item, -, isItem⟩ := List.mem_map.mp (List.getElem_mem inside)
    unfold Reader.bindsAnImage
    rw [← isItem] at there inRange ⊢
    rw [there]
    cases image : item.1.imageIndex with
    | none =>
        have ofUnit : (listedBinding index (listedEntry item)).scope = .xisfUnit := by
          simp [listedBinding, bindingOf, directEvent, listedEntry, image]
        simp [ofUnit]
    | some number =>
        have ofImage : (listedBinding index (listedEntry item)).imageIndex = some number := image
        have few : number < (headerRead writer plan nodes).builder.images.length := by
          have count : (headerRead writer plan nodes).builder.images.length = plan.images.length :=
            List.length_map _
          rw [count]
          exact inRange number image
        simp [ofImage, few]
  · have own : Reader.associatedIdentifiers (headerRead writer plan nodes).builder
        (listedBindings writer plan) =
        (unitItems writer plan).filterMap fun item => association item.1 := by
      have items : ((unitItems writer plan).filterMap fun item => association item.1) =
          (listedEntries writer plan).filterMap fun entry =>
            if entry.kind = .property then some (entry.imageIndex, entry.name) else none := by
        unfold listedEntries
        rw [List.filterMap_map]
        rfl
      rw [items]
      refine Library.filterMap_mapIdx fun index entry there => ?_
      obtain ⟨item, -, rfl⟩ := List.mem_map.mp (List.mem_of_getElem? there)
      have same : (headerRead writer plan nodes).builder.metadata[
          (listedBinding index (listedEntry item)).metadataIndex]? = some (listedEntry item) :=
          there
      rw [same, Option.bind_some]
      by_cases property : (listedEntry item).kind = .property
      · rw [if_neg (not_not.mpr property), if_pos property]
        cases image : item.1.imageIndex with
        | none => simp [listedBinding, bindingOf, directEvent, listedEntry, image]
        | some number => simp [listedBinding, bindingOf, directEvent, listedEntry, image]
      · rw [if_pos property, if_neg property]
    rw [List.nil_append, own]
    exact unitItems_apart ready

end

/-! ## Where the blocks are -/

section

variable {writer : WriterOptions} {plan : UnitPlan}

/-- The range of a block. -/
def blockRange (block : PlannedBlock) : AttachedRange :=
  ⟨block.location.offset, block.location.size⟩

/-- The ranges of the blocks of a unit, in the order of the file. -/
def fileRanges (plan : UnitPlan) : List AttachedRange :=
  plan.locations.map fun location => ⟨location.offset, location.size⟩

theorem flatMap_entryRanges (items : List (MetadataWriteEntry × PlannedBlock)) :
    items.flatMap entryRanges =
      (items.filter fun item => Writer.hasBlock item.1).map fun item => blockRange item.2 := by
  induction items with
  | nil => rfl
  | cons item rest ih =>
      rw [List.flatMap_cons, ih, List.filter_cons]
      unfold entryRanges
      by_cases attached : Writer.hasBlock item.1 = true
      · rw [if_pos attached, if_pos attached]
        rfl
      · rw [if_neg attached, if_neg attached]
        rfl

/-- The header lists the ranges in another order. -/
theorem unitRanges_perm (accepted : AcceptedUnit writer (plan.images.map Prod.fst)
      (plan.metadata.map Prod.fst)) :
    (unitRanges writer plan).Perm (fileRanges plan) := by
  have images : (imageRanges plan.metadata plan.images.zipIdx).Perm
      ((plan.images.map fun item => blockRange item.2) ++
        (imageItems plan.metadata plan.images.zipIdx).flatMap entryRanges) := by
    have apart := List.map_append_flatMap_perm plan.images.zipIdx
      (fun image => blockRange image.1.2)
      (fun image => (entriesOf plan.metadata image.2).flatMap entryRanges)
    have first : (plan.images.map fun item => blockRange item.2) =
        plan.images.zipIdx.map fun image => blockRange image.1.2 := by
      rw [← List.zipIdx_map_fst 0 plan.images, List.map_map, List.zipIdx_map_fst]
      rfl
    unfold imageItems
    rw [first, List.flatMap_assoc]
    exact apart.symm
  have blocks : fileRanges plan = (plan.images.map fun item => blockRange item.2) ++
      (allEntries writer plan).flatMap entryRanges := by
    have none : (allEntries writer plan).flatMap entryRanges =
        plan.metadata.flatMap entryRanges := rfl
    rw [none, flatMap_entryRanges, fileRanges, Writer.UnitPlan.locations, List.map_append,
      List.map_map, List.map_map]
    rfl
  rw [blocks, unitRanges]
  refine (images.append_right _).trans ?_
  rw [List.append_assoc, ← List.flatMap_append]
  exact ((unitItems_perm accepted).flatMap_right entryRanges).append_left _

/-- Ranges in the order of their offsets are sorted. -/
theorem sortRanges_eq {listed ranges : List AttachedRange} (same : listed.Perm ranges)
    (ascending : ranges.Pairwise fun left right => left.offset < right.offset) :
    Reader.sortRanges listed = ranges := by
  have perm : (Reader.sortRanges listed).Perm ranges := (List.mergeSort_perm _ _).trans same
  have sorted : (Reader.sortRanges listed).Pairwise fun left right =>
      decide (left.offset ≤ right.offset) = true := by
    refine List.pairwise_mergeSort (fun _ _ _ first second => ?_) (fun _ _ => ?_) listed
    · rw [decide_eq_true_eq] at first second ⊢
      exact Nat.le_trans first second
    · rw [Bool.or_eq_true, decide_eq_true_eq, decide_eq_true_eq]
      exact Nat.le_total _ _
  have ordered : ranges.Pairwise fun left right => decide (left.offset ≤ right.offset) = true :=
    ascending.imp fun before => decide_eq_true (Nat.le_of_lt before)
  have offsets : (ranges.map (·.offset)).Nodup := List.pairwise_map.mpr (ascending.imp Nat.ne_of_lt)
  refine List.Perm.eq_of_pairwise (fun left right listed there before after => ?_)
    sorted ordered perm
  rw [decide_eq_true_eq] at before after
  exact List.inj_on_of_nodup_map offsets (perm.mem_iff.mp listed) there
    (Nat.le_antisymm before after)

/-- A block in the payload is passed by. -/
theorem checkRanges_cons {headerEnd fileSize previousEnd offset size : Nat}
    {rest : List AttachedRange} (filled : size ≠ 0) (after : headerEnd ≤ offset)
    (apart : previousEnd ≤ offset) (inside : offset + size ≤ fileSize) (small : fileSize ≤ u64Max) :
    Reader.checkRanges headerEnd fileSize previousEnd (⟨offset, size⟩ :: rest) =
      Reader.checkRanges headerEnd fileSize (offset + size) rest := by
  have ends : wrapAdd offset size = offset + size := Nat.mod_eq_of_lt (by omega)
  have inPayload : ¬ (size = 0 ∨ offset < headerEnd ∨ offset > fileSize ∨
      size > fileSize - offset) := by omega
  rw [Reader.checkRanges, reject, if_neg inPayload, reject, if_neg (Nat.not_lt.mpr apart), ends]
  rfl

/-- Blocks one after another lie in the payload and do not overlap. -/
theorem checkRanges_stacked {alignment headerEnd fileSize : Nat} (small : fileSize ≤ u64Max) :
    ∀ {sizes : List Nat} {offset previousEnd : Nat}, (∀ size ∈ sizes, size ≠ 0) →
      headerEnd ≤ offset → previousEnd ≤ offset → stackEnd alignment offset sizes ≤ fileSize →
      Reader.checkRanges headerEnd fileSize previousEnd
        ((stacked alignment offset sizes).map fun range => ⟨range.1, range.2⟩) = .ok ()
  | [], _, _, _, _, _, _ => rfl
  | [_], _, _, filled, after, apart, inside =>
      checkRanges_cons (filled _ List.mem_cons_self) after apart inside small
  | size :: next :: rest, offset, previousEnd, filled, after, apart, inside => by
      have within := @Library.stacked_within alignment offset (size :: next :: rest) (offset, size)
        List.mem_cons_self
      have before := @Library.le_roundUp alignment (offset + size)
      rw [List.forall_mem_cons] at filled
      rw [stacked, List.map_cons,
        checkRanges_cons filled.1 after apart (Nat.le_trans within.2 inside) small]
      exact checkRanges_stacked small filled.2 (by omega) before inside


end

/-! ## The document -/

/-- A parser reports the events of a text, with texts in pieces. -/
structure Reported (platform : Platform) (text : Text) (events : List XmlEvent) : Prop where
  wellFormed : (platform.parseXml (Reader.xmlChunks text.length text)).malformed = none
  events : Splits events (platform.parseXml (Reader.xmlChunks text.length text)).events

/-- What a reader lists for a unit. -/
def listedDocument (writer : WriterOptions) (plan : UnitPlan) (headerLength : Nat) : Document where
  version := lit "1.0"
  images := plan.images.map listedImage
  metadata := listedEntries writer plan
  fileSize := plan.fileSize
  headerLength := headerLength
  metadataBindings := listedBindings writer plan
  extensionElements := []
  ancillaryObjects := []
  ancillaryBindings := []
  iccProfiles := []
  iccProfileBindings := []
  thumbnails := []
  thumbnailBindings := []
  tableStructures := []
  tables := []
  tableBindings := []

/-- And keeps of it; no block is in the header. -/
def listedHeader (writer : WriterOptions) (plan : UnitPlan) (headerLength : Nat) :
    Reader.ParsedHeader where
  document := listedDocument writer plan headerLength
  embeddedBlocks := (plan.images.map listedImage).map fun _ => []
  inlineMetadataBlocks := (listedEntries writer plan).map fun _ => []
  inlineIccProfileBlocks := []
  embeddedThumbnailBlocks := []
  attachedRanges := fileRanges plan

section

variable {ω : Type} {need : ReaderOptions} {settings : ω → ReaderOptions} {platform : Platform}
  {writer : WriterOptions} {plan : UnitPlan} {header : Text}

theorem header_starts (made : Writer.makeHeader platform writer plan = .ok header) :
    (lit "<?xml").isPrefixOf header = true := by
  simp only [Writer.makeHeader, bind_eq_ok] at made
  obtain ⟨_, _, _, _, _, _, same⟩ := made
  cases same
  rfl

theorem parseXmlHeader_reads (numbers : NumberLaws platform) (ready : UnitReady writer plan)
    (made : Writer.makeHeader platform writer plan = .ok header)
    (reported : Reported platform header (unitEvents platform writer plan))
    (enough : UnitFits need platform writer plan) : ∃ nodes,
    Suffices need settings (fun o => Reader.parseXmlHeader (settings o) platform header)
      fun _ => (headerRead writer plan nodes).builder := by
  obtain ⟨nodes, takes⟩ := @header_takes _ need settings platform writer plan numbers ready enough
  refine ⟨nodes, .andThen (suffices_check ?_) (.andThen (fun o => takes o _ reported.events)
    (.of_eq fun _ => ?_))⟩
  · rw [header_starts made]
    exact Bool.noConfusion
  · rw [reported.wellFormed]
    rfl

/-- The ranges of a unit are placed one after another in its payload. -/
structure PayloadFits (plan : UnitPlan) (headerLength : Nat) : Prop where
  small : plan.fileSize ≤ u64Max
  stacked : ∃ alignment offset sizes, fileRanges plan =
      (stacked alignment offset sizes).map (fun range => ⟨range.1, range.2⟩) ∧
    (∀ size ∈ sizes, size ≠ 0) ∧ 16 + headerLength ≤ offset ∧
    stackEnd alignment offset sizes ≤ plan.fileSize

theorem PayloadFits.sorted {headerLength : Nat} (fits : PayloadFits plan headerLength)
    (ready : UnitReady writer plan) :
    Reader.sortRanges (unitRanges writer plan) = fileRanges plan := by
  obtain ⟨alignment, offset, sizes, places, filled, -, -⟩ := fits.stacked
  refine sortRanges_eq (unitRanges_perm ready.accepted) ?_
  rw [places, List.pairwise_map]
  exact Library.stacked_ascending filled

theorem PayloadFits.checked {headerLength : Nat} (fits : PayloadFits plan headerLength) :
    Reader.checkRanges (16 + headerLength) plan.fileSize (16 + headerLength) (fileRanges plan) =
      .ok () := by
  obtain ⟨alignment, offset, sizes, places, filled, after, inside⟩ := fits.stacked
  rw [places]
  exact checkRanges_stacked fits.small filled after after inside

/-- The header of a unit is read to the document that lists it. -/
theorem header_parses (numbers : NumberLaws platform) (ready : UnitReady writer plan)
    (fits : PayloadFits plan header.length)
    (made : Writer.makeHeader platform writer plan = .ok header)
    (reported : Reported platform header (unitEvents platform writer plan))
    (enough : UnitFits need platform writer plan) :
    Suffices need settings
      (fun o => Reader.parseHeader platform header (settings o) plan.fileSize header.length)
      fun _ => listedHeader writer plan header.length := by
  obtain ⟨nodes, read⟩ := @parseXmlHeader_reads _ need settings platform writer plan header numbers
    ready made reported enough
  have bound := @headerRead_bindings writer plan nodes ready
  obtain ⟨identifiers, checked⟩ := @headerRead_identifiers writer plan nodes ready
  have byPlace : ∀ event ∈ (headerRead writer plan nodes).builder.metadataBindingEvents,
      event.byReference = false := by
    intro event member
    obtain ⟨index, inside, rfl⟩ := List.mem_mapIdx.mp member
    rfl
  have complete : Reader.checkCompleteness (headerRead writer plan nodes).builder = .ok () := rfl
  have tables : Reader.resolveStructureReferences (headerRead writer plan nodes).builder = .ok [] :=
      rfl
  have ranges : Reader.sortRanges (headerRead writer plan nodes).builder.attachedRanges =
      fileRanges plan := fits.sorted ready
  have bindings : Reader.metadataBindings (headerRead writer plan nodes).builder
      (headerRead writer plan nodes).builder.metadataBindingEvents =
      .ok (listedBindings writer plan) := bound
  have referenced := fun (o : ω) (limit : ReaderOptions → Nat) =>
    referencedBindings_direct byPlace [] (limit (settings o))
  unfold Reader.parseHeader
  refine .andThen read ?_
  rw [complete]
  refine .andThen suffices_ok ?_
  rw [tables]
  refine .andThen suffices_ok (.andThen suffices_ok ?_)
  rw [bindings]
  refine .andThen suffices_ok (.andThen suffices_ok ?_)
  refine .andThen (.of_eq fun o => referenced o _ _ _) (.andThen suffices_ok ?_)
  refine .andThen (.of_eq fun o => referenced o _ _ _) (.andThen suffices_ok ?_)
  refine .andThen (.of_eq fun o => referenced o _ _ _) (.andThen suffices_ok ?_)
  refine .andThen (.of_eq fun o => referencedTables_direct byPlace [] _ _) ?_
  rw [checked]
  refine .andThen suffices_ok (.andThen suffices_ok ?_)
  rw [ranges]
  dsimp only
  rw [fits.checked]
  exact suffices_ok

end

end Mmxisf
