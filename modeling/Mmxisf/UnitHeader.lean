/-
# UnitHeader -- the header of a unit goes through the handlers

The handlers take the events of the header of a unit, from the declaration to the end
of the root, to a state that lists the images and the metadata of the unit in document
order (`header_takes`), unless a limit stops them.
-/
import Mmxisf.UnitImages

namespace Mmxisf

set_option autoImplicit false

open Writer (ImageWriteView MetadataWriteEntry PlannedBlock WriterOptions UnitPlan)
open Reader (XmlBuilder ElementContext ReaderOptions AttachedRange)

/-! ## What a part of a header adds -/

/-- The lists that grow. -/
structure UnitProgress.Adds (progress after : UnitProgress) (images : List ImageInfo)
    (entries : List MetadataEntry) (ranges : List AttachedRange) : Prop where
  images : after.images = progress.images ++ images
  entries : after.entries = progress.entries ++ entries
  ranges : after.ranges = progress.ranges ++ ranges
  rest : after = { progress with
    images := after.images
    entries := after.entries
    ranges := after.ranges
    nodes := after.nodes }

section

variable {progress next after : UnitProgress}

theorem UnitProgress.Adds.trans {images images' : List ImageInfo}
    {entries entries' : List MetadataEntry}
    {ranges ranges' : List AttachedRange} (first : progress.Adds next images entries ranges)
    (second : next.Adds after images' entries' ranges') :
    progress.Adds after (images ++ images') (entries ++ entries') (ranges ++ ranges') := by
  refine ⟨?_, ?_, ?_, ?_⟩
  · rw [second.images, first.images, List.append_assoc]
  · rw [second.entries, first.entries, List.append_assoc]
  · rw [second.ranges, first.ranges, List.append_assoc]
  · rw [second.rest, first.rest]

theorem UnitProgress.Adds.same {images : List ImageInfo} {entries : List MetadataEntry}
    {ranges : List AttachedRange} (adds : progress.Adds after images entries ranges) :
    after.path = progress.path ∧ after.openImages = progress.openImages ∧
      after.openText = progress.openText ∧ after.openBlock = progress.openBlock := by
  rw [adds.rest]
  exact ⟨rfl, rfl, rfl, rfl⟩

/-- Only the two mandatory Properties are marked. -/
theorem gains_flags {items : List (MetadataWriteEntry × PlannedBlock)}
    (others : ∀ item ∈ items, item.1.kind = .property → UnitName item.1) :
    (progress.gains items).sawCreationTime = progress.sawCreationTime ∧
      (progress.gains items).sawCreatorApplication = progress.sawCreatorApplication := by
  induction items generalizing progress with
  | nil => exact ⟨rfl, rfl⟩
  | cons item rest ih =>
      rw [List.forall_mem_cons] at others
      obtain ⟨time, creator⟩ := @ih (progress.gained item) others.2
      have more : progress.gains (item :: rest) = (progress.gained item).gains rest := rfl
      have marked : progress.mark item.1 = progress := UnitProgress.mark_of_unitName others.1
      have kept : (progress.gained item).sawCreationTime = (progress.mark item.1).sawCreationTime ∧
          (progress.gained item).sawCreatorApplication =
            (progress.mark item.1).sawCreatorApplication := ⟨rfl, rfl⟩
      rw [marked] at kept
      rw [more, time, creator]
      exact kept

theorem imageGained_adds {item : ImageWriteView × PlannedBlock}
    {items : List (MetadataWriteEntry × PlannedBlock)}
    (inImages : ∀ item ∈ items, item.1.imageIndex.isSome = true) :
    progress.Adds (progress.imageGained item items) [listedImage item] (items.map listedEntry)
      (⟨item.2.location.offset, item.2.location.size⟩ :: items.flatMap entryRanges) := by
  obtain ⟨entries, ranges, rest⟩ := @UnitProgress.gains_gained (progress.imageOpened item) items
  have others : ∀ item ∈ items, item.1.kind = .property → UnitName item.1 := by
    intro item member _ none
    have some := inImages item member
    rw [none] at some
    cases some
  obtain ⟨time, creator⟩ := @gains_flags (progress.imageOpened item) items others
  rw [time, creator] at rest
  have images : ((progress.imageOpened item).gains items).images =
      progress.images ++ [listedImage item] := by
    rw [rest]
    rfl
  refine ⟨images, entries, ?_, ?_⟩
  · have own : (progress.imageGained item items).ranges =
        ((progress.imageOpened item).gains items).ranges := rfl
    rw [own, ranges, ← List.singleton_append, ← List.append_assoc]
    rfl
  · unfold UnitProgress.imageGained
    rw [rest]
    rfl

end

/-! ## The images -/

section

variable {ω : Type} {need : ReaderOptions} {settings : ω → ReaderOptions} {platform : Platform}
  {progress : UnitProgress} {metadata : List (MetadataWriteEntry × PlannedBlock)}

/-- The entries of an image, by its number. -/
def entriesOf (metadata : List (MetadataWriteEntry × PlannedBlock)) (index : Nat) :
    List (MetadataWriteEntry × PlannedBlock) :=
  metadata.filter fun entry => entry.1.imageIndex = some index

/-- After several images with their entries. -/
def UnitProgress.imagesGained (metadata : List (MetadataWriteEntry × PlannedBlock)) :
    UnitProgress → List (ImageWriteView × PlannedBlock) → UnitProgress
  | progress, [] => progress
  | progress, item :: rest =>
      UnitProgress.imagesGained metadata
        (progress.imageGained item (entriesOf metadata progress.images.length)) rest

/-- The entries of images, in the order of the header. -/
def imageItems (metadata : List (MetadataWriteEntry × PlannedBlock))
    (images : List ((ImageWriteView × PlannedBlock) × Nat)) :
    List (MetadataWriteEntry × PlannedBlock) :=
  images.flatMap fun image => entriesOf metadata image.2

/-- The attached ranges of images and their entries, in the order of the header. -/
def imageRanges (metadata : List (MetadataWriteEntry × PlannedBlock))
    (images : List ((ImageWriteView × PlannedBlock) × Nat)) : List AttachedRange :=
  images.flatMap fun image => ⟨image.1.2.location.offset, image.1.2.location.size⟩ ::
    (entriesOf metadata image.2).flatMap entryRanges

theorem entriesOf_images {index : Nat} :
    ∀ item ∈ entriesOf metadata index, item.1.imageIndex.isSome = true := by
  intro item member
  have own : item.1.imageIndex = some index := by
    simpa using (List.mem_filter.mp member).2
  rw [own]
  rfl

theorem imagesGained_adds {images : List (ImageWriteView × PlannedBlock)} :
    progress.Adds (progress.imagesGained metadata images) (images.map listedImage)
      ((imageItems metadata (images.zipIdx progress.images.length)).map listedEntry)
      (imageRanges metadata (images.zipIdx progress.images.length)) := by
  induction images generalizing progress with
  | nil =>
      refine ⟨?_, ?_, ?_, rfl⟩
      · exact (List.append_nil _).symm
      · exact (List.append_nil _).symm
      · exact (List.append_nil _).symm
  | cons item rest ih =>
      have first := @imageGained_adds progress item _
        (@entriesOf_images metadata progress.images.length)
      have length : (progress.imageGained item
          (entriesOf metadata progress.images.length)).images.length =
          progress.images.length + 1 := by
        rw [first.images, List.length_append]
        rfl
      have later := @ih (progress.imageGained item (entriesOf metadata progress.images.length))
      rw [length] at later
      have both := first.trans later
      rw [← List.map_append] at both
      exact both

theorem imageItems_cons {item : ImageWriteView × PlannedBlock}
    {rest : List (ImageWriteView × PlannedBlock)} {index : Nat} :
    imageItems metadata ((item :: rest).zipIdx index) =
      entriesOf metadata index ++ imageItems metadata (rest.zipIdx (index + 1)) := rfl

theorem imageGained_nodes {item : ImageWriteView × PlannedBlock}
    {items : List (MetadataWriteEntry × PlannedBlock)} :
    (progress.imageGained item items).nodes = progress.nodes + 1 + items.length := by
  have own : (progress.imageGained item items).nodes =
      ((progress.imageOpened item).gains items).nodes := rfl
  rw [own, (@UnitProgress.gains_gained (progress.imageOpened item) items).rest]
  rfl

theorem imagesGained_nodes {images : List (ImageWriteView × PlannedBlock)} :
    (progress.imagesGained metadata images).nodes = progress.nodes + images.length +
      (imageItems metadata (images.zipIdx progress.images.length)).length := by
  induction images generalizing progress with
  | nil => rfl
  | cons item rest ih =>
      have adds := @imageGained_adds progress item _
        (@entriesOf_images metadata progress.images.length)
      have length : (progress.imageGained item
          (entriesOf metadata progress.images.length)).images.length =
          progress.images.length + 1 := by
        rw [adds.images, List.length_append]
        rfl
      have more : progress.imagesGained metadata (item :: rest) =
          (progress.imageGained item (entriesOf metadata progress.images.length)).imagesGained
            metadata rest := rfl
      rw [more, ih, imageGained_nodes, length, imageItems_cons, List.length_append,
        List.length_cons]
      omega

/-- The limits let in several more images with their entries. -/
structure UnitProgress.LetsImages (need : ReaderOptions) (platform : Platform)
    (metadata : List (MetadataWriteEntry × PlannedBlock)) (progress : UnitProgress)
    (images : List (ImageWriteView × PlannedBlock)) : Prop where
  depth : progress.path.length + 2 ≤ need.maxXmlDepth
  nodes : progress.nodes + images.length +
    (imageItems metadata (images.zipIdx progress.images.length)).length ≤ need.maxXmlNodes
  count : progress.images.length + images.length ≤ need.maxImages
  entries : progress.entries.length +
    (imageItems metadata (images.zipIdx progress.images.length)).length ≤ need.maxMetadataEntries
  dimensions : 2 ≤ need.maxImageDimensions
  channels : ∀ item ∈ images, item.1.channels ≤ need.maxInspectedChannels
  attributes : ∀ item ∈ images,
    (imageElement platform item).attributes.length ≤ need.maxAttributesPerElement
  entryAttributes : ∀ item ∈ imageItems metadata (images.zipIdx progress.images.length),
    (entryElement item).attributes.length ≤ need.maxAttributesPerElement
  values : ∀ item ∈ imageItems metadata (images.zipIdx progress.images.length),
    (listedValue item.1).length ≤ need.maxMetadataValueBytes

namespace UnitProgress.LetsImages

variable {item : ImageWriteView × PlannedBlock} {rest : List (ImageWriteView × PlannedBlock)}

theorem first (lets : progress.LetsImages need platform metadata (item :: rest)) :
    progress.LetsImage need platform item := by
  have nodes := lets.nodes
  have images := lets.count
  have depth := lets.depth
  rw [List.length_cons] at nodes images
  exact { depth := by omega
          nodes := by omega
          attributes := lets.attributes item List.mem_cons_self
          images := by omega
          dimensions := lets.dimensions
          channels := lets.channels item List.mem_cons_self }

theorem inside (lets : progress.LetsImages need platform metadata (item :: rest)) :
    (progress.imageOpened item).LetsEntries need
      (entriesOf metadata progress.images.length) := by
  have nodes := lets.nodes
  have entries := lets.entries
  rw [imageItems_cons, List.length_append] at nodes entries
  rw [List.length_cons] at nodes
  have opened : (progress.imageOpened item).nodes = progress.nodes + 1 := rfl
  have same : (progress.imageOpened item).entries = progress.entries := rfl
  have own {entry : MetadataWriteEntry × PlannedBlock}
      (member : entry ∈ entriesOf metadata progress.images.length) :
      entry ∈ imageItems metadata ((item :: rest).zipIdx progress.images.length) :=
    List.mem_append_left _ member
  exact { depth := lets.depth
          nodes := by omega
          entries := by rw [same]; omega
          attributes := fun entry member => lets.entryAttributes entry (own member)
          values := fun entry member => lets.values entry (own member) }

theorem later (lets : progress.LetsImages need platform metadata (item :: rest)) :
    (progress.imageGained item (entriesOf metadata progress.images.length)).LetsImages need
      platform metadata rest := by
  have adds := @imageGained_adds progress item _ (@entriesOf_images metadata progress.images.length)
  have images : (progress.imageGained item
      (entriesOf metadata progress.images.length)).images.length = progress.images.length + 1 := by
    rw [adds.images, List.length_append]
    rfl
  have entries : (progress.imageGained item
      (entriesOf metadata progress.images.length)).entries.length =
      progress.entries.length + (entriesOf metadata progress.images.length).length := by
    rw [adds.entries, List.length_append, List.length_map]
  have nodes := @imageGained_nodes progress item (entriesOf metadata progress.images.length)
  have enough := lets.nodes
  have room := lets.entries
  have few := lets.count
  rw [imageItems_cons, List.length_append] at enough room
  rw [List.length_cons] at enough few
  have own {entry : MetadataWriteEntry × PlannedBlock}
      (member : entry ∈ imageItems metadata (rest.zipIdx (progress.images.length + 1))) :
      entry ∈ imageItems metadata ((item :: rest).zipIdx progress.images.length) :=
    List.mem_append_right _ member
  constructor
  case depth => exact lets.depth
  case nodes =>
    rw [images]
    omega
  case count => omega
  case entries =>
    rw [images]
    omega
  case dimensions => exact lets.dimensions
  case channels => exact fun item member => lets.channels item (List.mem_cons_of_mem _ member)
  case attributes => exact fun item member => lets.attributes item (List.mem_cons_of_mem _ member)
  case entryAttributes =>
    rw [images]
    exact fun entry member => lets.entryAttributes entry (own member)
  case values =>
    rw [images]
    exact fun entry member => lets.values entry (own member)

end UnitProgress.LetsImages

/-- The identifiers of the listed images and of these. -/
def FreshIds (progress : UnitProgress) (images : List (ImageWriteView × PlannedBlock)) : Prop :=
  ((progress.images.map (·.id) ++ images.map (·.1.id)).filter (· ≠ [])).Nodup

theorem images_take {imageCount : Nat} (numbers : NumberLaws platform)
    (entries : ∀ entry ∈ metadata, EntryReady imageCount entry)
    {images : List (ImageWriteView × PlannedBlock)} (ready : ∀ item ∈ images, ImageReady item)
    (outside : progress.path = [lit "xisf"]) (noText : progress.openText = none)
    (noBlock : progress.openBlock = none) (fresh : FreshIds progress images)
    (lets : progress.LetsImages need platform metadata images) :
    Takes need settings platform progress.builder
      ((images.zipIdx progress.images.length).flatMap (imageEvents platform metadata))
      (progress.imagesGained metadata images).builder := by
  induction images generalizing progress with
  | nil => exact .nil
  | cons item rest ih =>
      rw [List.forall_mem_cons] at ready
      have adds := @imageGained_adds progress item _
        (@entriesOf_images metadata progress.images.length)
      obtain ⟨path, -, openText, openBlock⟩ := adds.same
      have length : (progress.imageGained item
          (entriesOf metadata progress.images.length)).images.length =
          progress.images.length + 1 := by
        rw [adds.images, List.length_append]
        rfl
      have own : item.1.id ≠ [] → item.1.id ∉ progress.images.map (·.id) := by
        intro some again
        unfold FreshIds at fresh
        rw [List.map_cons, List.filter_append, List.nodup_append] at fresh
        refine fresh.2.2 item.1.id (List.mem_filter.mpr ⟨again, by simpa using some⟩)
          item.1.id ?_ rfl
        exact List.mem_filter.mpr ⟨List.mem_cons_self, by simpa using some⟩
      have later : FreshIds (progress.imageGained item
          (entriesOf metadata progress.images.length)) rest := by
        unfold FreshIds at fresh ⊢
        rw [adds.images, List.map_append, List.append_assoc]
        exact fresh
      have rest := ih ready.2 (path.trans outside) (openText.trans noText) (openBlock.trans noBlock)
        later lets.later
      rw [length] at rest
      rw [List.zipIdx_cons, List.flatMap_cons]
      exact (image_takes numbers ready.1 entries outside noText noBlock own lets.first
        lets.inside).append rest

/-! ## Around them -/

/-- The root is open. -/
def rooted : UnitProgress where
  version := lit "1.0"
  nodes := 1
  path := [lit "xisf"]
  declared := true
  sawRoot := true

theorem declaration_takes : Takes need settings platform ({} : UnitProgress).builder
    [.declaration (some (lit "1.0")) (some (lit "UTF-8")) (-1)]
    ({ declared := true } : UnitProgress).builder := by
  have taken : ∀ options : ReaderOptions, Reader.handleEvent options platform
      ({} : UnitProgress).builder (.declaration (some (lit "1.0")) (some (lit "UTF-8")) (-1)) =
      .ok ({ declared := true } : UnitProgress).builder := fun _ => rfl
  exact .cons (fun _ => by rintro ⟨⟩) (.of_eq fun o => taken (settings o)) .nil

theorem root_takes (lets : ({ declared := true } : UnitProgress).LetsIn need 1) :
    Takes need settings platform ({ declared := true } : UnitProgress).builder
    [.startElement (xisfName (lit "xisf")) [(lit "version", lit "1.0")]] rooted.builder := by
  have plain : Reader.separator ∉ lit "xisf" := by decide
  refine .start ?_ .nil
  unfold Reader.startElement
  rw [localName_xisf plain, namespaceName_xisf plain]
  have entered : Reader.Suffices need settings (fun o => Reader.enterElement (settings o)
      ({ declared := true } : UnitProgress).builder
      ⟨lit "xisf", Reader.kXisfNamespace, [], [(lit "version", lit "1.0")]⟩) fun _ =>
        { ({ declared := true } : UnitProgress).builder with
          depth := 1
          nodes := 1 } :=
    .andThen (suffices_atMost Reader.Tighter.maxXmlDepth lets.depth)
      (.andThen (suffices_atMost Reader.Tighter.maxXmlNodes lets.nodes)
        (.andThen (suffices_atMost Reader.Tighter.maxAttributesPerElement lets.attributes)
          suffices_ok))
  exact .andThen entered (.of_eq fun _ => rfl)

/-- The Metadata element is open. -/
def UnitProgress.inMetadata (progress : UnitProgress) : UnitProgress :=
  { progress.enter (lit "Metadata") with metadataCount := 1 }

theorem metadata_takes (outside : progress.path = [lit "xisf"])
    (noBlock : progress.openBlock = none)
    (first : progress.metadataCount = 0) (lets : progress.LetsIn need 0) :
    Takes need settings platform progress.builder
      [.startElement (xisfName (lit "Metadata")) []] progress.inMetadata.builder := by
  have parents : progress.path.headD [] ∈ unitParents := by
    rw [outside]
    decide
  refine .start (@UnitProgress.start _ need settings platform progress [] (lit "Metadata") []
    _ (by decide) parents noBlock lets (.none rfl) rfl ?_) .nil
  have isElement : progress.element (lit "Metadata") [] =
      ⟨lit "Metadata", Reader.kXisfNamespace, lit "xisf", []⟩ := by
    unfold UnitProgress.element
    rw [outside]
    rfl
  have same : (progress.enter (lit "Metadata")).locate [] = progress.enter (lit "Metadata") := by
    unfold UnitProgress.locate
    rw [List.append_nil]
  have opens : ∀ options : ReaderOptions, Reader.openElement options platform
      (progress.enter (lit "Metadata")).builder
      ⟨lit "Metadata", Reader.kXisfNamespace, lit "xisf", []⟩ =
      Reader.startMetadata (progress.enter (lit "Metadata")).builder
        ⟨lit "Metadata", Reader.kXisfNamespace, lit "xisf", []⟩ := fun _ => rfl
  have rootChild : Reader.isRootChild (progress.enter (lit "Metadata")).builder
      ⟨lit "Metadata", Reader.kXisfNamespace, lit "xisf", []⟩ = true := by
    have depth : (progress.enter (lit "Metadata")).builder.depth = progress.path.length + 1 := rfl
    unfold Reader.isRootChild
    rw [depth, outside]
    rfl
  have count : (progress.enter (lit "Metadata")).builder.metadataCount = 0 := first
  simp only [isElement, same, opens]
  unfold Reader.startMetadata
  refine .andThen (suffices_check (by simp [rootChild, count])) ?_
  rw [count]
  exact suffices_ok

/-- Leaving an element that nothing is kept open for. -/
theorem endElement_other {name : Text} {outer : List Text} (plain : Reader.separator ∉ name)
    (other : name ∉ Reader.closedNames) (path : progress.path = name :: outer) :
    Reader.endElement progress.builder (xisfName name) = .ok { progress with
      path := outer
      rootClosed := if outer = [] then true else progress.rootClosed }.builder := by
  have depth : progress.builder.depth = outer.length + 1 := by
    have own : progress.builder.depth = progress.path.length := rfl
    rw [own, path, List.length_cons]
  have outermost : progress.builder.depth = 1 ↔ outer = [] := by
    rw [depth, Nat.add_eq_right, List.length_eq_zero_iff]
  unfold Reader.endElement
  rw [localName_xisf plain, namespaceName_xisf plain,
    decide_eq_true (rfl : Reader.kXisfNamespace = Reader.kXisfNamespace)]
  dsimp only
  rw [closeElement_other other]
  refine congrArg Except.ok ?_
  unfold Reader.popElement
  simp only [outermost]
  unfold UnitProgress.builder
  simp only [path, List.length_cons, Nat.add_sub_cancel, List.tail_cons, List.map_cons]

/-! ## The whole header -/

/-- The entries of a unit, in the order of its header. -/
def unitItems (writer : WriterOptions) (plan : UnitPlan) :
    List (MetadataWriteEntry × PlannedBlock) :=
  imageItems plan.metadata plan.images.zipIdx ++ unitEntries writer plan

/-- The attached ranges of a unit, in the order of its header. -/
def unitRanges (writer : WriterOptions) (plan : UnitPlan) : List AttachedRange :=
  imageRanges plan.metadata plan.images.zipIdx ++ (unitEntries writer plan).flatMap entryRanges

/-- What is known of a unit when its header is read. -/
structure UnitReady (writer : WriterOptions) (plan : UnitPlan) : Prop where
  accepted : AcceptedUnit writer (plan.images.map Prod.fst) (plan.metadata.map Prod.fst)
  images : ∀ item ∈ plan.images, ImageReady item
  entries : ∀ item ∈ plan.metadata, EntryReady plan.images.length item

/-- A header was read. -/
def headerRead (writer : WriterOptions) (plan : UnitPlan) (nodes : Nat) : UnitProgress where
  version := lit "1.0"
  images := plan.images.map listedImage
  entries := (unitItems writer plan).map listedEntry
  ranges := unitRanges writer plan
  nodes := nodes
  declared := true
  sawRoot := true
  rootClosed := true
  metadataCount := 1
  sawCreationTime := true
  sawCreatorApplication := true

/-- The entries of the unit, after the images. -/
theorem unitEntries_take {imageCount : Nat} {writer : WriterOptions} {plan : UnitPlan}
    (canonical : Writer.isCanonicalUtcTime writer.creationTime = true)
    (ready : ∀ item ∈ plan.metadata, EntryReady imageCount item)
    (parent : progress.path.headD [] = lit "Metadata") (noImage : progress.openImages = [])
    (noText : progress.openText = none) (noBlock : progress.openBlock = none)
    (noTime : progress.sawCreationTime = false)
    (noCreator : progress.sawCreatorApplication = false)
    (lets : progress.LetsEntries need (unitEntries writer plan)) :
    Takes need settings platform progress.builder ((unitEntries writer plan).flatMap entryEvents)
        (progress.gains (unitEntries writer plan)).builder ∧
      (progress.gains (unitEntries writer plan)).sawCreationTime = true ∧
      (progress.gains (unitEntries writer plan)).sawCreatorApplication = true := by
  have head : progress.openImages.head? = none := by
    rw [noImage]
    rfl
  have creation : progress.Inside (creationTimeEntry writer, {}) := ⟨parent, head, noText, noBlock⟩
  have creator : (progress.gained (creationTimeEntry writer, {})).Inside
      (creatorEntry writer, {}) :=
    ⟨parent, head, noText, noBlock⟩
  have later : (progress.gained (creationTimeEntry writer, {})).sawCreatorApplication = false := by
    have other : lit "XISF:CreationTime" ≠ lit "XISF:CreatorApplication" := by decide
    have own : (progress.gained (creationTimeEntry writer, {})).sawCreatorApplication =
      (progress.sawCreatorApplication || (true && true &&
        decide (lit "XISF:CreationTime" = lit "XISF:CreatorApplication"))) := rfl
    rw [own, noCreator]
    decide
  have whole : progress.gains (unitEntries writer plan) =
      ((progress.gained (creationTimeEntry writer, {})).gained (creatorEntry writer, {})).gains
        (plan.metadata.filter fun entry => entry.1.imageIndex.isNone) := rfl
  have letsCreator : (progress.gained (creationTimeEntry writer, {})).LetsEntry need
      (creatorEntry writer, {}) :=
    (@UnitProgress.LetsEntries.later _ progress [(creationTimeEntry writer, {})] _ lets).first
  have letsOthers : ((progress.gained (creationTimeEntry writer, {})).gained
      (creatorEntry writer, {})).LetsEntries need
        (plan.metadata.filter fun entry => entry.1.imageIndex.isNone) :=
    @UnitProgress.LetsEntries.later _ progress
      [(creationTimeEntry writer, {}), (creatorEntry writer, {})] _ lets
  have others := @entries_take _ need settings platform
    ((progress.gained (creationTimeEntry writer, {})).gained (creatorEntry writer, {})) imageCount
    (plan.metadata.filter fun entry => entry.1.imageIndex.isNone)
    (fun item member => ready item (List.mem_of_mem_filter member)) ?_ letsOthers
  · have names : ∀ item ∈ plan.metadata.filter fun entry => entry.1.imageIndex.isNone,
        item.1.kind = .property → UnitName item.1 := by
      intro item member kind
      cases (ready item (List.mem_of_mem_filter member)).accepted.valid with
      | fitsKeyword isKeyword =>
          rw [kind] at isKeyword
          cases isKeyword
      | direct _ _ _ unit => exact unit
      | block _ _ _ unit => exact unit
    obtain ⟨time, application⟩ := @gains_flags
      ((progress.gained (creationTimeEntry writer, {})).gained (creatorEntry writer, {})) _ names
    have sawTime : ((progress.gained (creationTimeEntry writer, {})).gained
        (creatorEntry writer, {})).sawCreationTime =
        ((progress.sawCreationTime || (true && true &&
          decide (lit "XISF:CreationTime" = lit "XISF:CreationTime"))) || (true && true &&
          decide (lit "XISF:CreatorApplication" = lit "XISF:CreationTime"))) := rfl
    have sawCreator : ((progress.gained (creationTimeEntry writer, {})).gained
        (creatorEntry writer, {})).sawCreatorApplication =
        ((progress.sawCreatorApplication || (true && true &&
          decide (lit "XISF:CreationTime" = lit "XISF:CreatorApplication"))) || (true && true &&
          decide (lit "XISF:CreatorApplication" = lit "XISF:CreatorApplication"))) := rfl
    rw [whole, time, application, sawTime, sawCreator, noTime, noCreator]
    refine ⟨?_, by decide, by decide⟩
    exact (creationTime_takes canonical creation lets.first noTime).append
      ((creator_takes creator letsCreator later).append others)
  · intro item member
    have none : item.1.imageIndex = none := by
      simpa using (List.mem_filter.mp member).2
    have isParent : (entryElement item).parent =
        if item.1.imageIndex.isSome then lit "Image" else lit "Metadata" := rfl
    refine ⟨?_, ?_, noText, noBlock⟩
    · rw [isParent, none]
      exact parent
    · rw [none]
      exact head

/-- What the images and the unit add is what a header lists. -/
theorem finished_eq {writer : WriterOptions} {plan : UnitPlan} {read after : UnitProgress}
    (adds : rooted.Adds read (plan.images.map listedImage)
      ((imageItems plan.metadata plan.images.zipIdx).map listedEntry)
      (imageRanges plan.metadata plan.images.zipIdx))
    (gained : read.inMetadata.Gained after (unitEntries writer plan))
    (sawTime : after.sawCreationTime = true) (sawCreator : after.sawCreatorApplication = true) :
    { after with
      path := []
      rootClosed := true } = headerRead writer plan after.nodes := by
  have entries : after.entries = (unitItems writer plan).map listedEntry := by
    have own : read.inMetadata.entries = read.entries := rfl
    rw [gained.entries, own, adds.entries, unitItems, List.map_append]
    rfl
  have ranges : after.ranges = unitRanges writer plan := by
    have own : read.inMetadata.ranges = read.ranges := rfl
    rw [gained.ranges, own, adds.ranges]
    rfl
  have images : after.images = plan.images.map listedImage := by
    have own : after.images = read.images := by
      rw [gained.rest]
      rfl
    rw [own, adds.images]
    rfl
  have rest : after.version = lit "1.0" ∧ after.openImages = [] ∧ after.declared = true ∧
      after.sawRoot = true ∧ after.metadataCount = 1 ∧ after.openText = none ∧
      after.openBlock = none := by
    rw [gained.rest]
    unfold UnitProgress.inMetadata UnitProgress.enter
    rw [adds.rest]
    exact ⟨rfl, rfl, rfl, rfl, rfl, rfl, rfl⟩
  obtain ⟨version, openImages, declared, sawRoot, count, openText, openBlock⟩ := rest
  unfold headerRead
  rw [UnitProgress.mk.injEq]
  exact ⟨version, images, entries, ranges, rfl, rfl, openImages, declared, sawRoot, rfl, count,
    sawTime, sawCreator, openText, openBlock⟩

/-- What the limits must let in of a unit: its elements, its images with their channels and
its entries with their values. -/
structure UnitFits (need : ReaderOptions) (platform : Platform) (writer : WriterOptions)
    (plan : UnitPlan) : Prop where
  depth : 3 ≤ need.maxXmlDepth
  nodes : 2 + plan.images.length + (unitItems writer plan).length ≤ need.maxXmlNodes
  rootAttributes : 1 ≤ need.maxAttributesPerElement
  imageAttributes : ∀ item ∈ plan.images,
    (imageElement platform item).attributes.length ≤ need.maxAttributesPerElement
  entryAttributes : ∀ item ∈ unitItems writer plan,
    (entryElement item).attributes.length ≤ need.maxAttributesPerElement
  images : plan.images.length ≤ need.maxImages
  dimensions : 2 ≤ need.maxImageDimensions
  channels : ∀ item ∈ plan.images, item.1.channels ≤ need.maxInspectedChannels
  entries : (unitItems writer plan).length ≤ need.maxMetadataEntries
  values : ∀ item ∈ unitItems writer plan,
    (listedValue item.1).length ≤ need.maxMetadataValueBytes

/-- The handlers take the events of a header to the listing of its unit. -/
theorem header_takes {writer : WriterOptions} {plan : UnitPlan} (numbers : NumberLaws platform)
    (ready : UnitReady writer plan) (fits : UnitFits need platform writer plan) : ∃ nodes,
      Takes need settings platform ({} : UnitProgress).builder (unitEvents platform writer plan)
        (headerRead writer plan nodes).builder := by
  have adds := @imagesGained_adds rooted plan.metadata plan.images
  have fresh : FreshIds rooted plan.images := by
    have apart := ready.accepted.imageIds
    unfold imageIds at apart
    rw [List.map_map] at apart
    exact apart
  have length : (unitItems writer plan).length = (imageItems plan.metadata
      plan.images.zipIdx).length + (unitEntries writer plan).length := List.length_append
  have nodes := fits.nodes
  have room := fits.entries
  have lets : rooted.LetsImages need platform plan.metadata plan.images := by
    constructor
    case depth => exact fits.depth
    case nodes =>
      show 1 + plan.images.length + (imageItems plan.metadata plan.images.zipIdx).length ≤ _
      omega
    case count => exact (Nat.zero_add _).trans_le fits.images
    case entries =>
      show 0 + (imageItems plan.metadata plan.images.zipIdx).length ≤ _
      omega
    case dimensions => exact fits.dimensions
    case channels => exact fits.channels
    case attributes => exact fits.imageAttributes
    case entryAttributes =>
      exact fun item member => fits.entryAttributes item (List.mem_append_left _ member)
    case values => exact fun item member => fits.values item (List.mem_append_left _ member)
  have images := @images_take _ need settings platform rooted plan.metadata _ numbers ready.entries
    plan.images ready.images rfl rfl rfl fresh lets
  have count := @imagesGained_nodes rooted plan.metadata plan.images
  generalize rooted.imagesGained plan.metadata plan.images = read at adds images count
  have readNodes : read.nodes = 1 + plan.images.length + (imageItems plan.metadata
      plan.images.zipIdx).length := count
  have readEntries : read.entries.length =
      (imageItems plan.metadata plan.images.zipIdx).length := by
    rw [adds.entries, List.length_append, List.length_map]
    exact Nat.zero_add _
  obtain ⟨path, openImages, openText, openBlock⟩ := adds.same
  have noTime : read.sawCreationTime = false := by
    rw [adds.rest]
    rfl
  have noCreator : read.sawCreatorApplication = false := by
    rw [adds.rest]
    rfl
  have first : read.metadataCount = 0 := by
    rw [adds.rest]
    rfl
  have insidePath : read.inMetadata.path = lit "Metadata" :: read.path := rfl
  have letsUnit : read.inMetadata.LetsEntries need (unitEntries writer plan) := by
    constructor
    case depth =>
      rw [insidePath, path]
      exact fits.depth
    case nodes =>
      show read.nodes + 1 + _ ≤ _
      omega
    case entries =>
      show read.entries.length + _ ≤ _
      omega
    case attributes =>
      exact fun item member => fits.entryAttributes item (List.mem_append_right _ member)
    case values => exact fun item member => fits.values item (List.mem_append_right _ member)
  obtain ⟨entries, sawTime, sawCreator⟩ := @unitEntries_take _ need settings platform
    read.inMetadata _ writer plan ready.accepted.creationTime ready.entries rfl openImages openText
    openBlock noTime noCreator letsUnit
  have gained := @UnitProgress.gains_gained read.inMetadata (unitEntries writer plan)
  generalize read.inMetadata.gains (unitEntries writer plan) =
    after at entries sawTime sawCreator gained
  have afterPath : after.path = [lit "Metadata", lit "xisf"] := by
    rw [gained.rest]
    exact insidePath.trans (by rw [path]; rfl)
  have leaveMetadata := @endElement_other after (lit "Metadata") [lit "xisf"]
    (by decide) (by decide)
    afterPath
  rw [if_neg (by simp)] at leaveMetadata
  have leaveRoot := @endElement_other { after with path := [lit "xisf"] } (lit "xisf")
    [] (by decide)
    (by decide) rfl
  rw [if_pos rfl] at leaveRoot
  refine ⟨after.nodes, ?_⟩
  have finished : { after with
      path := []
      rootClosed := true } = headerRead writer plan after.nodes :=
    finished_eq adds gained sawTime sawCreator
  rw [← finished]
  have depth := fits.depth
  have letsRoot : ({ declared := true } : UnitProgress).LetsIn need 1 := by
    refine ⟨?_, ?_, fits.rootAttributes⟩
    · show 0 + 1 ≤ _
      omega
    · show 0 + 1 ≤ _
      omega
  have letsMetadata : read.LetsIn need 0 := by
    refine ⟨?_, by omega, Nat.zero_le _⟩
    rw [path]
    show 1 + 1 ≤ _
    omega
  have metadata := @metadata_takes _ need settings platform read path openBlock first letsMetadata
  exact declaration_takes.append ((root_takes letsRoot).append (images.append (metadata.append
    (entries.append ((Takes.finish leaveMetadata).append (.finish leaveRoot))))))

end

end Mmxisf
