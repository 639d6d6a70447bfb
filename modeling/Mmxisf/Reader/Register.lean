/-
# Reader.Register -- what the parser notes of each element

The parser keeps records, binding events and tables of uids that later checks
resolve.  Each of them is a list that an element may add to, at its start tag,
something that depends on its tag and the elements around it only
(`contribution`).  So after a run the lists are those of the outline
(`Register.of`), element by element in document order.
-/
import Mmxisf.Reader.Accepted

namespace Mmxisf.Reader

set_option autoImplicit false

/-! ## Keys -/

/-- What a metadata entry is known by. -/
structure EntryKey where
  kind : MetadataKind
  scope : MetadataScope
  imageIndex : Option Nat
  uid : Text
  name : Text
  deriving DecidableEq, Repr

/-- What an object that may belong to an image is known by. -/
structure ObjectKey where
  uid : Text
  imageIndex : Option Nat
  deriving DecidableEq, Repr

structure TableKey extends ObjectKey where
  id : Text
  deriving DecidableEq, Repr

/-- A Structure by its uid and the Table it is in. -/
structure StructureKey where
  uid : Text
  tableIndex : Option Nat
  deriving DecidableEq, Repr

structure Register where
  entries : List EntryKey := []
  ancillaryObjects : List ObjectKey := []
  iccProfiles : List ObjectKey := []
  thumbnails : List ObjectKey := []
  tables : List TableKey := []
  structures : List StructureKey := []
  metadataEvents : List MetadataBindingEvent := []
  ancillaryEvents : List ObjectBindingEvent := []
  iccProfileEvents : List ObjectBindingEvent := []
  thumbnailEvents : List ObjectBindingEvent := []
  tableEvents : List ObjectBindingEvent := []
  structureReferences : List TableStructureReferenceEvent := []
  coreUids : List Text := []
  references : List Text := []
  referencesFromThumbnails : List Text := []
  metadataUids : List (Text × Nat) := []
  ancillaryUids : List (Text × Nat) := []
  iccProfileUids : List (Text × Nat) := []
  thumbnailUids : List (Text × Nat) := []
  tableUids : List (Text × Nat) := []
  structureUids : List (Text × Nat) := []
  standaloneUids : List (Text × Nat) := []
  deriving DecidableEq, Repr

namespace Register

/-- One after the other, in each list. -/
def append (first second : Register) : Register where
  entries := first.entries ++ second.entries
  ancillaryObjects := first.ancillaryObjects ++ second.ancillaryObjects
  iccProfiles := first.iccProfiles ++ second.iccProfiles
  thumbnails := first.thumbnails ++ second.thumbnails
  tables := first.tables ++ second.tables
  structures := first.structures ++ second.structures
  metadataEvents := first.metadataEvents ++ second.metadataEvents
  ancillaryEvents := first.ancillaryEvents ++ second.ancillaryEvents
  iccProfileEvents := first.iccProfileEvents ++ second.iccProfileEvents
  thumbnailEvents := first.thumbnailEvents ++ second.thumbnailEvents
  tableEvents := first.tableEvents ++ second.tableEvents
  structureReferences := first.structureReferences ++ second.structureReferences
  coreUids := first.coreUids ++ second.coreUids
  references := first.references ++ second.references
  referencesFromThumbnails := first.referencesFromThumbnails ++ second.referencesFromThumbnails
  metadataUids := first.metadataUids ++ second.metadataUids
  ancillaryUids := first.ancillaryUids ++ second.ancillaryUids
  iccProfileUids := first.iccProfileUids ++ second.iccProfileUids
  thumbnailUids := first.thumbnailUids ++ second.thumbnailUids
  tableUids := first.tableUids ++ second.tableUids
  structureUids := first.structureUids ++ second.structureUids
  standaloneUids := first.standaloneUids ++ second.standaloneUids

theorem append_assoc (first second third : Register) :
    (first.append second).append third = first.append (second.append third) := by
  simp only [append, List.append_assoc]

end Register

/-! ## From the parser -/

def entryKey (entry : MetadataEntry) : EntryKey :=
  ⟨entry.kind, entry.scope, entry.imageIndex, entry.uid, entry.name⟩

def tableKey (table : TableInfo) : TableKey := ⟨⟨table.uid, table.imageIndex⟩, table.id⟩

def structureKey (info : TableStructureInfo) : StructureKey := ⟨info.uid, info.tableIndex⟩

def registerOf (state : XmlBuilder) : Register where
  entries := state.metadata.map entryKey
  ancillaryObjects := state.ancillaryObjects.map fun object => ⟨object.uid, object.imageIndex⟩
  iccProfiles := state.iccProfiles.map fun profile => ⟨profile.uid, profile.imageIndex⟩
  thumbnails := state.thumbnails.map fun thumbnail => ⟨thumbnail.uid, thumbnail.imageIndex⟩
  tables := state.tables.map tableKey
  structures := state.tableStructures.map structureKey
  metadataEvents := state.metadataBindingEvents
  ancillaryEvents := state.ancillaryBindingEvents
  iccProfileEvents := state.iccProfileBindingEvents
  thumbnailEvents := state.thumbnailBindingEvents
  tableEvents := state.tableBindingEvents
  structureReferences := state.tableStructureReferences
  coreUids := state.coreUids
  references := state.references
  referencesFromThumbnails := state.referencesFromThumbnails
  metadataUids := state.metadataUids
  ancillaryUids := state.ancillaryUids
  iccProfileUids := state.iccProfileUids
  thumbnailUids := state.thumbnailUids
  tableUids := state.tableUids
  structureUids := state.tableStructureUids
  standaloneUids := state.standaloneStructureUids

/-! ## From the outline -/

/-- The position of the element of a kind that an element is in. -/
def around (outline : HeaderOutline) (kind : ElementKind) (element : HeaderElement) : Option Nat :=
  (element.ancestors.find? fun frame => isKind kind frame.tag).map (outline.rank (isKind kind))

def imageOf (outline : HeaderOutline) (element : HeaderElement) : Option Nat :=
  around outline .image element

def parentKind (element : HeaderElement) : Option ElementKind := (pathKinds element.ancestors).head?

/-- The position of an element among those of a kind. -/
def positionOf (outline : HeaderOutline) (kind : XmlTag → Bool) (element : HeaderElement) : Nat :=
  outline.rank kind element.toFrame

def scopeOf (outline : HeaderOutline) (element : HeaderElement) : MetadataScope :=
  if (imageOf outline element).isSome then .image
  else if parentKind element = some .metadata then .xisfUnit
  else .standalone

/-- The id of a Property, the name of a FITSKeyword. -/
def nameOf (tag : XmlTag) : Text := tag.attributeOr (if tag.kind = .property then "id" else "name")

def entryKeyOf (outline : HeaderOutline) (element : HeaderElement) : EntryKey where
  kind := if element.tag.kind = .property then .property else .fitsKeyword
  scope := scopeOf outline element
  imageIndex := imageOf outline element
  uid := element.tag.attributeOr "uid"
  name := nameOf element.tag

def objectKeyOf (outline : HeaderOutline) (element : HeaderElement) : ObjectKey :=
  ⟨element.tag.attributeOr "uid", imageOf outline element⟩

def tableKeyOf (outline : HeaderOutline) (element : HeaderElement) : TableKey :=
  ⟨objectKeyOf outline element, element.tag.attributeOr "id"⟩

def structureKeyOf (outline : HeaderOutline) (element : HeaderElement) : StructureKey :=
  ⟨element.tag.attributeOr "uid", around outline .table element⟩

/-- The uid of a core element. -/
def declaredUid (tag : XmlTag) : Option Text :=
  if tag.isXisf && isCoreElement tag.name && tag.kind ≠ .reference then tag.attr "uid" else none

/-- What a Reference refers to. -/
def referenceOf (tag : XmlTag) : Option Text :=
  if tag.kind = .reference then tag.attr "ref" else none

/-- The binding event of an entry with the scope of an image or of the unit. -/
def directEventsOf (outline : HeaderOutline) (element : HeaderElement) :
    List MetadataBindingEvent :=
  if scopeOf outline element = .standalone then []
  else [{ metadataIndex := some (positionOf outline isEntry element)
          reference := []
          scope := if scopeOf outline element = .image then .image else .xisfUnit
          imageIndex := imageOf outline element
          byReference := false }]

/-- The binding event of a Reference in an Image or in Metadata. -/
def referenceEventsOf (outline : HeaderOutline) (element : HeaderElement) :
    List MetadataBindingEvent :=
  if parentKind element = some .image ∨ parentKind element = some .metadata then
    (referenceOf element.tag).toList.map fun reference =>
      { metadataIndex := none
        reference := reference
        scope := if parentKind element = some .image then .image else .xisfUnit
        imageIndex := imageOf outline element
        byReference := true }
  else []

def structureReferencesOf (outline : HeaderOutline) (element : HeaderElement) :
    List TableStructureReferenceEvent :=
  if parentKind element = some .table then
    (referenceOf element.tag).toList.map fun reference =>
      ⟨(around outline .table element).getD 0, reference⟩
  else []

/-- What an element of a kind adds to a list. -/
def ofKindOnly {α : Type} (kind : XmlTag → Bool) (tag : XmlTag) (records : List α) : List α :=
  if kind tag then records else []

/-- The direct binding of an object to its image. -/
def objectEventsOf (outline : HeaderOutline) (kind : XmlTag → Bool) (element : HeaderElement) :
    List ObjectBindingEvent :=
  directBinding (positionOf outline kind element) (imageOf outline element)

/-- The uid of an element, with its position among those of its kind. -/
def uidAt (outline : HeaderOutline) (kind : XmlTag → Bool) (element : HeaderElement) :
    List (Text × Nat) :=
  (declaredUid element.tag).toList.map fun uid => (uid, positionOf outline kind element)

/-- A Structure directly in the root. -/
def isStandalone (element : HeaderElement) : Bool := element.ancestors.length = 1

/-- What is noted before the branch of the element runs. -/
def identityOf (outline : HeaderOutline) (element : HeaderElement) : Register :=
  { metadataEvents := referenceEventsOf outline element
    structureReferences := structureReferencesOf outline element
    coreUids := (declaredUid element.tag).toList
    references := (referenceOf element.tag).toList
    referencesFromThumbnails :=
      if parentKind element = some .thumbnail then (referenceOf element.tag).toList else [] }

/-- What the branch of the element adds. -/
def recordOf (outline : HeaderOutline) (element : HeaderElement) : Register :=
  { entries := ofKindOnly isEntry element.tag [entryKeyOf outline element]
    ancillaryObjects := ofKindOnly isAncillary element.tag [objectKeyOf outline element]
    iccProfiles := ofKindOnly (isKind .iccProfile) element.tag [objectKeyOf outline element]
    thumbnails := ofKindOnly (isKind .thumbnail) element.tag [objectKeyOf outline element]
    tables := ofKindOnly (isKind .table) element.tag [tableKeyOf outline element]
    structures := ofKindOnly (isKind .tableStructure) element.tag [structureKeyOf outline element]
    metadataEvents := ofKindOnly isEntry element.tag (directEventsOf outline element)
    ancillaryEvents :=
      ofKindOnly isAncillary element.tag (objectEventsOf outline isAncillary element)
    iccProfileEvents := ofKindOnly (isKind .iccProfile) element.tag
      (objectEventsOf outline (isKind .iccProfile) element)
    thumbnailEvents := ofKindOnly (isKind .thumbnail) element.tag
      (objectEventsOf outline (isKind .thumbnail) element)
    tableEvents := ofKindOnly (isKind .table) element.tag
      (objectEventsOf outline (isKind .table) element)
    metadataUids := ofKindOnly isEntry element.tag (uidAt outline isEntry element)
    ancillaryUids := ofKindOnly isAncillary element.tag (uidAt outline isAncillary element)
    iccProfileUids := ofKindOnly (isKind .iccProfile) element.tag
      (uidAt outline (isKind .iccProfile) element)
    thumbnailUids := ofKindOnly (isKind .thumbnail) element.tag
      (uidAt outline (isKind .thumbnail) element)
    tableUids := ofKindOnly (isKind .table) element.tag (uidAt outline (isKind .table) element)
    structureUids := ofKindOnly (isKind .tableStructure) element.tag
      (uidAt outline (isKind .tableStructure) element)
    standaloneUids := if isStandalone element then ofKindOnly (isKind .tableStructure) element.tag
      (uidAt outline (isKind .tableStructure) element) else [] }

/-- What an element adds to the register. -/
def contribution (outline : HeaderOutline) (element : HeaderElement) : Register :=
  (identityOf outline element).append (recordOf outline element)

/-- The register of the elements of an outline. -/
def Register.of (outline : HeaderOutline) : Register :=
  outline.elements.foldl (fun register element => register.append (contribution outline element)) {}

/-! ## As the outline grows -/

section

variable {outline : HeaderOutline} {element : HeaderElement} {tag : XmlTag}

/-- A list of the register, element by element. -/
theorem Register.field_of {α : Type} (field : Register → List α)
    (append : ∀ first second, field (first.append second) = field first ++ field second)
    (empty : field {} = []) :
    field (.of outline) = outline.elements.flatMap fun element =>
      field (contribution outline element) := by
  have from_ : ∀ (elements : List HeaderElement) (register : Register),
      field (elements.foldl (fun register element =>
          register.append (contribution outline element)) register) =
        field register ++ elements.flatMap fun element => field (contribution outline element) := by
    intro elements
    induction elements with
    | nil => simp
    | cons element rest ih =>
        intro register
        rw [List.foldl_cons, ih, append, List.flatMap_cons, List.append_assoc]
  rw [Register.of, from_, empty, List.nil_append]

theorem positionOf_start (coherent : outline.Coherent) (member : element ∈ outline.elements)
    (kind : XmlTag → Bool) :
    positionOf (outline.start tag) kind element = positionOf outline kind element := by
  obtain ⟨i, there⟩ := List.getElem?_of_mem member
  have index := coherent.index i element there
  have small := (List.getElem?_eq_some_iff.mp there).1
  exact Library.Outline.rank_start (by show element.index ≤ _; omega)

theorem around_start (coherent : outline.Coherent) (member : element ∈ outline.elements)
    (kind : ElementKind) : around (outline.start tag) kind element =
    around outline kind element := by
  unfold around
  cases found : element.ancestors.find? fun frame => isKind kind frame.tag with
  | none => rfl
  | some frame =>
      have before := (coherent.ancestors element member).lt_length frame
        (List.mem_of_find?_eq_some found)
      rw [Option.map_some, Option.map_some, Library.Outline.rank_start (Nat.le_of_lt before)]

theorem around_fresh (coherent : outline.Coherent) (kind : ElementKind) :
    around (outline.start tag) kind (outline.fresh tag) = outline.openIndex (isKind kind) := by
  unfold around Library.Outline.openIndex
  rw [Library.Outline.fresh_ancestors]
  cases found : outline.opened.find? fun frame => isKind kind frame.tag with
  | none => rfl
  | some frame =>
      have before := coherent.opened.lt_length frame (List.mem_of_find?_eq_some found)
      rw [Option.map_some, Option.map_some, Library.Outline.rank_start (Nat.le_of_lt before)]

theorem positionOf_fresh (kind : XmlTag → Bool) :
    positionOf (outline.start tag) kind (outline.fresh tag) = (outline.ofKind kind).length :=
  Library.Outline.rank_fresh

theorem contribution_start (coherent : outline.Coherent) (member : element ∈ outline.elements) :
    contribution (outline.start tag) element = contribution outline element := by
  simp only [contribution, identityOf, recordOf, referenceEventsOf, structureReferencesOf,
    entryKeyOf, objectKeyOf, tableKeyOf, structureKeyOf, directEventsOf, objectEventsOf, uidAt,
    scopeOf, imageOf, around_start coherent member, positionOf_start coherent member]
  rfl

theorem Register.of_start (coherent : outline.Coherent) (tag : XmlTag) :
    Register.of (outline.start tag) =
      (Register.of outline).append (contribution (outline.start tag) (outline.fresh tag)) := by
  rw [Register.of, Library.Outline.start_elements, List.foldl_append, List.foldl_cons,
    List.foldl_nil, Register.of]
  congr 1
  exact List.foldl_ext _ _ _ fun register element member => by
    rw [contribution_start coherent member]

theorem Register.of_finish : Register.of outline.finish = Register.of outline := rfl

theorem contribution_append (index : Nat) (text : Text) :
    contribution (outline.append text) (element.extendAt index text) =
      contribution outline element := by
  simp only [contribution, identityOf, recordOf, referenceEventsOf, structureReferencesOf,
    entryKeyOf, objectKeyOf, tableKeyOf, structureKeyOf, directEventsOf, objectEventsOf, uidAt,
    scopeOf, imageOf, around, positionOf, parentKind, isStandalone,
    Library.Element.extendAt_ancestors, Library.Element.extendAt_frame, Library.Outline.rank_append]
  rfl

theorem Register.of_append (text : Text) : Register.of (outline.append text) = .of outline := by
  cases opened : outline.opened with
  | nil =>
      unfold Library.Outline.append
      rw [opened]
  | cons top below =>
      rw [Register.of, Library.Outline.append_elements opened, List.foldl_map, Register.of]
      congr 1
      funext register element
      rw [contribution_append]

end

/-! ## As the parser runs -/

section

variable {options : ReaderOptions} {platform : Platform} {outline : HeaderOutline}
  {state state' identified base closed : XmlBuilder} {tag : XmlTag} {entry : MetadataEntry}

theorem registerOf_enter {element : ElementContext} {index : Option Nat}
    {ranges : List AttachedRange}
    (extended : ExtensionRecorded options
      { state with depth := state.depth + 1, nodes := state.nodes + 1 } element base index) :
    registerOf (enteredState base element index ranges) = registerOf state := by
  cases extended <;> rfl

theorem registerOf_close {isXisf : Bool} {name : Text} (close : Closed state isXisf name closed) :
    registerOf (popElement closed) = registerOf state := by
  cases close <;> rfl

/-- A change that a key does not see. -/
theorem map_modify_same {α β : Type} {key : α → β} {change : α → α} (records : List α) (i : Nat)
    (same : ∀ a, key (change a) = key a) : (records.modify i change).map key = records.map key := by
  apply List.ext_getElem?
  intro j
  rw [List.getElem?_map, List.getElem?_map, List.getElem?_modify]
  cases records[j]? with
  | none => rfl
  | some a => by_cases here : i = j <;> simp [here, same]

theorem registerOf_text {text : Text} (taken : TextTaken options state text state') :
    registerOf state' = registerOf state := by
  cases taken with
  | empty => rfl
  | encoded state' inside run =>
      obtain ⟨decoder, bytes, -, -, added, count, ⟨-, rfl⟩, rfl⟩ := decodeEmbeddedText_eq run
      unfold addBytes
      split <;> rfl
  | cell outside place inside accepts within =>
      have same : (addCellText state place text).tables.map tableKey =
          state.tables.map tableKey := map_modify_same _ _ fun _ => rfl
      exact congrArg (fun keys => { registerOf state with tables := keys }) same
  | cellSpace => rfl
  | extension outside noCell index inside within => rfl
  | property outside noCell known index inside within =>
      have same : (state.metadata.modify index fun entry =>
          { entry with value := entry.value ++ text }).map entryKey =
          state.metadata.map entryKey := map_modify_same _ _ fun _ => rfl
      exact congrArg (fun keys => { registerOf state with entries := keys }) same
  | stray => rfl

/-! ### A start tag -/

/-- The kinds of elements that may have a uid. -/
theorem declaredUid_core {kind : ElementKind} (member : kind ∈ ElementKind.named)
    (core : isCoreElement kind.name = true) (same : tag.kind = kind) (other : kind ≠ .reference) :
    declaredUid tag = tag.attr "uid" := by
  obtain ⟨isXisf, named⟩ := (XmlTag.kind_eq member).mp same
  rw [declaredUid, isXisf, named, core, same]
  simp [other]

theorem isReference_iff : tag.kind = .reference ↔
    tag.isXisf = true ∧ tag.name = lit "Reference" := XmlTag.kind_eq (by decide)

theorem parentKind_fresh (kind : ElementKind) (member : kind ∈ ElementKind.named) :
    parentName outline = kind.name ↔ parentKind (outline.fresh tag) = some kind :=
  parentName_eq kind member

/-- The parent of an element is open. -/
theorem openIndex_of_parent {kind : ElementKind}
    (parent : parentKind (outline.fresh tag) = some kind) :
    (outline.openIndex (isKind kind)).isSome = true := by
  rw [Library.Outline.openIndex_isSome]
  unfold parentKind pathKinds at parent
  rw [Library.Outline.fresh_ancestors] at parent
  cases opened : outline.opened with
  | nil => simp [opened] at parent
  | cons top below =>
      rw [opened, List.map_cons, List.head?_cons, Option.some.injEq] at parent
      exact ⟨top, List.mem_cons_self, decide_eq_true parent⟩

theorem Opens.currentImage_eq (opens : Opens outline state) :
    state.currentImage = outline.openIndex (isKind .image) := by
  rw [XmlBuilder.currentImage, opens.image]
  cases outline.openIndex (isKind .image) <;> rfl

theorem imageOf_fresh (coherent : outline.Coherent) (opens : Opens outline state) :
    imageOf (outline.start tag) (outline.fresh tag) = state.currentImage := by
  rw [imageOf, around_fresh coherent, opens.currentImage_eq]

theorem referenceEvents_eq (opens : Opens outline state) (coherent : outline.Coherent)
    {reference : Text} (refers : referenceOf tag = some reference) :
    referenceEvents state (tag.context (parentName outline)) reference =
      referenceEventsOf (outline.start tag) (outline.fresh tag) := by
  have inImage : parentName outline = lit "Image" ↔
      parentKind (outline.fresh tag) = some .image := parentKind_fresh .image (by decide)
  have inMetadata : parentName outline = lit "Metadata" ↔
      parentKind (outline.fresh tag) = some .metadata := parentKind_fresh .metadata (by decide)
  have image := @imageOf_fresh _ _ tag coherent opens
  have isOpen : parentKind (outline.fresh tag) = some .image → state.currentImage.isSome = true :=
    fun parent => by
      rw [opens.currentImage_eq]
      exact openIndex_of_parent parent
  have condition : ((tag.context (parentName outline)).parent = lit "Image" ∧
      state.currentImage.isSome = true ∨ (tag.context (parentName outline)).parent =
        lit "Metadata") ↔ (parentKind (outline.fresh tag) = some .image ∨
      parentKind (outline.fresh tag) = some .metadata) :=
    or_congr ⟨fun both => inImage.mp both.1, fun parent => ⟨inImage.mpr parent, isOpen parent⟩⟩
      inMetadata
  have scope : ((tag.context (parentName outline)).parent = lit "Image") ↔
      parentKind (outline.fresh tag) = some .image := inImage
  rw [referenceEvents, referenceEventsOf, Library.Outline.fresh_tag, refers]
  refine if_congr condition ?_ rfl
  simp only [Option.toList_some, List.map_cons, List.map_nil, image, scope]

theorem tableReferenceEvents_eq (opens : Opens outline state) (coherent : outline.Coherent)
    {reference : Text} (refers : referenceOf tag = some reference) :
    tableReferenceEvents state (tag.context (parentName outline)) reference =
      structureReferencesOf (outline.start tag) (outline.fresh tag) := by
  have inTable : ((tag.context (parentName outline)).parent = lit "Table") ↔
      parentKind (outline.fresh tag) = some .table := parentKind_fresh .table (by decide)
  simp only [tableReferenceEvents, structureReferencesOf, Library.Outline.fresh_tag, refers,
    Option.toList_some, List.map_cons, List.map_nil, around_fresh coherent, opens.table, inTable]

/-- Before its branch, the uid or the ref of the element is noted. -/
theorem registerOf_identify (opens : Opens outline state) (coherent : outline.Coherent)
    (identify : Identified options state (tag.context (parentName outline)) identified) :
    registerOf identified = (registerOf state).append
        (identityOf (outline.start tag) (outline.fresh tag)) ∧
      ∀ uid, declaredUid tag = some uid → isValidUniqueId uid = true ∧ uid ∉ state.coreUids := by
  cases identify with
  | anonymous none =>
      have noReference : tag.kind ≠ .reference := fun same => by
        obtain ⟨isXisf, named⟩ := isReference_iff.mp same
        exact (none isXisf (by rw [show (tag.context _).name = tag.name from rfl, named]; rfl)).1
          named
      have noUid : declaredUid tag = .none := by
        rw [declaredUid]
        split
        · rename_i core
          simp only [Bool.and_eq_true, decide_eq_true_eq] at core
          exact (none core.1.1 core.1.2).2
        · rfl
      refine ⟨?_, fun uid impossible => by rw [noUid] at impossible; cases impossible⟩
      simp [identityOf, Register.append, referenceEventsOf, structureReferencesOf, referenceOf,
        noReference, noUid]
  | named isXisf core other uid declared valid unique =>
      have noReference : tag.kind ≠ .reference := fun same => other (isReference_iff.mp same).2
      have hasUid : declaredUid tag = some uid := by
        rw [declaredUid, if_pos (by simp [noReference, show tag.isXisf = true from isXisf,
          show isCoreElement tag.name = true from core])]
        exact declared
      refine ⟨?_, fun uid' same => ?_⟩
      · simp [identityOf, Register.append, referenceEventsOf, structureReferencesOf, referenceOf,
          noReference, hasUid, registerOf]
      · rw [hasUid, Option.some.injEq] at same
        rw [← same]
        exact ⟨valid, unique⟩
  | reference isXisf isReference anonymous reference refers valid inTable bound =>
      have kind : tag.kind = .reference := isReference_iff.mpr ⟨isXisf, isReference⟩
      have noUid : declaredUid tag = none := by simp [declaredUid, kind]
      have refers' : referenceOf tag = some reference := by
        rw [referenceOf, if_pos kind]
        exact refers
      refine ⟨?_, fun uid impossible => by rw [noUid] at impossible; cases impossible⟩
      have fromThumbnail : ((tag.context (parentName outline)).parent = lit "Thumbnail") ↔
          parentKind (outline.fresh tag) = some .thumbnail :=
        parentKind_fresh .thumbnail (by decide)
      have thumbnails : (if (tag.context (parentName outline)).parent = lit "Thumbnail" then
          state.referencesFromThumbnails ++ [reference] else state.referencesFromThumbnails) =
          state.referencesFromThumbnails ++
            if parentKind (outline.fresh tag) = some .thumbnail then [reference] else [] := by
        simp only [fromThumbnail]
        split <;> simp
      simp [identityOf, Register.append, registerOf, noUid, refers', thumbnails,
        referenceEvents_eq opens coherent refers', tableReferenceEvents_eq opens coherent refers']

/-- The tables of uids. -/
def Register.uidTables (register : Register) : List (List (Text × Nat)) :=
  [register.metadataUids, register.ancillaryUids, register.iccProfileUids, register.thumbnailUids,
    register.tableUids, register.structureUids, register.standaloneUids]

/-- The uid of a new element is in no table. -/
def UidIsNew (tag : XmlTag) (register : Register) : Prop :=
  ∀ uid, declaredUid tag = some uid → uid ≠ [] ∧
    ∀ uids ∈ register.uidTables, uids.lookup uid = none

/-- A new uid is entered with its position. -/
theorem emplaceUid_eq {uids : List (Text × Nat)} {index : Nat}
    (declared : declaredUid tag = tag.attr "uid")
    (new : ∀ uid, declaredUid tag = some uid → uid ≠ [] ∧ uids.lookup uid = none) :
    emplaceUid uids ((tag.attr "uid").getD []) index =
      uids ++ (declaredUid tag).toList.map fun uid => (uid, index) := by
  rw [declared] at new ⊢
  cases found : tag.attr "uid" with
  | none => simp [emplaceUid]
  | some uid =>
      obtain ⟨nonempty, absent⟩ := new uid found
      simp [emplaceUid, nonempty, emplace, absent]

/-- The entry of a start tag has the key of its element. -/
theorem EntryOf.key_eq (of : EntryOf identified (tag.context (parentName outline)) entry)
    (coherent : outline.Coherent) (opens : Opens outline identified)
    (isEntry : isEntry tag = true) :
    entryKey entry = entryKeyOf (outline.start tag) (outline.fresh tag) := by
  have image := @imageOf_fresh _ _ tag coherent opens
  have inMetadata : parentName outline = lit "Metadata" ↔
      parentKind (outline.fresh tag) = some .metadata := parentKind_fresh .metadata (by decide)
  have property : tag.name = lit "Property" ↔ tag.kind = .property := by
    rw [XmlTag.kind_eq (by decide)]
    refine ⟨fun named => ⟨?_, named⟩, And.right⟩
    simp only [Reader.isEntry, Bool.or_eq_true, decide_eq_true_eq] at isEntry
    exact isEntry.elim (fun kind => ((XmlTag.kind_eq (by decide)).mp kind).1)
      fun kind => ((XmlTag.kind_eq (by decide)).mp kind).1
  have scope : scopeOf (outline.start tag) (outline.fresh tag) = entry.scope := by
    rw [scopeOf, image, of.scope]
    simp only [inMetadata, show (tag.context (parentName outline)).parent = parentName outline
      from rfl]
  rw [entryKey, entryKeyOf, scope, image, of.kind, of.imageIndex, of.uid, of.name,
    entryName, nameOf,
    Library.Outline.fresh_tag]
  simp only [property, show (tag.context (parentName outline)).name = tag.name from rfl]
  rfl

theorem EntryOf.events_eq (of : EntryOf identified (tag.context (parentName outline)) entry)
    (coherent : outline.Coherent) (opens : Opens outline identified)
    (isEntry : isEntry tag = true) :
    directEvents (outline.ofKind Reader.isEntry).length entry =
      directEventsOf (outline.start tag) (outline.fresh tag) := by
  have key := of.key_eq coherent opens isEntry
  have scope : entry.scope = scopeOf (outline.start tag) (outline.fresh tag) :=
    congrArg EntryKey.scope key
  have image : entry.imageIndex = imageOf (outline.start tag) (outline.fresh tag) :=
    congrArg EntryKey.imageIndex key
  rw [directEvents, directEventsOf, scope, image, positionOf_fresh]

theorem registerOf_opened (coherent : outline.Coherent) (opens : Opens outline identified)
    (depth : identified.depth = outline.opened.length + 1)
    (counted : Counted outline identified)
    (new : UidIsNew tag (registerOf identified))
    (opened : Opened options platform identified (tag.context (parentName outline)) state') :
    registerOf state' = (registerOf identified).append
      (recordOf (outline.start tag) (outline.fresh tag)) := by
  have image := @imageOf_fresh _ _ tag coherent opens
  have enter (kind : XmlTag → Bool) (table : List (Text × Nat))
      (member : table ∈ (registerOf identified).uidTables)
      (declared : declaredUid tag = tag.attr "uid") :
      emplaceUid table ((tag.attr "uid").getD []) (outline.ofKind kind).length =
        table ++ uidAt (outline.start tag) kind (outline.fresh tag) := by
    rw [uidAt, positionOf_fresh]
    exact emplaceUid_eq declared fun uid found => ⟨(new uid found).1, (new uid found).2 _ member⟩
  have uid : (tag.context (parentName outline)).attributeOr "uid" = (tag.attr "uid").getD [] := rfl
  have events (kind : XmlTag → Bool) : objectEventsOf (outline.start tag) kind (outline.fresh tag) =
      directBinding (outline.ofKind kind).length identified.currentImage := by
    rw [objectEventsOf, positionOf_fresh, image]
  have key : objectKeyOf (outline.start tag) (outline.fresh tag) =
      ⟨(tag.attr "uid").getD [], identified.currentImage⟩ := by
    rw [objectKeyOf, image, Library.Outline.fresh_tag]
    rfl
  cases opened with
  | unhandled unknown same =>
      subst same
      rcases kind_of_unhandled unknown with kind | kind | kind | kind <;>
        simp [recordOf, Register.append, ofKindOnly, isKind, isEntry, isAncillary, kind]
  | table isXisf named run =>
      have kind := kind_of_name .table (by decide) isXisf named
      have declared := declaredUid_core (by decide) (by decide) kind (by decide)
      obtain ⟨rows, columns, -, -, -, -, rfl⟩ := startTable_eq run
      have entered := enter (isKind .table) identified.tableUids
        (by simp [Register.uidTables, registerOf]) declared
      have sameKey : tableKey (newTable identified (tag.context (parentName outline))
          rows columns) =
          tableKeyOf (outline.start tag) (outline.fresh tag) := by
        rw [tableKeyOf, key]
        rfl
      simp [recordOf, Register.append, ofKindOnly, isKind, isEntry, isAncillary, kind, registerOf,
        sameKey, events, counted.tables, uid, entered]
  | tableStructure isXisf named run =>
      have kind := kind_of_name .tableStructure (by decide) isXisf named
      have declared := declaredUid_core (by decide) (by decide) kind (by decide)
      have entered := enter (isKind .tableStructure) identified.tableStructureUids
        (by simp [Register.uidTables, registerOf]) declared
      have table := @around_fresh _ tag coherent .table
      obtain ⟨-, -, ⟨child, hasUid, rfl⟩ | ⟨notChild, child, -, rfl⟩⟩ := startStructure_eq run
      · have path := rootChild_path depth child
        have noTable : outline.openIndex (isKind .table) = none := by
          refine openIndex_of_path ?_
          rw [path]
          decide
        have standalone : isStandalone (outline.fresh tag) = true := by
          have length := congrArg List.length path
          rw [isStandalone, decide_eq_true_eq]
          simpa [pathKinds, rootPath] using length
        have notInTable : isTableChild identified (tag.context (parentName outline)) = false := by
          simp only [isRootChild, Bool.and_eq_true, decide_eq_true_eq] at child
          simp [isTableChild, child.1]
        obtain ⟨text, found⟩ := Option.isSome_iff_exists.mp hasUid
        have found' : tag.attr "uid" = some text := found
        have nonempty : text ≠ [] := (new text (declared.trans found')).1
        have standaloneEntered := enter (isKind .tableStructure) identified.standaloneStructureUids
          (by simp [Register.uidTables, registerOf]) declared
        rw [found', Option.getD_some, emplaceUid, if_neg nonempty] at standaloneEntered
        rw [found', Option.getD_some] at entered
        simp [recordOf, Register.append, ofKindOnly, isKind, isEntry, isAncillary, kind, registerOf,
          counted.tableStructures, entered, standalone, standaloneEntered, notInTable, structureKey,
          structureKeyOf, newStructure, found, found', table, noTable, XmlTag.attributeOr]
      · have inline : isStandalone (outline.fresh tag) = false := by
          simp only [isTableChild, Bool.and_eq_true, decide_eq_true_eq] at child
          rw [isStandalone, decide_eq_false_iff_not, Library.Outline.fresh_ancestors]
          omega
        have same (i k : Nat) : (identified.tables.modify i fun table =>
            { table with structureIndex := some k }).map tableKey =
            identified.tables.map tableKey := map_modify_same _ _ fun _ => rfl
        have noText : lit "" = [] := rfl
        have uid' : ((tag.context (parentName outline)).attr "uid").getD [] =
            (tag.attr "uid").getD [] := rfl
        simp [recordOf, Register.append, ofKindOnly, isKind, isEntry, isAncillary, kind, registerOf,
          counted.tableStructures, uid', entered, inline, structureKey, structureKeyOf,
          newStructure,
          table, opens.table, same, XmlTag.attributeOr, noText]
  | field isXisf named run =>
      have kind := kind_of_name .field (by decide) isXisf named
      obtain ⟨-, -, -, -, rfl⟩ := startField_eq run
      have same : (identified.tableStructures.modify (identified.openStructureIndex.getD 0)
          fun info => { info with fields := info.fields ++ [newField (tag.context
            (parentName outline))] }).map structureKey =
          identified.tableStructures.map structureKey := map_modify_same _ _ fun _ => rfl
      simp [recordOf, Register.append, ofKindOnly, isKind, isEntry, isAncillary, kind, registerOf,
        same]
  | row isXisf named run =>
      have kind := kind_of_name .row (by decide) isXisf named
      obtain ⟨-, -, -, -, rfl⟩ := startRow_eq run
      have same : (identified.tables.modify (identified.openTableIndex.getD 0)
          fun table => { table with rows := table.rows ++ [⟨[]⟩] }).map tableKey =
          identified.tables.map tableKey := map_modify_same _ _ fun _ => rfl
      simp [recordOf, Register.append, ofKindOnly, isKind, isEntry, isAncillary, kind, registerOf,
        same]
  | cell isXisf named run =>
      have kind := kind_of_name .cell (by decide) isXisf named
      obtain ⟨block, form, length, rows, columns, -, -, -, -, -, -, -, -, rfl⟩ := startCell_eq run
      have same (change : TableRowInfo → TableRowInfo) :
          (identified.tables.modify (identified.openTableIndex.getD 0)
            fun table => modifyRows table (identified.openTableRowIndex.getD 0) change).map
            tableKey =
          identified.tables.map tableKey := map_modify_same _ _ fun _ => rfl
      simp [recordOf, Register.append, ofKindOnly, isKind, isEntry, isAncillary, kind, registerOf,
        same]
  | iccProfile isXisf named run =>
      have kind := kind_of_name .iccProfile (by decide) isXisf named
      have declared := declaredUid_core (by decide) (by decide) kind (by decide)
      have entered := enter (isKind .iccProfile) identified.iccProfileUids
        (by simp [Register.uidTables, registerOf]) declared
      obtain ⟨location, -, -, -, -, ⟨-, rfl⟩ | ⟨-, -, rfl⟩⟩ := startIccProfile_eq run
      all_goals
        simp [recordOf, Register.append, ofKindOnly, isKind, isEntry, isAncillary, kind, registerOf,
          key, events, addIccProfile, beginEncoding, newIccProfile, counted.iccProfiles, uid,
          entered]
  | ancillary isXisf which named run =>
      have kind := XmlTag.kind_ancillary isXisf named
      have declared := declaredUid_core (by cases which <;> decide) (by cases which <;> decide) kind
        (by simp)
      have entered := enter isAncillary identified.ancillaryUids
        (by simp [Register.uidTables, registerOf]) declared
      obtain ⟨-, -, -, -, -, rfl⟩ := startAncillary_eq run
      simp [recordOf, Register.append, ofKindOnly, isKind, isEntry, isAncillary, kind, registerOf,
        key, events, newAncillary, counted.ancillaryObjects, uid, entered]
  | thumbnail isXisf named run =>
      have kind := kind_of_name .thumbnail (by decide) isXisf named
      have declared := declaredUid_core (by decide) (by decide) kind (by decide)
      have entered := enter (isKind .thumbnail) identified.thumbnailUids
        (by simp [Register.uidTables, registerOf]) declared
      obtain ⟨location, info, -, -, -, -, -, -, rfl⟩ := startThumbnail_eq run
      simp [recordOf, Register.append, ofKindOnly, isKind, isEntry, isAncillary, kind, registerOf,
        key, events, counted.thumbnails, uid, entered]
  | data isXisf named run =>
      have kind := kind_of_name .data (by decide) isXisf named
      obtain ⟨-, -, ⟨-, -, -, rfl⟩ | ⟨index, -, -, -, rfl⟩⟩ := startData_eq run
      · simp [recordOf, Register.append, ofKindOnly, isKind, isEntry, isAncillary, kind, registerOf,
          beginEncoding]
      · have same : (identified.thumbnails.modify index fun thumbnail =>
            { thumbnail with
              image := adoptBlockAttributes (tag.context (parentName outline)) thumbnail.image
              }).map (fun thumbnail => ObjectKey.mk thumbnail.uid
                thumbnail.imageIndex) =
            identified.thumbnails.map fun thumbnail => ⟨thumbnail.uid, thumbnail.imageIndex⟩ :=
          map_modify_same _ _ fun _ => rfl
        simp [recordOf, Register.append, ofKindOnly, isKind, isEntry, isAncillary, kind, registerOf,
          beginEncoding, same]
  | image isXisf named run =>
      have kind := kind_of_name .image (by decide) isXisf named
      obtain ⟨-, -, -, -, -, -, -, rfl⟩ := startImage_eq run
      simp [recordOf, Register.append, ofKindOnly, isKind, isEntry, isAncillary, kind, registerOf]
  | metadata isXisf named run =>
      have kind := kind_of_name .metadata (by decide) isXisf named
      obtain ⟨-, -, rfl⟩ := startMetadata_eq run
      simp [recordOf, Register.append, ofKindOnly, isKind, isEntry, isAncillary, kind, registerOf]
  | entry isXisf named run =>
      have kinds : tag.kind = .property ∨ tag.kind = .fitsKeyword :=
        named.imp (kind_of_name _ (by decide) isXisf) (kind_of_name _ (by decide) isXisf)
      have isEntry : isEntry tag = true := by simpa [Reader.isEntry] using kinds
      have declared : declaredUid tag = tag.attr "uid" := by
        rcases kinds with kind | kind
        · exact declaredUid_core (by decide) (by decide) kind (by decide)
        · exact declaredUid_core (by decide) (by decide) kind (by decide)
      have entered := enter Reader.isEntry identified.metadataUids
        (by simp [Register.uidTables, registerOf]) declared
      obtain ⟨entry, of, -, -, -, -, -, rest⟩ := startMetadataEntry_eq run
      have sameKey := of.key_eq coherent opens isEntry
      have sameEvents := of.events_eq coherent opens isEntry
      have added : registerOf (addEntry identified (tag.context (parentName outline)) entry) =
          (registerOf identified).append (recordOf (outline.start tag) (outline.fresh tag)) := by
        have others : ∀ kind ∈ [ElementKind.iccProfile, .thumbnail, .table, .tableStructure],
            isKind kind tag = false := by
          rcases kinds with kind | kind <;> simp [isKind, kind]
        simp only [List.mem_cons, List.not_mem_nil, or_false, forall_eq_or_imp, forall_eq] at others
        have notAncillary : isAncillary tag = false := by
          rcases kinds with kind | kind <;> simp [isAncillary, kind]
        simp [recordOf, Register.append, ofKindOnly, isEntry, notAncillary, others, registerOf,
          addEntry, sameKey, counted.metadata, sameEvents, of.uid, uid, entered]
      rcases rest with ⟨-, rfl⟩ | ⟨-, -, -, -, rfl⟩ | ⟨-, -, rfl⟩ <;> exact added

/-! ### The invariant -/

/-- The register of the parser is that of the outline, and uids are unique. -/
structure Registered (outline : HeaderOutline) (state : XmlBuilder) : Prop where
  same : registerOf state = .of outline
  unique : state.coreUids.Nodup
  nonempty : [] ∉ state.coreUids

theorem mem_ofKindOnly {α : Type} {kind : XmlTag → Bool} {records : List α} {a : α}
    (member : a ∈ ofKindOnly kind tag records) : a ∈ records := by
  unfold ofKindOnly at member
  split at member
  · exact member
  · cases member

theorem mem_uidAt {element : HeaderElement} {kind : XmlTag → Bool} {pair : Text × Nat}
    (member : pair ∈ uidAt outline kind element) : declaredUid element.tag = some pair.1 := by
  unfold uidAt at member
  simp only [List.mem_map, Option.mem_toList] at member
  obtain ⟨uid, declared, rfl⟩ := member
  exact declared

/-- Every uid of a table is the uid of an element. -/
theorem Register.uidTables_of {uids : List (Text × Nat)}
    (member : uids ∈ (Register.of outline).uidTables) {pair : Text × Nat} (inside : pair ∈ uids) :
    pair.1 ∈ (Register.of outline).coreUids := by
  rw [Register.field_of Register.coreUids (fun _ _ => rfl) rfl]
  have declared : ∃ element ∈ outline.elements, declaredUid element.tag = some pair.1 := by
    simp only [Register.uidTables, List.mem_cons, List.not_mem_nil, or_false] at member
    rcases member with rfl | rfl | rfl | rfl | rfl | rfl | rfl
    · rw [Register.field_of Register.metadataUids (fun _ _ => rfl) rfl] at inside
      obtain ⟨element, there, added⟩ := List.mem_flatMap.mp inside
      exact ⟨element, there, mem_uidAt (mem_ofKindOnly added)⟩
    · rw [Register.field_of Register.ancillaryUids (fun _ _ => rfl) rfl] at inside
      obtain ⟨element, there, added⟩ := List.mem_flatMap.mp inside
      exact ⟨element, there, mem_uidAt (mem_ofKindOnly added)⟩
    · rw [Register.field_of Register.iccProfileUids (fun _ _ => rfl) rfl] at inside
      obtain ⟨element, there, added⟩ := List.mem_flatMap.mp inside
      exact ⟨element, there, mem_uidAt (mem_ofKindOnly added)⟩
    · rw [Register.field_of Register.thumbnailUids (fun _ _ => rfl) rfl] at inside
      obtain ⟨element, there, added⟩ := List.mem_flatMap.mp inside
      exact ⟨element, there, mem_uidAt (mem_ofKindOnly added)⟩
    · rw [Register.field_of Register.tableUids (fun _ _ => rfl) rfl] at inside
      obtain ⟨element, there, added⟩ := List.mem_flatMap.mp inside
      exact ⟨element, there, mem_uidAt (mem_ofKindOnly added)⟩
    · rw [Register.field_of Register.structureUids (fun _ _ => rfl) rfl] at inside
      obtain ⟨element, there, added⟩ := List.mem_flatMap.mp inside
      exact ⟨element, there, mem_uidAt (mem_ofKindOnly added)⟩
    · rw [Register.field_of Register.standaloneUids (fun _ _ => rfl) rfl] at inside
      obtain ⟨element, there, added⟩ := List.mem_flatMap.mp inside
      have added : pair ∈ (if isStandalone element then ofKindOnly (isKind .tableStructure)
          element.tag (uidAt outline (isKind .tableStructure) element) else []) := added
      split at added
      · exact ⟨element, there, mem_uidAt (mem_ofKindOnly added)⟩
      · cases added
  obtain ⟨element, there, found⟩ := declared
  refine List.mem_flatMap.mpr ⟨element, there, ?_⟩
  show pair.1 ∈ (declaredUid element.tag).toList ++ []
  rw [found]
  simp

theorem isValidUniqueId_nonempty {uid : Text} (valid : isValidUniqueId uid = true) : uid ≠ [] := by
  rintro rfl
  cases valid

/-- A uid that no core element has is in no table. -/
theorem Registered.uidIsNew (registered : Registered outline state)
    (new : ∀ uid, declaredUid tag = some uid → isValidUniqueId uid = true ∧ uid ∉ state.coreUids)
    {outline' : HeaderOutline} {element : HeaderElement} :
    UidIsNew tag ((registerOf state).append (identityOf outline' element)) := by
  intro uid declared
  obtain ⟨valid, absent⟩ := new uid declared
  refine ⟨isValidUniqueId_nonempty valid, fun uids member => ?_⟩
  have tables : ((registerOf state).append (identityOf outline' element)).uidTables =
      (Register.of outline).uidTables := by
    rw [← registered.same]
    simp [Register.uidTables, Register.append, identityOf]
  rw [tables] at member
  have core : state.coreUids = (Register.of outline).coreUids :=
    congrArg Register.coreUids registered.same
  rw [List.lookup_eq_none_iff]
  intro pair inside
  have known := Register.uidTables_of member inside
  rw [← core] at known
  rw [bne_iff_ne]
  rintro rfl
  exact absent known

theorem Registered.add (registered : Registered outline state) (coherent : outline.Coherent)
    (new : ∀ uid, declaredUid tag = some uid → isValidUniqueId uid = true ∧ uid ∉ state.coreUids)
    (added : registerOf state' = ((registerOf state).append
      (identityOf (outline.start tag) (outline.fresh tag))).append
        (recordOf (outline.start tag) (outline.fresh tag))) :
    Registered (outline.start tag) state' := by
  obtain ⟨same, unique, nonempty⟩ := registered
  have core : state'.coreUids = state.coreUids ++ (declaredUid tag).toList := by
    have core := congrArg Register.coreUids added
    simpa [Register.append, identityOf, recordOf, registerOf] using core
  refine ⟨?_, ?_, ?_⟩
  · rw [added, Register.append_assoc, same, Register.of_start coherent]
    rfl
  · rw [core]
    cases declared : declaredUid tag with
    | none => simpa using unique
    | some uid =>
        have absent := (new uid declared).2
        rw [Option.toList_some, List.nodup_append]
        refine ⟨unique, List.nodup_singleton uid, fun a inside b single => ?_⟩
        rw [List.mem_singleton.mp single]
        rintro rfl
        exact absent inside
  · rw [core, List.mem_append, not_or]
    refine ⟨nonempty, fun impossible => ?_⟩
    rw [Option.mem_toList] at impossible
    exact isValidUniqueId_nonempty (new [] impossible).1 rfl

theorem Registered.start (registered : Registered outline state) (shape : Shape outline state)
    (started : Started options platform state (tag.context (parentName outline)) state') :
    Registered (outline.start tag) state' := by
  obtain ⟨stacked, counted, opens, -⟩ := shape
  have coherent := stacked.coherent
  obtain ⟨-, -, -, -, -, base, index, ranges, extended, opened⟩ := started
  have same : registerOf (enteredState base (tag.context (parentName outline)) index ranges) =
      registerOf state := registerOf_enter extended
  have opens' : Opens outline (enteredState base (tag.context (parentName outline)) index ranges) :=
    opens.enter extended
  have counted' : Counted outline
      (enteredState base (tag.context (parentName outline)) index ranges) := counted.enter extended
  have depth' : (enteredState base (tag.context (parentName outline)) index ranges).depth =
      outline.opened.length + 1 := by
    have depth : base.depth = state.depth + 1 := by cases extended <;> rfl
    exact depth.trans (congrArg (· + 1) stacked.depth)
  have registered' : Registered outline
      (enteredState base (tag.context (parentName outline)) index ranges) := by
    have core := congrArg Register.coreUids same
    refine ⟨same.trans registered.same, ?_, ?_⟩
    · rw [show (enteredState base (tag.context (parentName outline)) index ranges).coreUids =
        state.coreUids from core]
      exact registered.unique
    · rw [show (enteredState base (tag.context (parentName outline)) index ranges).coreUids =
        state.coreUids from core]
      exact registered.nonempty
  rcases opened with ⟨-, -, isXisf, named, rfl⟩ | ⟨-, identified, identify, opened⟩
  · -- the root is not named, is no Reference, and takes no branch
    have identify : Identified options
        (enteredState base (tag.context (parentName outline)) index ranges)
        (tag.context (parentName outline))
        (enteredState base (tag.context (parentName outline)) index ranges) :=
      .anonymous fun _ core => by
        rw [named] at core
        exact absurd core (by decide)
    obtain ⟨noted, new⟩ := registerOf_identify opens' coherent identify
    have unhandled : Opened options platform
        (seeRoot (enteredState base (tag.context (parentName outline)) index ranges))
        (tag.context (parentName outline))
        (seeRoot (enteredState base (tag.context (parentName outline)) index ranges)) :=
      .unhandled (fun _ => by rw [named]; decide) rfl
    have isNew : UidIsNew tag (registerOf (seeRoot (enteredState base
        (tag.context (parentName outline)) index ranges))) := by
      show UidIsNew tag
        (registerOf (enteredState base (tag.context (parentName outline)) index ranges))
      rw [noted]
      exact registered'.uidIsNew new
    have added := registerOf_opened coherent opens'.seeRoot depth' counted'.seeRoot isNew unhandled
    refine registered'.add coherent new ?_
    rw [← noted]
    exact added
  · obtain ⟨noted, new⟩ := registerOf_identify opens' coherent identify
    have depth'' : identified.depth = outline.opened.length + 1 := by
      have kept : identified.depth =
          (enteredState base (tag.context (parentName outline)) index ranges).depth := by
        cases identify <;> rfl
      exact kept.trans depth'
    refine registered'.add coherent new ?_
    rw [← noted]
    refine registerOf_opened coherent (opens'.identify identify) depth''
      (counted'.identify identify) ?_ opened
    rw [noted]
    exact registered'.uidIsNew new

theorem registered_empty : Registered {} {} := ⟨rfl, List.nodup_nil, List.not_mem_nil⟩

/-- A step that leaves the register. -/
theorem Registered.congr (registered : Registered outline state) {outline' : HeaderOutline}
    (same : registerOf state' = registerOf state)
    (sameOutline : Register.of outline' = Register.of outline) : Registered outline' state' := by
  have core : state'.coreUids = state.coreUids := congrArg Register.coreUids same
  refine ⟨?_, ?_, ?_⟩
  · rw [same, registered.same, sameOutline]
  · rw [core]
    exact registered.unique
  · rw [core]
    exact registered.nonempty

theorem preserved_registered : Preserved options platform Registered where
  empty := registered_empty
  declared registered := registered.congr rfl rfl
  start shape registered started := registered.start shape started
  close _ registered _ close := registered.congr (registerOf_close close) Register.of_finish
  text _ registered taken := registered.congr (registerOf_text taken) (Register.of_append _)

theorem ParserRun.registered (parser : ParserRun options platform) :
    Registered parser.outline parser.state := parser.holds preserved_registered

/-! ## The unit's own Properties -/

/-- A Property with this id directly in Metadata. -/
def isUnitNamed (name : Text) (element : HeaderElement) : Bool :=
  element.tag.kind = .property && parentKind element = some .metadata && nameOf element.tag = name

/-- What is counted and seen of Metadata. -/
structure UnitSeen (outline : HeaderOutline) (state : XmlBuilder) : Prop where
  metadata : state.metadataCount = (outline.ofKind (isKind .metadata)).length
  creationTime : state.sawCreationTime =
    outline.elements.any (isUnitNamed (lit "XISF:CreationTime"))
  creatorApplication : state.sawCreatorApplication =
    outline.elements.any (isUnitNamed (lit "XISF:CreatorApplication"))

/-- What the branch of an element adds to what was seen. -/
theorem Opened.unitSeen
    (opened : Opened options platform identified (tag.context (parentName outline)) state') :
    state'.metadataCount = identified.metadataCount + (if isKind .metadata tag then 1 else 0) ∧
      state'.sawCreationTime = (identified.sawCreationTime ||
        isUnitNamed (lit "XISF:CreationTime") (outline.fresh tag)) ∧
      state'.sawCreatorApplication = (identified.sawCreatorApplication ||
        isUnitNamed (lit "XISF:CreatorApplication") (outline.fresh tag)) := by
  have other (notEntry : tag.kind ≠ .property) (name : Text) :
      isUnitNamed name (outline.fresh tag) = false := by
    simp [isUnitNamed, notEntry]
  cases opened with
  | unhandled unknown same =>
      subst same
      rcases kind_of_unhandled unknown with kind | kind | kind | kind <;>
        simp [other, isKind, kind]
  | table isXisf named run =>
      have kind := kind_of_name .table (by decide) isXisf named
      obtain ⟨-, -, -, -, -, -, rfl⟩ := startTable_eq run
      simp [other, isKind, kind]
  | tableStructure isXisf named run =>
      have kind := kind_of_name .tableStructure (by decide) isXisf named
      obtain ⟨-, -, ⟨-, -, rfl⟩ | ⟨-, -, -, rfl⟩⟩ := startStructure_eq run <;>
        simp [other, isKind, kind]
  | field isXisf named run =>
      have kind := kind_of_name .field (by decide) isXisf named
      obtain ⟨-, -, -, -, rfl⟩ := startField_eq run
      simp [other, isKind, kind]
  | row isXisf named run =>
      have kind := kind_of_name .row (by decide) isXisf named
      obtain ⟨-, -, -, -, rfl⟩ := startRow_eq run
      simp [other, isKind, kind]
  | cell isXisf named run =>
      have kind := kind_of_name .cell (by decide) isXisf named
      obtain ⟨-, -, -, -, -, -, -, -, -, -, -, -, -, rfl⟩ := startCell_eq run
      simp [other, isKind, kind]
  | iccProfile isXisf named run =>
      have kind := kind_of_name .iccProfile (by decide) isXisf named
      obtain ⟨-, -, -, -, -, ⟨-, rfl⟩ | ⟨-, -, rfl⟩⟩ := startIccProfile_eq run <;>
        simp [other, isKind, kind, addIccProfile, beginEncoding]
  | ancillary isXisf which named run =>
      have kind := XmlTag.kind_ancillary isXisf named
      obtain ⟨-, -, -, -, -, rfl⟩ := startAncillary_eq run
      simp [other, isKind, kind]
  | thumbnail isXisf named run =>
      have kind := kind_of_name .thumbnail (by decide) isXisf named
      obtain ⟨-, -, -, -, -, -, -, -, rfl⟩ := startThumbnail_eq run
      simp [other, isKind, kind]
  | data isXisf named run =>
      have kind := kind_of_name .data (by decide) isXisf named
      obtain ⟨-, -, ⟨-, -, -, rfl⟩ | ⟨-, -, -, -, rfl⟩⟩ := startData_eq run <;>
        simp [other, isKind, kind, beginEncoding]
  | image isXisf named run =>
      have kind := kind_of_name .image (by decide) isXisf named
      obtain ⟨-, -, -, -, -, -, -, rfl⟩ := startImage_eq run
      simp [other, isKind, kind]
  | metadata isXisf named run =>
      have kind := kind_of_name .metadata (by decide) isXisf named
      obtain ⟨-, -, rfl⟩ := startMetadata_eq run
      simp [other, isKind, kind]
  | entry isXisf named run =>
      have inMetadata : parentName outline = lit "Metadata" ↔
          parentKind (outline.fresh tag) = some .metadata :=
        parentKind_fresh .metadata (by decide)
      have property : tag.kind = .property ↔ tag.name = lit "Property" := by
        rw [XmlTag.kind_eq (by decide)]
        exact ⟨And.right, fun named => ⟨isXisf, named⟩⟩
      have unit (name : Text) : (isUnitProperty (tag.context (parentName outline)) &&
          decide (entryName (tag.context (parentName outline)) = name)) =
          isUnitNamed name (outline.fresh tag) := by
        have sameName : entryName (tag.context (parentName outline)) = nameOf tag := by
          rw [entryName, nameOf]
          simp only [property]
          rfl
        rw [isUnitProperty, isUnitNamed, sameName, Library.Outline.fresh_tag]
        simp only [property, ← inMetadata]
        rfl
      have notMetadata : isKind .metadata tag = false := by
        rcases named with named | named
        · simp [isKind, kind_of_name .property (by decide) isXisf named]
        · simp [isKind, kind_of_name .fitsKeyword (by decide) isXisf named]
      obtain ⟨-, -, -, -, -, -, -, ⟨-, rfl⟩ | ⟨-, -, -, -, rfl⟩ | ⟨-, -, rfl⟩⟩ :=
        startMetadataEntry_eq run <;>
        simp [notMetadata, addEntry, beginEncoding, unit]

theorem UnitSeen.congr (seen : UnitSeen outline state) {outline' : HeaderOutline}
    (same : state'.metadataCount = state.metadataCount ∧
      state'.sawCreationTime = state.sawCreationTime ∧
      state'.sawCreatorApplication = state.sawCreatorApplication)
    (count : (outline'.ofKind (isKind .metadata)).length =
      (outline.ofKind (isKind .metadata)).length)
    (elements : ∀ name, outline'.elements.any (isUnitNamed name) =
      outline.elements.any (isUnitNamed name)) : UnitSeen outline' state' := by
  obtain ⟨metadata, creationTime, creatorApplication⟩ := seen
  obtain ⟨sameMetadata, sameTime, sameApplication⟩ := same
  refine ⟨?_, ?_, ?_⟩
  · rw [sameMetadata, metadata, count]
  · rw [sameTime, creationTime, elements]
  · rw [sameApplication, creatorApplication, elements]

theorem preserved_unitSeen : Preserved options platform UnitSeen where
  empty := ⟨rfl, rfl, rfl⟩
  declared seen := ⟨seen.metadata, seen.creationTime, seen.creatorApplication⟩
  start := by
    intro outline state state' tag shape seen started
    obtain ⟨metadata, creationTime, creatorApplication⟩ := seen
    obtain ⟨-, -, -, -, -, base, index, ranges, extended, opened⟩ := started
    -- the root takes no branch
    obtain ⟨from_, ⟨sameMetadata, sameTime, sameApplication⟩, opened⟩ : ∃ from_ : XmlBuilder,
        (from_.metadataCount = state.metadataCount ∧
          from_.sawCreationTime = state.sawCreationTime ∧
          from_.sawCreatorApplication = state.sawCreatorApplication) ∧
        Opened options platform from_ (tag.context (parentName outline)) state' := by
      rcases opened with ⟨-, -, isXisf, named, rfl⟩ | ⟨-, identified, identify, opened⟩
      · refine ⟨_, ?_, .unhandled (fun _ => by rw [named]; decide) rfl⟩
        cases extended <;> exact ⟨rfl, rfl, rfl⟩
      · refine ⟨identified, ?_, opened⟩
        cases extended <;> cases identify <;> exact ⟨rfl, rfl, rfl⟩
    obtain ⟨addedMetadata, addedTime, addedApplication⟩ := opened.unitSeen
    refine ⟨?_, ?_, ?_⟩
    · rw [addedMetadata, sameMetadata, metadata, Library.Outline.length_ofKind_start]
    · rw [addedTime, sameTime, creationTime, Library.Outline.start_elements, List.any_append]
      simp
    · rw [addedApplication, sameApplication, creatorApplication, Library.Outline.start_elements,
        List.any_append]
      simp
  close := by
    intro outline state closed top below shape seen opened close
    refine seen.congr ?_ rfl fun _ => rfl
    cases close <;> exact ⟨rfl, rfl, rfl⟩
  text := by
    intro outline state state' text shape seen taken
    refine seen.congr ?_ (Library.Outline.length_ofKind_append _) fun name => ?_
    · cases taken with
      | encoded state' inside run =>
          obtain ⟨decoder, bytes, -, -, added, count, ⟨-, rfl⟩, rfl⟩ := decodeEmbeddedText_eq run
          unfold addBytes
          split <;> exact ⟨rfl, rfl, rfl⟩
      | _ => exact ⟨rfl, rfl, rfl⟩
    · cases opened : outline.opened with
      | nil =>
          unfold Library.Outline.append
          rw [opened]
      | cons top below =>
          rw [Library.Outline.append_elements opened, List.any_map]
          congr 1
          funext element
          simp only [Function.comp_apply, isUnitNamed, parentKind,
            Library.Element.extendAt_ancestors,
            Library.Element.extendAt_tag]
          rfl

end

end Mmxisf.Reader
