/-
# Association -- the bindings of an accepted document

An entry or an object belongs to the image it is in, and to each image with a
Reference that names it; a Property also to the unit, from Metadata.  The bindings
are rebuilt after parsing, in several passes over one list of events.  They come
out as a function of the elements of the header and what surrounds them, in
document order, with nothing lost and nothing added.
-/
import Mmxisf.Reader.Bindings
import Mmxisf.Reader.Tables

namespace Mmxisf.Reader

set_option autoImplicit false

variable {options : ReaderOptions} {platform : Platform}

/-! ## What is bound -/

/-- The binding of the entry at a position, by its scope. -/
def directBindingAt (i : Nat) (entry : MetadataEntry) : List MetadataBinding :=
  if entry.scope = .standalone then []
  else [⟨i, if entry.scope = .image then .image else .xisfUnit, entry.imageIndex, false⟩]

/-- The bindings of Properties and FITSKeywords. -/
structure EntriesBound (outline : HeaderOutline) (document : Document) : Prop where
  records : document.metadata.map entryKey = (outline.ofKind isEntry).map (entryKeyOf outline)
  inRange : ∀ binding ∈ document.metadataBindings,
    binding.metadataIndex < document.metadata.length ∧
      ∀ image, binding.imageIndex = some image → image < document.images.length
  /-- In document order, and no others. -/
  all : document.metadataBindings = outline.elements.flatMap (metadataBindingsOf outline)
  direct : ∀ (i : Nat) (entry : MetadataEntry), document.metadata[i]? = some entry →
    document.metadataBindings.filter (fun binding =>
      binding.metadataIndex = i && !binding.byReference) = directBindingAt i entry
  /-- One binding to the image of a Reference. -/
  fromImage : ∀ reference ∈ outline.elements, parentKind reference = some .image →
    ∀ target ∈ outline.ofKind isEntry, names reference target = true →
      ∃ image, imageOf outline reference = some image ∧ referenceBindingsOf outline reference =
        [⟨positionOf outline isEntry target, .image, some image, true⟩]
  /-- One binding to the unit. -/
  fromMetadata : ∀ reference ∈ outline.elements, parentKind reference = some .metadata →
    ∀ target ∈ outline.ofKind isEntry, names reference target = true →
      target.tag.kind = .property ∧ referenceBindingsOf outline reference =
        [⟨positionOf outline isEntry target, .xisfUnit, none, true⟩]
  otherKind : ∀ reference, ∀ target ∈ outline.elements, names reference target = true →
    isEntry target.tag = false → referenceBindingsOf outline reference = []

/-- The bindings of the objects of a kind, whose records are in these images. -/
structure ObjectsAssociated (outline : HeaderOutline) (kind : XmlTag → Bool) (images : Nat)
    (owners : List (Option Nat)) (bindings : List ObjectBinding) : Prop where
  records : owners = (outline.ofKind kind).map (imageOf outline)
  inRange : ∀ binding ∈ bindings, binding.objectIndex < owners.length ∧ binding.imageIndex < images
  all : bindings = objectBindingsOf outline kind
  direct : ∀ (i : Nat) (owner : Option Nat), owners[i]? = some owner →
    bindings.filter (fun binding => binding.objectIndex = i && !binding.byReference) =
      owner.toList.map fun image => ⟨i, image, false⟩
  fromImage : ∀ reference ∈ outline.elements, parentKind reference = some .image →
    ∀ target ∈ outline.ofKind kind, names reference target = true →
      ∃ image, imageOf outline reference = some image ∧ objectReferencesOf outline kind reference =
        [⟨positionOf outline kind target, image, true⟩]
  otherKind : ∀ reference, ∀ target ∈ outline.elements, names reference target = true →
    kind target.tag = false → objectReferencesOf outline kind reference = []

/-- The identifier of a bound Property, with what it is bound to. -/
def propertyIdentifier (document : Document) (binding : MetadataBinding) :
    Option (Option Nat × Text) :=
  (document.metadata[binding.metadataIndex]?).bind fun entry =>
    if entry.kind ≠ .property then none
    else if binding.scope = .xisfUnit then some (none, entry.name)
    else binding.imageIndex.map fun image => (some image, entry.name)

/-- The identifiers in each association, of Properties and of Tables. -/
def boundIdentifiers (document : Document) : List (Option Nat × Text) :=
  document.metadataBindings.filterMap (propertyIdentifier document) ++
    document.tableBindings.filterMap (tableIdentifier document.tables)

/-- A binding of an entry with this name to the unit. -/
def bindsInUnit (document : Document) (name : Text) (binding : MetadataBinding) : Bool :=
  binding.scope = .xisfUnit &&
    (document.metadata[binding.metadataIndex]?).any fun entry => entry.name = name

structure AssociationGraph (header : AcceptedHeader options platform) : Prop where
  /-- A Reference names one element at most. -/
  uids : (header.outline.elements.filterMap fun element => declaredUid element.tag).Nodup
  entries : EntriesBound header.outline header.parsed.document
  ancillary : ObjectsAssociated header.outline isAncillary header.parsed.document.images.length
    (header.parsed.document.ancillaryObjects.map AncillaryObject.imageIndex)
    header.parsed.document.ancillaryBindings
  iccProfiles : ObjectsAssociated header.outline (isKind .iccProfile)
    header.parsed.document.images.length
    (header.parsed.document.iccProfiles.map IccProfileInfo.imageIndex)
    header.parsed.document.iccProfileBindings
  thumbnails : ObjectsAssociated header.outline (isKind .thumbnail)
    header.parsed.document.images.length
    (header.parsed.document.thumbnails.map ThumbnailInfo.imageIndex)
    header.parsed.document.thumbnailBindings
  tables : ObjectsAssociated header.outline (isKind .table) header.parsed.document.images.length
    (header.parsed.document.tables.map TableInfo.imageIndex) header.parsed.document.tableBindings
  /-- A Reference in Metadata to anything but a Property is refused. -/
  fromMetadata : ∀ reference ∈ header.outline.elements, parentKind reference = some .metadata →
    ∀ target ∈ header.outline.elements, names reference target = true →
      target.tag.kind ≠ .tableStructure ∧ target.tag.kind ≠ .fitsKeyword ∧
        target.tag.kind ≠ .table
  identifiers : (boundIdentifiers header.parsed.document).Nodup
  creationTime : (header.parsed.document.metadataBindings.filter
    (bindsInUnit header.parsed.document (lit "XISF:CreationTime"))).length = 1
  creatorApplication : (header.parsed.document.metadataBindings.filter
    (bindsInUnit header.parsed.document (lit "XISF:CreatorApplication"))).length = 1

/-! ## Bindings by place -/

section

variable {outline : HeaderOutline} {state : XmlBuilder} {kind : XmlTag → Bool} {i : Nat}

/-- Of what the elements of a kind add, the part of the element at a position. -/
theorem own_at {α : Type} (coherent : outline.Coherent) {own : HeaderElement → List α}
    {part : α → Bool} (here : ∀ element ∈ outline.ofKind kind, (own element).filter part =
      if positionOf outline kind element = i then own element else []) :
    ((outline.ofKind kind).flatMap own).filter part =
      ((outline.ofKind kind)[i]?).toList.flatMap own := by
  rw [List.filter_flatMap, Library.flatMap_of_position (i := i)]
  · cases there : (outline.ofKind kind)[i]? with
    | none => rfl
    | some element =>
        rw [Option.toList_some, List.flatMap_singleton, List.flatMap_singleton,
          here element (List.mem_of_getElem? there)]
        exact if_pos (coherent.rank_of_getElem? there)
  · intro j element there other
    rw [here element (List.mem_of_getElem? there)]
    refine if_neg fun same => other ?_
    rw [← same]
    exact (coherent.rank_of_getElem? there).symm

/-- The bindings by place of the object at a position. -/
theorem objectBindings_direct (coherent : outline.Coherent) :
    (objectBindingsOf outline kind).filter (fun binding =>
      binding.objectIndex = i && !binding.byReference) =
      ((outline.ofKind kind)[i]?).toList.flatMap (ownBindingsOf outline kind) := by
  have referenced : (outline.elements.flatMap (objectReferencesOf outline kind)).filter
      (fun binding => binding.objectIndex = i && !binding.byReference) = [] := by
    rw [List.filter_eq_nil_iff]
    intro binding member
    obtain ⟨element, -, here⟩ := List.mem_flatMap.mp member
    rw [objectReferencesOf] at here
    split at here
    · obtain ⟨image, -, here⟩ := List.mem_flatMap.mp here
      obtain ⟨target, -, rfl⟩ := List.mem_map.mp here
      simp
    · cases here
  rw [objectBindingsOf, List.filter_append, referenced, List.append_nil]
  refine own_at coherent fun element _ => ?_
  rw [ownBindingsOf]
  cases imageOf outline element with
  | none => simp
  | some image => by_cases same : positionOf outline kind element = i <;> simp [same]

theorem entryBindings_direct (coherent : outline.Coherent) :
    (outline.elements.flatMap (metadataBindingsOf outline)).filter (fun binding =>
      binding.metadataIndex = i && !binding.byReference) =
      ((outline.ofKind isEntry)[i]?).toList.flatMap (directBindingOf outline) := by
  have split : (outline.elements.flatMap (metadataBindingsOf outline)).filter (fun binding =>
        binding.metadataIndex = i && !binding.byReference) =
      ((outline.ofKind isEntry).flatMap (directBindingOf outline)).filter (fun binding =>
        binding.metadataIndex = i && !binding.byReference) := by
    have same := flatMap_ofKindOnly isEntry (directBindingOf outline) outline.elements
    rw [Library.Outline.ofKind, ← same, List.filter_flatMap, List.filter_flatMap]
    congr 1
    funext element
    have referenced : (referenceBindingsOf outline element).filter (fun binding =>
        binding.metadataIndex = i && !binding.byReference) = [] := by
      rw [List.filter_eq_nil_iff, referenceBindingsOf]
      intro binding here
      split at here
      · obtain ⟨target, -, rfl⟩ := List.mem_map.mp here
        simp
      · cases here
    rw [metadataBindingsOf, List.filter_append, referenced, List.nil_append]
  rw [split]
  refine own_at coherent fun element _ => ?_
  rw [directBindingOf]
  by_cases standalone : scopeOf outline element = .standalone
  · simp [standalone]
  · by_cases same : positionOf outline isEntry element = i <;> simp [standalone, same]

/-- The record of an element is at its position. -/
theorem directBindingAt_eq {entry : MetadataEntry} {element : HeaderElement}
    (key : entryKey entry = entryKeyOf outline element)
    (position : positionOf outline isEntry element = i) :
    directBindingOf outline element = directBindingAt i entry := by
  have scope : entry.scope = scopeOf outline element := congrArg EntryKey.scope key
  have image : entry.imageIndex = imageOf outline element := congrArg EntryKey.imageIndex key
  rw [directBindingOf, directBindingAt, scope, image, position]

/-! ## Bindings by reference -/

/-- What a Reference names among the elements of a kind. -/
theorem targets_eq (unique : (outline.elements.filterMap fun element =>
      declaredUid element.tag).Nodup) {reference target : HeaderElement}
    (member : target ∈ outline.elements) (named : names reference target = true) :
    targets outline kind reference =
      if kind target.tag then [positionOf outline kind target] else [] := by
  have only : outline.elements.filter (names reference) = [target] := by
    obtain ⟨text, refers, declared⟩ := names_iff.mp named
    have same : outline.elements.filter (names reference) = outline.elements.filter fun element =>
        decide (declaredUid element.tag = some text) := by
      congr 1
      funext element
      rw [names, refers]
      rfl
    rw [same]
    exact Library.filter_key unique member declared
  rw [targets, Library.Outline.ofKind, List.filter_filter]
  have swap : (outline.elements.filter fun element => names reference element && kind element.tag) =
      (outline.elements.filter (names reference)).filter fun element => kind element.tag := by
    rw [List.filter_filter]
    congr 1
    funext element
    exact Bool.and_comm _ _
  rw [swap, only, List.filter_singleton]
  cases kind target.tag <;> rfl

theorem objectReferences_eq (unique : (outline.elements.filterMap fun element =>
      declaredUid element.tag).Nodup) {reference target : HeaderElement}
    (member : target ∈ outline.elements) (named : names reference target = true) :
    objectReferencesOf outline kind reference =
      if parentKind reference = some .image ∧ kind target.tag = true then
        (imageOf outline reference).toList.map fun image =>
          ⟨positionOf outline kind target, image, true⟩
      else [] := by
  rw [objectReferencesOf, targets_eq unique member named]
  by_cases inImage : parentKind reference = some .image
  · cases same : kind target.tag
    · simp
    · cases imageOf outline reference <;> simp [inImage]
  · simp [inImage]

/-! ## In range -/

theorem objectBindings_inRange (coherent : outline.Coherent) {binding : ObjectBinding}
    (member : binding ∈ objectBindingsOf outline kind) :
    binding.objectIndex < (outline.ofKind kind).length ∧
      binding.imageIndex < (outline.ofKind (isKind .image)).length := by
  rw [objectBindingsOf, List.mem_append, List.mem_flatMap, List.mem_flatMap] at member
  rcases member with ⟨element, inside, own⟩ | ⟨element, inside, referenced⟩
  · obtain ⟨image, here, rfl⟩ := List.mem_map.mp own
    exact ⟨position_lt coherent inside,
      around_lt coherent (List.mem_filter.mp inside).1 (Option.mem_toList.mp here)⟩
  · rw [objectReferencesOf] at referenced
    split at referenced
    · obtain ⟨image, here, referenced⟩ := List.mem_flatMap.mp referenced
      obtain ⟨target, named, rfl⟩ := List.mem_map.mp referenced
      exact ⟨targets_lt coherent named, around_lt coherent inside (Option.mem_toList.mp here)⟩
    · cases referenced

theorem entryBindings_inRange (coherent : outline.Coherent) {binding : MetadataBinding}
    (member : binding ∈ outline.elements.flatMap (metadataBindingsOf outline)) :
    binding.metadataIndex < (outline.ofKind isEntry).length ∧
      ∀ image, binding.imageIndex = some image →
        image < (outline.ofKind (isKind .image)).length := by
  obtain ⟨element, inside, here⟩ := List.mem_flatMap.mp member
  rw [metadataBindingsOf, List.mem_append, referenceBindingsOf, ofKindOnly, directBindingOf] at here
  rcases here with referenced | own
  · split at referenced
    · obtain ⟨target, named, rfl⟩ := List.mem_map.mp referenced
      exact ⟨targets_lt coherent named, fun image => around_lt coherent inside⟩
    · cases referenced
  · split at own
    · rename_i same
      split at own
      · cases own
      · rw [List.mem_singleton] at own
        subst own
        exact ⟨position_lt coherent (List.mem_filter.mpr ⟨inside, same⟩),
          fun image => around_lt coherent inside⟩
    · cases own

end

/-! ## The objects -/

section

variable {outline : HeaderOutline} {state : XmlBuilder}

theorem objectsAssociated (unique : (outline.elements.filterMap fun element =>
      declaredUid element.tag).Nodup) (coherent : outline.Coherent) {kind : XmlTag → Bool}
    {images : Nat} {owners : List (Option Nat)} {bindings : List ObjectBinding}
    (counted : images = (outline.ofKind (isKind .image)).length)
    (records : owners = (outline.ofKind kind).map (imageOf outline))
    (all : bindings = objectBindingsOf outline kind) :
    ObjectsAssociated outline kind images owners bindings where
  records := records
  inRange binding member := by
    rw [all] at member
    rw [records, List.length_map, counted]
    exact objectBindings_inRange coherent member
  all := all
  direct i owner there := by
    rw [records, List.getElem?_map, Option.map_eq_some_iff] at there
    obtain ⟨element, there, rfl⟩ := there
    rw [all, objectBindings_direct coherent, there, Option.toList_some, List.flatMap_singleton,
      ownBindingsOf, positionOf, coherent.rank_of_getElem? there]
  fromImage reference _ inImage target member named := by
    obtain ⟨inside, same⟩ := List.mem_filter.mp member
    obtain ⟨image, isImage⟩ := Option.isSome_iff_exists.mp (@imageOf_child _ outline inImage)
    refine ⟨image, isImage, ?_⟩
    rw [objectReferences_eq unique inside named, if_pos ⟨inImage, same⟩, isImage]
    rfl
  otherKind reference target member named other := by
    rw [objectReferences_eq unique member named, if_neg (by simp [other])]

theorem entriesBound {document : Document} (unique : (outline.elements.filterMap fun element =>
      declaredUid element.tag).Nodup) (stacked : Stacked outline state)
    (counted : document.images.length = (outline.ofKind (isKind .image)).length)
    (records : document.metadata.map entryKey = (outline.ofKind isEntry).map (entryKeyOf outline))
    (all : document.metadataBindings = outline.elements.flatMap (metadataBindingsOf outline))
    (properties : ∀ reference ∈ outline.elements, parentKind reference = some .metadata →
      ∀ target ∈ outline.elements, names reference target = true →
        target.tag.kind ≠ .fitsKeyword) :
    EntriesBound outline document where
  records := records
  inRange binding member := by
    rw [all] at member
    have count : document.metadata.length = (outline.ofKind isEntry).length := by
      simpa using congrArg List.length records
    rw [count, counted]
    exact entryBindings_inRange stacked.coherent member
  all := all
  direct i entry there := by
    have key := congrArg (fun keys => keys[i]?) records
    simp only [List.getElem?_map, there, Option.map_some] at key
    obtain ⟨element, here, key⟩ := Option.map_eq_some_iff.mp key.symm
    rw [all, entryBindings_direct stacked.coherent, here, Option.toList_some,
      List.flatMap_singleton]
    exact directBindingAt_eq key.symm (stacked.coherent.rank_of_getElem? here)
  fromImage reference _ inImage target member named := by
    obtain ⟨inside, same⟩ := List.mem_filter.mp member
    obtain ⟨image, isImage⟩ := Option.isSome_iff_exists.mp (@imageOf_child _ outline inImage)
    refine ⟨image, isImage, ?_⟩
    rw [referenceBindingsOf, targets_eq unique inside named, if_pos same, if_pos (.inl inImage),
      isImage]
    simp [inImage]
  fromMetadata reference there inMetadata target member named := by
    obtain ⟨inside, same⟩ := List.mem_filter.mp member
    refine ⟨?_, ?_⟩
    · have kinds : target.tag.kind = .property ∨ target.tag.kind = .fitsKeyword := by
        simpa [isEntry] using same
      exact kinds.resolve_right (properties reference there inMetadata target inside named)
    · rw [referenceBindingsOf, targets_eq unique inside named, if_pos same,
        if_pos (.inr inMetadata),
        stacked.imageOf_metadataChild there inMetadata]
      simp [inMetadata]
  otherKind reference target member named other := by
    rw [referenceBindingsOf, targets_eq unique member named, other]
    simp

end

/-! ## The unit -/

section

variable {fileSize headerLength : Nat} {state : XmlBuilder} {parsed : ParsedHeader}
  {outline : HeaderOutline} {name : Text}

theorem AcceptedFrom.metadata_eq
    (checked : AcceptedFrom options fileSize headerLength state parsed) :
    parsed.document.metadata = state.metadata := congrArg Document.metadata checked.document

theorem AcceptedFrom.identifiers_nodup
    (checked : AcceptedFrom options fileSize headerLength state parsed) :
    (boundIdentifiers parsed.document).Nodup := by
  obtain ⟨seen, properties, tables⟩ := checked.identifiers
  obtain ⟨rfl, unique⟩ := checkIdentifiers_eq properties List.nodup_nil
  rw [List.nil_append] at unique tables
  have same : associatedIdentifiers state parsed.document.metadataBindings =
      parsed.document.metadataBindings.filterMap (propertyIdentifier parsed.document) := by
    unfold propertyIdentifier
    rw [checked.metadata_eq]
    rfl
  rw [boundIdentifiers, ← same]
  exact checkTableIdentifiers_eq tables unique

/-- What is bound to the unit is a Property. -/
theorem AcceptedFrom.unit_isProperty
    (checked : AcceptedFrom options fileSize headerLength state parsed) {binding : MetadataBinding}
    (member : binding ∈ parsed.document.metadataBindings) (unit : binding.scope = .xisfUnit)
    {entry : MetadataEntry} (there : parsed.document.metadata[binding.metadataIndex]? =
      some entry) :
    entry.kind = .property := by
  obtain ⟨all, taken⟩ := Reader.metadataBindings_eq checked.metadataBindings
  rw [all] at member
  obtain ⟨event, isEvent, member⟩ := List.mem_flatMap.mp member
  obtain ⟨index, known, rfl⟩ := List.mem_map.mp member
  obtain ⟨entry', there', allowed⟩ := (taken event isEvent).entry index (Option.mem_toList.mp known)
  rw [checked.metadata_eq] at there
  obtain rfl : entry = entry' := Option.some.inj (there.symm.trans there')
  have notKeyword := allowed unit
  cases kind : entry.kind with
  | property => rfl
  | fitsKeyword => exact absurd kind notKeyword

/-- A name is bound to the unit once at most. -/
theorem AcceptedFrom.unit_atMostOne
    (checked : AcceptedFrom options fileSize headerLength state parsed) :
    (parsed.document.metadataBindings.filter (bindsInUnit parsed.document name)).length ≤ 1 := by
  have unique := (List.nodup_append.mp checked.identifiers_nodup).1
  have once := List.nodup_iff_count_le_one.mp unique (none, name)
  rw [List.count_filterMap] at once
  rw [← List.countP_eq_length_filter]
  refine Nat.le_trans (List.countP_mono_left fun binding member binds => ?_) once
  rw [bindsInUnit, Bool.and_eq_true, decide_eq_true_eq, Option.any_eq_true] at binds
  obtain ⟨unit, entry, there, named⟩ := binds
  have property := checked.unit_isProperty member unit there
  simp [propertyIdentifier, there, property, unit, of_decide_eq_true named]

/-- A Property directly in Metadata is bound to the unit. -/
theorem unit_atLeastOne (stacked : Stacked outline state) (registered : Registered outline state)
    (checked : AcceptedFrom options fileSize headerLength state parsed)
    (present : outline.elements.any (isUnitNamed name) = true) :
    1 ≤ (parsed.document.metadataBindings.filter (bindsInUnit parsed.document name)).length := by
  obtain ⟨element, inside, isNamed⟩ := List.any_eq_true.mp present
  simp only [isUnitNamed, Bool.and_eq_true, decide_eq_true_eq] at isNamed
  obtain ⟨⟨property, parent⟩, named⟩ := isNamed
  have member : element ∈ outline.ofKind isEntry :=
    List.mem_filter.mpr ⟨inside, by simp [isEntry, property]⟩
  obtain ⟨entry, there, key⟩ := registered.entry_of_element stacked.coherent member
  have noImage := stacked.imageOf_metadataChild inside parent
  have scope : scopeOf outline element = .xisfUnit := by simp [scopeOf, noImage, parent]
  have binding : (⟨positionOf outline isEntry element, .xisfUnit, none, false⟩ : MetadataBinding) ∈
      parsed.document.metadataBindings := by
    rw [checked.metadataBindings_eq registered, List.mem_flatMap]
    refine ⟨element, inside, List.mem_append_right _ ?_⟩
    simp [ofKindOnly, isEntry, property, directBindingOf, scope, noImage]
  rw [← List.countP_eq_length_filter, Nat.succ_le_iff, List.countP_pos_iff]
  refine ⟨_, binding, ?_⟩
  have sameName : entry.name = name := (congrArg EntryKey.name key).trans named
  simp [bindsInUnit, checked.metadata_eq, there, sameName]

end

/-! ## The theorem -/

/-- The images of the records of a kind of object. -/
theorem Registered.owners {outline : HeaderOutline} {state : XmlBuilder}
    (registered : Registered outline state) {kind : XmlTag → Bool}
    (field : Register → List ObjectKey)
    (append : ∀ first second, field (first.append second) = field first ++ field second)
    (empty : field {} = [])
    (adds : ∀ element, field (contribution outline element) =
      ofKindOnly kind element.tag [objectKeyOf outline element]) :
    (field (registerOf state)).map ObjectKey.imageIndex =
      (outline.ofKind kind).map (imageOf outline) := by
  rw [registered.same, Register.field_of_kind field append empty kind _ adds, ← List.map_eq_flatMap,
    List.map_map]
  rfl

/-- The bindings of every accepted document are those of its elements. -/
theorem associationGraph (header : AcceptedHeader options platform) : AssociationGraph header := by
  obtain ⟨parser, sameOutline, checked⟩ := header.parser
  have shape := parser.shape
  have registered := parser.registered
  have seen := parser.holds preserved_unitSeen
  rw [sameOutline] at shape registered seen
  have coherent := shape.stacked.coherent
  have unique := registered.uids
  have bound := checked.objectsBound registered
  have complete := checkCompleteness_eq checked.complete
  have images : header.parsed.document.images.length =
      (header.outline.ofKind (isKind .image)).length := by
    rw [show header.parsed.document.images = parser.state.images from
      congrArg Document.images checked.document, shape.counted.images]
  have refused : ∀ reference ∈ header.outline.elements, parentKind reference = some .metadata →
      ∀ target ∈ header.outline.elements, names reference target = true →
        target.tag.kind ≠ .tableStructure ∧ target.tag.kind ≠ .fitsKeyword ∧
          target.tag.kind ≠ .table := fun reference inside parent target member named =>
    (checked.referenceTaken registered coherent inside member named).fromMetadata parent
  refine ⟨unique, ?_, ?_, ?_, ?_, ?_, refused, checked.identifiers_nodup, ?_, ?_⟩
  · exact entriesBound unique shape.stacked images (by rw [checked.metadata_eq, registered.entries])
      (checked.metadataBindings_eq registered)
      fun reference inside parent target member named =>
        (refused reference inside parent target member named).2.1
  · refine objectsAssociated unique coherent images ?_ bound.ancillary
    rw [show header.parsed.document.ancillaryObjects = parser.state.ancillaryObjects from
      congrArg Document.ancillaryObjects checked.document]
    rw [← registered.owners Register.ancillaryObjects (fun _ _ => rfl) rfl fun _ => rfl, registerOf,
      List.map_map]
    rfl
  · refine objectsAssociated unique coherent images ?_ bound.iccProfiles
    rw [show header.parsed.document.iccProfiles = parser.state.iccProfiles from
      congrArg Document.iccProfiles checked.document]
    rw [← registered.owners Register.iccProfiles (fun _ _ => rfl) rfl fun _ => rfl, registerOf,
      List.map_map]
    rfl
  · refine objectsAssociated unique coherent images ?_ bound.thumbnails
    rw [show header.parsed.document.thumbnails = parser.state.thumbnails from
      congrArg Document.thumbnails checked.document]
    rw [← registered.owners Register.thumbnails (fun _ _ => rfl) rfl fun _ => rfl, registerOf,
      List.map_map]
    rfl
  · refine objectsAssociated unique coherent images ?_ bound.tables
    have resolved := resolveStructureReferences_eq checked.structures
    rw [resolved.map_eq TableInfo.imageIndex fun _ _ => rfl]
    have owners := registered.owners (fun register => register.tables.map TableKey.toObjectKey)
      (fun _ _ => List.map_append) rfl fun element =>
      apply_ite (List.map TableKey.toObjectKey) _ _ _
    rw [← owners, registerOf, List.map_map, List.map_map]
    rfl
  · exact Nat.le_antisymm checked.unit_atMostOne
      (unit_atLeastOne shape.stacked registered checked
        (seen.creationTime.symm.trans complete.creationTime))
  · exact Nat.le_antisymm checked.unit_atMostOne (unit_atLeastOne shape.stacked registered checked
      (seen.creatorApplication.symm.trans complete.creatorApplication))

end Mmxisf.Reader
