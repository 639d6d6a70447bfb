/-
# Reader.Bindings -- what the binding passes make of the events

After the handlers, `parse_header` goes through the binding events five times, once
for the entries and once for each kind of object, and once more through the
bindings for the identifiers.  Each pass that succeeds is a function of the events,
and each event met the condition of the pass.
-/
import Mmxisf.Library.Directory
import Mmxisf.Reader.Register

namespace Mmxisf.Reader

set_option autoImplicit false

/-! ## The passes -/

section

variable {state : XmlBuilder}

/-- The position of the entry of an event. -/
def entryOf (state : XmlBuilder) (event : MetadataBindingEvent) : Option Nat :=
  event.metadataIndex.or (state.metadataUids.lookup event.reference)

/-- The binding of an event whose entry is known. -/
def bindingOf (event : MetadataBindingEvent) (index : Nat) : MetadataBinding :=
  ⟨index, event.scope, event.imageIndex, event.byReference⟩

/-- An event that the pass over the entries takes. -/
structure EventTaken (state : XmlBuilder) (event : MetadataBindingEvent) : Prop where
  noStructure : event.byReference = true → state.tableStructureUids.lookup event.reference = none
  entry : ∀ index, entryOf state event = some index → ∃ entry, state.metadata[index]? = some entry ∧
    (event.scope = .xisfUnit → entry.kind ≠ .fitsKeyword)

theorem metadataBinding_eq {event : MetadataBindingEvent} {binding : Option MetadataBinding}
    (run : metadataBinding state event = .ok binding) :
    binding = (entryOf state event).map (bindingOf event) ∧ EventTaken state event := by
  simp only [metadataBinding, bind_eq_ok, reject_eq_ok] at run
  obtain ⟨-, noStructure, run⟩ := run
  rw [← entryOf] at run
  have noStructure : event.byReference = true →
      state.tableStructureUids.lookup event.reference = none := fun byReference =>
    Option.not_isSome_iff_eq_none.mp fun found => noStructure ⟨byReference, found⟩
  cases known : entryOf state event with
  | none =>
      simp only [known, pure, Except.pure, Except.ok.injEq] at run
      exact ⟨run.symm, noStructure, fun index other => by rw [known] at other; cases other⟩
  | some index =>
      simp only [known] at run
      cases there : state.metadata[index]? with
      | none =>
          rw [there] at run
          cases run
      | some entry =>
          simp only [there, bind_eq_ok, reject_eq_ok, pure, Except.pure, Except.ok.injEq] at run
          obtain ⟨-, allowed, rfl⟩ := run
          refine ⟨rfl, noStructure, fun index' other => ?_⟩
          rw [known, Option.some.injEq] at other
          subst other
          exact ⟨entry, there, fun unit keyword => allowed ⟨unit, keyword⟩⟩

theorem metadataBindings_eq {events : List MetadataBindingEvent} {bindings : List MetadataBinding}
    (run : metadataBindings state events = .ok bindings) :
    bindings = events.flatMap (fun event => (entryOf state event).toList.map (bindingOf event)) ∧
      ∀ event ∈ events, EventTaken state event := by
  induction events generalizing bindings with
  | nil =>
      cases run
      exact ⟨rfl, by simp⟩
  | cons event rest ih =>
      simp only [metadataBindings, bind_eq_ok, pure, Except.pure, Except.ok.injEq] at run
      obtain ⟨binding, first, later, others, rfl⟩ := run
      obtain ⟨rfl, taken⟩ := metadataBinding_eq first
      obtain ⟨rfl, allTaken⟩ := ih others
      refine ⟨?_, List.forall_mem_cons.mpr ⟨taken, allTaken⟩⟩
      rw [List.flatMap_cons]
      cases entryOf state event <;> rfl

/-- The binding of an object that is a child of its image. -/
def ownBinding (event : ObjectBindingEvent) : ObjectBinding :=
  ⟨event.objectIndex, event.imageIndex, false⟩

theorem directBindings_eq {objects images : Nat} {outside : String}
    {events : List ObjectBindingEvent} {bindings : List ObjectBinding}
    (run : directBindings objects images outside events = .ok bindings) :
    bindings = events.map ownBinding := by
  induction events generalizing bindings with
  | nil =>
      cases run
      rfl
  | cons event rest ih =>
      simp only [directBindings, bind_eq_ok, pure, Except.pure, Except.ok.injEq] at run
      obtain ⟨-, -, later, others, rfl⟩ := run
      rw [List.map_cons, ih others, ownBinding]

/-- The binding of a Reference in an image to an object with a uid. -/
def imageReference (uids : List (Text × Nat)) (event : MetadataBindingEvent) :
    List ObjectBinding :=
  if event.byReference = true ∧ event.scope = .image then
    event.imageIndex.toList.flatMap fun image =>
      (uids.lookup event.reference).toList.map fun target => ⟨target, image, true⟩
  else []

theorem referencedBindings_eq {uids : List (Text × Nat)} {limit : Nat} {beyond : String}
    {events : List MetadataBindingEvent} {own bindings : List ObjectBinding}
    (run : referencedBindings uids limit beyond events own = .ok bindings) :
    bindings = own ++ events.flatMap (imageReference uids) ∧
      (bindings = own ∨ bindings.length ≤ limit) := by
  induction events generalizing own with
  | nil =>
      cases run
      exact ⟨(List.append_nil _).symm, .inl rfl⟩
  | cons event rest ih =>
      rw [referencedBindings] at run
      split at run
      · rename_i image target byReference scope inImage found
        simp only [bind_eq_ok, reject_eq_ok, Nat.not_le] at run
        obtain ⟨-, room, run⟩ := run
        obtain ⟨rfl, within⟩ := ih run
        refine ⟨?_, .inr ?_⟩
        · rw [List.flatMap_cons, imageReference, if_pos ⟨byReference, scope⟩, inImage, found]
          simp
        · rcases within with same | within
          · rw [same, List.length_append, List.length_singleton]
            omega
          · exact within
      · rename_i other
        obtain ⟨rfl, within⟩ := ih run
        refine ⟨?_, within⟩
        have nothing : imageReference uids event = [] := by
          unfold imageReference
          split
          · rename_i image
            cases inImage : event.imageIndex with
            | none => rfl
            | some index =>
                cases found : uids.lookup event.reference with
                | none => rfl
                | some target => exact (other index target image.1 image.2 inImage found).elim
          · rfl
        rw [List.flatMap_cons, nothing, List.nil_append]

theorem referencedTables_eq {uids : List (Text × Nat)} {limit : Nat}
    {events : List MetadataBindingEvent} {own bindings : List ObjectBinding}
    (run : referencedTables uids limit events own = .ok bindings) :
    bindings = own ++ events.flatMap (imageReference uids) ∧
      (bindings = own ∨ bindings.length ≤ limit) ∧
      ∀ event ∈ events, event.byReference = true →
        (uids.lookup event.reference).isSome = true → event.scope = .image := by
  induction events generalizing own with
  | nil =>
      cases run
      exact ⟨(List.append_nil _).symm, .inl rfl, by simp⟩
  | cons event rest ih =>
      rw [referencedTables] at run
      split at run
      · rename_i target byReference found
        split at run
        · rename_i image scope inImage
          simp only [bind_eq_ok, reject_eq_ok, Nat.not_le] at run
          obtain ⟨-, room, run⟩ := run
          obtain ⟨rfl, within, others⟩ := ih run
          refine ⟨?_, .inr ?_, List.forall_mem_cons.mpr ⟨fun _ _ => scope, others⟩⟩
          · rw [List.flatMap_cons, imageReference, if_pos ⟨byReference, scope⟩, inImage, found]
            simp
          · rcases within with same | within
            · rw [same, List.length_append, List.length_singleton]
              omega
            · exact within
        · cases run
      · rename_i other
        obtain ⟨rfl, within, others⟩ := ih run
        have absent : event.byReference = true → uids.lookup event.reference = none :=
          fun byReference => by
            cases found : uids.lookup event.reference with
            | none => rfl
            | some target => exact (other target byReference found).elim
        refine ⟨?_, within, List.forall_mem_cons.mpr ⟨fun byReference found => ?_, others⟩⟩
        · have nothing : imageReference uids event = [] := by
            unfold imageReference
            split
            · rename_i image
              simp [absent image.1]
            · rfl
          rw [List.flatMap_cons, nothing, List.nil_append]
        · rw [absent byReference] at found
          cases found

/-- The identifiers that have been seen are different. -/
theorem checkIdentifiers_eq {bindings : List MetadataBinding}
    {seen all : List (Option Nat × Text)} (run : checkIdentifiers state bindings seen = .ok all)
    (unique : seen.Nodup) : all = seen ++ associatedIdentifiers state bindings ∧ all.Nodup := by
  induction bindings generalizing seen with
  | nil =>
      cases run
      exact ⟨(List.append_nil _).symm, unique⟩
  | cons binding rest ih =>
      simp only [checkIdentifiers, bind_eq_ok, reject_eq_ok] at run
      obtain ⟨-, -, -, new, run⟩ := run
      have split : associatedIdentifiers state (binding :: rest) =
          associatedIdentifiers state [binding] ++ associatedIdentifiers state rest := by
        rw [associatedIdentifiers, associatedIdentifiers, associatedIdentifiers,
          ← List.filterMap_append]
        rfl
      have unique' : (seen ++ associatedIdentifiers state [binding]).Nodup := by
        have atMostOne : (associatedIdentifiers state [binding]).Nodup := by
          rw [associatedIdentifiers, List.filterMap_cons]
          split <;> simp
        refine List.nodup_append.mpr ⟨unique, atMostOne, fun a inSeen b inserted same => new ?_⟩
        rw [List.any_eq_true]
        exact ⟨b, inserted, decide_eq_true (same ▸ inSeen)⟩
      obtain ⟨rfl, nodup⟩ := ih run unique'
      exact ⟨by rw [split, List.append_assoc], nodup⟩

/-- The identifier of a bound table, with its image. -/
def tableIdentifier (tables : List TableInfo) (binding : ObjectBinding) :
    Option (Option Nat × Text) :=
  (tables[binding.objectIndex]?).map fun table => (some binding.imageIndex, table.id)

theorem checkTableIdentifiers_eq {tables : List TableInfo} {images : Nat}
    {bindings : List ObjectBinding} {seen : List (Option Nat × Text)}
    (run : checkTableIdentifiers tables images bindings seen = .ok ()) (unique : seen.Nodup) :
    (seen ++ bindings.filterMap (tableIdentifier tables)).Nodup := by
  induction bindings generalizing seen with
  | nil => simpa using unique
  | cons binding rest ih =>
      rw [checkTableIdentifiers] at run
      cases there : tables[binding.objectIndex]? with
      | none =>
          rw [there] at run
          cases run
      | some table =>
          simp only [there, bind_eq_ok, reject_eq_ok, not_or] at run
          obtain ⟨-, ⟨-, new⟩, run⟩ := run
          have unique' := ih run (List.nodup_append.mpr ⟨unique, List.nodup_singleton _,
            fun a inSeen b here same => new (by rwa [same, List.mem_singleton.mp here] at inSeen)⟩)
          have here : tableIdentifier tables binding =
              some (some binding.imageIndex, table.id) := by
            rw [tableIdentifier, there, Option.map_some]
          rw [List.filterMap_cons_some here, List.append_cons]
          exact unique'

end

/-! ## From the outline -/

/-- A Reference, and the element with the uid it refers to. -/
def names (reference element : HeaderElement) : Bool :=
  (referenceOf reference.tag).isSome && declaredUid element.tag = referenceOf reference.tag

/-- The positions, among the elements of a kind, of those a Reference names. -/
def targets (outline : HeaderOutline) (kind : XmlTag → Bool) (reference : HeaderElement) :
    List Nat :=
  ((outline.ofKind kind).filter (names reference)).map (positionOf outline kind)

/-- The binding that an entry has by its place. -/
def directBindingOf (outline : HeaderOutline) (element : HeaderElement) : List MetadataBinding :=
  if scopeOf outline element = .standalone then []
  else [{ metadataIndex := positionOf outline isEntry element
          scope := if scopeOf outline element = .image then .image else .xisfUnit
          imageIndex := imageOf outline element
          byReference := false }]

/-- The bindings that a Reference makes to entries: to its image, or to the unit
from Metadata. -/
def referenceBindingsOf (outline : HeaderOutline) (element : HeaderElement) :
    List MetadataBinding :=
  if parentKind element = some .image ∨ parentKind element = some .metadata then
    (targets outline isEntry element).map fun target =>
      { metadataIndex := target
        scope := if parentKind element = some .image then .image else .xisfUnit
        imageIndex := imageOf outline element
        byReference := true }
  else []

/-- The bindings to entries that an element makes. -/
def metadataBindingsOf (outline : HeaderOutline) (element : HeaderElement) :
    List MetadataBinding :=
  referenceBindingsOf outline element ++
    ofKindOnly isEntry element.tag (directBindingOf outline element)

/-- The binding of an object to the image it is in. -/
def ownBindingsOf (outline : HeaderOutline) (kind : XmlTag → Bool) (element : HeaderElement) :
    List ObjectBinding :=
  (imageOf outline element).toList.map fun image => ⟨positionOf outline kind element, image, false⟩

/-- The bindings that a Reference in an image makes to objects of a kind. -/
def objectReferencesOf (outline : HeaderOutline) (kind : XmlTag → Bool) (element : HeaderElement) :
    List ObjectBinding :=
  if parentKind element = some .image then
    (imageOf outline element).toList.flatMap fun image =>
      (targets outline kind element).map fun target => ⟨target, image, true⟩
  else []

/-- The bindings to objects of a kind: those by place, then those by reference. -/
def objectBindingsOf (outline : HeaderOutline) (kind : XmlTag → Bool) : List ObjectBinding :=
  (outline.ofKind kind).flatMap (ownBindingsOf outline kind) ++
    outline.elements.flatMap (objectReferencesOf outline kind)

section

variable {outline : HeaderOutline} {state : XmlBuilder} {element reference : HeaderElement}

/-- What the elements of a kind add. -/
theorem flatMap_ofKindOnly {α : Type} (kind : XmlTag → Bool) (added : HeaderElement → List α)
    (elements : List HeaderElement) :
    elements.flatMap (fun element => ofKindOnly kind element.tag (added element)) =
      (elements.filter fun element => kind element.tag).flatMap added := by
  induction elements with
  | nil => rfl
  | cons element rest ih =>
      rw [List.flatMap_cons, ih, List.filter_cons, ofKindOnly]
      split <;> simp

/-- A list of the register that only elements of a kind add to. -/
theorem Register.field_of_kind {α : Type} (field : Register → List α)
    (append : ∀ first second, field (first.append second) = field first ++ field second)
    (empty : field {} = []) (kind : XmlTag → Bool) (added : HeaderElement → List α)
    (adds : ∀ element, field (contribution outline element) =
      ofKindOnly kind element.tag (added element)) :
    field (.of outline) = (outline.ofKind kind).flatMap added := by
  rw [Register.field_of field append empty, funext adds]
  exact flatMap_ofKindOnly kind added outline.elements

theorem Registered.entries (registered : Registered outline state) :
    state.metadata.map entryKey = (outline.ofKind isEntry).map (entryKeyOf outline) := by
  have same : state.metadata.map entryKey = (Register.of outline).entries :=
    congrArg Register.entries registered.same
  rw [same, List.map_eq_flatMap]
  exact Register.field_of_kind Register.entries (fun _ _ => rfl) rfl isEntry _ fun _ => rfl

theorem Registered.metadataUids (registered : Registered outline state) :
    state.metadataUids = (outline.ofKind isEntry).flatMap (uidAt outline isEntry) :=
  (congrArg Register.metadataUids registered.same).trans
    (Register.field_of_kind Register.metadataUids (fun _ _ => rfl) rfl isEntry _ fun _ => rfl)

theorem Registered.metadataEvents (registered : Registered outline state) :
    state.metadataBindingEvents = outline.elements.flatMap fun element =>
      referenceEventsOf outline element ++
        ofKindOnly isEntry element.tag (directEventsOf outline element) :=
  (congrArg Register.metadataEvents registered.same).trans
    (Register.field_of Register.metadataEvents (fun _ _ => rfl) rfl)

/-- No two elements have one uid. -/
theorem Registered.uids (registered : Registered outline state) :
    (outline.elements.filterMap fun element => declaredUid element.tag).Nodup := by
  have same : state.coreUids = (Register.of outline).coreUids :=
    congrArg Register.coreUids registered.same
  have unique := registered.unique
  rw [same, Register.field_of Register.coreUids (fun _ _ => rfl) rfl] at unique
  rw [List.filterMap_eq_flatMap_toList]
  simpa [contribution, Register.append, identityOf, recordOf] using unique

/-- A table of the uids of a kind, found with what a Reference refers to. -/
theorem lookup_uidAt (unique : (outline.elements.filterMap fun element =>
      declaredUid element.tag).Nodup) (kind : XmlTag → Bool) {uids : List (Text × Nat)}
    (same : uids = (outline.ofKind kind).flatMap (uidAt outline kind)) {text : Text}
    (refers : referenceOf reference.tag = some text) :
    (uids.lookup text).toList = targets outline kind reference := by
  have names_eq : names reference = fun element =>
      decide (declaredUid element.tag = some text) := by
    funext element
    rw [names, refers]
    rfl
  have sub : ((outline.ofKind kind).filterMap fun element => declaredUid element.tag).Nodup :=
    unique.sublist (List.filter_sublist.filterMap _)
  rw [same, targets, names_eq]
  exact Library.lookup_directory sub

theorem targets_of_none (nothing : referenceOf reference.tag = none) (kind : XmlTag → Bool) :
    targets outline kind reference = [] := by
  have noOne : names reference = fun _ => false := by
    funext element
    rw [names, nothing]
    rfl
  rw [targets, noOne, List.filter_false]
  rfl

/-- The events of an element become its bindings. -/
theorem Registered.bindings_of_events (registered : Registered outline state)
    (element : HeaderElement) :
    (referenceEventsOf outline element ++
        ofKindOnly isEntry element.tag (directEventsOf outline element)).flatMap
      (fun event => (entryOf state event).toList.map (bindingOf event)) =
        metadataBindingsOf outline element := by
  rw [List.flatMap_append, metadataBindingsOf]
  congr 1
  · rw [referenceEventsOf, referenceBindingsOf]
    split
    · cases refers : referenceOf element.tag with
      | none => simp [targets_of_none refers]
      | some text =>
          have found := lookup_uidAt registered.uids isEntry registered.metadataUids refers
          simp [entryOf, found, bindingOf]
    · rfl
  · rw [ofKindOnly, ofKindOnly]
    split
    · rw [directEventsOf, directBindingOf]
      split <;> rfl
    · rfl

/-- The bindings by reference that an element makes to objects of a kind. -/
theorem Registered.objectReferences (registered : Registered outline state) {kind : XmlTag → Bool}
    {uids : List (Text × Nat)} (same : uids = (outline.ofKind kind).flatMap (uidAt outline kind)) :
    state.metadataBindingEvents.flatMap (imageReference uids) =
      outline.elements.flatMap (objectReferencesOf outline kind) := by
  rw [registered.metadataEvents, List.flatMap_assoc]
  congr 1
  funext element
  have direct : (ofKindOnly isEntry element.tag (directEventsOf outline element)).flatMap
      (imageReference uids) = [] := by
    rw [ofKindOnly]
    split
    · rw [directEventsOf]
      split <;> simp [imageReference]
    · rfl
  rw [List.flatMap_append, direct, List.append_nil, referenceEventsOf, objectReferencesOf]
  cases refers : referenceOf element.tag with
  | none => simp [targets_of_none refers]
  | some text =>
      have found := lookup_uidAt registered.uids kind same refers
      by_cases inImage : parentKind element = some .image
      · simp [inImage, imageReference, found]
      · by_cases inMetadata : parentKind element = some .metadata <;>
          simp [inImage, inMetadata, imageReference]

/-- The bindings of a kind of object, from its events and its uids. -/
theorem Registered.objectBindings (registered : Registered outline state) {kind : XmlTag → Bool}
    {events : List ObjectBindingEvent} {uids : List (Text × Nat)}
    (sameEvents : events = (outline.ofKind kind).flatMap (objectEventsOf outline kind))
    (sameUids : uids = (outline.ofKind kind).flatMap (uidAt outline kind)) :
    events.map ownBinding ++ state.metadataBindingEvents.flatMap (imageReference uids) =
      objectBindingsOf outline kind := by
  rw [registered.objectReferences sameUids, sameEvents, List.map_flatMap, objectBindingsOf]
  congr 2
  funext element
  rw [objectEventsOf, directBinding, ownBindingsOf]
  cases imageOf outline element <;> rfl

end

/-! ## Places -/

section

variable {outline : HeaderOutline} {state : XmlBuilder} {element : HeaderElement}

/-- What is around an element of an outline. -/
theorem Stacked.parentPlace (stacked : Stacked outline state) (member : element ∈ outline.elements)
    {parent : HeaderFrame} {rest : List HeaderFrame} (inside : element.ancestors = parent :: rest) :
    HasPlace parent.tag.kind (pathKinds rest) := by
  have path := stacked.coherent.ancestors element member
  rw [inside] at path
  obtain ⟨⟨owner, there, same, around⟩, -⟩ := path
  have placed := stacked.placed owner (List.mem_of_getElem? there)
  rwa [around, show owner.tag = parent.tag from congrArg Library.Frame.tag same] at placed

/-- An element in a child of the root. -/
theorem Stacked.rootGrandchild (stacked : Stacked outline state)
    (member : element ∈ outline.elements) {parent : HeaderFrame} {rest : List HeaderFrame}
    (inside : element.ancestors = parent :: rest) {kind : ElementKind}
    (same : parent.tag.kind = kind) (fixed : allowedPaths kind = some [rootPath]) :
    ∃ root, element.ancestors = [parent, root] ∧ root.tag.kind = .xisf := by
  have place := stacked.parentPlace member inside
  rw [same] at place
  have path := place.known _ fixed
  rw [List.mem_singleton, pathKinds, rootPath] at path
  rw [inside]
  cases rest with
  | nil => cases path
  | cons root more =>
      rw [List.map_cons, List.cons.injEq, List.map_eq_nil_iff] at path
      obtain ⟨isRoot, rfl⟩ := path
      exact ⟨root, rfl, isRoot⟩

theorem parentKind_eq {kind : ElementKind} (parent : parentKind element = some kind) :
    ∃ frame rest, element.ancestors = frame :: rest ∧ frame.tag.kind = kind := by
  rw [parentKind, pathKinds] at parent
  cases ancestors : element.ancestors with
  | nil =>
      rw [ancestors] at parent
      cases parent
  | cons frame rest =>
      rw [ancestors, List.map_cons, List.head?_cons, Option.some.injEq] at parent
      exact ⟨frame, rest, rfl, parent⟩

theorem imageOf_child {outline : HeaderOutline} (parent : parentKind element = some .image) :
    (imageOf outline element).isSome = true := by
  obtain ⟨frame, rest, ancestors, isImage⟩ := parentKind_eq parent
  simp [imageOf, around, ancestors, isKind, isImage]

/-- An element in Metadata is in no image. -/
theorem Stacked.imageOf_metadataChild (stacked : Stacked outline state)
    (member : element ∈ outline.elements) (parent : parentKind element = some .metadata) :
    imageOf outline element = none := by
  obtain ⟨frame, rest, ancestors, isMetadata⟩ := parentKind_eq parent
  obtain ⟨root, path, isRoot⟩ := stacked.rootGrandchild member ancestors isMetadata rfl
  simp [imageOf, around, path, isKind, isMetadata, isRoot]

/-- The position of the element around another one. -/
theorem around_lt (coherent : outline.Coherent) (member : element ∈ outline.elements)
    {kind : ElementKind} {k : Nat} (inside : around outline kind element = some k) :
    k < (outline.ofKind (isKind kind)).length := by
  unfold around at inside
  rw [Option.map_eq_some_iff] at inside
  obtain ⟨frame, found, rfl⟩ := inside
  obtain ⟨owner, there, same⟩ := (coherent.ancestors element member).element frame
    (List.mem_of_find?_eq_some found)
  have ofKind : isKind kind owner.tag = true := by
    rw [show owner.tag = frame.tag from congrArg Library.Frame.tag same]
    exact (List.find?_some found : _)
  exact (List.getElem?_eq_some_iff.mp (Library.Outline.getElem?_rank there ofKind)).1

theorem position_lt (coherent : outline.Coherent) {kind : XmlTag → Bool}
    (member : element ∈ outline.ofKind kind) :
    positionOf outline kind element < (outline.ofKind kind).length :=
  (List.getElem?_eq_some_iff.mp (coherent.getElem?_of_mem member)).1

theorem targets_lt (coherent : outline.Coherent) {kind : XmlTag → Bool} {target : Nat}
    (member : target ∈ targets outline kind element) : target < (outline.ofKind kind).length := by
  obtain ⟨named, inside, rfl⟩ := List.mem_map.mp member
  exact position_lt coherent (List.mem_filter.mp inside).1

end

/-! ## Of an accepted header -/

section

variable {options : ReaderOptions} {platform : Platform} {fileSize headerLength : Nat}
  {state : XmlBuilder} {parsed : ParsedHeader} {outline : HeaderOutline}

theorem AcceptedFrom.metadataBindings_eq
    (checked : AcceptedFrom options fileSize headerLength state parsed)
    (registered : Registered outline state) :
    parsed.document.metadataBindings = outline.elements.flatMap (metadataBindingsOf outline) := by
  rw [(Reader.metadataBindings_eq checked.metadataBindings).1, registered.metadataEvents,
    List.flatMap_assoc]
  congr 1
  funext element
  exact registered.bindings_of_events element

theorem BoundFrom.bindings_eq {objects limit : Nat} {direct : List ObjectBindingEvent}
    {uids : List (Text × Nat)} {bindings : List ObjectBinding}
    (bound : BoundFrom state objects direct uids limit bindings)
    (registered : Registered outline state) {kind : XmlTag → Bool}
    (sameEvents : direct = (outline.ofKind kind).flatMap (objectEventsOf outline kind))
    (sameUids : uids = (outline.ofKind kind).flatMap (uidAt outline kind)) :
    bindings = objectBindingsOf outline kind := by
  obtain ⟨own, outside, beyond, placed, referenced⟩ := bound
  rw [(referencedBindings_eq referenced).1, directBindings_eq placed]
  exact registered.objectBindings sameEvents sameUids

/-- The bindings of each kind of object are those of the outline. -/
structure ObjectsBound (outline : HeaderOutline) (document : Document) : Prop where
  ancillary : document.ancillaryBindings = objectBindingsOf outline isAncillary
  iccProfiles : document.iccProfileBindings = objectBindingsOf outline (isKind .iccProfile)
  thumbnails : document.thumbnailBindings = objectBindingsOf outline (isKind .thumbnail)
  tables : document.tableBindings = objectBindingsOf outline (isKind .table)

theorem AcceptedFrom.objectsBound
    (checked : AcceptedFrom options fileSize headerLength state parsed)
    (registered : Registered outline state) : ObjectsBound outline parsed.document := by
  have same := registered.same
  have field {α : Type} (field : Register → List α)
      (append : ∀ first second, field (first.append second) = field first ++ field second)
      (empty : field {} = []) (kind : XmlTag → Bool) (added : HeaderElement → List α)
      (adds : ∀ element, field (contribution outline element) =
        ofKindOnly kind element.tag (added element)) :
      field (registerOf state) = (outline.ofKind kind).flatMap added :=
    (congrArg field same).trans (Register.field_of_kind field append empty kind added adds)
  refine ⟨?_, ?_, ?_, ?_⟩
  · exact checked.ancillary.bindings_eq registered
      (field Register.ancillaryEvents (fun _ _ => rfl) rfl isAncillary _ fun _ => rfl)
      (field Register.ancillaryUids (fun _ _ => rfl) rfl isAncillary _ fun _ => rfl)
  · exact checked.iccProfiles.bindings_eq registered
      (field Register.iccProfileEvents (fun _ _ => rfl) rfl (isKind .iccProfile) _ fun _ => rfl)
      (field Register.iccProfileUids (fun _ _ => rfl) rfl (isKind .iccProfile) _ fun _ => rfl)
  · exact checked.thumbnails.bindings_eq registered
      (field Register.thumbnailEvents (fun _ _ => rfl) rfl (isKind .thumbnail) _ fun _ => rfl)
      (field Register.thumbnailUids (fun _ _ => rfl) rfl (isKind .thumbnail) _ fun _ => rfl)
  · obtain ⟨own, outside, placed, referenced⟩ := checked.tableBindings
    rw [(referencedTables_eq referenced).1, directBindings_eq placed]
    exact registered.objectBindings
      (field Register.tableEvents (fun _ _ => rfl) rfl (isKind .table) _ fun _ => rfl)
      (field Register.tableUids (fun _ _ => rfl) rfl (isKind .table) _ fun _ => rfl)

theorem names_iff {reference target : HeaderElement} : names reference target = true ↔
    ∃ text, referenceOf reference.tag = some text ∧ declaredUid target.tag = some text := by
  rw [names, Bool.and_eq_true, decide_eq_true_eq, Option.isSome_iff_exists]
  constructor
  · rintro ⟨⟨text, refers⟩, same⟩
    exact ⟨text, refers, same.trans refers⟩
  · rintro ⟨text, refers, same⟩
    exact ⟨⟨text, refers⟩, same.trans refers.symm⟩

/-- A Reference names one element. -/
theorem named_unique (unique : (outline.elements.filterMap fun element =>
      declaredUid element.tag).Nodup) {reference target target' : HeaderElement}
    (member : target ∈ outline.elements) (named : names reference target = true)
    (member' : target' ∈ outline.elements) (named' : names reference target' = true) :
    target = target' := by
  obtain ⟨text, refers, declared⟩ := names_iff.mp named
  obtain ⟨text', refers', declared'⟩ := names_iff.mp named'
  obtain rfl : text = text' := Option.some.inj (refers.symm.trans refers')
  have same := (Library.filter_key unique member declared).symm.trans
    (Library.filter_key unique member' declared')
  exact (List.cons.inj same).1

theorem mem_targets {reference target : HeaderElement} {kind : XmlTag → Bool}
    (named : names reference target = true) (member : target ∈ outline.ofKind kind) :
    positionOf outline kind target ∈ targets outline kind reference :=
  List.mem_map_of_mem (List.mem_filter.mpr ⟨member, named⟩)

/-- The entry at the position of an element of the outline. -/
theorem Registered.entry_of_element (registered : Registered outline state)
    (coherent : outline.Coherent) {element : HeaderElement}
    (member : element ∈ outline.ofKind isEntry) :
    ∃ entry, state.metadata[positionOf outline isEntry element]? = some entry ∧
      entryKey entry = entryKeyOf outline element := by
  have key := congrArg (fun keys => keys[positionOf outline isEntry element]?) registered.entries
  simp only [List.getElem?_map] at key
  rw [positionOf, coherent.getElem?_of_mem member, Option.map_some, Option.map_eq_some_iff] at key
  exact key

/-- What a Reference in Metadata, or in an Image, does not name. -/
structure ReferenceTaken (reference target : HeaderElement) : Prop where
  fromImage : parentKind reference = some .image → target.tag.kind ≠ .tableStructure
  fromMetadata : parentKind reference = some .metadata → target.tag.kind ≠ .tableStructure ∧
    target.tag.kind ≠ .fitsKeyword ∧ target.tag.kind ≠ .table

theorem AcceptedFrom.referenceTaken
    (checked : AcceptedFrom options fileSize headerLength state parsed)
    (registered : Registered outline state) (coherent : outline.Coherent)
    {reference target : HeaderElement} (inside : reference ∈ outline.elements)
    (member : target ∈ outline.elements) (named : names reference target = true) :
    ReferenceTaken reference target := by
  obtain ⟨text, refers, -⟩ := names_iff.mp named
  have inKind (kind : XmlTag → Bool) (same : kind target.tag = true) :
      target ∈ outline.ofKind kind := List.mem_filter.mpr ⟨member, same⟩
  -- the event of a Reference in an Image or in Metadata
  have noted (bound : parentKind reference = some .image ∨ parentKind reference = some .metadata) :
      ∃ event ∈ state.metadataBindingEvents, event.byReference = true ∧ event.metadataIndex = none ∧
        event.reference = text ∧
        event.scope = if parentKind reference = some .image then .image else .xisfUnit := by
    refine ⟨⟨none, text, if parentKind reference = some .image then .image else .xisfUnit,
      imageOf outline reference, true⟩, ?_, rfl, rfl, rfl, rfl⟩
    rw [registered.metadataEvents, List.mem_flatMap]
    refine ⟨reference, inside, List.mem_append_left _ ?_⟩
    rw [referenceEventsOf, if_pos bound, refers]
    exact List.mem_singleton_self _
  have taken := (Reader.metadataBindings_eq checked.metadataBindings).2
  have noStructure (bound : parentKind reference = some .image ∨
      parentKind reference = some .metadata) : target.tag.kind ≠ .tableStructure := by
    intro same
    obtain ⟨event, there, byReference, -, rfl, -⟩ := noted bound
    have none := (taken event there).noStructure byReference
    have uids : state.tableStructureUids =
        (outline.ofKind (isKind .tableStructure)).flatMap
        (uidAt outline (isKind .tableStructure)) :=
      (congrArg Register.structureUids registered.same).trans (Register.field_of_kind
        Register.structureUids (fun _ _ => rfl) rfl (isKind .tableStructure) _ fun _ => rfl)
    have found := lookup_uidAt registered.uids (isKind .tableStructure) uids refers
    have here := mem_targets named (inKind (isKind .tableStructure) (by simp [isKind, same]))
    rw [← found, none] at here
    cases here
  refine ⟨fun image => noStructure (.inl image),
    fun metadata => ⟨noStructure (.inr metadata), ?_, ?_⟩⟩
  · intro same
    obtain ⟨event, there, byReference, noIndex, rfl, unit⟩ := noted (.inr metadata)
    have member' := inKind isEntry (by simp [isEntry, same])
    have found := lookup_uidAt registered.uids isEntry registered.metadataUids refers
    have here := mem_targets named member'
    rw [← found, Option.mem_toList] at here
    have known : entryOf state event = some (positionOf outline isEntry target) := by
      rw [entryOf, noIndex]
      exact here
    obtain ⟨entry, isThere, allowed⟩ := (taken event there).entry _ known
    obtain ⟨entry', isThere', key⟩ := registered.entry_of_element coherent member'
    obtain rfl : entry = entry' := Option.some.inj (isThere.symm.trans isThere')
    refine allowed (by rw [unit, metadata]; rfl) ?_
    have kind := congrArg EntryKey.kind key
    simpa [entryKeyOf, entryKey, same] using kind
  · intro same
    obtain ⟨event, there, byReference, -, rfl, unit⟩ := noted (.inr metadata)
    obtain ⟨own, outside, -, referenced⟩ := checked.tableBindings
    have uids : state.tableUids =
        (outline.ofKind (isKind .table)).flatMap (uidAt outline (isKind .table)) :=
      (congrArg Register.tableUids registered.same).trans (Register.field_of_kind
        Register.tableUids (fun _ _ => rfl) rfl (isKind .table) _ fun _ => rfl)
    have found := lookup_uidAt registered.uids (isKind .table) uids refers
    have here := mem_targets named (inKind (isKind .table) (by simp [isKind, same]))
    rw [← found, Option.mem_toList] at here
    have image := (referencedTables_eq referenced).2.2 event there byReference (by rw [here]; rfl)
    rw [unit, metadata] at image
    cases image

end

end Mmxisf.Reader
