/-
# Reader.Shape -- the state of the parser and the outline of the header

Each stack, each count and each index of an open element of `XmlBuilder` is a
function of the outline of the events so far (`Shape`).  It is proved in four
groups of fields, since most branches touch one group only:

* `Stacked`: the stacks are the path of the open elements, and every element
  stands where its kind may stand;
* `Counted`: the vectors have an entry for each element of their kind;
* `Opens`: an index is set exactly while such an element is open;
* `Encodes`: an encoded block is open exactly in its element, which is innermost.
-/
import Mmxisf.Reader.HeaderOutline

namespace Mmxisf.Reader

set_option autoImplicit false

/-! ## Kinds as predicates of tags -/

def isKind (kind : ElementKind) (tag : XmlTag) : Bool := tag.kind = kind

/-- A Property or a FITSKeyword. -/
def isEntry (tag : XmlTag) : Bool := tag.kind = .property || tag.kind = .fitsKeyword

def isAncillary (tag : XmlTag) : Bool :=
  match tag.kind with
  | .ancillary _ => true
  | _ => false

/-- An element whose location says that its content is the block. -/
def hasInlineBlock (tag : XmlTag) : Bool :=
  (tag.attr "location").any fun location => (parseLocation location).kind = .inlineData

def isInlineProperty (tag : XmlTag) : Bool := tag.kind = .property && hasInlineBlock tag

def isInlineIccProfile (tag : XmlTag) : Bool := tag.kind = .iccProfile && hasInlineBlock tag

/-- An element whose content is an encoded block. -/
def isEncoded (tag : XmlTag) : Bool :=
  tag.kind = .data || isInlineProperty tag || isInlineIccProfile tag

/-- The position of an extension element among the extension elements. -/
def extensionIndex (outline : HeaderOutline) (frame : HeaderFrame) : Option Nat :=
  if frame.tag.kind = .foreign then some (outline.rank (isKind .foreign) frame) else none

/-- The position of the image or thumbnail whose Data element is innermost. -/
def dataIndex (outline : HeaderOutline) (kind : ElementKind) : Option Nat :=
  match outline.opened with
  | data :: owner :: _ =>
      if data.tag.kind = .data ∧ owner.tag.kind = kind then some (outline.rank (isKind kind) owner)
      else none
  | _ => none

/-- The position of the innermost element among those of a kind, if it is of
another kind too. -/
def innermostIndex (outline : HeaderOutline) (innermost kind : XmlTag → Bool) : Option Nat :=
  (outline.opened.head?.filter fun frame => innermost frame.tag).map (outline.rank kind)

/-! ## The invariant -/

/-- The stacks are the path of the open elements. -/
structure Stacked (outline : HeaderOutline) (state : XmlBuilder) : Prop where
  coherent : outline.Coherent
  placed : ∀ element ∈ outline.elements,
    HasPlace element.tag.kind (pathKinds element.ancestors)
  depth : state.depth = outline.opened.length
  elementStack : state.elementStack = outline.opened.map fun frame => frame.tag.stackName
  qualifiedElementStack : state.qualifiedElementStack =
    outline.opened.map fun frame => ⟨frame.tag.namespaceUri, frame.tag.name⟩
  extensionStack : state.extensionStack = outline.opened.map (extensionIndex outline)
  extensions : state.extensionElements.length = (outline.ofKind (isKind .foreign)).length

/-- The vectors have one entry for each element of their kind. -/
structure Counted (outline : HeaderOutline) (state : XmlBuilder) : Prop where
  images : state.images.length = (outline.ofKind (isKind .image)).length
  embeddedBlocks : state.embeddedBlocks.length = state.images.length
  embeddedDataSeen : state.embeddedDataSeen.length = state.images.length
  metadata : state.metadata.length = (outline.ofKind isEntry).length
  inlineMetadataBlocks : state.inlineMetadataBlocks.length = state.metadata.length
  iccProfiles : state.iccProfiles.length = (outline.ofKind (isKind .iccProfile)).length
  inlineIccProfileBlocks : state.inlineIccProfileBlocks.length = state.iccProfiles.length
  thumbnails : state.thumbnails.length = (outline.ofKind (isKind .thumbnail)).length
  embeddedThumbnailBlocks : state.embeddedThumbnailBlocks.length = state.thumbnails.length
  embeddedThumbnailDataSeen : state.embeddedThumbnailDataSeen.length = state.thumbnails.length
  ancillaryObjects : state.ancillaryObjects.length = (outline.ofKind isAncillary).length
  tables : state.tables.length = (outline.ofKind (isKind .table)).length
  tableStructures : state.tableStructures.length = (outline.ofKind (isKind .tableStructure)).length

/-- The number of rows of a table. -/
def rowCount (tables : List TableInfo) (table : Nat) : Option Nat :=
  (tables[table]?).map fun info => info.rows.length

/-- The number of cells of a row. -/
def cellCount (tables : List TableInfo) (table row : Nat) : Option Nat :=
  ((tables[table]?).bind fun info => info.rows[row]?).map fun info => info.cells.length

/-- An index is set while such an element is open, and is its position. -/
structure Opens (outline : HeaderOutline) (state : XmlBuilder) : Prop where
  image : state.imageStack = (outline.openIndex (isKind .image)).toList
  thumbnail : state.openThumbnailIndex = outline.openIndex (isKind .thumbnail)
  table : state.openTableIndex = outline.openIndex (isKind .table)
  tableStructure : state.openStructureIndex = outline.openIndex (isKind .tableStructure)
  row : state.openTableRowIndex.isSome = (outline.openIndex (isKind .row)).isSome
  cell : state.openTableCellIndex.isSome = (outline.openIndex (isKind .cell)).isSome
  lastTable : ∀ table, state.openTableIndex = some table → table + 1 = state.tables.length
  lastRow : ∀ row, state.openTableRowIndex = some row → ∃ table,
    state.openTableIndex = some table ∧ rowCount state.tables table = some (row + 1)
  lastCell : ∀ cell, state.openTableCellIndex = some cell → ∃ table row,
    state.openTableIndex = some table ∧ state.openTableRowIndex = some row ∧
      cellCount state.tables table row = some (cell + 1)

/-- An encoded block is open in its element, which is innermost. -/
structure Encodes (outline : HeaderOutline) (state : XmlBuilder) : Prop where
  image : state.embeddedImageIndex = dataIndex outline .image
  thumbnail : state.embeddedThumbnailIndex = dataIndex outline .thumbnail
  property : state.inlineMetadataIndex = innermostIndex outline isInlineProperty isEntry
  iccProfile : state.inlineIccProfileIndex =
    innermostIndex outline isInlineIccProfile (isKind .iccProfile)
  leaf : ∀ frame ∈ outline.opened.tail, isEncoded frame.tag = false
  text : ∀ entry, state.textMetadataIndex = some entry → entry < state.metadata.length

structure Shape (outline : HeaderOutline) (state : XmlBuilder) : Prop where
  stacked : Stacked outline state
  counted : Counted outline state
  opens : Opens outline state
  encodes : Encodes outline state

section

variable {options : ReaderOptions} {platform : Platform} {outline : HeaderOutline}
  {state state' identified : XmlBuilder} {element : ElementContext} {tag : XmlTag}

/-! ## Places -/

/-- A start tag with the name of its parent. -/
def XmlTag.context (tag : XmlTag) (parent : Text) : ElementContext :=
  ⟨tag.name, tag.namespaceUri, parent, tag.attributes⟩

/-- The name of the parent of an element that starts here. -/
def parentName (outline : HeaderOutline) : Text :=
  (outline.opened.head?.map fun frame => frame.tag.stackName).getD []

theorem Stacked.context (stacked : Stacked outline state) (name : Text)
    (attributes : List (Text × Text)) :
    contextOf state name attributes = (tagOf name attributes).context (parentName outline) := by
  rw [contextOf, stacked.elementStack, parentName]
  cases outline.opened <;> rfl

theorem Stacked.top (stacked : Stacked outline state) {top : HeaderFrame}
    {below : List HeaderFrame} (opened : outline.opened = top :: below) :
    HasPlace top.tag.kind (pathKinds below) := by
  have path := stacked.coherent.opened
  rw [opened] at path
  obtain ⟨⟨element, there, same, around⟩, -, -⟩ := path
  have placed := stacked.placed element (List.mem_of_getElem? there)
  rwa [around, show element.tag = top.tag from congrArg Library.Frame.tag same] at placed

/-- The name of the parent says its kind. -/
theorem parentName_eq (kind : ElementKind) (member : kind ∈ ElementKind.named) :
    parentName outline = kind.name ↔ (pathKinds outline.opened).head? = some kind := by
  rw [parentName, pathKinds]
  cases outline.opened with
  | nil =>
      have nonempty : ∀ kind ∈ ElementKind.named, kind.name ≠ [] := by decide
      simp [(nonempty kind member).symm]
  | cons top below =>
      rw [List.map_cons, List.head?_cons, List.head?_cons, Option.some.injEq]
      exact XmlTag.stackName_eq member

/-- A path of one element of this kind. -/
theorem pathKinds_of_length_one {kind : ElementKind} (length : outline.opened.length = 1)
    (head : (pathKinds outline.opened).head? = some kind) : pathKinds outline.opened = [kind] := by
  cases opened : outline.opened with
  | nil => simp [opened] at length
  | cons top below =>
      rw [opened] at length head
      rw [List.length_cons, Nat.add_eq_right, List.length_eq_zero_iff] at length
      rw [length] at head ⊢
      simpa [pathKinds] using head

/-- The kinds around an open element, from the kind of the element. -/
theorem Stacked.path_of_parent (stacked : Stacked outline state) (kind : ElementKind)
    {allowed : List (List ElementKind)} (fixed : allowedPaths kind = some allowed)
    (head : (pathKinds outline.opened).head? = some kind) :
    pathKinds outline.opened ∈ allowed.map (kind :: ·) := by
  cases opened : outline.opened with
  | nil => simp [opened, pathKinds] at head
  | cons top below =>
      have place := stacked.top opened
      rw [opened, pathKinds, List.map_cons, List.head?_cons, Option.some.injEq] at head
      rw [head] at place
      rw [pathKinds, List.map_cons, head]
      exact List.mem_map_of_mem (place.known allowed fixed)

theorem rootChild_path (depth : state.depth = outline.opened.length + 1)
    (child : isRootChild state (tag.context (parentName outline)) = true) :
    pathKinds outline.opened = rootPath := by
  simp only [isRootChild, Bool.and_eq_true, decide_eq_true_eq] at child
  exact pathKinds_of_length_one (by omega) ((parentName_eq _ (by decide)).mp child.2)

theorem imageChild_path (stacked : Stacked outline state)
    (child : isImageChild identified (tag.context (parentName outline)) = true) :
    pathKinds outline.opened = [.image, .xisf] := by
  simp only [isImageChild, Bool.and_eq_true, decide_eq_true_eq] at child
  have path := stacked.path_of_parent .image rfl
    ((parentName_eq _ (by decide)).mp child.1.2)
  simpa [rootPath] using path

theorem objectPlace_path (stacked : Stacked outline state)
    (depth : identified.depth = outline.opened.length + 1)
    (place : IsObjectPlace identified (tag.context (parentName outline))) :
    pathKinds outline.opened ∈ objectPaths := by
  rcases place with rootChild | imageChild
  · rw [rootChild_path depth rootChild]
    decide
  · rw [imageChild_path stacked imageChild]
    decide

/-- The kinds around a new element, where its kind has fixed places. -/
theorem Opened.path (stacked : Stacked outline state)
    (depth : identified.depth = outline.opened.length + 1)
    (foreign : tag.isXisf = false → pathKinds outline.opened = rootPath)
    (opened : Opened options platform identified (tag.context (parentName outline)) state')
    {allowed : List (List ElementKind)} (fixed : allowedPaths tag.kind = some allowed) :
    pathKinds outline.opened ∈ allowed := by
  have kindOf (kind : ElementKind) (member : kind ∈ ElementKind.named) (isXisf : tag.isXisf = true)
      (named : tag.name = kind.name) : allowedPaths kind = some allowed := by
    rwa [(XmlTag.kind_eq member).mpr ⟨isXisf, named⟩] at fixed
  have parentKind (kind : ElementKind) (member : kind ∈ ElementKind.named)
      (parent : parentName outline = kind.name) := (parentName_eq _ member).mp parent
  cases opened with
  | unhandled unknown same =>
      cases isXisf : tag.isXisf with
      | false =>
          rw [XmlTag.kind_foreign.mpr isXisf] at fixed
          cases fixed
          rw [foreign isXisf]
          decide
      | true =>
          rcases XmlTag.kind_unhandled isXisf (unknown isXisf) with kind | kind | kind
          all_goals
            rw [kind] at fixed
            cases fixed
  | table isXisf named run =>
      cases kindOf .table (by decide) isXisf named
      obtain ⟨-, -, place, -⟩ := startTable_eq run
      exact objectPlace_path stacked depth place
  | tableStructure isXisf named run =>
      cases kindOf .tableStructure (by decide) isXisf named
      obtain ⟨-, -, ⟨child, -⟩ | ⟨-, child, -⟩⟩ := startStructure_eq run
      · rw [rootChild_path depth child]
        decide
      · simp only [isTableChild, Bool.and_eq_true, decide_eq_true_eq] at child
        exact List.mem_cons_of_mem _ (stacked.path_of_parent .table rfl
          (parentKind _ (by decide) child.1.2))
  | field isXisf named run =>
      cases kindOf .field (by decide) isXisf named
      exact stacked.path_of_parent .tableStructure rfl
        (parentKind _ (by decide) (startField_eq run).1)
  | row isXisf named run =>
      cases kindOf .row (by decide) isXisf named
      exact stacked.path_of_parent .table rfl
        (parentKind _ (by decide) (startRow_eq run).1)
  | cell isXisf named run =>
      cases kindOf .cell (by decide) isXisf named
      obtain ⟨-, -, -, -, -, parent, -⟩ := startCell_eq run
      exact stacked.path_of_parent .row rfl (parentKind _ (by decide) parent)
  | iccProfile isXisf named run =>
      cases kindOf .iccProfile (by decide) isXisf named
      obtain ⟨-, -, place, -⟩ := startIccProfile_eq run
      exact objectPlace_path stacked depth place
  | ancillary isXisf kind named run =>
      rw [XmlTag.kind_ancillary isXisf named] at fixed
      cases fixed
      exact objectPlace_path stacked depth (startAncillary_eq run).1
  | thumbnail isXisf named run =>
      cases kindOf .thumbnail (by decide) isXisf named
      obtain ⟨-, -, -, -, -, place, -⟩ := startThumbnail_eq run
      exact objectPlace_path stacked depth place
  | data isXisf named run =>
      cases kindOf .data (by decide) isXisf named
      obtain ⟨-, -, ⟨index, owned, -⟩ | ⟨index, -, owned, -⟩⟩ := startData_eq run
      · unfold dataImage at owned
        split at owned
        · rename_i inside
          have path := stacked.path_of_parent .image rfl
            (parentKind _ (by decide) inside.2)
          rw [List.mem_map] at path
          obtain ⟨rest, member, same⟩ := path
          rw [List.mem_singleton.mp member] at same
          rw [← same]
          decide
        · cases owned
      · unfold dataThumbnail at owned
        split at owned
        · rename_i inside
          exact List.mem_cons_of_mem _ (stacked.path_of_parent .thumbnail rfl
            (parentKind _ (by decide) inside))
        · cases owned
  | image isXisf named run =>
      cases kindOf .image (by decide) isXisf named
      obtain ⟨-, -, -, -, -, child, -⟩ := startImage_eq run
      rw [rootChild_path depth child]
      decide
  | metadata isXisf named run =>
      cases kindOf .metadata (by decide) isXisf named
      rw [rootChild_path depth (startMetadata_eq run).1]
      decide
  | entry isXisf named run =>
      rcases named with property | keyword
      · cases kindOf .property (by decide) isXisf property
      · cases kindOf .fitsKeyword (by decide) isXisf keyword

/-! ## A start tag -/

/-- What entering and identifying an element leave of the stacks. -/
structure Entered (outline : HeaderOutline) (tag : XmlTag) (state : XmlBuilder) : Prop where
  depth : state.depth = outline.opened.length + 1
  elementStack : state.elementStack =
    tag.stackName :: outline.opened.map fun frame => frame.tag.stackName
  qualifiedElementStack : state.qualifiedElementStack = ⟨tag.namespaceUri, tag.name⟩ ::
    outline.opened.map fun frame => ⟨frame.tag.namespaceUri, frame.tag.name⟩
  extensionStack : state.extensionStack =
    extensionIndex (outline.start tag) (outline.fresh tag).toFrame ::
      outline.opened.map (extensionIndex outline)
  extensions : state.extensionElements.length =
    ((outline.start tag).ofKind (isKind .foreign)).length

theorem extensionIndex_start {frame : HeaderFrame} (stacked : Stacked outline state)
    (member : frame ∈ outline.opened) :
    extensionIndex (outline.start tag) frame = extensionIndex outline frame := by
  have before := stacked.coherent.opened.lt_length frame member
  rw [extensionIndex, extensionIndex, Library.Outline.rank_start (Nat.le_of_lt before)]

theorem Stacked.enter (stacked : Stacked outline state) {base : XmlBuilder} {index : Option Nat}
    {ranges : List AttachedRange}
    (extended : ExtensionRecorded options
      { state with depth := state.depth + 1, nodes := state.nodes + 1 }
      (tag.context (parentName outline)) base index)
    (root : outline.opened = [] → tag.isXisf = true) :
    Entered outline tag (enteredState base (tag.context (parentName outline)) index ranges) := by
  cases extended with
  | known known =>
      have isXisf : tag.isXisf = true := by
        rcases known with outermost | isXisf
        · have depth : state.depth + 1 ≤ 1 := outermost
          rw [stacked.depth] at depth
          exact root (List.eq_nil_of_length_eq_zero (by omega))
        · exact isXisf
      have notForeign : isKind .foreign tag = false := by
        rw [isKind, decide_eq_false_iff_not, XmlTag.kind_foreign, isXisf]
        exact Bool.noConfusion
      refine ⟨congrArg (· + 1) stacked.depth, congrArg₂ List.cons rfl stacked.elementStack,
        congrArg₂ List.cons rfl stacked.qualifiedElementStack,
        congrArg₂ List.cons ?_ stacked.extensionStack, ?_⟩
      · rw [extensionIndex, if_neg]
        simpa [isKind] using notForeign
      · rw [Library.Outline.ofKind_start_other notForeign]
        exact stacked.extensions
  | extension foreign place parent room attributes bytes =>
      have isForeign : tag.kind = .foreign := XmlTag.kind_foreign.mpr foreign
      have same : isKind .foreign tag = true := decide_eq_true isForeign
      refine ⟨congrArg (· + 1) stacked.depth, congrArg₂ List.cons rfl stacked.elementStack,
        congrArg₂ List.cons rfl stacked.qualifiedElementStack,
        congrArg₂ List.cons ?_ stacked.extensionStack, ?_⟩
      · rw [extensionIndex, if_pos (by exact isForeign), Library.Outline.rank_fresh,
          ← stacked.extensions]
      · rw [Library.Outline.ofKind_start_same same, List.length_append, ← stacked.extensions]
        exact List.length_append

theorem Entered.identify (entered : Entered outline tag state)
    (identify : Identified options state element identified) : Entered outline tag identified := by
  cases identify <;> exact ⟨entered.depth, entered.elementStack, entered.qualifiedElementStack,
    entered.extensionStack, entered.extensions⟩

/-- No branch touches the stacks. -/
theorem Entered.opened (entered : Entered outline tag identified)
    (opened : Opened options platform identified element state') : Entered outline tag state' := by
  obtain ⟨depth, elementStack, qualified, extensionStack, extensions⟩ := entered
  cases opened with
  | unhandled unknown same =>
      subst same
      exact ⟨depth, elementStack, qualified, extensionStack, extensions⟩
  | table isXisf named run =>
      obtain ⟨-, -, -, -, -, -, rfl⟩ := startTable_eq run
      exact ⟨depth, elementStack, qualified, extensionStack, extensions⟩
  | tableStructure isXisf named run =>
      obtain ⟨-, -, ⟨-, -, rfl⟩ | ⟨-, -, -, rfl⟩⟩ := startStructure_eq run <;>
        exact ⟨depth, elementStack, qualified, extensionStack, extensions⟩
  | field isXisf named run =>
      obtain ⟨-, -, -, -, rfl⟩ := startField_eq run
      exact ⟨depth, elementStack, qualified, extensionStack, extensions⟩
  | row isXisf named run =>
      obtain ⟨-, -, -, -, rfl⟩ := startRow_eq run
      exact ⟨depth, elementStack, qualified, extensionStack, extensions⟩
  | cell isXisf named run =>
      obtain ⟨-, -, -, -, -, -, -, -, -, -, -, -, -, rfl⟩ := startCell_eq run
      exact ⟨depth, elementStack, qualified, extensionStack, extensions⟩
  | iccProfile isXisf named run =>
      obtain ⟨-, -, -, -, -, ⟨-, rfl⟩ | ⟨-, -, rfl⟩⟩ := startIccProfile_eq run <;>
        exact ⟨depth, elementStack, qualified, extensionStack, extensions⟩
  | ancillary isXisf kind named run =>
      obtain ⟨-, -, -, -, -, rfl⟩ := startAncillary_eq run
      exact ⟨depth, elementStack, qualified, extensionStack, extensions⟩
  | thumbnail isXisf named run =>
      obtain ⟨-, -, -, -, -, -, -, -, rfl⟩ := startThumbnail_eq run
      exact ⟨depth, elementStack, qualified, extensionStack, extensions⟩
  | data isXisf named run =>
      obtain ⟨-, -, ⟨-, -, -, rfl⟩ | ⟨-, -, -, -, rfl⟩⟩ := startData_eq run <;>
        exact ⟨depth, elementStack, qualified, extensionStack, extensions⟩
  | image isXisf named run =>
      obtain ⟨-, -, -, -, -, -, -, rfl⟩ := startImage_eq run
      exact ⟨depth, elementStack, qualified, extensionStack, extensions⟩
  | metadata isXisf named run =>
      obtain ⟨-, -, rfl⟩ := startMetadata_eq run
      exact ⟨depth, elementStack, qualified, extensionStack, extensions⟩
  | entry isXisf named run =>
      obtain ⟨-, -, -, -, -, -, -, ⟨-, rfl⟩ | ⟨-, -, -, -, rfl⟩ | ⟨-, -, rfl⟩⟩ :=
        startMetadataEntry_eq run <;>
        exact ⟨depth, elementStack, qualified, extensionStack, extensions⟩

/-- A Property or FITSKeyword takes the branch of the metadata entries. -/
theorem Opened.entry_run {parent : Text}
    (opened : Opened options platform identified (tag.context parent) state')
    (entry : isEntry tag = true) :
    startMetadataEntry options identified (tag.context parent) = .ok state' := by
  have kinds : tag.kind = .property ∨ tag.kind = .fitsKeyword := by simpa [isEntry] using entry
  have names : tag.name = lit "Property" ∨ tag.name = lit "FITSKeyword" :=
    kinds.imp (fun kind => ((XmlTag.kind_eq (by decide)).mp kind).2)
      fun kind => ((XmlTag.kind_eq (by decide)).mp kind).2
  cases opened with
  | entry isXisf named run => exact run
  | unhandled unknown same =>
      have isXisf : tag.isXisf = true :=
        kinds.elim (fun kind => ((XmlTag.kind_eq (by decide)).mp kind).1)
          fun kind => ((XmlTag.kind_eq (by decide)).mp kind).1
      rcases XmlTag.kind_unhandled isXisf (unknown isXisf) with kind | kind | kind
      all_goals
        rw [kind] at kinds
        rcases kinds with impossible | impossible <;> cases impossible
  | ancillary isXisf kind named run =>
      rw [XmlTag.kind_ancillary isXisf named] at kinds
      rcases kinds with impossible | impossible <;> cases impossible
  | _ =>
      rename_i isXisf named run
      rcases names with property | keyword
      · exact absurd (property.symm.trans named) (by decide)
      · exact absurd (keyword.symm.trans named) (by decide)

theorem hasPlace_root : HasPlace .xisf (pathKinds []) where
  root _ := rfl
  known := nofun
  property := nofun
  fitsKeyword := nofun
  leaf := ⟨nofun, nofun⟩
  row := nofun

/-- The place of a new element. -/
theorem hasPlace_start (stacked : Stacked outline state)
    (started : Started options platform state (tag.context (parentName outline)) state') :
    HasPlace tag.kind (pathKinds outline.opened) := by
  obtain ⟨-, -, -, -, leaf, base, index, ranges, extended, opens⟩ := started
  have parentKind (kind : ElementKind) (member : kind ∈ ElementKind.named)
      (head : (pathKinds outline.opened).head? = some kind) : parentName outline = kind.name :=
    (parentName_eq _ member).mpr head
  have leaf' : (pathKinds outline.opened).head? ≠ some .cell ∧
      (pathKinds outline.opened).head? ≠ some .field :=
    ⟨fun head => leaf (.inl (parentKind .cell (by decide) head)),
      fun head => leaf (.inr (.inl (parentKind .field (by decide) head)))⟩
  have row : (pathKinds outline.opened).head? = some .row → tag.kind = .cell := by
    intro head
    by_contra other
    refine leaf (.inr (.inr ⟨parentKind .row (by decide) head, ?_⟩))
    rw [XmlTag.kind_eq (by decide), not_and_or, Bool.not_eq_true] at other
    exact other
  rcases opens with ⟨outermost, -, isXisf, named, -⟩ | ⟨inner, identified, identify, opened⟩
  · have empty : outline.opened = [] := by
      rw [stacked.depth] at outermost
      exact List.eq_nil_of_length_eq_zero outermost
    have kind : tag.kind = .xisf := (XmlTag.kind_eq (by decide)).mpr ⟨isXisf, named⟩
    rw [empty, kind]
    exact hasPlace_root
  · have nonempty : outline.opened ≠ [] := by
      intro empty
      rw [stacked.depth, empty] at inner
      exact inner rfl
    have depth : identified.depth = outline.opened.length + 1 :=
      ((stacked.enter extended fun empty => absurd empty nonempty).identify identify).depth
    have foreign : tag.isXisf = false → pathKinds outline.opened = rootPath := by
      intro foreign
      cases extended with
      | known known =>
          rcases known with outermost | isXisf
          · have depth : state.depth + 1 ≤ 1 := outermost
            omega
          · have impossible : tag.isXisf = true := isXisf
            rw [foreign] at impossible
            cases impossible
      | extension _ place parent =>
          have second : state.depth + 1 = 2 := place
          rw [stacked.depth] at second
          exact pathKinds_of_length_one (by omega)
            ((parentName_eq .xisf (by decide)).mp parent)
    refine ⟨fun empty => absurd (List.map_eq_nil_iff.mp empty) nonempty,
      fun allowed fixed => opened.path stacked depth foreign fixed, ?_, ?_, leaf', row⟩
    · intro property
      have run := opened.entry_run (by simp [isEntry, property])
      obtain ⟨-, -, parent, -⟩ := startMetadataEntry_eq run
      simp only [isMetadataParent, Bool.or_eq_true, Bool.and_eq_true, decide_eq_true_eq] at parent
      rcases parent with (root | image) | ⟨-, metadata⟩
      · exact .inl ((parentName_eq .xisf (by decide)).mp root)
      · exact .inr (.inl ((parentName_eq .image (by decide)).mp image))
      · exact .inr (.inr ((parentName_eq .metadata (by decide)).mp metadata))
    · intro keyword
      have run := opened.entry_run (by simp [isEntry, keyword])
      have named := ((XmlTag.kind_eq (by decide)).mp keyword).2
      obtain ⟨-, -, parent, -⟩ := startMetadataEntry_eq run
      simp only [isMetadataParent, Bool.or_eq_true, Bool.and_eq_true, decide_eq_true_eq] at parent
      rcases parent with (root | image) | ⟨property, -⟩
      · exact .inl ((parentName_eq .xisf (by decide)).mp root)
      · exact .inr ((parentName_eq .image (by decide)).mp image)
      · exact absurd (named.symm.trans property) (by decide)

/-- The stacks after a start tag. -/
theorem Stacked.start (stacked : Stacked outline state)
    (started : Started options platform state (tag.context (parentName outline)) state') :
    Stacked (outline.start tag) state' := by
  have placed := hasPlace_start stacked started
  obtain ⟨-, -, -, -, -, base, index, ranges, extended, opens⟩ := started
  have entered : Entered outline tag state' := by
    rcases opens with ⟨outermost, -, isXisf, named, rfl⟩ | ⟨inner, identified, identify, opened⟩
    · obtain ⟨depth, elementStack, qualified, extensionStack, extensions⟩ :=
        @Stacked.enter _ _ _ _ stacked _ _ ranges extended fun _ => isXisf
      exact ⟨depth, elementStack, qualified, extensionStack, extensions⟩
    · refine ((stacked.enter extended fun empty => ?_).identify identify).opened opened
      rw [stacked.depth, empty] at inner
      exact absurd rfl inner
  refine ⟨stacked.coherent.start tag, ?_, entered.depth, entered.elementStack,
    entered.qualifiedElementStack, ?_, entered.extensions⟩
  · intro element member
    rcases List.mem_append.mp member with old | new
    · exact stacked.placed element old
    · rw [List.mem_singleton.mp new]
      exact placed
  · rw [entered.extensionStack, Library.Outline.start_opened, List.map_cons]
    congr 1
    exact List.map_congr_left fun frame member => (extensionIndex_start stacked member).symm

/-- The kind of a tag with a known name. -/
theorem kind_of_name (kind : ElementKind) (member : kind ∈ ElementKind.named)
    (isXisf : tag.isXisf = true) (named : tag.name = kind.name) : tag.kind = kind :=
  (XmlTag.kind_eq member).mpr ⟨isXisf, named⟩

/-- A tag without a branch is of none of the counted kinds. -/
theorem kind_of_unhandled (unknown : tag.isXisf = true → tag.name ∉ handledNames) :
    tag.kind = .xisf ∨ tag.kind = .reference ∨ tag.kind = .unknown ∨ tag.kind = .foreign := by
  cases isXisf : tag.isXisf with
  | true =>
      rcases XmlTag.kind_unhandled isXisf (unknown isXisf) with kind | kind | kind
      · exact .inl kind
      · exact .inr (.inl kind)
      · exact .inr (.inr (.inl kind))
  | false => exact .inr (.inr (.inr (XmlTag.kind_foreign.mpr isXisf)))

theorem Counted.enter (counted : Counted outline state) {base : XmlBuilder} {index : Option Nat}
    {ranges : List AttachedRange}
    (extended : ExtensionRecorded options
      { state with depth := state.depth + 1, nodes := state.nodes + 1 } element base index) :
    Counted outline (enteredState base element index ranges) := by
  obtain ⟨images, embedded, seen, metadata, inlineMetadata, profiles, inlineProfiles, thumbnails,
    thumbnailBlocks, thumbnailSeen, ancillary, tables, structures⟩ := counted
  cases extended <;> exact ⟨images, embedded, seen, metadata, inlineMetadata, profiles,
    inlineProfiles, thumbnails, thumbnailBlocks, thumbnailSeen, ancillary, tables, structures⟩

theorem Counted.identify (counted : Counted outline state)
    (identify : Identified options state element identified) : Counted outline identified := by
  obtain ⟨images, embedded, seen, metadata, inlineMetadata, profiles, inlineProfiles, thumbnails,
    thumbnailBlocks, thumbnailSeen, ancillary, tables, structures⟩ := counted
  cases identify <;> exact ⟨images, embedded, seen, metadata, inlineMetadata, profiles,
    inlineProfiles, thumbnails, thumbnailBlocks, thumbnailSeen, ancillary, tables, structures⟩

/-- The vectors of an element's kind grow with its start tag. -/
theorem Counted.opened {parent : Text} (counted : Counted outline identified)
    (opened : Opened options platform identified (tag.context parent) state') :
    Counted (outline.start tag) state' := by
  obtain ⟨images, embedded, seen, metadata, inlineMetadata, profiles, inlineProfiles, thumbnails,
    thumbnailBlocks, thumbnailSeen, ancillary, tables, structures⟩ := counted
  cases opened with
  | unhandled unknown same =>
      subst same
      rcases kind_of_unhandled unknown with kind | kind | kind | kind
      all_goals constructor <;>
        simp [Library.Outline.length_ofKind_start, isKind, isEntry, isAncillary, *]
  | table isXisf named run =>
      have kind := kind_of_name .table (by decide) isXisf named
      obtain ⟨-, -, -, -, -, -, rfl⟩ := startTable_eq run
      constructor <;> simp [Library.Outline.length_ofKind_start, isKind, isEntry, isAncillary, *]
  | tableStructure isXisf named run =>
      have kind := kind_of_name .tableStructure (by decide) isXisf named
      obtain ⟨-, -, ⟨-, -, rfl⟩ | ⟨-, -, -, rfl⟩⟩ := startStructure_eq run
      all_goals constructor <;>
        simp [Library.Outline.length_ofKind_start, isKind, isEntry, isAncillary, *]
  | field isXisf named run =>
      have kind := kind_of_name .field (by decide) isXisf named
      obtain ⟨-, -, -, -, rfl⟩ := startField_eq run
      constructor <;> simp [Library.Outline.length_ofKind_start, isKind, isEntry, isAncillary, *]
  | row isXisf named run =>
      have kind := kind_of_name .row (by decide) isXisf named
      obtain ⟨-, -, -, -, rfl⟩ := startRow_eq run
      constructor <;> simp [Library.Outline.length_ofKind_start, isKind, isEntry, isAncillary, *]
  | cell isXisf named run =>
      have kind := kind_of_name .cell (by decide) isXisf named
      obtain ⟨-, -, -, -, -, -, -, -, -, -, -, -, -, rfl⟩ := startCell_eq run
      constructor <;> simp [Library.Outline.length_ofKind_start, isKind, isEntry, isAncillary, *]
  | iccProfile isXisf named run =>
      have kind := kind_of_name .iccProfile (by decide) isXisf named
      obtain ⟨-, -, -, -, -, ⟨-, rfl⟩ | ⟨-, -, rfl⟩⟩ := startIccProfile_eq run
      all_goals constructor <;>
        simp [Library.Outline.length_ofKind_start, isKind, isEntry, isAncillary, addIccProfile,
          beginEncoding, *]
  | ancillary isXisf which named run =>
      have kind := XmlTag.kind_ancillary isXisf named
      obtain ⟨-, -, -, -, -, rfl⟩ := startAncillary_eq run
      constructor <;> simp [Library.Outline.length_ofKind_start, isKind, isEntry, isAncillary, *]
  | thumbnail isXisf named run =>
      have kind := kind_of_name .thumbnail (by decide) isXisf named
      obtain ⟨-, -, -, -, -, -, -, -, rfl⟩ := startThumbnail_eq run
      constructor <;> simp [Library.Outline.length_ofKind_start, isKind, isEntry, isAncillary, *]
  | data isXisf named run =>
      have kind := kind_of_name .data (by decide) isXisf named
      obtain ⟨-, -, ⟨-, -, -, rfl⟩ | ⟨-, -, -, -, rfl⟩⟩ := startData_eq run
      all_goals constructor <;>
        simp [Library.Outline.length_ofKind_start, isKind, isEntry, isAncillary, beginEncoding, *]
  | image isXisf named run =>
      have kind := kind_of_name .image (by decide) isXisf named
      obtain ⟨-, -, -, -, -, -, -, rfl⟩ := startImage_eq run
      constructor <;> simp [Library.Outline.length_ofKind_start, isKind, isEntry, isAncillary, *]
  | metadata isXisf named run =>
      have kind := kind_of_name .metadata (by decide) isXisf named
      obtain ⟨-, -, rfl⟩ := startMetadata_eq run
      constructor <;> simp [Library.Outline.length_ofKind_start, isKind, isEntry, isAncillary, *]
  | entry isXisf named run =>
      have kinds : tag.kind = .property ∨ tag.kind = .fitsKeyword :=
        named.imp (kind_of_name _ (by decide) isXisf) (kind_of_name _ (by decide) isXisf)
      obtain ⟨-, -, -, -, -, -, -, ⟨-, rfl⟩ | ⟨-, -, -, -, rfl⟩ | ⟨-, -, rfl⟩⟩ :=
        startMetadataEntry_eq run
      all_goals
        rcases kinds with kind | kind
        all_goals constructor <;>
          simp [Library.Outline.length_ofKind_start, isKind, isEntry, isAncillary, addEntry,
            beginEncoding, *]

/-! ### What is open -/

theorem openIndex_of_path {kind : ElementKind} (outside : kind ∉ pathKinds outline.opened) :
    outline.openIndex (isKind kind) = none := by
  refine Library.Outline.openIndex_eq_none fun frame member => ?_
  rw [isKind, decide_eq_false_iff_not]
  rintro rfl
  exact outside (List.mem_map_of_mem member)

/-- No element of this kind is open where one may start. -/
theorem HasPlace.none_open {kind : ElementKind} {allowed : List (List ElementKind)}
    (place : HasPlace kind (pathKinds outline.opened)) (member : kind ∈ ElementKind.named)
    (fixed : allowedPaths kind = some allowed) : outline.openIndex (isKind kind) = none :=
  openIndex_of_path (not_nested kind member allowed fixed _ (place.known allowed fixed))

theorem rowCount_modify {tables : List TableInfo} {change : TableInfo → TableInfo}
    (same : ∀ table, (change table).rows.length = table.rows.length) (i table : Nat) :
    rowCount (tables.modify i change) table = rowCount tables table := by
  unfold rowCount
  rw [List.getElem?_modify]
  cases tables[table]? with
  | none => rfl
  | some info => by_cases here : i = table <;> simp [here, same]

theorem cellCount_modify {tables : List TableInfo} {change : TableInfo → TableInfo}
    (same : ∀ (info : TableInfo) (row : Nat),
      ((change info).rows[row]?).map (fun row : TableRowInfo => row.cells.length) =
        (info.rows[row]?).map fun row : TableRowInfo => row.cells.length) (i table row : Nat) :
    cellCount (tables.modify i change) table row = cellCount tables table row := by
  unfold cellCount
  rw [List.getElem?_modify]
  cases tables[table]? with
  | none => rfl
  | some info => by_cases here : i = table <;> simp [here, same]

/-- A table with a structure of its own has the same rows. -/
theorem rowCount_adopt (tables : List TableInfo) (i table : Nat) (index : Option Nat) :
    rowCount (tables.modify i fun info => { info with structureIndex := index }) table =
      rowCount tables table := by
  refine rowCount_modify ?_ i table
  exact fun _ => rfl

theorem cellCount_adopt (tables : List TableInfo) (i table row : Nat) (index : Option Nat) :
    cellCount (tables.modify i fun info => { info with structureIndex := index }) table row =
      cellCount tables table row := by
  refine cellCount_modify ?_ i table row
  exact fun _ _ => rfl

theorem Opens.enter (opens : Opens outline state) {base : XmlBuilder} {index : Option Nat}
    {ranges : List AttachedRange}
    (extended : ExtensionRecorded options
      { state with depth := state.depth + 1, nodes := state.nodes + 1 } element base index) :
    Opens outline (enteredState base element index ranges) := by
  obtain ⟨image, thumbnail, table, tableStructure, row, cell, lastTable, lastRow, lastCell⟩ := opens
  cases extended <;>
    exact ⟨image, thumbnail, table, tableStructure, row, cell, lastTable, lastRow, lastCell⟩

theorem Opens.identify (opens : Opens outline state)
    (identify : Identified options state element identified) : Opens outline identified := by
  obtain ⟨image, thumbnail, table, tableStructure, row, cell, lastTable, lastRow, lastCell⟩ := opens
  cases identify <;>
    exact ⟨image, thumbnail, table, tableStructure, row, cell, lastTable, lastRow, lastCell⟩

theorem Opens.opened {parent : Text} (opens : Opens outline identified)
    (coherent : outline.Coherent) (place : HasPlace tag.kind (pathKinds outline.opened))
    (counted : Counted outline identified)
    (opened : Opened options platform identified (tag.context parent) state') :
    Opens (outline.start tag) state' := by
  obtain ⟨image, thumbnail, table, tableStructure, row, cell, lastTable, lastRow, lastCell⟩ := opens
  have start : ∀ kind : XmlTag → Bool, (outline.start tag).openIndex kind =
      if kind tag then some (outline.ofKind kind).length else outline.openIndex kind :=
    fun kind => coherent.openIndex_start kind tag
  cases opened with
  | unhandled unknown same =>
      subst same
      rcases kind_of_unhandled unknown with kind | kind | kind | kind
      all_goals
        refine ⟨?_, ?_, ?_, ?_, ?_, ?_, lastTable, lastRow, lastCell⟩ <;>
          simp [start, isKind, kind, image, thumbnail, table, tableStructure, row, cell]
  | table isXisf named run =>
      have kind := kind_of_name .table (by decide) isXisf named
      rw [kind] at place
      have path := place.known _ rfl
      have noRow : outline.openIndex (isKind .row) = none := openIndex_of_path fun inside => by
        have outside : ∀ path ∈ objectPaths, ElementKind.row ∉ path := by decide
        exact outside _ path inside
      have noCell : outline.openIndex (isKind .cell) = none := openIndex_of_path fun inside => by
        have outside : ∀ path ∈ objectPaths, ElementKind.cell ∉ path := by decide
        exact outside _ path inside
      rw [noRow] at row
      rw [noCell] at cell
      obtain ⟨-, -, -, -, -, -, rfl⟩ := startTable_eq run
      refine ⟨?_, ?_, ?_, ?_, ?_, ?_, ?_, ?_, ?_⟩
      · simp [start, isKind, kind, image]
      · simp [start, isKind, kind, thumbnail]
      · simp [start, isKind, kind, counted.tables]
      · simp [start, isKind, kind, tableStructure]
      · simp [start, isKind, kind, noRow, row]
      · simp [start, isKind, kind, noCell, cell]
      · simp
      · intro found impossible
        rw [impossible] at row
        cases row
      · intro found impossible
        rw [impossible] at cell
        cases cell
  | tableStructure isXisf named run =>
      have kind := kind_of_name .tableStructure (by decide) isXisf named
      obtain ⟨-, -, ⟨-, -, rfl⟩ | ⟨-, -, -, rfl⟩⟩ := startStructure_eq run
      · refine ⟨?_, ?_, ?_, ?_, ?_, ?_, lastTable, lastRow, lastCell⟩ <;>
          simp [start, isKind, kind, counted.tableStructures, image, thumbnail, table, row, cell]
      · refine ⟨?_, ?_, ?_, ?_, ?_, ?_, ?_, ?_, ?_⟩
        · simp [start, isKind, kind, image]
        · simp [start, isKind, kind, thumbnail]
        · simp [start, isKind, kind, table]
        · simp [start, isKind, kind, counted.tableStructures]
        · simp [start, isKind, kind, row]
        · simp [start, isKind, kind, cell]
        · simpa using lastTable
        · intro r isOpen
          obtain ⟨t, inTable, counts⟩ := lastRow r isOpen
          refine ⟨t, inTable, ?_⟩
          rw [← counts]
          exact rowCount_adopt ..
        · intro c isOpen
          obtain ⟨t, r, inTable, inRow, counts⟩ := lastCell c isOpen
          refine ⟨t, r, inTable, inRow, ?_⟩
          rw [← counts]
          exact cellCount_adopt ..
  | field isXisf named run =>
      have kind := kind_of_name .field (by decide) isXisf named
      obtain ⟨-, -, -, -, rfl⟩ := startField_eq run
      refine ⟨?_, ?_, ?_, ?_, ?_, ?_, lastTable, lastRow, lastCell⟩ <;>
        simp [start, isKind, kind, image, thumbnail, table, tableStructure, row, cell]
  | row isXisf named run =>
      have kind := kind_of_name .row (by decide) isXisf named
      rw [kind] at place
      have noCell : outline.openIndex (isKind .cell) = none := openIndex_of_path fun inside => by
        have outside : ∀ path ∈ tablePaths, ElementKind.cell ∉ path := by decide
        exact outside _ (place.known _ rfl) inside
      rw [noCell] at cell
      obtain ⟨-, inTable, -, -, rfl⟩ := startRow_eq run
      obtain ⟨t, inTable⟩ := Option.isSome_iff_exists.mp inTable
      have small : t < identified.tables.length := by
        have last := lastTable t inTable
        omega
      have found := List.getElem?_eq_getElem small
      refine ⟨?_, ?_, ?_, ?_, ?_, ?_, ?_, ?_, ?_⟩
      · simp [start, isKind, kind, image]
      · simp [start, isKind, kind, thumbnail]
      · simp [start, isKind, kind, table]
      · simp [start, isKind, kind, tableStructure]
      · simp [start, isKind, kind]
      · simp [start, isKind, kind, noCell, cell]
      · simpa using lastTable
      · rintro r same
        rw [Option.some.injEq] at same
        refine ⟨t, inTable, ?_⟩
        rw [← same, inTable, Option.getD_some, found]
        simp [rowCount, found]
      · intro c impossible
        rw [impossible] at cell
        cases cell
  | cell isXisf named run =>
      have kind := kind_of_name .cell (by decide) isXisf named
      obtain ⟨block, form, length, rows, columns, -, -, inRow, -, -, -, -, -, rfl⟩ :=
        startCell_eq run
      obtain ⟨r, inRow⟩ := Option.isSome_iff_exists.mp inRow
      obtain ⟨t, inTable, counts⟩ := lastRow r inRow
      obtain ⟨info, found, rowTotal⟩ := Option.map_eq_some_iff.mp counts
      have small : r < info.rows.length := by omega
      have foundRow := List.getElem?_eq_getElem small
      refine ⟨?_, ?_, ?_, ?_, ?_, ?_, ?_, ?_, ?_⟩
      · simp [start, isKind, kind, image]
      · simp [start, isKind, kind, thumbnail]
      · simp [start, isKind, kind, table]
      · simp [start, isKind, kind, tableStructure]
      · simp [start, isKind, kind, row]
      · simp [start, isKind, kind]
      · simpa using lastTable
      · intro r isOpen
        obtain ⟨t, inTable, counts⟩ := lastRow r isOpen
        refine ⟨t, inTable, ?_⟩
        rw [← counts]
        exact rowCount_modify (fun _ => List.length_modify ..) _ _
      · rintro c same
        rw [Option.some.injEq] at same
        refine ⟨t, r, inTable, inRow, ?_⟩
        rw [← same, inTable, inRow, Option.getD_some, Option.getD_some, found, Option.bind_some,
          foundRow]
        simp [cellCount, modifyRows, found, foundRow]
  | iccProfile isXisf named run =>
      have kind := kind_of_name .iccProfile (by decide) isXisf named
      obtain ⟨-, -, -, -, -, ⟨-, rfl⟩ | ⟨-, -, rfl⟩⟩ := startIccProfile_eq run
      all_goals
        refine ⟨?_, ?_, ?_, ?_, ?_, ?_, lastTable, lastRow, lastCell⟩ <;>
          simp [start, isKind, kind, image, thumbnail, table, tableStructure, row, cell,
            addIccProfile, beginEncoding]
  | ancillary isXisf which named run =>
      have kind := XmlTag.kind_ancillary isXisf named
      obtain ⟨-, -, -, -, -, rfl⟩ := startAncillary_eq run
      refine ⟨?_, ?_, ?_, ?_, ?_, ?_, lastTable, lastRow, lastCell⟩ <;>
        simp [start, isKind, kind, image, thumbnail, table, tableStructure, row, cell]
  | thumbnail isXisf named run =>
      have kind := kind_of_name .thumbnail (by decide) isXisf named
      obtain ⟨-, -, -, -, -, -, -, -, rfl⟩ := startThumbnail_eq run
      refine ⟨?_, ?_, ?_, ?_, ?_, ?_, lastTable, lastRow, lastCell⟩ <;>
        simp [start, isKind, kind, image, counted.thumbnails, table, tableStructure, row, cell]
  | data isXisf named run =>
      have kind := kind_of_name .data (by decide) isXisf named
      obtain ⟨-, -, ⟨-, -, -, rfl⟩ | ⟨-, -, -, -, rfl⟩⟩ := startData_eq run
      all_goals
        refine ⟨?_, ?_, ?_, ?_, ?_, ?_, lastTable, lastRow, lastCell⟩ <;>
          simp [start, isKind, kind, image, thumbnail, table, tableStructure, row, cell,
            beginEncoding]
  | image isXisf named run =>
      have kind := kind_of_name .image (by decide) isXisf named
      rw [kind] at place
      have noImage := place.none_open (by decide) rfl
      obtain ⟨-, -, -, -, -, -, -, rfl⟩ := startImage_eq run
      refine ⟨?_, ?_, ?_, ?_, ?_, ?_, lastTable, lastRow, lastCell⟩ <;>
        simp [start, isKind, kind, noImage, image, counted.images, thumbnail, table,
          tableStructure, row, cell]
  | metadata isXisf named run =>
      have kind := kind_of_name .metadata (by decide) isXisf named
      obtain ⟨-, -, rfl⟩ := startMetadata_eq run
      refine ⟨?_, ?_, ?_, ?_, ?_, ?_, lastTable, lastRow, lastCell⟩ <;>
        simp [start, isKind, kind, image, thumbnail, table, tableStructure, row, cell]
  | entry isXisf named run =>
      have kinds : tag.kind = .property ∨ tag.kind = .fitsKeyword :=
        named.imp (kind_of_name _ (by decide) isXisf) (kind_of_name _ (by decide) isXisf)
      obtain ⟨-, -, -, -, -, -, -, ⟨-, rfl⟩ | ⟨-, -, -, -, rfl⟩ | ⟨-, -, rfl⟩⟩ :=
        startMetadataEntry_eq run
      all_goals
        rcases kinds with kind | kind
        all_goals
          refine ⟨?_, ?_, ?_, ?_, ?_, ?_, lastTable, lastRow, lastCell⟩ <;>
            simp [start, isKind, kind, image, thumbnail, table, tableStructure, row, cell, addEntry,
              beginEncoding]

/-! ### Encoded blocks -/

theorem isEncodedBlockOpen_false : isEncodedBlockOpen state = false ↔
    state.embeddedImageIndex = none ∧ state.inlineMetadataIndex = none ∧
      state.inlineIccProfileIndex = none ∧ state.embeddedThumbnailIndex = none := by
  simp [isEncodedBlockOpen, and_assoc]

/-- While no encoded block is open, the innermost element has none. -/
theorem Encodes.none_open (encodes : Encodes outline state) (stacked : Stacked outline state)
    (closed : isEncodedBlockOpen state = false) :
    ∀ frame ∈ outline.opened, isEncoded frame.tag = false := by
  obtain ⟨noImage, noProperty, noIccProfile, noThumbnail⟩ := isEncodedBlockOpen_false.mp closed
  intro frame member
  cases opened : outline.opened with
  | nil =>
      rw [opened] at member
      cases member
  | cons top below =>
      rw [opened] at member
      rcases List.mem_cons.mp member with rfl | member
      · by_contra encoded
        rw [Bool.not_eq_false, isEncoded, Bool.or_eq_true, Bool.or_eq_true,
          decide_eq_true_eq] at encoded
        rcases encoded with (data | property) | iccProfile
        · have place := stacked.top opened
          rw [data] at place
          have owners := place.known _ rfl
          have image := encodes.image
          have thumbnail := encodes.thumbnail
          rw [noImage, dataIndex, opened] at image
          rw [noThumbnail, dataIndex, opened] at thumbnail
          cases below with
          | nil => exact absurd owners (by decide)
          | cons owner rest =>
              simp only [data, true_and] at image thumbnail
              have notImage : owner.tag.kind ≠ .image := fun kind => by simp [kind] at image
              have notThumbnail : owner.tag.kind ≠ .thumbnail := fun kind => by
                simp [kind] at thumbnail
              simp [pathKinds, objectPaths, notImage, notThumbnail] at owners
        · have index := encodes.property
          rw [noProperty, innermostIndex, opened] at index
          simp [property] at index
        · have index := encodes.iccProfile
          rw [noIccProfile, innermostIndex, opened] at index
          simp [iccProfile] at index
      · exact encodes.leaf frame (by rw [opened]; exact member)

theorem innermostIndex_start (innermost kind : XmlTag → Bool) :
    innermostIndex (outline.start tag) innermost kind =
      if innermost tag then some (outline.ofKind kind).length else none := by
  rw [innermostIndex, Library.Outline.start_opened, List.head?_cons]
  cases inner : innermost tag with
  | true => rw [Option.filter_some, if_pos (by exact inner), Option.map_some,
      Library.Outline.rank_fresh, if_pos rfl]
  | false => simp [inner]

theorem dataIndex_start_other {kind : ElementKind} (other : tag.kind ≠ .data) :
    dataIndex (outline.start tag) kind = none := by
  rw [dataIndex, Library.Outline.start_opened]
  cases outline.opened with
  | nil => rfl
  | cons owner below => simp [other]

/-- A Data element belongs to the element it is in. -/
theorem dataIndex_start (coherent : outline.Coherent) {kind : ElementKind}
    (data : tag.kind = .data) :
    dataIndex (outline.start tag) kind =
      if (pathKinds outline.opened).head? = some kind then outline.openIndex (isKind kind)
      else none := by
  rw [dataIndex, Library.Outline.start_opened]
  cases opened : outline.opened with
  | nil => rfl
  | cons owner below =>
      have before := coherent.opened.lt_length owner (by rw [opened]; exact List.mem_cons_self)
      have rank := @Library.Outline.rank_start _ _ outline tag (isKind kind) _
        (Nat.le_of_lt before)
      by_cases same : owner.tag.kind = kind
      · simp [data, same, pathKinds, Library.Outline.openIndex, opened, isKind, ← rank]
      · simp [data, same, pathKinds]

/-- The block of a Property is inline as its location says. -/
theorem EntryOf.inline {parent : Text} {entry : MetadataEntry}
    (of : EntryOf state (tag.context parent) entry) (property : tag.name = lit "Property") :
    hasInlineBlock tag = decide (entry.block.kind = .inlineData) := by
  have location : entryLocation (tag.context parent) = tag.attr "location" := by
    rw [entryLocation, if_pos (by exact property)]
    rfl
  rw [of.block, location, hasInlineBlock]
  cases tag.attr "location" <;> rfl

theorem Encodes.opened (opens : Opens outline identified) (coherent : outline.Coherent)
    (counted : Counted outline identified)
    (closed : isEncodedBlockOpen identified = false)
    (leaf : ∀ frame ∈ outline.opened, isEncoded frame.tag = false)
    (text : ∀ entry, identified.textMetadataIndex = some entry →
      entry < identified.metadata.length)
    (opened : Opened options platform identified (tag.context (parentName outline)) state') :
    Encodes (outline.start tag) state' := by
  obtain ⟨noImage, noProperty, noIccProfile, noThumbnail⟩ := isEncodedBlockOpen_false.mp closed
  cases opened with
  | unhandled unknown same =>
      subst same
      rcases kind_of_unhandled unknown with kind | kind | kind | kind
      all_goals
        refine ⟨?_, ?_, ?_, ?_, leaf, text⟩ <;>
          simp [dataIndex_start_other, innermostIndex_start, isInlineProperty,
            isInlineIccProfile, *]
  | table isXisf named run =>
      have kind := kind_of_name .table (by decide) isXisf named
      obtain ⟨-, -, -, -, -, -, rfl⟩ := startTable_eq run
      refine ⟨?_, ?_, ?_, ?_, leaf, text⟩ <;>
        simp [dataIndex_start_other, innermostIndex_start, isInlineProperty, isInlineIccProfile, *]
  | tableStructure isXisf named run =>
      have kind := kind_of_name .tableStructure (by decide) isXisf named
      obtain ⟨-, -, ⟨-, -, rfl⟩ | ⟨-, -, -, rfl⟩⟩ := startStructure_eq run
      all_goals
        refine ⟨?_, ?_, ?_, ?_, leaf, text⟩ <;>
          simp [dataIndex_start_other, innermostIndex_start, isInlineProperty,
            isInlineIccProfile, *]
  | field isXisf named run =>
      have kind := kind_of_name .field (by decide) isXisf named
      obtain ⟨-, -, -, -, rfl⟩ := startField_eq run
      refine ⟨?_, ?_, ?_, ?_, leaf, text⟩ <;>
        simp [dataIndex_start_other, innermostIndex_start, isInlineProperty, isInlineIccProfile, *]
  | row isXisf named run =>
      have kind := kind_of_name .row (by decide) isXisf named
      obtain ⟨-, -, -, -, rfl⟩ := startRow_eq run
      refine ⟨?_, ?_, ?_, ?_, leaf, text⟩ <;>
        simp [dataIndex_start_other, innermostIndex_start, isInlineProperty, isInlineIccProfile, *]
  | cell isXisf named run =>
      have kind := kind_of_name .cell (by decide) isXisf named
      obtain ⟨-, -, -, -, -, -, -, -, -, -, -, -, -, rfl⟩ := startCell_eq run
      refine ⟨?_, ?_, ?_, ?_, leaf, text⟩ <;>
        simp [dataIndex_start_other, innermostIndex_start, isInlineProperty, isInlineIccProfile, *]
  | iccProfile isXisf named run =>
      have kind := kind_of_name .iccProfile (by decide) isXisf named
      obtain ⟨location, located, -, -, -, ⟨outside, rfl⟩ | ⟨inside, -, rfl⟩⟩ :=
        startIccProfile_eq run
      · have inline : hasInlineBlock tag = false := by
          have found : tag.attr "location" = some location := located
          simpa [hasInlineBlock, found] using outside
        refine ⟨?_, ?_, ?_, ?_, leaf, text⟩ <;>
          simp [dataIndex_start_other, innermostIndex_start, isInlineProperty, isInlineIccProfile,
            addIccProfile, *]
      · have inline : hasInlineBlock tag = true := by
          have found : tag.attr "location" = some location := located
          simpa [hasInlineBlock, found] using inside
        refine ⟨?_, ?_, ?_, ?_, leaf, text⟩ <;>
          simp [dataIndex_start_other, innermostIndex_start, isInlineProperty, isInlineIccProfile,
            addIccProfile, beginEncoding, counted.iccProfiles, *]
  | ancillary isXisf which named run =>
      have kind := XmlTag.kind_ancillary isXisf named
      obtain ⟨-, -, -, -, -, rfl⟩ := startAncillary_eq run
      refine ⟨?_, ?_, ?_, ?_, leaf, text⟩ <;>
        simp [dataIndex_start_other, innermostIndex_start, isInlineProperty, isInlineIccProfile, *]
  | thumbnail isXisf named run =>
      have kind := kind_of_name .thumbnail (by decide) isXisf named
      obtain ⟨-, -, -, -, -, -, -, -, rfl⟩ := startThumbnail_eq run
      refine ⟨?_, ?_, ?_, ?_, leaf, text⟩ <;>
        simp [dataIndex_start_other, innermostIndex_start, isInlineProperty, isInlineIccProfile, *]
  | data isXisf named run =>
      have kind := kind_of_name .data (by decide) isXisf named
      obtain ⟨-, -, ⟨index, owned, -, rfl⟩ | ⟨index, -, owned, -, rfl⟩⟩ := startData_eq run
      · unfold dataImage at owned
        split at owned
        · rename_i inside
          have owner := (parentName_eq .image (by decide)).mp inside.2
          have found := (Option.filter_eq_some_iff.mp owned).1
          rw [XmlBuilder.currentImage, opens.image] at found
          have inImage : outline.openIndex (isKind .image) = some index := by
            cases openImage : outline.openIndex (isKind .image) with
            | none => simp [openImage] at found
            | some other => simpa [openImage] using found
          refine ⟨?_, ?_, ?_, ?_, leaf, text⟩ <;>
            simp [dataIndex_start coherent kind, owner, inImage, innermostIndex_start,
              isInlineProperty, isInlineIccProfile, beginEncoding, kind, noProperty, noIccProfile,
              noThumbnail]
        · cases owned
      · unfold dataThumbnail at owned
        split at owned
        · rename_i inside
          have owner := (parentName_eq .thumbnail (by decide)).mp inside
          have found := (Option.filter_eq_some_iff.mp owned).1
          rw [opens.thumbnail] at found
          refine ⟨?_, ?_, ?_, ?_, leaf, text⟩ <;>
            simp [dataIndex_start coherent kind, owner, found, innermostIndex_start,
              isInlineProperty, isInlineIccProfile, beginEncoding, kind, noProperty, noIccProfile,
              noImage]
        · cases owned
  | image isXisf named run =>
      have kind := kind_of_name .image (by decide) isXisf named
      obtain ⟨-, -, -, -, -, -, -, rfl⟩ := startImage_eq run
      refine ⟨?_, ?_, ?_, ?_, leaf, text⟩ <;>
        simp [dataIndex_start_other, innermostIndex_start, isInlineProperty, isInlineIccProfile, *]
  | metadata isXisf named run =>
      have kind := kind_of_name .metadata (by decide) isXisf named
      obtain ⟨-, -, rfl⟩ := startMetadata_eq run
      refine ⟨?_, ?_, ?_, ?_, leaf, text⟩ <;>
        simp [dataIndex_start_other, innermostIndex_start, isInlineProperty, isInlineIccProfile, *]
  | entry isXisf named run =>
      have notData : tag.kind ≠ .data := by
        rcases named with property | keyword
        · rw [kind_of_name .property (by decide) isXisf property]
          decide
        · rw [kind_of_name .fitsKeyword (by decide) isXisf keyword]
          decide
      have notProfile : isInlineIccProfile tag = false := by
        rcases named with property | keyword
        · simp [isInlineIccProfile, kind_of_name .property (by decide) isXisf property]
        · simp [isInlineIccProfile, kind_of_name .fitsKeyword (by decide) isXisf keyword]
      obtain ⟨entry, of, -, -, -, -, -, rest⟩ := startMetadataEntry_eq run
      have kept : ∀ index, identified.textMetadataIndex = some index →
          index < identified.metadata.length + 1 := by
        intro index isOpen
        have small := text index isOpen
        omega
      have inline : isInlineProperty tag = true → tag.name = lit "Property" ∧
          entry.block.kind = .inlineData := by
        intro inline
        simp only [isInlineProperty, Bool.and_eq_true, decide_eq_true_eq] at inline
        have property := ((XmlTag.kind_eq (by decide)).mp inline.1).2
        exact ⟨property, by simpa [of.inline property] using inline.2⟩
      rcases rest with ⟨isText, rfl⟩ | ⟨-, property, inside, -, rfl⟩ | ⟨-, outside, rfl⟩
      · have notInline : isInlineProperty tag = false := by
          by_contra other
          rw [Bool.not_eq_false] at other
          have found := (of.inline (inline other).1).symm
          simp only [isTextProperty, Bool.and_eq_true, Option.isNone_iff_eq_none] at isText
          have noLocation : tag.attr "location" = none := isText.2
          simp [hasInlineBlock, noLocation, inline other] at found
        refine ⟨?_, ?_, ?_, ?_, leaf, ?_⟩
        · simp [dataIndex_start_other notData, addEntry, noImage]
        · simp [dataIndex_start_other notData, addEntry, noThumbnail]
        · simp [innermostIndex_start, notInline, addEntry, noProperty]
        · simp [innermostIndex_start, notProfile, addEntry, noIccProfile]
        · rintro index same
          rw [Option.some.injEq] at same
          simp [addEntry, ← same]
      · have isInline : isInlineProperty tag = true := by
          have kind := kind_of_name .property (by decide) isXisf property
          simp [isInlineProperty, kind, of.inline property, inside]
        refine ⟨?_, ?_, ?_, ?_, leaf, ?_⟩
        · simp [dataIndex_start_other notData, addEntry, beginEncoding, noImage]
        · simp [dataIndex_start_other notData, addEntry, beginEncoding, noThumbnail]
        · simp [innermostIndex_start, isInline, beginEncoding, counted.metadata]
        · simp [innermostIndex_start, notProfile, addEntry, beginEncoding, noIccProfile]
        · simpa [addEntry, beginEncoding] using kept
      · have notInline : isInlineProperty tag = false := by
          by_contra other
          rw [Bool.not_eq_false] at other
          exact outside (inline other)
        refine ⟨?_, ?_, ?_, ?_, leaf, ?_⟩
        · simp [dataIndex_start_other notData, addEntry, noImage]
        · simp [dataIndex_start_other notData, addEntry, noThumbnail]
        · simp [innermostIndex_start, notInline, addEntry, noProperty]
        · simp [innermostIndex_start, notProfile, addEntry, noIccProfile]
        · simpa [addEntry] using kept

/-! ### All of it -/

theorem isEncodedBlockOpen_enter {base : XmlBuilder} {index : Option Nat}
    {ranges : List AttachedRange}
    (extended : ExtensionRecorded options
      { state with depth := state.depth + 1, nodes := state.nodes + 1 } element base index)
    (identify : Identified options (enteredState base element index ranges) element identified) :
    isEncodedBlockOpen identified = isEncodedBlockOpen state ∧
      identified.textMetadataIndex = state.textMetadataIndex ∧
      identified.metadata = state.metadata := by
  cases extended <;> cases identify <;> exact ⟨rfl, rfl, rfl⟩

/-- What the root sets. -/
def seeRoot (state : XmlBuilder) : XmlBuilder :=
  { state with
    sawRoot := true
    version := lit "1.0" }

theorem Counted.seeRoot (counted : Counted outline state) : Counted outline (seeRoot state) := by
  obtain ⟨images, embedded, seen, metadata, inlineMetadata, profiles, inlineProfiles, thumbnails,
    thumbnailBlocks, thumbnailSeen, ancillary, tables, structures⟩ := counted
  exact ⟨images, embedded, seen, metadata, inlineMetadata, profiles, inlineProfiles, thumbnails,
    thumbnailBlocks, thumbnailSeen, ancillary, tables, structures⟩

theorem Opens.seeRoot (opens : Opens outline state) : Opens outline (seeRoot state) := by
  obtain ⟨image, thumbnail, table, tableStructure, row, cell, lastTable, lastRow, lastCell⟩ := opens
  exact ⟨image, thumbnail, table, tableStructure, row, cell, lastTable, lastRow, lastCell⟩

/-- The branch that an element takes keeps the rest of the shape. -/
theorem Shape.opened (stacked : Stacked outline state)
    (stacked' : Stacked (outline.start tag) state')
    (place : HasPlace tag.kind (pathKinds outline.opened)) (encodes : Encodes outline state)
    (closed : isEncodedBlockOpen state = false) (counted : Counted outline identified)
    (opens : Opens outline identified)
    (same : isEncodedBlockOpen identified = isEncodedBlockOpen state ∧
      identified.textMetadataIndex = state.textMetadataIndex ∧
      identified.metadata = state.metadata)
    (opened : Opened options platform identified (tag.context (parentName outline)) state') :
    Shape (outline.start tag) state' := by
  obtain ⟨sameOpen, sameText, sameMetadata⟩ := same
  have leaf := encodes.none_open stacked closed
  rw [← sameOpen] at closed
  have text : ∀ entry, identified.textMetadataIndex = some entry →
      entry < identified.metadata.length := by
    rw [sameText, sameMetadata]
    exact encodes.text
  exact ⟨stacked', counted.opened opened, opens.opened stacked.coherent place counted opened,
    Encodes.opened opens stacked.coherent counted closed leaf text opened⟩

theorem Shape.start (shape : Shape outline state)
    (started : Started options platform state (tag.context (parentName outline)) state') :
    Shape (outline.start tag) state' := by
  obtain ⟨stacked, counted, opens, encodes⟩ := shape
  have stacked' := stacked.start started
  have place := hasPlace_start stacked started
  obtain ⟨-, -, -, closed, -, base, index, ranges, extended, opened⟩ := started
  have counted' : Counted outline
      (enteredState base (tag.context (parentName outline)) index ranges) := counted.enter extended
  have opens' : Opens outline (enteredState base (tag.context (parentName outline)) index ranges) :=
    opens.enter extended
  rcases opened with ⟨-, -, isXisf, named, rfl⟩ | ⟨-, identified, identify, opened⟩
  · -- the root takes no branch, and what it sets is in no part of the shape
    have unhandled : Opened options platform
        (seeRoot (enteredState base (tag.context (parentName outline)) index ranges))
        (tag.context (parentName outline))
        (seeRoot (enteredState base (tag.context (parentName outline)) index ranges)) :=
      .unhandled (fun _ => by rw [named]; decide) rfl
    refine Shape.opened stacked stacked' place encodes closed counted'.seeRoot opens'.seeRoot ?_
      unhandled
    cases extended <;> exact ⟨rfl, rfl, rfl⟩
  · exact Shape.opened stacked stacked' place encodes closed (counted'.identify identify)
      (opens'.identify identify) (isEncodedBlockOpen_enter extended identify) opened

/-! ### Where an index points -/

theorem isInlineProperty_kind (tag : XmlTag) (inline : isInlineProperty tag = true) :
    tag.kind = .property ∧ isEntry tag = true := by
  simp only [isInlineProperty, Bool.and_eq_true, decide_eq_true_eq] at inline
  exact ⟨inline.1, by simp [isEntry, inline.1]⟩

theorem isInlineIccProfile_kind (tag : XmlTag) (inline : isInlineIccProfile tag = true) :
    tag.kind = .iccProfile ∧ isKind .iccProfile tag = true := by
  simp only [isInlineIccProfile, Bool.and_eq_true, decide_eq_true_eq] at inline
  exact ⟨inline.1, by simp [isKind, inline.1]⟩

theorem innermostIndex_eq_some {innermost kind : XmlTag → Bool} {index : Nat}
    (found : innermostIndex outline innermost kind = some index) :
    ∃ top rest, outline.opened = top :: rest ∧ innermost top.tag = true ∧
      index = outline.rank kind top := by
  unfold innermostIndex at found
  cases opened : outline.opened with
  | nil => simp [opened] at found
  | cons top rest =>
      cases inner : innermost top.tag with
      | false => simp [opened, inner] at found
      | true =>
          simp only [opened, List.head?_cons, Option.filter_some, inner, if_true, Option.map_some,
            Option.some.injEq] at found
          exact ⟨top, rest, rfl, inner, found.symm⟩

theorem dataIndex_eq_some {kind : ElementKind} {index : Nat}
    (found : dataIndex outline kind = some index) :
    ∃ data owner rest, outline.opened = data :: owner :: rest ∧ data.tag.kind = .data ∧
      owner.tag.kind = kind ∧ index = outline.rank (isKind kind) owner := by
  unfold dataIndex at found
  split at found
  · rename_i data owner rest opened
    split at found
    · rename_i same
      rw [Option.some.injEq] at found
      exact ⟨data, owner, rest, opened, same.1, same.2, found.symm⟩
    · cases found
  · cases found

/-- An open element of a kind has a position among those of the kind. -/
theorem rank_lt (coherent : outline.Coherent) {frame : HeaderFrame}
    (member : frame ∈ outline.opened) {kind : XmlTag → Bool} (same : kind frame.tag = true) :
    outline.rank kind frame < (outline.ofKind kind).length := by
  obtain ⟨element, there, rfl⟩ := coherent.opened.element frame member
  exact (List.getElem?_eq_some_iff.mp (Library.Outline.getElem?_rank there same)).1

theorem Opens.cell_eq (opens : Opens outline state) {cell : Nat}
    (isOpen : state.openTableCellIndex = some cell) : ∃ table row info rowInfo,
      state.openTableIndex = some table ∧ state.openTableRowIndex = some row ∧
        state.tables[table]? = some info ∧ info.rows[row]? = some rowInfo ∧
        cell < rowInfo.cells.length := by
  obtain ⟨table, row, inTable, inRow, counts⟩ := opens.lastCell cell isOpen
  obtain ⟨rowInfo, found, total⟩ := Option.map_eq_some_iff.mp counts
  obtain ⟨info, inTables, inRows⟩ := Option.bind_eq_some_iff.mp found
  exact ⟨table, row, info, rowInfo, inTable, inRow, inTables, inRows, by omega⟩

theorem Opens.row_eq (opens : Opens outline state) {row : Nat}
    (isOpen : state.openTableRowIndex = some row) : ∃ table info,
      state.openTableIndex = some table ∧ state.tables[table]? = some info ∧
        row < info.rows.length := by
  obtain ⟨table, inTable, counts⟩ := opens.lastRow row isOpen
  obtain ⟨info, found, total⟩ := Option.map_eq_some_iff.mp counts
  exact ⟨table, info, inTable, found, by omega⟩

theorem isSome_getElem? {α : Type} {records : List α} {index : Nat}
    (small : index < records.length) :
    (records[index]?).isSome = true := by
  rw [List.getElem?_eq_getElem small]
  rfl

end

end Mmxisf.Reader
