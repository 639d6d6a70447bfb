/-
# Reader.Steps -- what each handler can do

One lemma for each branch of `start_element`, `end_element` and
`character_data`: when the handler succeeds, the checks it made and the state it
leaves, as an update of the state it found.  The invariants of the parser are
proved from these, and unfold no handler.
-/
import Mmxisf.Reader.Header

namespace Mmxisf.Reader

set_option autoImplicit false

section

variable {options : ReaderOptions} {platform : Platform} {state state' : XmlBuilder}
  {element : ElementContext}

/-! ## Budgets and bindings -/

theorem consumeBytes_eq_ok {limit used count after : Nat} {message : String} {name : Text} :
    consumeBytes limit used count message name = .ok after ↔
      count ≤ limit - min used limit ∧ after = used + count := by
  unfold consumeBytes
  split
  · rename_i beyond
    simp only [fail, reduceCtorEq, false_iff, not_and]
    omega
  · rename_i within
    rw [Except.ok.injEq, eq_comm]
    exact ⟨fun same => ⟨by omega, same⟩, And.right⟩

theorem consumeTableTextBytes_eq {count : Nat} {name : Text}
    (run : consumeTableTextBytes options state count name = .ok state') :
    count ≤ options.maxTableTextBytes - min state.tableTextBytes options.maxTableTextBytes ∧
      state' = { state with tableTextBytes := state.tableTextBytes + count } := by
  simp only [consumeTableTextBytes, bind_eq_ok, consumeBytes_eq_ok, pure, Except.pure,
    Except.ok.injEq] at run
  obtain ⟨used, ⟨within, rfl⟩, rfl⟩ := run
  exact ⟨within, rfl⟩

/-- A second charge, on the state that the first one left. -/
theorem consumeTableTextBytes_again {used count : Nat} {name : Text}
    (run : consumeTableTextBytes options { state with tableTextBytes := used } count name =
      .ok state') :
    count ≤ options.maxTableTextBytes - min used options.maxTableTextBytes ∧
      state' = { state with tableTextBytes := used + count } :=
  consumeTableTextBytes_eq run

theorem consumeExtensionBytes_eq {count : Nat} {name : Text}
    (run : consumeExtensionBytes options state count name = .ok state') :
    count ≤ options.maxExtensionBytes - min state.extensionBytes options.maxExtensionBytes ∧
      state' = { state with extensionBytes := state.extensionBytes + count } := by
  simp only [consumeExtensionBytes, bind_eq_ok, consumeBytes_eq_ok, pure, Except.pure,
    Except.ok.injEq] at run
  obtain ⟨used, ⟨within, rfl⟩, rfl⟩ := run
  exact ⟨within, rfl⟩

theorem consumeAncillaryBytes_eq {count : Nat} {name : Text}
    (run : consumeAncillaryBytes options state count name = .ok state') :
    count ≤ options.maxAncillaryBytes - min state.ancillaryBytes options.maxAncillaryBytes ∧
      state' = { state with ancillaryBytes := state.ancillaryBytes + count } := by
  simp only [consumeAncillaryBytes, bind_eq_ok, consumeBytes_eq_ok, pure, Except.pure,
    Except.ok.injEq] at run
  obtain ⟨used, ⟨within, rfl⟩, rfl⟩ := run
  exact ⟨within, rfl⟩

/-- The direct binding of an object to the image it is in, if it is in one. -/
def directBinding (objectIndex : Nat) (imageIndex : Option Nat) : List ObjectBindingEvent :=
  (imageIndex.map fun image => ⟨objectIndex, image⟩).toList

theorem bindToImage_eq {limit : Nat} {message : String} {events events' : List ObjectBindingEvent}
    {objectIndex : Nat} {imageIndex : Option Nat}
    (run : bindToImage limit message events objectIndex imageIndex element = .ok events') :
    events' = events ++ directBinding objectIndex imageIndex ∧
      (imageIndex.isSome = true → events.length < limit) := by
  unfold bindToImage at run
  cases imageIndex with
  | none =>
      rw [Except.ok.injEq] at run
      exact ⟨by simp [directBinding, run], by simp⟩
  | some image =>
      simp only [bind_eq_ok, reject_eq_ok, pure, Except.pure, Except.ok.injEq] at run
      obtain ⟨_, room, rfl⟩ := run
      exact ⟨rfl, fun _ => by omega⟩

/-- Where an element may stand that belongs to the unit or to an image. -/
def IsObjectPlace (state : XmlBuilder) (element : ElementContext) : Prop :=
  isRootChild state element = true ∨ isImageChild state element = true

theorem isObjectPlace_of_not
    (allowed : ¬ (isRootChild state element = false ∧ isImageChild state element = false)) :
    IsObjectPlace state element := by
  unfold IsObjectPlace
  cases rootChild : isRootChild state element with
  | true => exact .inl rfl
  | false =>
      cases imageChild : isImageChild state element with
      | true => exact .inr rfl
      | false => exact absurd ⟨rootChild, imageChild⟩ allowed

/-! ## Tables -/

/-- The Table of a start tag, before it has a Structure or Rows. -/
def newTable (state : XmlBuilder) (element : ElementContext) (rows columns : Option Nat) :
    TableInfo :=
  { uid := element.attributeOr "uid"
    imageIndex := state.currentImage
    id := element.attributeOr "id"
    caption := element.attributeOr "caption"
    comment := element.attributeOr "comment"
    declaredRows := rows
    declaredColumns := columns
    structureIndex := none
    structureByReference := false
    rows := [] }

/-- The bytes a Table is charged for. -/
def tableHeadBytes (table : TableInfo) : Nat :=
  table.uid.length + table.id.length + table.caption.length + table.comment.length

theorem startTable_eq (run : startTable options state element = .ok state') :
    ∃ rows columns,
      IsObjectPlace state element ∧ state.tables.length < options.maxTables ∧
      tableHeadBytes (newTable state element rows columns) ≤
        options.maxTableTextBytes - min state.tableTextBytes options.maxTableTextBytes ∧
      (state.currentImage.isSome = true →
        state.tableBindingEvents.length < options.maxTableBindings) ∧
      state' = { state with
        tableTextBytes := state.tableTextBytes +
          tableHeadBytes (newTable state element rows columns)
        tables := state.tables ++ [newTable state element rows columns]
        openTableIndex := some state.tables.length
        tableUids := emplaceUid state.tableUids (element.attributeOr "uid") state.tables.length
        tableBindingEvents := state.tableBindingEvents ++
          directBinding state.tables.length state.currentImage } := by
  simp only [startTable, bind_eq_ok, reject_eq_ok, pure, Except.pure, Except.ok.injEq] at run
  obtain ⟨_, place, _, room, _, -, rows, -, columns, -, charged, charge, events, bound, rfl⟩ := run
  obtain ⟨within, rfl⟩ := consumeTableTextBytes_eq charge
  obtain ⟨rfl, free⟩ := bindToImage_eq bound
  exact ⟨rows, columns, isObjectPlace_of_not place, Nat.not_le.mp room, within, free, rfl⟩

/-- The Structure of a start tag, before it has Fields. -/
def newStructure (element : ElementContext) (table : Option Nat) : TableStructureInfo :=
  ⟨(element.attr "uid").getD [], table, []⟩

/-- A Structure inside a Table. -/
def isTableChild (state : XmlBuilder) (element : ElementContext) : Bool :=
  state.depth ≥ 3 && element.parent = lit "Table" && state.openTableIndex.isSome

/-- A Structure starts: standalone below the root, or as the one of its Table. -/
theorem startStructure_eq (run : startStructure options state element = .ok state') :
    state.tableStructures.length < options.maxTableStructures ∧
      ((element.attr "uid").getD []).length ≤
        options.maxTableTextBytes - min state.tableTextBytes options.maxTableTextBytes ∧
      ((isRootChild state element = true ∧ (element.attr "uid").isSome = true ∧
        state' = { state with
          tableTextBytes := state.tableTextBytes + ((element.attr "uid").getD []).length
          tableStructures := state.tableStructures ++
            [newStructure element
              (if isTableChild state element then state.openTableIndex else none)]
          openStructureIndex := some state.tableStructures.length
          tableStructureUids := emplaceUid state.tableStructureUids
            ((element.attr "uid").getD []) state.tableStructures.length
          standaloneStructureUids := emplace state.standaloneStructureUids
            ((element.attr "uid").getD []) state.tableStructures.length }) ∨
      (isRootChild state element = false ∧ isTableChild state element = true ∧
        ((state.tables[state.openTableIndex.getD 0]?).bind TableInfo.structureIndex).isSome =
          false ∧
        state' = { state with
          tableTextBytes := state.tableTextBytes + ((element.attr "uid").getD []).length
          tableStructures := state.tableStructures ++ [newStructure element state.openTableIndex]
          openStructureIndex := some state.tableStructures.length
          tableStructureUids := emplaceUid state.tableStructureUids
            ((element.attr "uid").getD []) state.tableStructures.length
          tables := state.tables.modify (state.openTableIndex.getD 0) fun table =>
            { table with structureIndex := some state.tableStructures.length } })) := by
  simp only [startStructure, bind_eq_ok, reject_eq_ok, pure, Except.pure] at run
  obtain ⟨_, place, _, room, _, named, _, one, charged, charge, rest⟩ := run
  obtain ⟨within, rfl⟩ := consumeTableTextBytes_eq charge
  refine ⟨Nat.not_le.mp room, within, ?_⟩
  cases standalone : isRootChild state element with
  | true =>
      rw [standalone, if_pos rfl, Except.ok.injEq] at rest
      refine .inl ⟨rfl, ?_, rest.symm⟩
      cases uid : element.attr "uid" with
      | none => exact absurd ⟨standalone, by rw [uid]; rfl⟩ named
      | some uid => rfl
  | false =>
      rw [standalone, if_neg Bool.false_ne_true, Except.ok.injEq] at rest
      have child : isTableChild state element = true := by
        by_contra other
        exact place ⟨standalone, by simpa [isTableChild] using other⟩
      refine .inr ⟨rfl, child, ?_, ?_⟩
      · cases other : ((state.tables[state.openTableIndex.getD 0]?).bind
            TableInfo.structureIndex).isSome with
        | false => rfl
        | true => exact absurd ⟨child, other⟩ one
      · have inline : newStructure element (if isTableChild state element then
            state.openTableIndex else none) = newStructure element state.openTableIndex := by
          rw [if_pos child]
        rw [← rest, ← inline]
        rfl

/-- The Field of a start tag. -/
def newField (element : ElementContext) : TableFieldInfo :=
  ⟨element.attributeOr "id", element.attributeOr "type", element.attributeOr "format",
    element.attributeOr "header"⟩

/-- The bytes a Field is charged for. -/
def fieldBytes (field : TableFieldInfo) : Nat :=
  field.id.length + field.type.length + field.format.length + field.header.length

theorem startField_eq (run : startField options state element = .ok state') :
    element.parent = lit "Structure" ∧ state.openStructureIndex.isSome = true ∧
      state.tableFieldCount < options.maxTableFields ∧
      fieldBytes (newField element) ≤
        options.maxTableTextBytes - min state.tableTextBytes options.maxTableTextBytes ∧
      state' = { state with
        tableTextBytes := state.tableTextBytes + fieldBytes (newField element)
        tableStructures := state.tableStructures.modify (state.openStructureIndex.getD 0)
          fun tableStructure =>
            { tableStructure with fields := tableStructure.fields ++ [newField element] }
        tableFieldCount := state.tableFieldCount + 1 } := by
  simp only [startField, bind_eq_ok, reject_eq_ok, not_or, not_not, pure, Except.pure,
    Except.ok.injEq] at run
  obtain ⟨_, ⟨parent, inside⟩, _, room, _, -, charged, charge, rfl⟩ := run
  obtain ⟨within, rfl⟩ := consumeTableTextBytes_eq charge
  refine ⟨parent, ?_, Nat.not_le.mp room, within, rfl⟩
  cases found : state.openStructureIndex with
  | none => exact absurd (by rw [found]; rfl) inside
  | some index => rfl

theorem startRow_eq (run : startRow options state element = .ok state') :
    element.parent = lit "Table" ∧ state.openTableIndex.isSome = true ∧
      state.openTableRowIndex = none ∧ state.tableRowCount < options.maxTableRows ∧
      state' = { state with
        tables := state.tables.modify (state.openTableIndex.getD 0) fun table =>
          { table with rows := table.rows ++ [⟨[]⟩] }
        openTableRowIndex := some (((state.tables[state.openTableIndex.getD 0]?).map
          fun table => table.rows.length).getD 0)
        tableRowCount := state.tableRowCount + 1 } := by
  simp only [startRow, bind_eq_ok, reject_eq_ok, not_or, not_not, pure, Except.pure,
    Except.ok.injEq] at run
  obtain ⟨_, ⟨parent, inside, first⟩, _, room, rfl⟩ := run
  refine ⟨parent, ?_, ?_, Nat.not_le.mp room, rfl⟩
  · cases found : state.openTableIndex with
    | none => exact absurd (by rw [found]; rfl) inside
    | some index => rfl
  · cases found : state.openTableRowIndex with
    | none => rfl
    | some index => exact absurd (by rw [found]; rfl) first

/-- The Cell of a start tag, before its text. -/
def newCell (element : ElementContext) (block : BlockLocation) (form : ValueForm)
    (length rows columns : Option Nat) : TableCellInfo :=
  { valueForm := form
    value := (element.attr "value").getD []
    block := block
    byteOrder := if element.attributeOr "byteOrder" "little" = lit "big" then .big else .little
    compression := element.attributeOr "compression"
    subblocks := element.attributeOr "subblocks"
    checksum := element.attributeOr "checksum"
    length := length
    rows := rows
    columns := columns }

/-- The bytes a Cell is charged for. -/
def cellBytes (cell : TableCellInfo) : Nat :=
  cell.value.length + cell.block.raw.length + cell.compression.length + cell.subblocks.length +
    cell.checksum.length

/-- What `cellBlock` makes of the value and the location of a Cell. -/
theorem cellBlock_eq {block : BlockLocation} {form : ValueForm}
    (run : cellBlock element = .ok (block, form)) :
    (element.attr "location" = none ∧ block = .empty ∧
        form = if (element.attr "value").isNone then .characterData else .attribute) ∨
      ∃ location, element.attr "location" = some location ∧ block = parseLocation location ∧
        block.kind ≠ .unknown ∧ block.kind ≠ .embedded ∧
        (block.kind = .inlineData → isInlineEncoding block = true) ∧ form = .dataBlock := by
  unfold cellBlock at run
  cases found : element.attr "location" with
  | none =>
      simp only [found, Except.ok.injEq, Prod.mk.injEq] at run
      exact .inl ⟨rfl, run.1.symm, run.2.symm⟩
  | some location =>
      simp only [found, bind_eq_ok, reject_eq_ok, not_or, not_and, pure, Except.pure,
        Except.ok.injEq, Prod.mk.injEq] at run
      obtain ⟨_, ⟨known, attached⟩, _, encoded, rfl, rfl⟩ := run
      exact .inr ⟨location, rfl, rfl, known, attached,
        fun inside => by simpa using encoded inside, rfl⟩

theorem startCell_eq (run : startCell options state element = .ok state') :
    ∃ block form length rows columns,
      element.parent = lit "Row" ∧ state.openTableIndex.isSome = true ∧
      state.openTableRowIndex.isSome = true ∧ state.openTableCellIndex = none ∧
      state.tableCellCount < options.maxTableCells ∧
      ¬ ((element.attr "value").isSome = true ∧ (element.attr "location").isSome = true) ∧
      cellBlock element = .ok (block, form) ∧
      (state.tableTextBytes ≤ options.maxTableTextBytes →
        state.tableTextBytes + cellBytes (newCell element block form length rows columns) ≤
          options.maxTableTextBytes) ∧
      state' = { state with
        tableTextBytes := state.tableTextBytes +
          cellBytes (newCell element block form length rows columns)
        tables := state.tables.modify (state.openTableIndex.getD 0) fun table =>
          modifyRows table (state.openTableRowIndex.getD 0) fun row =>
            ⟨row.cells ++ [newCell element block form length rows columns]⟩
        openTableCellIndex := some ((((state.tables[state.openTableIndex.getD 0]?).bind
          fun table => table.rows[state.openTableRowIndex.getD 0]?).map
            fun row => row.cells.length).getD 0)
        tableCellCount := state.tableCellCount + 1 } := by
  simp only [startCell, bind_eq_ok, reject_eq_ok, not_or, not_not, pure, Except.pure,
    Except.ok.injEq] at run
  obtain ⟨_, ⟨parent, inTable, inRow, first⟩, _, room, _, -, _, one, _, -, _, charge,
    ⟨block, form⟩, located, _, -, _, charge₂, _, charge₃, _, charge₄, _, charge₅, length, -, rows,
    -, columns, -, rfl⟩ := run
  obtain ⟨within, rfl⟩ := consumeTableTextBytes_eq charge
  obtain ⟨within₂, rfl⟩ := consumeTableTextBytes_again charge₂
  obtain ⟨within₃, rfl⟩ := consumeTableTextBytes_again charge₃
  obtain ⟨within₄, rfl⟩ := consumeTableTextBytes_again charge₄
  obtain ⟨within₅, rfl⟩ := consumeTableTextBytes_again charge₅
  have sum : state.tableTextBytes + ((element.attr "value").getD []).length + block.raw.length +
      (element.attributeOr "compression").length + (element.attributeOr "subblocks").length +
      (element.attributeOr "checksum").length =
      state.tableTextBytes + cellBytes (newCell element block form length rows columns) := by
    simp only [cellBytes, newCell]
    omega
  refine ⟨block, form, length, rows, columns, parent, ?_, ?_, ?_, Nat.not_le.mp room, one, located,
    fun small => ?_, ?_⟩
  · cases found : state.openTableIndex with
    | none => exact absurd (by rw [found]; rfl) inTable
    | some index => rfl
  · cases found : state.openTableRowIndex with
    | none => exact absurd (by rw [found]; rfl) inRow
    | some index => rfl
  · cases found : state.openTableCellIndex with
    | none => rfl
    | some index => exact absurd (by rw [found]; rfl) first
  · rw [← sum]
    dsimp only at within₂ within₃ within₄ within₅
    omega
  · rw [← sum]
    rfl

/-! ## ICC profiles and ancillary metadata -/

/-- The ICC profile of a start tag. -/
def newIccProfile (state : XmlBuilder) (element : ElementContext) (location : Text) :
    IccProfileInfo :=
  { uid := element.attributeOr "uid"
    imageIndex := state.currentImage
    block := parseLocation location
    compression := element.attributeOr "compression"
    subblocks := element.attributeOr "subblocks"
    checksum := element.attributeOr "checksum" }

/-- The state with one more ICC profile. -/
def addIccProfile (state : XmlBuilder) (profile : IccProfileInfo) : XmlBuilder :=
  { state with
    iccProfiles := state.iccProfiles ++ [profile]
    inlineIccProfileBlocks := state.inlineIccProfileBlocks ++ [[]]
    iccProfileUids := emplaceUid state.iccProfileUids profile.uid state.iccProfiles.length
    iccProfileBindingEvents := state.iccProfileBindingEvents ++
      directBinding state.iccProfiles.length profile.imageIndex }

theorem startIccProfile_eq (run : startIccProfile options state element = .ok state') :
    ∃ location, element.attr "location" = some location ∧ IsObjectPlace state element ∧
      state.iccProfiles.length < options.maxIccProfiles ∧
      (state.currentImage.isSome = true →
        state.iccProfileBindingEvents.length < options.maxIccProfileBindings) ∧
      (((parseLocation location).kind ≠ .inlineData ∧
          state' = addIccProfile state (newIccProfile state element location)) ∨
        ((parseLocation location).kind = .inlineData ∧
          isInlineEncoding (parseLocation location) = true ∧
          state' = beginEncoding
            { addIccProfile state (newIccProfile state element location) with
              inlineIccProfileIndex := some state.iccProfiles.length }
            ((parseLocation location).raw = lit "inline:base64"))) := by
  simp only [startIccProfile, bind_eq_ok, reject_eq_ok, orFail_eq_ok, not_and, pure,
    Except.pure] at run
  obtain ⟨_, place, _, room, location, located, _, -, _, -, _, encoded, events, bound, rest⟩ := run
  obtain ⟨rfl, free⟩ := bindToImage_eq bound
  refine ⟨location, located, isObjectPlace_of_not (not_and.mpr place), Nat.not_le.mp room, free, ?_⟩
  obtain ⟨inside, same⟩ | ⟨outside, same⟩ := ite_eq_ok rest
  · rw [Except.ok.injEq] at same
    exact .inr ⟨inside, by simpa using encoded inside, same.symm⟩
  · rw [Except.ok.injEq] at same
    exact .inl ⟨outside, same.symm⟩

/-- The ancillary object of a start tag. -/
def newAncillary (state : XmlBuilder) (kind : AncillaryKind) (element : ElementContext) :
    AncillaryObject :=
  ⟨kind, element.attributeOr "uid", state.currentImage, copyAttributes element.attributes⟩

/-- The bytes an ancillary object is charged for. -/
def ancillaryCharge (element : ElementContext) : Nat :=
  (element.attributeOr "uid").length + attributeBytes element.attributes

theorem startAncillary_eq {platform : Platform} {kind : AncillaryKind}
    (run : startAncillary options platform state kind element = .ok state') :
    IsObjectPlace state element ∧ state.ancillaryObjects.length < options.maxAncillaryObjects ∧
      element.attributes.length ≤ options.maxAncillaryAttributes -
        min state.ancillaryAttributeCount options.maxAncillaryAttributes ∧
      ancillaryCharge element ≤
        options.maxAncillaryBytes - min state.ancillaryBytes options.maxAncillaryBytes ∧
      (state.currentImage.isSome = true →
        state.ancillaryBindingEvents.length < options.maxAncillaryBindings) ∧
      state' = { state with
        ancillaryBytes := state.ancillaryBytes + ancillaryCharge element
        ancillaryAttributeCount := state.ancillaryAttributeCount + element.attributes.length
        ancillaryObjects := state.ancillaryObjects ++ [newAncillary state kind element]
        ancillaryUids := emplaceUid state.ancillaryUids (element.attributeOr "uid")
          state.ancillaryObjects.length
        ancillaryBindingEvents := state.ancillaryBindingEvents ++
          directBinding state.ancillaryObjects.length state.currentImage } := by
  simp only [startAncillary, bind_eq_ok, reject_eq_ok, pure, Except.pure, Except.ok.injEq] at run
  obtain ⟨_, place, _, room, _, attributes, _, -, _, -, charged, charge, events, bound, rfl⟩ := run
  obtain ⟨within, rfl⟩ := consumeAncillaryBytes_eq charge
  obtain ⟨rfl, free⟩ := bindToImage_eq bound
  exact ⟨isObjectPlace_of_not place, Nat.not_le.mp room, Nat.not_lt.mp attributes, within, free,
    rfl⟩

/-! ## Images and thumbnails -/

/-- The block descriptor that a start tag gives its image, and the descriptor
texts. -/
structure DescribedBy (element : ElementContext) (location : Text) (image : ImageInfo) : Prop where
  block : image.block = parseLocation location
  compression : image.compression = element.attributeOr "compression"
  subblocks : image.subblocks = element.attributeOr "subblocks"
  checksum : image.checksum = element.attributeOr "checksum"

theorem startThumbnail_eq (run : startThumbnail options state element = .ok state') :
    ∃ location image, element.attr "location" = some location ∧
      DescribedBy element location image ∧ image.block.kind ≠ .inlineData ∧
      IsObjectPlace state element ∧ state.thumbnails.length < options.maxThumbnails ∧
      (state.currentImage.isSome = true →
        state.thumbnailBindingEvents.length < options.maxThumbnailBindings) ∧
      state' = { state with
        thumbnails := state.thumbnails ++ [⟨element.attributeOr "uid", state.currentImage, image⟩]
        embeddedThumbnailBlocks := state.embeddedThumbnailBlocks ++ [[]]
        embeddedThumbnailDataSeen := state.embeddedThumbnailDataSeen ++ [false]
        openThumbnailIndex := some state.thumbnails.length
        thumbnailUids := emplaceUid state.thumbnailUids (element.attributeOr "uid")
          state.thumbnails.length
        thumbnailBindingEvents := state.thumbnailBindingEvents ++
          directBinding state.thumbnails.length state.currentImage } := by
  simp only [startThumbnail, bind_eq_ok, reject_eq_ok, orFail_eq_ok, pure, Except.pure,
    Except.ok.injEq] at run
  obtain ⟨_, place, _, room, geometry, -, sampleFormat, -, location, located, _, -,
    ⟨width, height, channels⟩, -, _, -, _, -, orientation, -, pixelStorage, -, byteOrder, -, _,
    block, events, bound, rfl⟩ := run
  obtain ⟨rfl, free⟩ := bindToImage_eq bound
  exact ⟨location, _, located, ⟨rfl, rfl, rfl, rfl⟩, fun inside => block (.inl inside),
    isObjectPlace_of_not place, Nat.not_le.mp room, free, rfl⟩

theorem startImage_eq {platform : Platform}
    (run : startImage options platform state element = .ok state') :
    ∃ location image, element.attr "location" = some location ∧
      DescribedBy element location image ∧ image.block.kind ≠ .inlineData ∧
      isRootChild state element = true ∧ state.images.length < options.maxImages ∧
      state' = { state with
        imageIds := if element.attributeOr "id" = [] then state.imageIds
          else state.imageIds ++ [element.attributeOr "id"]
        images := state.images ++ [image]
        embeddedBlocks := state.embeddedBlocks ++ [[]]
        embeddedDataSeen := state.embeddedDataSeen ++ [false]
        imageStack := state.images.length :: state.imageStack } := by
  simp only [startImage, bind_eq_ok, reject_eq_ok, orFail_eq_ok, pure, Except.pure,
    Except.ok.injEq] at run
  obtain ⟨_, place, _, room, geometry, -, sampleFormatName, -, location, located, axes, -, _, -, _,
    -, sampleFormat, -, ⟨lowerBound, upperBound⟩, -, _, -, _, -, orientation, -, _, -, pixelStorage,
    -, byteOrder, -, _, inside, _, -, rfl⟩ := run
  exact ⟨location, _, located, ⟨rfl, rfl, rfl, rfl⟩, inside, by simpa using place,
    Nat.not_le.mp room, rfl⟩

/-- A Data element starts in the open image, or in the open thumbnail. -/
theorem startData_eq (run : startData state element = .ok state') :
    ∃ base64 : Bool, (element.attributeOr "encoding" = if base64 then lit "base64" else lit "hex") ∧
      ((∃ index, dataImage state element = some index ∧
          state.embeddedDataSeen.getD index false = false ∧
          state' = beginEncoding { state with
            images := state.images.modify index (adoptBlockAttributes element)
            embeddedDataSeen := state.embeddedDataSeen.set index true
            embeddedImageIndex := some index } base64) ∨
        (∃ index, dataImage state element = none ∧ dataThumbnail state element = some index ∧
          state.embeddedThumbnailDataSeen.getD index false = false ∧
          state' = beginEncoding { state with
            thumbnails := state.thumbnails.modify index fun thumbnail =>
              { thumbnail with image := adoptBlockAttributes element thumbnail.image }
            embeddedThumbnailDataSeen := state.embeddedThumbnailDataSeen.set index true
            embeddedThumbnailIndex := some index } base64)) := by
  simp only [startData, bind_eq_ok, reject_eq_ok, not_and_or, not_not, not_or, pure, Except.pure,
    Except.ok.injEq] at run
  obtain ⟨_, owned, _, ⟨firstImage, firstThumbnail⟩, _, encoding, _, -, rfl⟩ := run
  refine ⟨element.attributeOr "encoding" = lit "base64", ?_, ?_⟩
  · rcases encoding with base64 | hex
    · simp [base64]
    · rw [hex]
      decide
  · cases ofImage : dataImage state element with
    | some index =>
        refine .inl ⟨index, rfl, ?_, rfl⟩
        simpa [ofImage] using firstImage
    | none =>
        cases ofThumbnail : dataThumbnail state element with
        | none => simp [ofImage, ofThumbnail] at owned
        | some index =>
            refine .inr ⟨index, rfl, rfl, ?_, rfl⟩
            simpa [ofThumbnail] using firstThumbnail

/-! ## Metadata -/

theorem startMetadata_eq (run : startMetadata state element = .ok state') :
    isRootChild state element = true ∧ state.metadataCount = 0 ∧
      state' = { state with metadataCount := state.metadataCount + 1 } := by
  simp only [startMetadata, bind_eq_ok, reject_eq_ok, not_or, not_not, pure, Except.pure,
    Except.ok.injEq] at run
  obtain ⟨_, ⟨place, first⟩, rfl⟩ := run
  exact ⟨by simpa using place, first, rfl⟩

/-- The name that a Property or FITSKeyword is recorded by. -/
def entryName (element : ElementContext) : Text :=
  element.attributeOr (if element.name = lit "Property" then "id" else "name")

/-- A Property directly in Metadata. -/
def isUnitProperty (element : ElementContext) : Bool :=
  element.name = lit "Property" && element.parent = lit "Metadata"

/-- The location of a Property; a FITSKeyword has none. -/
def entryLocation (element : ElementContext) : Option Text :=
  if element.name = lit "Property" then element.attr "location" else none

/-- The content of a Property with neither value nor location is its value. -/
def isTextProperty (element : ElementContext) : Bool :=
  element.name = lit "Property" && (element.attr "value").isNone &&
    (element.attr "location").isNone

/-- What a start tag says of its metadata entry. -/
structure EntryOf (state : XmlBuilder) (element : ElementContext) (entry : MetadataEntry) :
    Prop where
  kind : entry.kind = if element.name = lit "Property" then .property else .fitsKeyword
  scope : entry.scope = if state.currentImage.isSome then .image
    else if element.parent = lit "Metadata" then .xisfUnit else .standalone
  imageIndex : entry.imageIndex = state.currentImage
  uid : entry.uid = element.attributeOr "uid"
  name : entry.name = entryName element
  type : entry.type = element.attributeOr "type"
  value : entry.value = element.attributeOr "value"
  block : entry.block = ((entryLocation element).map parseLocation).getD .empty
  valueForm : entry.valueForm =
    if (entryLocation element).isSome then .dataBlock
    else if isTextProperty element then .characterData else .attribute

/-- The binding event of an entry in an Image or in Metadata. -/
def directEvents (index : Nat) (entry : MetadataEntry) : List MetadataBindingEvent :=
  if entry.scope = .standalone then []
  else [{ metadataIndex := some index
          reference := []
          scope := if entry.scope = .image then .image else .xisfUnit
          imageIndex := entry.imageIndex
          byReference := false }]

/-- The state with one more metadata entry. -/
def addEntry (state : XmlBuilder) (element : ElementContext) (entry : MetadataEntry) : XmlBuilder :=
  { state with
    sawCreationTime := state.sawCreationTime ||
      (isUnitProperty element && entryName element = lit "XISF:CreationTime")
    sawCreatorApplication := state.sawCreatorApplication ||
      (isUnitProperty element && entryName element = lit "XISF:CreatorApplication")
    metadataUids := emplaceUid state.metadataUids entry.uid state.metadata.length
    metadata := state.metadata ++ [entry]
    inlineMetadataBlocks := state.inlineMetadataBlocks ++ [[]]
    metadataBindingEvents := state.metadataBindingEvents ++
      directEvents state.metadata.length entry }

theorem checkUnitProperty_eq {identity type : Text}
    (run : checkUnitProperty state element identity type = .ok state') :
    (lit "XISF:").isPrefixOf identity = true ∧ state' = { state with
      sawCreationTime := state.sawCreationTime || decide (identity = lit "XISF:CreationTime")
      sawCreatorApplication := state.sawCreatorApplication ||
        decide (identity = lit "XISF:CreatorApplication") } := by
  simp only [checkUnitProperty, bind_eq_ok, reject_eq_ok, pure, Except.pure] at run
  obtain ⟨_, named, run⟩ := run
  refine ⟨by simpa using named, ?_⟩
  obtain ⟨creation, run⟩ | ⟨other, run⟩ := ite_eq_ok run
  · simp only [bind_eq_ok, Except.ok.injEq] at run
    obtain ⟨_, -, rfl⟩ := run
    have apart : lit "XISF:CreationTime" ≠ lit "XISF:CreatorApplication" := by decide
    simp [creation, apart]
  · obtain ⟨creator, run⟩ | ⟨another, run⟩ := ite_eq_ok run
    · simp only [bind_eq_ok, Except.ok.injEq] at run
      obtain ⟨_, -, rfl⟩ := run
      have apart : lit "XISF:CreatorApplication" ≠ lit "XISF:CreationTime" := by decide
      simp [creator, apart]
    · rw [Except.ok.injEq] at run
      simp [other, another, run]

theorem checkMetadata_eq (run : checkMetadata options state element (entryName element) =
      .ok state') :
    ((element.attr "value").getD []).length ≤ options.maxMetadataValueBytes ∧
      (isUnitProperty element = true → (lit "XISF:").isPrefixOf (entryName element) = true) ∧
      state' = { state with
        sawCreationTime := state.sawCreationTime ||
          (isUnitProperty element && entryName element = lit "XISF:CreationTime")
        sawCreatorApplication := state.sawCreatorApplication ||
          (isUnitProperty element && entryName element = lit "XISF:CreatorApplication") } := by
  simp only [checkMetadata, bind_eq_ok, reject_eq_ok] at run
  obtain ⟨_, -, _, -, _, -, _, small, _, -, run⟩ := run
  refine ⟨Nat.not_lt.mp small, ?_⟩
  obtain ⟨unit, run⟩ | ⟨other, run⟩ := ite_eq_ok run
  · obtain ⟨named, rfl⟩ := checkUnitProperty_eq run
    have isUnit : isUnitProperty element = true := by simpa [isUnitProperty] using unit
    exact ⟨fun _ => named, by simp [isUnit]⟩
  · have notUnit : isUnitProperty element = false := by
      simpa [isUnitProperty] using other
    simp only [pure, Except.pure, Except.ok.injEq] at run
    exact ⟨fun impossible => by simp [notUnit] at impossible, by simp [notUnit, run]⟩

theorem metadataEntry_eq {entry : MetadataEntry}
    (run : metadataEntry state element (entryName element) (entryLocation element) = .ok entry) :
    EntryOf state element entry := by
  simp only [metadataEntry, bind_eq_ok, pure, Except.pure, Except.ok.injEq] at run
  obtain ⟨byteOrder, -, ⟨block, form⟩, located, length, -, rows, -, columns, -, rfl⟩ := run
  unfold metadataBlock at located
  cases location : entryLocation element with
  | none =>
      simp only [location, Except.ok.injEq, Prod.mk.injEq] at located
      obtain ⟨rfl, rfl⟩ := located
      refine ⟨by simp, rfl, rfl, rfl, rfl, rfl, rfl, by rw [location]; rfl, ?_⟩
      simp only [location, Option.isSome_none, Bool.false_eq_true, if_false, isTextProperty]
      by_cases property : element.name = lit "Property"
      · simp only [entryLocation, property, if_true] at location
        simp [property, location]
      · simp [property]
  | some text =>
      simp only [location, bind_eq_ok, pure, Except.pure, Except.ok.injEq, Prod.mk.injEq] at located
      obtain ⟨_, -, rfl, rfl⟩ := located
      exact ⟨by simp, rfl, rfl, rfl, rfl, rfl, rfl, by rw [location]; rfl, by simp [location]⟩

theorem bindMetadata_eq {index : Nat} {entry : MetadataEntry} {events : List MetadataBindingEvent}
    (run : bindMetadata options state element index entry = .ok events) :
    events = state.metadataBindingEvents ++ directEvents index entry ∧
      (entry.scope ≠ .standalone →
        state.metadataBindingEvents.length < options.maxMetadataEntries) := by
  unfold bindMetadata at run
  obtain ⟨bound, run⟩ | ⟨free, run⟩ := ite_eq_ok run
  · simp only [bind_eq_ok, reject_eq_ok, pure, Except.pure, Except.ok.injEq] at run
    obtain ⟨_, room, rfl⟩ := run
    exact ⟨by rw [directEvents, if_neg bound], fun _ => Nat.not_le.mp room⟩
  · rw [Except.ok.injEq] at run
    rw [not_not] at free
    exact ⟨by rw [directEvents, if_pos free, List.append_nil, run], fun bound => absurd free bound⟩

/-- A Property or FITSKeyword starts: its text, an inline block or nothing is
open. -/
theorem startMetadataEntry_eq (run : startMetadataEntry options state element = .ok state') :
    ∃ entry, EntryOf state element entry ∧ isMetadataParent element = true ∧
      state.metadata.length < options.maxMetadataEntries ∧
      entry.value.length ≤ options.maxMetadataValueBytes ∧
      (isUnitProperty element = true → (lit "XISF:").isPrefixOf (entryName element) = true) ∧
      (entry.scope ≠ .standalone →
        state.metadataBindingEvents.length < options.maxMetadataEntries) ∧
      ((isTextProperty element = true ∧ state' = { addEntry state element entry with
          textMetadataIndex := some state.metadata.length }) ∨
        (isTextProperty element = false ∧ element.name = lit "Property" ∧
          entry.block.kind = .inlineData ∧ isInlineEncoding entry.block = true ∧
          state' = beginEncoding { addEntry state element entry with
            inlineMetadataIndex := some state.metadata.length }
            (entry.block.raw = lit "inline:base64")) ∨
        (isTextProperty element = false ∧
          ¬ (element.name = lit "Property" ∧ entry.block.kind = .inlineData) ∧
          state' = addEntry state element entry)) := by
  have location : (if element.name = lit "Property" then element.attr "location" else none) =
      entryLocation element := rfl
  simp only [startMetadataEntry, bind_eq_ok, reject_eq_ok, decide_eq_true_eq, location] at run
  obtain ⟨_, parent, _, room, checked, check, entry, made, _, -, events, bound, opened⟩ := run
  obtain ⟨small, named, rfl⟩ := checkMetadata_eq check
  have entryOf := metadataEntry_eq made
  obtain ⟨rfl, free⟩ := bindMetadata_eq bound
  refine ⟨entry, ⟨entryOf.kind, entryOf.scope, entryOf.imageIndex, entryOf.uid, entryOf.name,
    entryOf.type, entryOf.value, entryOf.block, entryOf.valueForm⟩, by simpa using parent,
    Nat.not_le.mp room, ?_, named, free, ?_⟩
  · rw [entryOf.value]
    exact small
  · unfold openMetadataText at opened
    obtain ⟨text, opened⟩ | ⟨other, opened⟩ := ite_eq_ok opened
    · rw [Except.ok.injEq] at opened
      refine .inl ⟨?_, opened.symm⟩
      obtain ⟨property, value, none⟩ := text
      simp only [entryLocation, property, if_true] at none
      simpa [isTextProperty, property] using And.intro value none
    · have notText : isTextProperty element = false := by
        by_contra text
        simp only [Bool.not_eq_false, isTextProperty, Bool.and_eq_true, decide_eq_true_eq] at text
        exact other ⟨text.1.1, text.1.2, by simpa [entryLocation, text.1.1] using text.2⟩
      obtain ⟨inside, opened⟩ | ⟨outside, opened⟩ := ite_eq_ok opened
      · simp only [bind_eq_ok, reject_eq_ok, pure, Except.pure, Except.ok.injEq] at opened
        obtain ⟨_, encoded, rfl⟩ := opened
        exact .inr (.inl ⟨notText, inside.1, inside.2, by simpa using encoded, rfl⟩)
      · rw [Except.ok.injEq] at opened
        exact .inr (.inr ⟨notText, outside, opened.symm⟩)

end

end Mmxisf.Reader
