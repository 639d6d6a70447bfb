/-
# ParserState -- the state of the header parser is sound at every event

The handlers of the XML parser take elements of their vectors without a check, by
indices that the start tag of an element sets and its end tag resets.  After any
well nested sequence of events that set no error, each index is set exactly while
its element is open and is in range (`ParserInvariant`), so each such access meets
an element (`HandlerAccesses`), and so do those of the reads of an accepted header
(`ReadAccesses`).
-/
import Mmxisf.Reader.Accepted

namespace Mmxisf.Reader

set_option autoImplicit false

/-! ## What the parser keeps -/

/-- An element of the kind is open. -/
def IsOpen (outline : HeaderOutline) (kind : ElementKind) : Prop :=
  ∃ frame ∈ outline.opened, frame.tag.kind = kind

/-- The innermost open element is a Data element of an element of this kind. -/
def InData (outline : HeaderOutline) (kind : ElementKind) : Prop :=
  ∃ data owner rest, outline.opened = data :: owner :: rest ∧ data.tag.kind = .data ∧
    owner.tag.kind = kind

/-- The innermost open element is of this kind. -/
def Innermost (outline : HeaderOutline) (kind : ElementKind) : Prop :=
  ∃ top rest, outline.opened = top :: rest ∧ top.tag.kind = kind

/-- The indices of the encoded block that is open. -/
def encodedIndices (state : XmlBuilder) : List (Option Nat) :=
  [state.embeddedImageIndex, state.inlineMetadataIndex, state.inlineIccProfileIndex,
    state.embeddedThumbnailIndex]

structure ParserInvariant (outline : HeaderOutline) (state : XmlBuilder) : Prop where
  depth : state.depth = state.elementStack.length ∧
    state.depth = state.qualifiedElementStack.length ∧
    state.depth = state.extensionStack.length
  oneImage : state.imageStack.length ≤ 1
  imageOpen : state.imageStack ≠ [] ↔ IsOpen outline .image
  imageVectors : state.images.length = state.embeddedBlocks.length ∧
    state.images.length = state.embeddedDataSeen.length
  metadataVectors : state.metadata.length = state.inlineMetadataBlocks.length
  iccProfileVectors : state.iccProfiles.length = state.inlineIccProfileBlocks.length
  thumbnailVectors : state.thumbnails.length = state.embeddedThumbnailBlocks.length ∧
    state.thumbnails.length = state.embeddedThumbnailDataSeen.length
  oneEncoded : (encodedIndices state).countP Option.isSome ≤ 1
  embeddedImage : ∀ index, state.embeddedImageIndex = some index →
    index < state.images.length ∧ InData outline .image
  inlineMetadata : ∀ index, state.inlineMetadataIndex = some index →
    index < state.metadata.length ∧ Innermost outline .property
  inlineIccProfile : ∀ index, state.inlineIccProfileIndex = some index →
    index < state.iccProfiles.length ∧ Innermost outline .iccProfile
  embeddedThumbnail : ∀ index, state.embeddedThumbnailIndex = some index →
    index < state.thumbnails.length ∧ InData outline .thumbnail
  thumbnailOpen : state.openThumbnailIndex.isSome = true ↔ IsOpen outline .thumbnail
  tableOpen : state.openTableIndex.isSome = true ↔ IsOpen outline .table
  structureOpen : state.openStructureIndex.isSome = true ↔ IsOpen outline .tableStructure
  rowOpen : state.openTableRowIndex.isSome = true ↔ IsOpen outline .row
  cellOpen : state.openTableCellIndex.isSome = true ↔ IsOpen outline .cell
  thumbnailRange : ∀ index, state.openThumbnailIndex = some index → index < state.thumbnails.length
  tableRange : ∀ index, state.openTableIndex = some index → index < state.tables.length
  structureRange : ∀ index, state.openStructureIndex = some index →
    index < state.tableStructures.length
  rowRange : ∀ row, state.openTableRowIndex = some row → ∃ table info,
    state.openTableIndex = some table ∧ state.tables[table]? = some info ∧ row < info.rows.length
  cellRange : ∀ cell, state.openTableCellIndex = some cell → ∃ table row info rowInfo,
    state.openTableIndex = some table ∧ state.openTableRowIndex = some row ∧
      state.tables[table]? = some info ∧ info.rows[row]? = some rowInfo ∧
      cell < rowInfo.cells.length
  textMetadata : ∀ index, state.textMetadataIndex = some index → index < state.metadata.length

/-- What the handlers take from a vector without a check is there. -/
structure HandlerAccesses (state : XmlBuilder) : Prop where
  image : ∀ index ∈ state.imageStack, (state.images[index]?).isSome = true ∧
    (state.embeddedDataSeen[index]?).isSome = true
  extension : ∀ index, some index ∈ state.extensionStack →
    (state.extensionElements[index]?).isSome = true
  encodedBlock : isEncodedBlockOpen state = true → (openBlock state).isSome = true
  thumbnail : ∀ index, state.openThumbnailIndex = some index →
    (state.thumbnails[index]?).isSome = true ∧
      (state.embeddedThumbnailDataSeen[index]?).isSome = true
  table : ∀ index, state.openTableIndex = some index → (state.tables[index]?).isSome = true
  tableStructure : ∀ index, state.openStructureIndex = some index →
    (state.tableStructures[index]?).isSome = true
  row : ∀ row, state.openTableRowIndex = some row → ∃ table, state.openTableIndex = some table ∧
    ((state.tables[table]?).bind fun info => info.rows[row]?).isSome = true
  cell : openCell state ≠ none → (openCellInfo state).isSome = true
  text : ∀ index, state.textMetadataIndex = some index → (state.metadata[index]?).isSome = true

/-- What the reads of an accepted header take from a vector without a check is
there. -/
structure ReadAccesses (parsed : ParsedHeader) : Prop where
  embedded : ∀ index < parsed.document.images.length,
    (parsed.embeddedBlocks[index]?).isSome = true
  inlineMetadata : ∀ index < parsed.document.metadata.length,
    (parsed.inlineMetadataBlocks[index]?).isSome = true
  inlineIccProfile : ∀ index < parsed.document.iccProfiles.length,
    (parsed.inlineIccProfileBlocks[index]?).isSome = true
  embeddedThumbnail : ∀ index < parsed.document.thumbnails.length,
    (parsed.embeddedThumbnailBlocks[index]?).isSome = true

/-! ## From the shape of the parser -/

section

variable {outline : HeaderOutline} {state : XmlBuilder}

theorem openIndex_isSome (kind : ElementKind) :
    (outline.openIndex (isKind kind)).isSome = true ↔ IsOpen outline kind := by
  rw [Library.Outline.openIndex_isSome]
  simp [isKind, IsOpen]

/-- At most one of the four indices is set, since only one element is innermost. -/
theorem Encodes.one (encodes : Encodes outline state) :
    (encodedIndices state).countP Option.isSome ≤ 1 := by
  obtain ⟨image, thumbnail, property, iccProfile, -, -⟩ := encodes
  rw [encodedIndices, image, thumbnail, property, iccProfile]
  cases opened : outline.opened with
  | nil => simp [dataIndex, innermostIndex, opened]
  | cons top below =>
      by_cases data : top.tag.kind = .data
      · rw [innermostIndex_of_top opened _ (by simp [isInlineProperty, data]),
          innermostIndex_of_top opened _ (by simp [isInlineIccProfile, data])]
        cases below with
        | nil => simp [dataIndex, opened]
        | cons owner rest =>
            by_cases inImage : owner.tag.kind = .image
            · simp [dataIndex, opened, data, inImage]
            · by_cases inThumbnail : owner.tag.kind = .thumbnail
              · simp [dataIndex, opened, data, inThumbnail]
              · simp [dataIndex, opened, inImage, inThumbnail]
      · rw [dataIndex_of_top opened _ data, dataIndex_of_top opened _ data]
        by_cases inProperty : top.tag.kind = .property
        · have none : innermostIndex outline isInlineIccProfile (isKind .iccProfile) = none :=
            innermostIndex_of_top opened _ (by simp [isInlineIccProfile, inProperty])
          rw [none]
          cases innermostIndex outline isInlineProperty isEntry <;> simp
        · have none : innermostIndex outline isInlineProperty isEntry = none :=
            innermostIndex_of_top opened _ (by simp [isInlineProperty, inProperty])
          rw [none]
          cases innermostIndex outline isInlineIccProfile (isKind .iccProfile) <;> simp

theorem Stacked.inData (stacked : Stacked outline state)
    {kind : ElementKind} {index : Nat} (found : dataIndex outline kind = some index) :
    index < (outline.ofKind (isKind kind)).length ∧ InData outline kind := by
  obtain ⟨data, owner, rest, opened, isData, same, rfl⟩ := dataIndex_eq_some found
  refine ⟨rank_lt stacked.coherent ?_ (decide_eq_true same), data, owner, rest, opened,
    isData, same⟩
  rw [opened]
  exact List.mem_cons_of_mem _ List.mem_cons_self

theorem Stacked.innermost (stacked : Stacked outline state)
    {innermost counted : XmlTag → Bool} {kind : ElementKind} {index : Nat}
    (isOfKind : ∀ tag, innermost tag = true → tag.kind = kind ∧ counted tag = true)
    (found : innermostIndex outline innermost counted = some index) :
    index < (outline.ofKind counted).length ∧ Innermost outline kind := by
  obtain ⟨top, rest, opened, inner, rfl⟩ := innermostIndex_eq_some found
  obtain ⟨same, isCounted⟩ := isOfKind top.tag inner
  refine ⟨rank_lt stacked.coherent ?_ isCounted, top, rest, opened, same⟩
  rw [opened]
  exact List.mem_cons_self

theorem Shape.invariant (shape : Shape outline state) : ParserInvariant outline state := by
  obtain ⟨stacked, counted, opens, encodes⟩ := shape
  have inRange {kind : XmlTag → Bool} {index : Nat} (found : outline.openIndex kind = some index) :=
    stacked.coherent.openIndex_lt found
  constructor
  case depth =>
    rw [stacked.depth, stacked.elementStack, stacked.qualifiedElementStack, stacked.extensionStack]
    simp only [List.length_map, and_self]
  case oneImage =>
    rw [opens.image]
    cases outline.openIndex (isKind .image) <;> simp
  case imageOpen =>
    rw [opens.image, ← openIndex_isSome]
    cases outline.openIndex (isKind .image) <;> simp
  case imageVectors => exact ⟨counted.embeddedBlocks.symm, counted.embeddedDataSeen.symm⟩
  case metadataVectors => exact counted.inlineMetadataBlocks.symm
  case iccProfileVectors => exact counted.inlineIccProfileBlocks.symm
  case thumbnailVectors =>
    exact ⟨counted.embeddedThumbnailBlocks.symm, counted.embeddedThumbnailDataSeen.symm⟩
  case oneEncoded => exact encodes.one
  case embeddedImage =>
    intro index isOpen
    rw [counted.images]
    exact stacked.inData (encodes.image.symm.trans isOpen)
  case inlineMetadata =>
    intro index isOpen
    rw [counted.metadata]
    exact stacked.innermost isInlineProperty_kind (encodes.property.symm.trans isOpen)
  case inlineIccProfile =>
    intro index isOpen
    rw [counted.iccProfiles]
    exact stacked.innermost isInlineIccProfile_kind (encodes.iccProfile.symm.trans isOpen)
  case embeddedThumbnail =>
    intro index isOpen
    rw [counted.thumbnails]
    exact stacked.inData (encodes.thumbnail.symm.trans isOpen)
  case thumbnailOpen => rw [opens.thumbnail, openIndex_isSome]
  case tableOpen => rw [opens.table, openIndex_isSome]
  case structureOpen => rw [opens.tableStructure, openIndex_isSome]
  case rowOpen => rw [opens.row, openIndex_isSome]
  case cellOpen => rw [opens.cell, openIndex_isSome]
  case thumbnailRange =>
    intro index isOpen
    rw [counted.thumbnails]
    exact inRange (opens.thumbnail.symm.trans isOpen)
  case tableRange =>
    intro index isOpen
    rw [counted.tables]
    exact inRange (opens.table.symm.trans isOpen)
  case structureRange =>
    intro index isOpen
    rw [counted.tableStructures]
    exact inRange (opens.tableStructure.symm.trans isOpen)
  case rowRange => exact fun row isOpen => opens.row_eq isOpen
  case cellRange => exact fun cell isOpen => opens.cell_eq isOpen
  case textMetadata => exact encodes.text

theorem Shape.accesses (shape : Shape outline state) : HandlerAccesses state := by
  have invariant := shape.invariant
  obtain ⟨stacked, counted, opens, encodes⟩ := shape
  constructor
  case image =>
    intro index member
    rw [opens.image, Option.mem_toList] at member
    have small := stacked.coherent.openIndex_lt member
    rw [← counted.images] at small
    exact ⟨isSome_getElem? small, isSome_getElem? (by rw [← invariant.imageVectors.2]; exact small)⟩
  case extension =>
    intro index member
    rw [stacked.extensionStack, List.mem_map] at member
    obtain ⟨frame, inside, found⟩ := member
    unfold extensionIndex at found
    split at found
    · rename_i foreign
      rw [Option.some.injEq] at found
      refine isSome_getElem? ?_
      rw [stacked.extensions, ← found]
      exact rank_lt stacked.coherent inside (decide_eq_true foreign)
    · cases found
  case encodedBlock =>
    intro inside
    unfold openBlock
    split
    · rename_i index isOpen
      refine isSome_getElem? ?_
      rw [← invariant.metadataVectors]
      exact (invariant.inlineMetadata index isOpen).1
    · rename_i index _ isOpen
      refine isSome_getElem? ?_
      rw [← invariant.iccProfileVectors]
      exact (invariant.inlineIccProfile index isOpen).1
    · rename_i index _ _ isOpen
      refine isSome_getElem? ?_
      rw [← invariant.thumbnailVectors.1]
      exact (invariant.embeddedThumbnail index isOpen).1
    · rename_i noProperty noIccProfile noThumbnail
      cases image : state.embeddedImageIndex with
      | none => simp [isEncodedBlockOpen, *] at inside
      | some index =>
          refine isSome_getElem? ?_
          rw [← invariant.imageVectors.1]
          exact (invariant.embeddedImage index image).1
  case thumbnail =>
    intro index isOpen
    have small := invariant.thumbnailRange index isOpen
    exact ⟨isSome_getElem? small,
      isSome_getElem? (by rw [← invariant.thumbnailVectors.2]; exact small)⟩
  case table => exact fun index isOpen => isSome_getElem? (invariant.tableRange index isOpen)
  case tableStructure =>
    exact fun index isOpen => isSome_getElem? (invariant.structureRange index isOpen)
  case row =>
    intro row isOpen
    obtain ⟨table, info, inTable, found, small⟩ := opens.row_eq isOpen
    refine ⟨table, inTable, ?_⟩
    rw [found, Option.bind_some]
    exact isSome_getElem? small
  case cell =>
    intro inside
    cases isOpen : state.openTableCellIndex with
    | none =>
        refine absurd ?_ inside
        unfold openCell
        cases state.openTableIndex <;> cases state.openTableRowIndex <;> simp [isOpen]
    | some cell =>
        obtain ⟨table, row, info, rowInfo, inTable, inRow, found, foundRow, small⟩ :=
          opens.cell_eq isOpen
        simp only [openCellInfo, openCell, inTable, inRow, isOpen, Option.bind_some,
          found, foundRow]
        exact isSome_getElem? small
  case text => exact fun index isOpen => isSome_getElem? (encodes.text index isOpen)

end

/-! ## The theorem -/

/-- Every state that the handlers reach keeps the invariant, so that what they and
the reads of an accepted header take from a vector is there. -/
theorem parserState_invariant (options : ReaderOptions) (platform : Platform) :
    (∀ parser : ParserRun options platform, ParserInvariant parser.outline parser.state ∧
      HandlerAccesses parser.state) ∧
      ∀ header : AcceptedHeader options platform, ReadAccesses header.parsed := by
  refine ⟨fun parser => ⟨parser.shape.invariant, parser.shape.accesses⟩, fun header => ?_⟩
  obtain ⟨parser, -, checked⟩ := header.parser
  have invariant := parser.shape.invariant
  constructor
  case embedded =>
    intro index small
    rw [checked.document] at small
    rw [checked.blocks]
    exact isSome_getElem? (by rw [← invariant.imageVectors.1]; exact small)
  case inlineMetadata =>
    intro index small
    rw [checked.document] at small
    rw [checked.blocks]
    exact isSome_getElem? (by rw [← invariant.metadataVectors]; exact small)
  case inlineIccProfile =>
    intro index small
    rw [checked.document] at small
    rw [checked.blocks]
    exact isSome_getElem? (by rw [← invariant.iccProfileVectors]; exact small)
  case embeddedThumbnail =>
    intro index small
    rw [checked.document] at small
    rw [checked.blocks]
    exact isSome_getElem? (by rw [← invariant.thumbnailVectors.1]; exact small)

end Mmxisf.Reader
