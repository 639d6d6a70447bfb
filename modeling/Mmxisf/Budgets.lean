/-
# Budgets -- what the parser stores is what it charges for

Each list of the inventory has a limit, and three counters hold the bytes of the
texts that extensions, ancillary objects and tables store.  In every state that the
handlers reach the counters are exactly these sums, and everything is within its
limit (`Budgets`); the bindings that References add afterwards are as well
(`DocumentBudgets`).
-/
import Mmxisf.Library.Totals
import Mmxisf.Reader.Frames
import Mmxisf.Reader.Tables

namespace Mmxisf.Reader

set_option autoImplicit false

open Library (total)

variable {options : ReaderOptions} {platform : Platform}

/-! ## Sizes -/

def attributeSize (entry : XmlAttribute) : Nat :=
  entry.namespaceUri.length + entry.name.length + entry.value.length

def extensionSize (extension : ExtensionElement) : Nat :=
  extension.namespaceUri.length + extension.name.length + extension.parentNamespaceUri.length +
    extension.parentName.length + total attributeSize extension.attributes + extension.text.length

def ancillarySize (object : AncillaryObject) : Nat :=
  object.uid.length + total attributeSize object.attributes

def tableSize (table : TableInfo) : Nat :=
  tableHeadBytes table + total (fun row => total cellBytes row.cells) table.rows

def structureSize (info : TableStructureInfo) : Nat :=
  info.uid.length + total fieldBytes info.fields

def cellsOf (table : TableInfo) : Nat := total (fun row => row.cells.length) table.rows

/-! ## What the limits bound -/

/-- The blocks that the text of elements is decoded into. -/
structure BlocksWithin (options : ReaderOptions)
    (embedded metadata iccProfiles thumbnails : List Bytes) : Prop where
  embedded : ∀ block ∈ embedded, block.length ≤ options.maxDecodedImageBytes
  metadata : ∀ block ∈ metadata, block.length ≤ options.maxSerializedPropertyBytes
  iccProfiles : ∀ block ∈ iccProfiles, block.length ≤ options.maxSerializedIccProfileBytes
  thumbnails : ∀ block ∈ thumbnails, block.length ≤ options.maxSerializedThumbnailBytes

/-- The counters of a parser state. -/
structure Counters (state : XmlBuilder) : Prop where
  extensionBytes : state.extensionBytes = total extensionSize state.extensionElements
  extensionAttributes : state.extensionAttributeCount =
    total (fun extension => extension.attributes.length) state.extensionElements
  ancillaryBytes : state.ancillaryBytes = total ancillarySize state.ancillaryObjects
  ancillaryAttributes : state.ancillaryAttributeCount =
    total (fun object => object.attributes.length) state.ancillaryObjects
  tableTextBytes : state.tableTextBytes =
    total tableSize state.tables + total structureSize state.tableStructures
  fields : state.tableFieldCount = total (fun info => info.fields.length) state.tableStructures
  rows : state.tableRowCount = total (fun table => table.rows.length) state.tables
  cells : state.tableCellCount = total cellsOf state.tables

/-- What a parser state holds, and its limits. -/
structure Limits (options : ReaderOptions) (state : XmlBuilder) : Prop where
  depth : state.depth ≤ options.maxXmlDepth
  nodes : state.nodes ≤ options.maxXmlNodes
  images : state.images.length ≤ options.maxImages
  metadata : state.metadata.length ≤ options.maxMetadataEntries
  metadataEvents : state.metadataBindingEvents.length ≤ options.maxMetadataEntries
  values : ∀ entry ∈ state.metadata, entry.value.length ≤ options.maxMetadataValueBytes
  extensionElements : state.extensionElements.length ≤ options.maxExtensionElements
  extensionAttributes : state.extensionAttributeCount ≤ options.maxExtensionAttributes
  extensionBytes : state.extensionBytes ≤ options.maxExtensionBytes
  ancillaryObjects : state.ancillaryObjects.length ≤ options.maxAncillaryObjects
  ancillaryAttributes : state.ancillaryAttributeCount ≤ options.maxAncillaryAttributes
  ancillaryBytes : state.ancillaryBytes ≤ options.maxAncillaryBytes
  ancillaryEvents : state.ancillaryBindingEvents.length ≤ options.maxAncillaryBindings
  iccProfiles : state.iccProfiles.length ≤ options.maxIccProfiles
  iccProfileEvents : state.iccProfileBindingEvents.length ≤ options.maxIccProfileBindings
  thumbnails : state.thumbnails.length ≤ options.maxThumbnails
  thumbnailEvents : state.thumbnailBindingEvents.length ≤ options.maxThumbnailBindings
  tableStructures : state.tableStructures.length ≤ options.maxTableStructures
  tables : state.tables.length ≤ options.maxTables
  tableEvents : state.tableBindingEvents.length ≤ options.maxTableBindings
  tableReferences : state.tableStructureReferences.length ≤ options.maxTables
  fields : state.tableFieldCount ≤ options.maxTableFields
  rows : state.tableRowCount ≤ options.maxTableRows
  cells : state.tableCellCount ≤ options.maxTableCells
  tableTextBytes : state.tableTextBytes ≤ options.maxTableTextBytes
  blocks : BlocksWithin options state.embeddedBlocks state.inlineMetadataBlocks
    state.inlineIccProfileBlocks state.embeddedThumbnailBlocks

/-- The counters that are subtracted from a limit, with it. -/
def charges (options : ReaderOptions) (state : XmlBuilder) : List (Nat × Nat) :=
  [(state.extensionBytes, options.maxExtensionBytes),
    (state.extensionAttributeCount, options.maxExtensionAttributes),
    (state.ancillaryBytes, options.maxAncillaryBytes),
    (state.ancillaryAttributeCount, options.maxAncillaryAttributes),
    (state.tableTextBytes, options.maxTableTextBytes)] ++
  state.metadata.map fun entry => (entry.value.length, options.maxMetadataValueBytes)

structure Budgets (options : ReaderOptions) (state : XmlBuilder) : Prop where
  counters : Counters state
  limits : Limits options state

/-- What an accepted document holds, and its limits. -/
structure DocumentBudgets (options : ReaderOptions) (parsed : ParsedHeader) : Prop where
  images : parsed.document.images.length ≤ options.maxImages
  metadata : parsed.document.metadata.length ≤ options.maxMetadataEntries
  metadataBindings : parsed.document.metadataBindings.length ≤ options.maxMetadataEntries
  values : ∀ entry ∈ parsed.document.metadata, entry.value.length ≤ options.maxMetadataValueBytes
  extensionElements : parsed.document.extensionElements.length ≤ options.maxExtensionElements
  extensionAttributes : total (fun extension => extension.attributes.length)
    parsed.document.extensionElements ≤ options.maxExtensionAttributes
  extensionBytes : total extensionSize parsed.document.extensionElements ≤ options.maxExtensionBytes
  ancillaryObjects : parsed.document.ancillaryObjects.length ≤ options.maxAncillaryObjects
  ancillaryAttributes : total (fun object => object.attributes.length)
    parsed.document.ancillaryObjects ≤ options.maxAncillaryAttributes
  ancillaryBytes : total ancillarySize parsed.document.ancillaryObjects ≤ options.maxAncillaryBytes
  ancillaryBindings : parsed.document.ancillaryBindings.length ≤ options.maxAncillaryBindings
  iccProfiles : parsed.document.iccProfiles.length ≤ options.maxIccProfiles
  iccProfileBindings : parsed.document.iccProfileBindings.length ≤ options.maxIccProfileBindings
  thumbnails : parsed.document.thumbnails.length ≤ options.maxThumbnails
  thumbnailBindings : parsed.document.thumbnailBindings.length ≤ options.maxThumbnailBindings
  tableStructures : parsed.document.tableStructures.length ≤ options.maxTableStructures
  tables : parsed.document.tables.length ≤ options.maxTables
  tableBindings : parsed.document.tableBindings.length ≤ options.maxTableBindings
  fields : total (fun info => info.fields.length) parsed.document.tableStructures ≤
    options.maxTableFields
  rows : total (fun table => table.rows.length) parsed.document.tables ≤ options.maxTableRows
  cells : total cellsOf parsed.document.tables ≤ options.maxTableCells
  tableTextBytes : total tableSize parsed.document.tables +
    total structureSize parsed.document.tableStructures ≤ options.maxTableTextBytes
  blocks : BlocksWithin options parsed.embeddedBlocks parsed.inlineMetadataBlocks
    parsed.inlineIccProfileBlocks parsed.embeddedThumbnailBlocks

/-- The budgets are exact in every reachable state and in every accepted document,
and what the code takes as left of a limit is what is left of it. -/
structure BudgetsExact (options : ReaderOptions) (platform : Platform) : Prop where
  reachable : ∀ parser : ParserRun options platform, Budgets options parser.state
  left : ∀ parser : ParserRun options platform, ∀ charge ∈ charges options parser.state,
    charge.1 ≤ charge.2 ∧ charge.2 - min charge.1 charge.2 + charge.1 = charge.2
  accepted : ∀ header : AcceptedHeader options platform, DocumentBudgets options header.parsed

/-! ## A start tag -/

section

variable {outline : HeaderOutline} {state state' identified : XmlBuilder} {tag : XmlTag}

/-- The copied attributes have the size they were charged for. -/
theorem total_copyAttributes (attributes : List (Text × Text)) :
    total attributeSize (copyAttributes attributes) = attributeBytes attributes := by
  unfold attributeBytes copyAttributes
  induction attributes with
  | nil => rfl
  | cons entry attributes ih =>
      rw [List.map_cons, Library.total_cons, ih, List.map_cons, List.sum_cons]
      rfl

theorem directBinding_length (index : Nat) (image : Option Nat) :
    (directBinding index image).length = if image.isSome then 1 else 0 := by
  cases image <;> rfl

theorem length_directBinding {events : List ObjectBindingEvent} {index limit : Nat}
    {image : Option Nat} (within : events.length ≤ limit)
    (free : image.isSome = true → events.length < limit) :
    (events ++ directBinding index image).length ≤ limit := by
  rw [List.length_append, directBinding_length]
  split
  · rename_i bound
    have room := free bound
    omega
  · omega

theorem Limits.before {element : ElementContext} (limits : Limits options state)
    (depth : state.depth < options.maxXmlDepth) (nodes : state.nodes < options.maxXmlNodes)
    (before : Before options state element identified) : Limits options identified := by
  obtain ⟨base, index, ranges, extended, root⟩ := before
  have entered : Limits options (enteredState base element index ranges) := by
    cases extended with
    | known known => exact { limits with depth := depth, nodes := nodes }
    | extension foreign place parent room attributes bytes =>
        exact { limits with
          depth := depth
          nodes := nodes
          extensionElements := by
            show (state.extensionElements ++ [_]).length ≤ _
            rw [List.length_append]
            exact room
          extensionAttributes := by
            show state.extensionAttributeCount + _ ≤ _
            have within := limits.extensionAttributes
            dsimp only at attributes
            omega
          extensionBytes := by
            show state.extensionBytes + _ ≤ _
            have within := limits.extensionBytes
            dsimp only at bytes
            omega }
  rcases root with ⟨-, rfl⟩ | ⟨-, identify⟩
  · exact { entered with }
  · cases identify with
    | anonymous none => exact entered
    | named isXisf core other uid declared valid unique => exact { entered with }
    | reference isXisf isReference anonymous reference refers valid inTable bound =>
        exact { entered with
          metadataEvents := by
            show (_ ++ referenceEvents _ _ _).length ≤ _
            have within := entered.metadataEvents
            rw [List.length_append]
            by_cases none : referenceEvents (enteredState base element index ranges) element
                reference = []
            · rw [none]
              exact within
            · have room := bound none
              have one : (referenceEvents (enteredState base element index ranges) element
                  reference).length ≤ 1 := by
                unfold referenceEvents
                split <;> simp
              omega
          tableReferences := by
            show (_ ++ tableReferenceEvents _ _ _).length ≤ _
            have within := entered.tableReferences
            rw [List.length_append]
            unfold tableReferenceEvents
            split
            · rename_i isTable
              have room := (inTable isTable).2
              simp only [List.length_singleton]
              omega
            · exact within }

/-- One more record. -/
theorem length_append_one {α : Type} {records : List α} {limit : Nat} (a : α)
    (room : records.length < limit) : (records ++ [a]).length ≤ limit := by
  rw [List.length_append]
  exact room

/-- A charge within what is left. -/
theorem charge_le {used limit count : Nat} (within : used ≤ limit)
    (charge : count ≤ limit - min used limit) : used + count ≤ limit := by omega

/-- One more block, still empty. -/
theorem blocks_append {blocks : List Bytes} {limit : Nat}
    (within : ∀ block ∈ blocks, block.length ≤ limit) :
    ∀ block ∈ blocks ++ [[]], block.length ≤ limit := by
  intro block member
  rcases List.mem_append.mp member with old | new
  · exact within block old
  · rw [List.mem_singleton.mp new]
    exact Nat.zero_le _

theorem Limits.addEntry {element : ElementContext} {entry : MetadataEntry}
    (limits : Limits options state) (room : state.metadata.length < options.maxMetadataEntries)
    (small : entry.value.length ≤ options.maxMetadataValueBytes)
    (free : entry.scope ≠ .standalone →
      state.metadataBindingEvents.length < options.maxMetadataEntries) :
    Limits options (addEntry state element entry) :=
  { limits with
    metadata := length_append_one entry room
    metadataEvents := by
      show (_ ++ directEvents _ entry).length ≤ _
      have within := limits.metadataEvents
      rw [List.length_append, directEvents]
      split
      · exact within
      · rename_i bound
        exact free bound
    values := by
      intro other member
      rcases List.mem_append.mp member with old | new
      · exact limits.values other old
      · rw [List.mem_singleton.mp new]
        exact small
    blocks := { limits.blocks with metadata := blocks_append limits.blocks.metadata } }

theorem Limits.opened {parent : Text} (limits : Limits options identified)
    (opened : Opened options platform identified (tag.context parent) state') :
    Limits options state' := by
  cases opened with
  | unhandled unknown same =>
      subst same
      exact limits
  | table isXisf named run =>
      obtain ⟨rows, columns, -, room, charge, free, rfl⟩ := startTable_eq run
      exact { limits with
        tables := length_append_one _ room
        tableTextBytes := charge_le limits.tableTextBytes charge
        tableEvents := length_directBinding limits.tableEvents free }
  | tableStructure isXisf named run =>
      obtain ⟨room, charge, ⟨-, -, rfl⟩ | ⟨-, -, -, rfl⟩⟩ := startStructure_eq run
      · exact { limits with
          tableStructures := length_append_one _ room
          tableTextBytes := charge_le limits.tableTextBytes charge }
      · exact { limits with
          tableStructures := length_append_one _ room
          tables := (List.length_modify ..).trans_le limits.tables
          tableTextBytes := charge_le limits.tableTextBytes charge }
  | field isXisf named run =>
      obtain ⟨-, -, room, charge, rfl⟩ := startField_eq run
      exact { limits with
        tableStructures := (List.length_modify ..).trans_le limits.tableStructures
        fields := room
        tableTextBytes := charge_le limits.tableTextBytes charge }
  | row isXisf named run =>
      obtain ⟨-, -, -, room, rfl⟩ := startRow_eq run
      exact { limits with
        tables := (List.length_modify ..).trans_le limits.tables
        rows := room }
  | cell isXisf named run =>
      obtain ⟨block, form, length, rows, columns, -, -, -, -, room, -, -, charge, rfl⟩ :=
        startCell_eq run
      exact { limits with
        tables := (List.length_modify ..).trans_le limits.tables
        cells := room
        tableTextBytes := charge limits.tableTextBytes }
  | iccProfile isXisf named run =>
      obtain ⟨location, -, -, room, free, run⟩ := startIccProfile_eq run
      have added : Limits options (addIccProfile identified
          (newIccProfile identified (tag.context parent) location)) :=
        { limits with
          iccProfiles := length_append_one _ room
          iccProfileEvents := length_directBinding limits.iccProfileEvents free
          blocks := { limits.blocks with iccProfiles := blocks_append limits.blocks.iccProfiles } }
      obtain ⟨-, rfl⟩ | ⟨-, -, rfl⟩ := run
      · exact added
      · exact { added with }
  | ancillary isXisf which named run =>
      obtain ⟨-, room, attributes, charge, free, rfl⟩ := startAncillary_eq run
      exact { limits with
        ancillaryObjects := length_append_one _ room
        ancillaryAttributes := charge_le limits.ancillaryAttributes attributes
        ancillaryBytes := charge_le limits.ancillaryBytes charge
        ancillaryEvents := length_directBinding limits.ancillaryEvents free }
  | thumbnail isXisf named run =>
      obtain ⟨location, image, -, -, -, -, room, free, rfl⟩ := startThumbnail_eq run
      exact { limits with
        thumbnails := length_append_one _ room
        thumbnailEvents := length_directBinding limits.thumbnailEvents free
        blocks := { limits.blocks with thumbnails := blocks_append limits.blocks.thumbnails } }
  | data isXisf named run =>
      obtain ⟨base64, -, ⟨index, -, -, rfl⟩ | ⟨index, -, -, -, rfl⟩⟩ := startData_eq run
      · exact { limits with images := (List.length_modify ..).trans_le limits.images }
      · exact { limits with thumbnails := (List.length_modify ..).trans_le limits.thumbnails }
  | image isXisf named run =>
      obtain ⟨location, image, -, -, -, -, room, rfl⟩ := startImage_eq run
      exact { limits with
        images := length_append_one _ room
        blocks := { limits.blocks with embedded := blocks_append limits.blocks.embedded } }
  | metadata isXisf named run =>
      obtain ⟨-, -, rfl⟩ := startMetadata_eq run
      exact { limits with }
  | entry isXisf named run =>
      obtain ⟨entry, -, -, room, small, -, free, run⟩ := startMetadataEntry_eq run
      have added : Limits options (Reader.addEntry identified (tag.context parent) entry) :=
        limits.addEntry room small free
      obtain ⟨-, rfl⟩ | ⟨-, -, -, -, rfl⟩ | ⟨-, -, rfl⟩ := run
      · exact { added with }
      · exact { added with }
      · exact added

theorem Counters.before {element : ElementContext} (counters : Counters state)
    (before : Before options state element identified) : Counters identified := by
  obtain ⟨base, index, ranges, extended, root⟩ := before
  have entered : Counters (enteredState base element index ranges) := by
    cases extended with
    | known known => exact { counters with }
    | extension foreign place parent room attributes bytes =>
        exact { counters with
          extensionBytes := by
            show state.extensionBytes + _ = total extensionSize (state.extensionElements ++ [_])
            rw [Library.total_append, Library.total_cons, Library.total_nil,
              counters.extensionBytes]
            simp only [extensionSize, newExtension, total_copyAttributes, extensionCharge,
              List.length_nil]
            omega
          extensionAttributes := by
            show state.extensionAttributeCount + element.attributes.length = total _ (_ ++ [_])
            rw [Library.total_append, Library.total_cons, Library.total_nil,
              counters.extensionAttributes]
            simp [newExtension, copyAttributes] }
  rcases root with ⟨-, rfl⟩ | ⟨-, identify⟩
  · exact { entered with }
  · cases identify <;> exact { entered with }

/-- The Structure that a Field goes to. -/
theorem Opens.structure_eq (opens : Opens outline state) (coherent : outline.Coherent)
    (counted : Counted outline state) {index : Nat}
    (isOpen : state.openStructureIndex = some index) :
    ∃ info, state.tableStructures[index]? = some info := by
  rw [opens.tableStructure] at isOpen
  have small := coherent.openIndex_lt isOpen
  rw [← counted.tableStructures] at small
  exact ⟨_, List.getElem?_eq_getElem small⟩

/-- The table that a Row goes to. -/
theorem Opens.table_eq (opens : Opens outline state) (coherent : outline.Coherent)
    (counted : Counted outline state) {index : Nat}
    (isOpen : state.openTableIndex = some index) : ∃ info, state.tables[index]? = some info := by
  rw [opens.table] at isOpen
  have small := coherent.openIndex_lt isOpen
  rw [← counted.tables] at small
  exact ⟨_, List.getElem?_eq_getElem small⟩

/-- A row of a table grows. -/
theorem tableSize_modifyRows {table : TableInfo} {row : Nat} {rowInfo : TableRowInfo}
    {change : TableRowInfo → TableRowInfo} {grown : Nat} (there : table.rows[row]? = some rowInfo)
    (grows : total cellBytes (change rowInfo).cells = total cellBytes rowInfo.cells + grown) :
    tableSize (modifyRows table row change) = tableSize table + grown := by
  have rows : total (fun row => total cellBytes row.cells) (table.rows.modify row change) =
      total (fun row => total cellBytes row.cells) table.rows + grown :=
    Library.total_modify there grows
  rw [tableSize, tableSize, modifyRows, rows]
  simp only [tableHeadBytes]
  omega

theorem cellsOf_modifyRows {table : TableInfo} {row : Nat} {rowInfo : TableRowInfo}
    {change : TableRowInfo → TableRowInfo} {grown : Nat} (there : table.rows[row]? = some rowInfo)
    (grows : (change rowInfo).cells.length = rowInfo.cells.length + grown) :
    cellsOf (modifyRows table row change) = cellsOf table + grown :=
  Library.total_modify there grows

/-- The number of rows does not change with one of them. -/
theorem rows_modifyRows (table : TableInfo) (row : Nat) (change : TableRowInfo → TableRowInfo) :
    (modifyRows table row change).rows.length = table.rows.length := List.length_modify ..

theorem Counters.opened {parent : Text} (counters : Counters identified)
    (coherent : outline.Coherent) (opens : Opens outline identified)
    (counted : Counted outline identified)
    (opened : Opened options platform identified (tag.context parent) state') :
    Counters state' := by
  cases opened with
  | unhandled unknown same =>
      subst same
      exact counters
  | table isXisf named run =>
      obtain ⟨rows, columns, -, -, -, -, rfl⟩ := startTable_eq run
      exact { counters with
        tableTextBytes := by
          show identified.tableTextBytes + _ = total tableSize (_ ++ [_]) + _
          rw [Library.total_append, Library.total_cons, Library.total_nil, counters.tableTextBytes,
            tableSize]
          simp only [newTable, Library.total_nil]
          omega
        rows := by
          show identified.tableRowCount = total _ (_ ++ [_])
          rw [Library.total_append, counters.rows]
          rfl
        cells := by
          show identified.tableCellCount = total _ (_ ++ [_])
          rw [Library.total_append, counters.cells]
          rfl }
  | tableStructure isXisf named run =>
      have added (table : Option Nat) :
          identified.tableTextBytes + (((tag.context parent).attr "uid").getD []).length =
            total tableSize identified.tables + total structureSize
              (identified.tableStructures ++ [newStructure (tag.context parent) table]) := by
        rw [Library.total_append, Library.total_cons, Library.total_nil, counters.tableTextBytes,
          structureSize]
        simp only [newStructure, Library.total_nil]
        omega
      have fields (table : Option Nat) : identified.tableFieldCount =
          total (fun info => info.fields.length)
            (identified.tableStructures ++ [newStructure (tag.context parent) table]) := by
        rw [Library.total_append, counters.fields]
        rfl
      obtain ⟨-, -, ⟨-, -, rfl⟩ | ⟨-, -, -, rfl⟩⟩ := startStructure_eq run
      · exact { counters with
          tableTextBytes := added _
          fields := fields _ }
      · exact { counters with
          tableTextBytes := by
            refine (added identified.openTableIndex).trans ?_
            congr 1
            exact (Library.total_modify_same _ _ (by intro table; rfl)).symm
          fields := fields _
          rows := counters.rows.trans (Library.total_modify_same _ _ (by intro table; rfl)).symm
          cells := counters.cells.trans (Library.total_modify_same _ _ (by intro table; rfl)).symm }
  | field isXisf named run =>
      obtain ⟨-, inside, -, -, rfl⟩ := startField_eq run
      obtain ⟨index, isOpen⟩ := Option.isSome_iff_exists.mp inside
      obtain ⟨info, there⟩ := opens.structure_eq coherent counted isOpen
      rw [isOpen, Option.getD_some]
      exact { counters with
        tableTextBytes := by
          show identified.tableTextBytes + _ =
            total tableSize identified.tables + total structureSize (List.modify _ _ _)
          rw [counters.tableTextBytes, Library.total_modify there
            (show _ = structureSize info + fieldBytes (newField (tag.context parent)) by
              simp only [structureSize, Library.total_append, Library.total_cons,
                Library.total_nil]
              omega)]
          omega
        fields := by
          show identified.tableFieldCount + 1 = total _ (List.modify _ _ _)
          rw [counters.fields, Library.total_modify there
            (show _ = info.fields.length + 1 by simp)] }
  | row isXisf named run =>
      obtain ⟨-, inside, -, -, rfl⟩ := startRow_eq run
      obtain ⟨index, isOpen⟩ := Option.isSome_iff_exists.mp inside
      obtain ⟨info, there⟩ := opens.table_eq coherent counted isOpen
      rw [isOpen, Option.getD_some]
      exact { counters with
        tableTextBytes := by
          refine counters.tableTextBytes.trans ?_
          congr 1
          refine (Library.total_modify_same _ _ fun table => ?_).symm
          simp [tableSize, tableHeadBytes]
        rows := by
          show identified.tableRowCount + 1 = total _ (List.modify _ _ _)
          rw [counters.rows, Library.total_modify there (show _ = info.rows.length + 1 by simp)]
        cells := by
          refine counters.cells.trans (Library.total_modify_same _ _ fun table => ?_).symm
          simp [cellsOf] }
  | cell isXisf named run =>
      obtain ⟨block, form, length, rows, columns, -, -, inside, -, -, -, -, -, rfl⟩ :=
        startCell_eq run
      obtain ⟨row, isOpen⟩ := Option.isSome_iff_exists.mp inside
      obtain ⟨index, info, inTable, there, small⟩ := opens.row_eq isOpen
      have inRows := List.getElem?_eq_getElem small
      rw [isOpen, inTable, Option.getD_some, Option.getD_some]
      exact { counters with
        tableTextBytes := by
          show identified.tableTextBytes + _ = total tableSize (List.modify _ _ _) +
            total structureSize identified.tableStructures
          rw [counters.tableTextBytes, Library.total_modify there (tableSize_modifyRows inRows
            (Library.total_append cellBytes info.rows[row].cells [_]))]
          simp only [Library.total_cons, Library.total_nil]
          omega
        rows := counters.rows.trans
          (Library.total_modify_same _ _ fun table => rows_modifyRows table _ _).symm
        cells := by
          show identified.tableCellCount + 1 = total _ (List.modify _ _ _)
          rw [counters.cells, Library.total_modify there
            (cellsOf_modifyRows inRows (show _ = _ + 1 by simp))] }
  | iccProfile isXisf named run =>
      obtain ⟨-, -, -, -, -, ⟨-, rfl⟩ | ⟨-, -, rfl⟩⟩ := startIccProfile_eq run <;>
        exact { counters with }
  | ancillary isXisf which named run =>
      obtain ⟨-, -, -, -, -, rfl⟩ := startAncillary_eq run
      exact { counters with
        ancillaryBytes := by
          show identified.ancillaryBytes + _ = total ancillarySize (_ ++ [_])
          rw [Library.total_append, Library.total_cons, Library.total_nil, counters.ancillaryBytes,
            ancillarySize]
          simp only [newAncillary, total_copyAttributes, ancillaryCharge]
          omega
        ancillaryAttributes := by
          show identified.ancillaryAttributeCount + _ = total _ (_ ++ [_])
          rw [Library.total_append, Library.total_cons, Library.total_nil,
            counters.ancillaryAttributes]
          simp [newAncillary, copyAttributes] }
  | thumbnail isXisf named run =>
      obtain ⟨-, -, -, -, -, -, -, -, rfl⟩ := startThumbnail_eq run
      exact { counters with }
  | data isXisf named run =>
      obtain ⟨-, -, ⟨-, -, -, rfl⟩ | ⟨-, -, -, -, rfl⟩⟩ := startData_eq run <;>
        exact { counters with }
  | image isXisf named run =>
      obtain ⟨-, -, -, -, -, -, -, rfl⟩ := startImage_eq run
      exact { counters with }
  | metadata isXisf named run =>
      obtain ⟨-, -, rfl⟩ := startMetadata_eq run
      exact { counters with }
  | entry isXisf named run =>
      obtain ⟨-, -, -, -, -, -, -, ⟨-, rfl⟩ | ⟨-, -, -, -, rfl⟩ | ⟨-, -, rfl⟩⟩ :=
        startMetadataEntry_eq run <;>
        exact { counters with }

/-! ## Text -/

/-- The bytes of one block grow, within the limit. -/
theorem blocks_modify {blocks : List Bytes} {limit index : Nat} {bytes : Bytes}
    (within : ∀ block ∈ blocks, block.length ≤ limit)
    (room : bytes ≠ [] → ∀ block, blocks[index]? = some block →
      block.length + bytes.length ≤ limit) :
    ∀ block ∈ blocks.modify index (· ++ bytes), block.length ≤ limit := by
  refine Library.forall_mem_modify within fun block there small => ?_
  rw [List.length_append]
  by_cases none : bytes = []
  · rw [none]
    exact small
  · exact room none block there

theorem BlocksWithin.addBytes (limits : Limits options state) {bytes : Bytes}
    (room : bytes ≠ [] → ∀ block, openBlock state = some block →
      block.length + bytes.length ≤ openBlockLimit options state) :
    Limits options (addBytes state bytes) := by
  unfold openBlock openBlockLimit at room
  unfold Reader.addBytes
  split
  · rename_i index _ _ isMetadata
    simp only [isMetadata] at room
    exact { limits with
      blocks := { limits.blocks with metadata := blocks_modify limits.blocks.metadata room } }
  · rename_i index _ noMetadata isProfile
    simp only [noMetadata, isProfile] at room
    exact { limits with
      blocks := { limits.blocks with iccProfiles := blocks_modify limits.blocks.iccProfiles room } }
  · rename_i index noMetadata noProfile isThumbnail
    simp only [noMetadata, noProfile, isThumbnail] at room
    exact { limits with
      blocks := { limits.blocks with thumbnails := blocks_modify limits.blocks.thumbnails room } }
  · rename_i noMetadata noProfile noThumbnail
    simp only [noMetadata, noProfile, noThumbnail] at room
    exact { limits with
      blocks := { limits.blocks with embedded := blocks_modify limits.blocks.embedded room } }

theorem Limits.text {text : Text} (limits : Limits options state)
    (taken : TextTaken options state text state') : Limits options state' := by
  cases taken with
  | encoded state' inside run =>
      obtain ⟨decoder, bytes, -, -, added, count, ⟨within, rfl⟩, rfl⟩ := decodeEmbeddedText_eq run
      exact { BlocksWithin.addBytes limits within with }
  | cell outside place inside accepts within =>
      exact { limits with
        tables := (List.length_modify ..).trans_le limits.tables
        tableTextBytes := charge_le limits.tableTextBytes within }
  | extension outside noCell index inside within =>
      exact { limits with
        extensionElements := (List.length_modify ..).trans_le limits.extensionElements
        extensionBytes := charge_le limits.extensionBytes within }
  | property outside noCell known index inside within =>
      exact { limits with
        metadata := (List.length_modify ..).trans_le limits.metadata
        values := by
          refine Library.forall_mem_modify limits.values fun entry there small => ?_
          rw [there, Option.map_some, Option.getD_some] at within
          show (entry.value ++ text).length ≤ _
          rw [List.length_append]
          exact charge_le small within }
  | _ => exact limits

theorem Counters.text {text : Text} (counters : Counters state) (shape : Shape outline state)
    (taken : TextTaken options state text state') : Counters state' := by
  obtain ⟨stacked, counted, opens, -⟩ := shape
  cases taken with
  | encoded state' inside run =>
      obtain ⟨decoder, bytes, -, -, added, count, ⟨-, rfl⟩, rfl⟩ := decodeEmbeddedText_eq run
      unfold addBytes
      split <;> exact { counters with }
  | cell outside place inside accepts within =>
      obtain ⟨info, row, cell, there, inRows, inCells⟩ := opens.openCell_eq inside
      have cells : total cellBytes (row.cells.modify place.2.2 fun cell =>
          { cell with value := cell.value ++ text }) = total cellBytes row.cells + text.length :=
        Library.total_modify inCells (by simp only [cellBytes, List.length_append]; omega)
      exact { counters with
        tableTextBytes := by
          show state.tableTextBytes + text.length = total tableSize (List.modify _ _ _) +
            total structureSize state.tableStructures
          rw [counters.tableTextBytes, Library.total_modify there
            (tableSize_modifyRows inRows cells)]
          omega
        rows := counters.rows.trans
          (Library.total_modify_same _ _ fun table => rows_modifyRows table _ _).symm
        cells := by
          refine counters.cells.trans (Library.total_modify_same _ _ fun table => ?_).symm
          exact Library.total_modify_same table.rows _ (by intro row; exact List.length_modify ..) }
  | extension outside noCell index inside within =>
      obtain ⟨-, -, -, -, -, small⟩ := stacked.extension_eq inside
      have there := List.getElem?_eq_getElem small
      exact { counters with
        extensionBytes := by
          show state.extensionBytes + text.length = total extensionSize (List.modify _ _ _)
          rw [counters.extensionBytes, Library.total_modify there
            (show _ = extensionSize state.extensionElements[index] + text.length by
              simp only [extensionSize, List.length_append]
              omega)]
        extensionAttributes := counters.extensionAttributes.trans
          (Library.total_modify_same _ _ (by intro extension; rfl)).symm }
  | property outside noCell known index inside within => exact { counters with }
  | _ => exact counters

/-! ## A run -/

theorem Budgets.close {isXisf : Bool} {name : Text} {closed : XmlBuilder}
    (budgets : Budgets options state) (close : Closed state isXisf name closed) :
    Budgets options (popElement closed) := by
  obtain ⟨counters, limits⟩ := budgets
  have shallower : state.depth - 1 ≤ options.maxXmlDepth :=
    (Nat.sub_le _ _).trans limits.depth
  cases close <;> exact ⟨{ counters with }, { limits with depth := shallower }⟩

theorem preserved_budgets :
    Preserved options platform fun _ state => Budgets options state where
  empty := by
    refine ⟨⟨rfl, rfl, rfl, rfl, rfl, rfl, rfl, rfl⟩, ?_⟩
    constructor
    case blocks => constructor <;> simp
    all_goals simp
  declared budgets := ⟨{ budgets.counters with }, { budgets.limits with }⟩
  start := by
    intro outline state state' tag shape budgets started
    have depth := started.depth
    have nodes := started.nodes
    obtain ⟨identified, before, opened⟩ := started.branch
    exact ⟨(budgets.counters.before before).opened shape.stacked.coherent (before.opens shape.opens)
      (before.counted shape.counted) opened,
      (budgets.limits.before depth nodes before).opened opened⟩
  close _ budgets _ close := budgets.close close
  text shape budgets taken := ⟨budgets.counters.text shape taken, budgets.limits.text taken⟩

/-! ## The theorem -/

theorem Limits.charges (limits : Limits options state) :
    ∀ charge ∈ charges options state, charge.1 ≤ charge.2 := by
  intro charge member
  rcases List.mem_append.mp member with counter | value
  · simp only [List.mem_cons, List.not_mem_nil, or_false] at counter
    rcases counter with rfl | rfl | rfl | rfl | rfl
    · exact limits.extensionBytes
    · exact limits.extensionAttributes
    · exact limits.ancillaryBytes
    · exact limits.ancillaryAttributes
    · exact limits.tableTextBytes
  · obtain ⟨entry, here, rfl⟩ := List.mem_map.mp value
    exact limits.values entry here

/-- An event makes one binding at most. -/
theorem length_metadataBindings {events : List MetadataBindingEvent}
    {bindings : List MetadataBinding} (run : metadataBindings state events = .ok bindings) :
    bindings.length ≤ events.length := by
  rw [(metadataBindings_eq run).1]
  clear run
  induction events with
  | nil => exact Nat.le_refl _
  | cons event rest ih =>
      have one : ((entryOf state event).toList.map (bindingOf event)).length ≤ 1 := by
        cases entryOf state event <;> simp
      rw [List.flatMap_cons, List.length_append, List.length_cons]
      omega

theorem BoundFrom.length_le {objects limit : Nat} {direct : List ObjectBindingEvent}
    {uids : List (Text × Nat)} {bindings : List ObjectBinding}
    (bound : BoundFrom state objects direct uids limit bindings) (within : direct.length ≤ limit) :
    bindings.length ≤ limit := by
  obtain ⟨own, outside, beyond, placed, referenced⟩ := bound
  rcases (referencedBindings_eq referenced).2 with rfl | small
  · rw [directBindings_eq placed, List.length_map]
    exact within
  · exact small

theorem AcceptedFrom.budgets {fileSize headerLength : Nat} {parsed : ParsedHeader}
    (checked : AcceptedFrom options fileSize headerLength state parsed)
    (budgets : Budgets options state) : DocumentBudgets options parsed := by
  obtain ⟨counters, limits⟩ := budgets
  have resolved := resolveStructureReferences_eq checked.structures
  have sizes : total tableSize parsed.document.tables = total tableSize state.tables :=
    Library.total_congr (resolved.map_eq tableSize fun _ _ => rfl)
  have rows : total (fun table => table.rows.length) parsed.document.tables =
      total (fun table => table.rows.length) state.tables :=
    Library.total_congr (resolved.map_eq (fun table => table.rows.length) fun _ _ => rfl)
  have cells : total cellsOf parsed.document.tables = total cellsOf state.tables :=
    Library.total_congr (resolved.map_eq cellsOf fun _ _ => rfl)
  have tableBindings : parsed.document.tableBindings.length ≤ options.maxTableBindings := by
    obtain ⟨own, outside, placed, referenced⟩ := checked.tableBindings
    rcases (referencedTables_eq referenced).2.1 with same | small
    · rw [same, directBindings_eq placed, List.length_map]
      exact limits.tableEvents
    · exact small
  have bindings := (length_metadataBindings checked.metadataBindings).trans limits.metadataEvents
  have ancillary := checked.ancillary.length_le limits.ancillaryEvents
  have iccProfiles := checked.iccProfiles.length_le limits.iccProfileEvents
  have thumbnails := checked.thumbnails.length_le limits.thumbnailEvents
  have tables := resolved.length.trans_le limits.tables
  have structures : parsed.document.tableStructures = state.tableStructures :=
    congrArg Document.tableStructures checked.document
  have extensions : parsed.document.extensionElements = state.extensionElements :=
    congrArg Document.extensionElements checked.document
  have objects : parsed.document.ancillaryObjects = state.ancillaryObjects :=
    congrArg Document.ancillaryObjects checked.document
  have metadata : parsed.document.metadata = state.metadata :=
    congrArg Document.metadata checked.document
  exact {
    images := by
      rw [show parsed.document.images = state.images from congrArg Document.images checked.document]
      exact limits.images
    metadata := by
      rw [metadata]
      exact limits.metadata
    metadataBindings := bindings
    values := by
      rw [metadata]
      exact limits.values
    extensionElements := by
      rw [extensions]
      exact limits.extensionElements
    extensionAttributes := by
      rw [extensions, ← counters.extensionAttributes]
      exact limits.extensionAttributes
    extensionBytes := by
      rw [extensions, ← counters.extensionBytes]
      exact limits.extensionBytes
    ancillaryObjects := by
      rw [objects]
      exact limits.ancillaryObjects
    ancillaryAttributes := by
      rw [objects, ← counters.ancillaryAttributes]
      exact limits.ancillaryAttributes
    ancillaryBytes := by
      rw [objects, ← counters.ancillaryBytes]
      exact limits.ancillaryBytes
    ancillaryBindings := ancillary
    iccProfiles := by
      rw [show parsed.document.iccProfiles = state.iccProfiles from
        congrArg Document.iccProfiles checked.document]
      exact limits.iccProfiles
    iccProfileBindings := iccProfiles
    thumbnails := by
      rw [show parsed.document.thumbnails = state.thumbnails from
        congrArg Document.thumbnails checked.document]
      exact limits.thumbnails
    thumbnailBindings := thumbnails
    tableStructures := by
      rw [structures]
      exact limits.tableStructures
    tables := tables
    tableBindings := tableBindings
    fields := by
      rw [structures, ← counters.fields]
      exact limits.fields
    rows := by
      rw [rows, ← counters.rows]
      exact limits.rows
    cells := by
      rw [cells, ← counters.cells]
      exact limits.cells
    tableTextBytes := by
      rw [sizes, structures, ← counters.tableTextBytes]
      exact limits.tableTextBytes
    blocks := by
      rw [show parsed.embeddedBlocks = state.embeddedBlocks from
          congrArg ParsedHeader.embeddedBlocks checked.blocks,
        show parsed.inlineMetadataBlocks = state.inlineMetadataBlocks from
          congrArg ParsedHeader.inlineMetadataBlocks checked.blocks,
        show parsed.inlineIccProfileBlocks = state.inlineIccProfileBlocks from
          congrArg ParsedHeader.inlineIccProfileBlocks checked.blocks,
        show parsed.embeddedThumbnailBlocks = state.embeddedThumbnailBlocks from
          congrArg ParsedHeader.embeddedThumbnailBlocks checked.blocks]
      exact limits.blocks }

/-- Every counter is what it counts, and everything is within its limit. -/
theorem budgetsExact (options : ReaderOptions) (platform : Platform) :
    BudgetsExact options platform where
  reachable parser := parser.holds preserved_budgets
  left parser charge member := by
    have within := (parser.holds preserved_budgets).limits.charges charge member
    exact ⟨within, by omega⟩
  accepted header := by
    obtain ⟨parser, -, checked⟩ := header.parser
    exact checked.budgets (parser.holds preserved_budgets)

end

end Mmxisf.Reader
