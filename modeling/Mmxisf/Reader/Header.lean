/-
# Reader.Header -- from the header text to a `Document`

`parse_header` of `reader.cpp`: the text goes through the XML parser in pieces,
then what only the whole document can show is checked: uids and references,
tables against their structures, bindings, unique Property identifiers, and the
attached ranges against the payload and each other.
-/
import Mmxisf.Reader.Handlers

namespace Mmxisf.Reader

set_option autoImplicit false

structure ParsedHeader where
  document : Document
  embeddedBlocks : List Bytes
  inlineMetadataBlocks : List Bytes
  inlineIccProfileBlocks : List Bytes
  embeddedThumbnailBlocks : List Bytes
  attachedRanges : List AttachedRange
  deriving DecidableEq, Repr

/-! ## Parsing -/

def kXmlChunkBytes : Nat := 1024 * 1024

/-- The pieces `XML_Parse` is called with; `fuel` bounds their number. -/
def xmlChunks : Nat → Text → List Text
  | 0, _ => []
  | fuel + 1, xml =>
      if xml = [] then [] else xml.take kXmlChunkBytes :: xmlChunks fuel (xml.drop kXmlChunkBytes)

/-- What the handlers make of the header text. -/
def parseXmlHeader (options : ReaderOptions) (platform : Platform) (xml : Text) :
    Result XmlBuilder := do
  reject ((lit "<?xml").isPrefixOf xml = false) .invalidXisf
    "XISF header must begin with an XML declaration"
  let report := platform.parseXml (xmlChunks xml.length xml)
  let state ← handleEvents options platform {} report.events
  match report.malformed with
  | some (reason, index) =>
      .error { makeError .malformedXml "" with
        message := lit "Malformed XML: " ++ reason, byteOffset := some index }
  | none => return state

/-! ## Document-wide checks -/

def checkCompleteness (state : XmlBuilder) : Result Unit := do
  reject (state.sawXmlDeclaration = false) .invalidXisf "XISF header is missing its XML declaration"
  reject (state.sawRoot = false ∨ state.rootClosed = false) .invalidXisf
    "Incomplete XISF root element"
  reject (state.metadataCount ≠ 1) .invalidXisf
    "XISF header must contain exactly one Metadata element"
  reject (state.sawCreationTime = false ∨ state.sawCreatorApplication = false) .invalidXisf
    "Metadata must define XISF:CreationTime and XISF:CreatorApplication"
  reject (state.references.all (· ∈ state.coreUids) = false) .invalidXisf
    "Reference points to an undefined core element uid"
  reject (state.referencesFromThumbnails.any
      (fun reference => (state.thumbnailUids.lookup reference).isSome) = true) .invalidXisf
    "Thumbnail cannot contain a Reference to another Thumbnail"
  reject (state.tableStructures.all
      (fun info => decide (info.fields.map TableFieldInfo.id).Nodup) = false) .invalidXisf
    "Table field identifiers must be unique"

/-! ## Tables -/

/-- One Reference to a Structure, with the tables that had one before. -/
def resolveStructureReference (standalone : List (Text × Nat))
    (carried : List TableInfo × List Nat) (event : TableStructureReferenceEvent) :
    Result (List TableInfo × List Nat) := do
  let (tables, seen) := carried
  match tables[event.tableIndex]? with
  | none => .error (makeError .internalError "Table structure reference is outside the document")
  | some table => do
      reject (event.tableIndex ∈ seen ∨ table.structureIndex.isSome = true) .invalidXisf
        "Table requires exactly one inline or referenced Structure"
      let target ← orFail (standalone.lookup event.reference) .invalidXisf
        "Table Reference must target a standalone Structure"
      return (tables.set event.tableIndex
        { table with structureIndex := some target, structureByReference := true },
        event.tableIndex :: seen)

def resolveStructureReferences (state : XmlBuilder) : Result (List TableInfo) := do
  let (tables, _) ← state.tableStructureReferences.foldlM
    (resolveStructureReference state.standaloneStructureUids) (state.tables, [])
  return tables

def checkCell (field : TableFieldInfo) (cell : TableCellInfo) : Result Unit :=
  let hasExtents := cell.length.isSome || cell.rows.isSome || cell.columns.isSome
  match classifyPropertyType field.type with
  | .scalarOrComplex =>
      reject (cell.valueForm ≠ .attribute ∨ hasExtents = true ∨
          isValidScalarOrComplexValue field.type cell.value = false) .invalidXisf
        "Scalar or complex Table Cell has an invalid value form"
  | .string => reject (hasExtents = true) .invalidXisf "String Table Cell cannot declare extents"
  | .timePoint =>
      reject (cell.valueForm ≠ .attribute ∨ hasExtents = true ∨
          isValidTimePointValue cell.value = false) .invalidXisf
        "TimePoint Table Cell has an invalid value"
  | .vector =>
      reject (cell.valueForm ≠ .dataBlock ∨ cell.length.isNone = true ∨ cell.rows.isSome = true ∨
          cell.columns.isSome = true) .invalidXisf
        "Vector Table Cell requires length and location"
  | .matrix =>
      reject (cell.valueForm ≠ .dataBlock ∨ cell.length.isSome = true ∨ cell.rows.isNone = true ∨
          cell.columns.isNone = true) .invalidXisf
        "Matrix Table Cell requires rows, columns, and location"
  -- Cells of a type not known yet keep their descriptors unchecked.
  | .unknown => .ok ()

def checkRow (fields : List TableFieldInfo) (row : TableRowInfo) : Result Unit := do
  reject (row.cells.length ≠ fields.length) .invalidXisf
    "Table Row cell count does not match its Structure field count"
  (fields.zip row.cells).forM fun (field, cell) => checkCell field cell

def checkTable (structures : List TableStructureInfo) (table : TableInfo) : Result Unit := do
  let found ← orFail (table.structureIndex.bind fun index => structures[index]?) .invalidXisf
    "Table requires exactly one inline or referenced Structure"
  reject (table.declaredRows.any (· ≠ table.rows.length) = true) .invalidXisf
    "Table rows attribute does not match its Row count"
  reject (table.declaredColumns.any (· ≠ found.fields.length) = true) .invalidXisf
    "Table columns attribute does not match its Structure field count"
  table.rows.forM (checkRow found.fields)

/-! ## Bindings -/

/-- The binding of one event; none for a reference to another kind of element. -/
def metadataBinding (state : XmlBuilder) (event : MetadataBindingEvent) :
    Result (Option MetadataBinding) := do
  reject (event.byReference = true ∧ (state.tableStructureUids.lookup event.reference).isSome)
    .invalidXisf "Structure References can only be direct children of Table"
  match event.metadataIndex.or (state.metadataUids.lookup event.reference) with
  | none => return none
  | some index =>
      match state.metadata[index]? with
      | none => .error (makeError .internalError "Metadata binding index is outside the document")
      | some entry => do
          reject (event.scope = .xisfUnit ∧ entry.kind = .fitsKeyword) .invalidXisf
            "FITSKeyword references can only associate keywords with images"
          return some ⟨index, event.scope, event.imageIndex, event.byReference⟩

def metadataBindings (state : XmlBuilder) : List MetadataBindingEvent →
    Result (List MetadataBinding)
  | [] => .ok []
  | event :: rest => do
      let binding ← metadataBinding state event
      let bindings ← metadataBindings state rest
      return binding.toList ++ bindings

/-- The bindings of objects that are children of their image. -/
def directBindings (objects images : Nat) (message : String) :
    List ObjectBindingEvent → Result (List ObjectBinding)
  | [] => .ok []
  | event :: rest => do
      reject (event.objectIndex ≥ objects ∨ event.imageIndex ≥ images) .internalError message
      let bindings ← directBindings objects images message rest
      return ⟨event.objectIndex, event.imageIndex, false⟩ :: bindings

/-- The bindings References make to objects with a uid, within `limit`. -/
def referencedBindings (uids : List (Text × Nat)) (limit : Nat) (message : String) :
    List MetadataBindingEvent → List ObjectBinding → Result (List ObjectBinding)
  | [], bindings => .ok bindings
  | event :: rest, bindings =>
      match event.byReference, event.scope, event.imageIndex, uids.lookup event.reference with
      | true, .image, some image, some target => do
          reject (bindings.length ≥ limit) .resourceLimit message
          referencedBindings uids limit message rest (bindings ++ [⟨target, image, true⟩])
      | _, _, _, _ => referencedBindings uids limit message rest bindings

/-- As `referencedBindings`, but a Reference to a Table from outside an image is
an error. -/
def referencedTables (uids : List (Text × Nat)) (limit : Nat) :
    List MetadataBindingEvent → List ObjectBinding → Result (List ObjectBinding)
  | [], bindings => .ok bindings
  | event :: rest, bindings =>
      match event.byReference, uids.lookup event.reference with
      | true, some target =>
          match event.scope, event.imageIndex with
          | .image, some image => do
              reject (bindings.length ≥ limit) .resourceLimit "Table binding limit exceeded"
              referencedTables uids limit rest (bindings ++ [⟨target, image, true⟩])
          | _, _ => .error (makeError .invalidXisf
              "Table References can only associate Tables with Images")
      | _, _ => referencedTables uids limit rest bindings

/-- Every Property identifier, with the association it must be unique in: the
unit, or an image. -/
def associatedIdentifiers (state : XmlBuilder) (bindings : List MetadataBinding) :
    List (Option Nat × Text) :=
  bindings.filterMap fun binding =>
    (state.metadata[binding.metadataIndex]?).bind fun entry =>
      if entry.kind ≠ .property then none
      else if binding.scope = .xisfUnit then some (none, entry.name)
      else binding.imageIndex.map fun image => (some image, entry.name)

/-- An image-scoped Property binding names one of the images. -/
def bindsAnImage (state : XmlBuilder) (binding : MetadataBinding) : Bool :=
  match state.metadata[binding.metadataIndex]? with
  | none => true
  | some entry =>
      entry.kind ≠ .property || binding.scope = .xisfUnit ||
        binding.imageIndex.any (· < state.images.length)

/-- The set of identifiers seen grows; a repeated one is refused, and so is a
binding to an image that is not there. -/
def checkIdentifiers (state : XmlBuilder) :
    List MetadataBinding → List (Option Nat × Text) → Result (List (Option Nat × Text))
  | [], seen => .ok seen
  | binding :: rest, seen => do
      reject (bindsAnImage state binding = false) .internalError
        "Image metadata binding has no valid image index"
      let inserted := associatedIdentifiers state [binding]
      reject (inserted.any (· ∈ seen) = true) .invalidXisf
        "Property identifiers must be unique within each association"
      checkIdentifiers state rest (seen ++ inserted)

def checkTableIdentifiers (tables : List TableInfo) (images : Nat) :
    List ObjectBinding → List (Option Nat × Text) → Result Unit
  | [], _ => .ok ()
  | binding :: rest, seen =>
      match tables[binding.objectIndex]? with
      | none => .error (makeError .invalidXisf
          "Property identifiers must be unique within each association")
      | some table => do
          let identifier := (some binding.imageIndex, table.id)
          reject (binding.imageIndex ≥ images ∨ identifier ∈ seen) .invalidXisf
            "Property identifiers must be unique within each association"
          checkTableIdentifiers tables images rest (seen ++ [identifier])

/-! ## Attached ranges -/

/-- In order of their offsets, the ranges lie in the payload and do not overlap;
`previousEnd` is where the last one ended. -/
def checkRanges (headerEnd fileSize : Nat) : Nat → List AttachedRange → Result Unit
  | _, [] => .ok ()
  | previousEnd, range :: rest => do
      reject (range.size = 0 ∨ range.offset < headerEnd ∨ range.offset > fileSize ∨
          range.size > fileSize - range.offset) .invalidBlock
        "Attachment range is outside the file payload"
      reject (range.offset < previousEnd) .invalidBlock "Attached data blocks overlap"
      checkRanges headerEnd fileSize (wrapAdd range.offset range.size) rest

/-- `std::sort` by offset: two ranges that start together are refused in either
order. -/
def sortRanges (ranges : List AttachedRange) : List AttachedRange :=
  ranges.mergeSort fun left right => left.offset ≤ right.offset

/-! ## The document -/

def parseHeader (platform : Platform) (xml : Text) (options : ReaderOptions)
    (fileSize headerLength : Nat) : Result ParsedHeader := do
  let state ← parseXmlHeader options platform xml
  checkCompleteness state
  let tables ← resolveStructureReferences state
  tables.forM (checkTable state.tableStructures)
  let metadataBindings ← metadataBindings state state.metadataBindingEvents
  let direct (objects : Nat) := directBindings objects state.images.length
  let ancillary ← direct state.ancillaryObjects.length
    "Ancillary binding is outside the document" state.ancillaryBindingEvents
  let ancillary ← referencedBindings state.ancillaryUids options.maxAncillaryBindings
    "Ancillary binding limit exceeded" state.metadataBindingEvents ancillary
  let profiles ← direct state.iccProfiles.length
    "ICC profile binding is outside the document" state.iccProfileBindingEvents
  let profiles ← referencedBindings state.iccProfileUids options.maxIccProfileBindings
    "ICC profile binding limit exceeded" state.metadataBindingEvents profiles
  let thumbnails ← direct state.thumbnails.length
    "Thumbnail binding is outside the document" state.thumbnailBindingEvents
  let thumbnails ← referencedBindings state.thumbnailUids options.maxThumbnailBindings
    "Thumbnail binding limit exceeded" state.metadataBindingEvents thumbnails
  let tableBindings ← direct tables.length
    "Table binding is outside the document" state.tableBindingEvents
  let tableBindings ← referencedTables state.tableUids options.maxTableBindings
    state.metadataBindingEvents tableBindings
  let identifiers ← checkIdentifiers state metadataBindings []
  checkTableIdentifiers tables state.images.length tableBindings identifiers
  let headerEnd := 16 + headerLength
  let ranges := sortRanges state.attachedRanges
  checkRanges headerEnd fileSize headerEnd ranges
  return {
    document := {
      version := state.version
      images := state.images
      metadata := state.metadata
      fileSize := fileSize
      headerLength := headerLength
      metadataBindings := metadataBindings
      extensionElements := state.extensionElements
      ancillaryObjects := state.ancillaryObjects
      ancillaryBindings := ancillary
      iccProfiles := state.iccProfiles
      iccProfileBindings := profiles
      thumbnails := state.thumbnails
      thumbnailBindings := thumbnails
      tableStructures := state.tableStructures
      tables := tables
      tableBindings := tableBindings }
    embeddedBlocks := state.embeddedBlocks
    inlineMetadataBlocks := state.inlineMetadataBlocks
    inlineIccProfileBlocks := state.inlineIccProfileBlocks
    embeddedThumbnailBlocks := state.embeddedThumbnailBlocks
    attachedRanges := ranges }

end Mmxisf.Reader
