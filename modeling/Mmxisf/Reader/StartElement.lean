/-
# Reader.StartElement -- opening an element

`start_element` of `reader.cpp`, one definition per element it knows.  The
common part (limits, extension inventory, stacks, attachment inventory, uid and
Reference) runs first for every element; `openElement` is the dispatch on the
name.
-/
import Mmxisf.Reader.XmlBuilder

namespace Mmxisf.Reader

set_option autoImplicit false

/-- What the handler computes from its arguments before it does anything. -/
structure ElementContext where
  name : Text
  namespaceUri : Text
  parent : Text
  attributes : List (Text × Text)

namespace ElementContext

def isXisf (element : ElementContext) : Bool := element.namespaceUri = kXisfNamespace

def attr (element : ElementContext) (wanted : String) : Option Text :=
  attributeValue element.attributes (lit wanted)

/-- `attribute(...).value_or("")`. -/
def attributeOr (element : ElementContext) (wanted : String) (fallback : String := "") : Text :=
  (element.attr wanted).getD (lit fallback)

end ElementContext

section

variable (options : ReaderOptions) (platform : Platform)

def copyAttributes (attributes : List (Text × Text)) : List XmlAttribute :=
  attributes.map fun entry => ⟨namespaceName entry.1, localName entry.1, entry.2⟩

/-- The bytes that copying attributes takes. -/
def attributeBytes (attributes : List (Text × Text)) : Nat :=
  (attributes.map fun entry =>
    (namespaceName entry.1).length + (localName entry.1).length + entry.2.length).sum

/-- The extension inventory: an element outside the XISF namespace, below the
root. -/
def recordExtension (state : XmlBuilder) (element : ElementContext) :
    Result (XmlBuilder × Option Nat) :=
  if state.depth > 1 ∧ element.isXisf = false then do
    reject (state.depth ≠ 2 ∨ element.parent ≠ lit "xisf") .invalidXisf
      "Extension elements must be direct children of xisf" element.name
    reject (state.extensionElements.length ≥ options.maxExtensionElements) .resourceLimit
      "Extension element count limit exceeded" element.name
    reject (element.attributes.length > options.maxExtensionAttributes -
        min state.extensionAttributeCount options.maxExtensionAttributes) .resourceLimit
      "Extension attribute count limit exceeded" element.name
    let parentName := state.qualifiedElementStack.headD ⟨[], []⟩
    let copiedBytes := element.namespaceUri.length + element.name.length +
      parentName.namespaceUri.length + parentName.name.length + attributeBytes element.attributes
    reject (copiedBytes > u64Max) .resourceLimit "Extension inventory byte count overflow"
      element.name
    let state ← consumeExtensionBytes options state copiedBytes element.name
    let extension : ExtensionElement :=
      { namespaceUri := element.namespaceUri
        name := element.name
        parentNamespaceUri := parentName.namespaceUri
        parentName := parentName.name
        parentExtensionIndex := state.extensionStack.headD none
        imageIndex := state.currentImage
        attributes := copyAttributes element.attributes
        text := [] }
    return ({ state with
      extensionAttributeCount := state.extensionAttributeCount + element.attributes.length
      extensionElements := state.extensionElements ++ [extension] },
      some state.extensionElements.length)
  else .ok (state, none)

/-- The attachment inventory: every element with an attached location. -/
def recordAttachedRange (state : XmlBuilder) (element : ElementContext) : Result XmlBuilder :=
  match element.attr "location" with
  | none => .ok state
  | some location =>
      if attachmentPrefix.isPrefixOf location = false then .ok state
      else
        let block := parseLocation location
        if block.kind = .attachment then
          .ok { state with attachedRanges := state.attachedRanges ++ [⟨block.offset, block.size⟩] }
        else if element.isXisf then
          fail .invalidXisf (lit "Invalid attached data block location") element.name
            (lit "location")
        else .ok state

def startRoot (state : XmlBuilder) (element : ElementContext) : Result XmlBuilder := do
  reject (state.sawRoot = true ∨ element.name ≠ lit "xisf" ∨ element.isXisf = false) .invalidXisf
    "The XML root must be xisf in the XISF namespace" element.name
  reject (element.attr "version" ≠ some (lit "1.0")) .invalidXisf
    "Only XISF version 1.0 is accepted" element.name (lit "version")
  return { state with sawRoot := true, version := lit "1.0" }

/-- A Reference inside a Table names its Structure. -/
def recordTableReference (state : XmlBuilder) (element : ElementContext) (reference : Text) :
    Result XmlBuilder :=
  if element.parent = lit "Table" then do
    let tableIndex ← orFail state.openTableIndex .invalidXisf "Reference has no open Table parent"
      element.name
    reject (state.tableStructureReferences.length ≥ options.maxTables) .resourceLimit
      "Table structure reference limit exceeded" element.name
    return { state with tableStructureReferences :=
      state.tableStructureReferences ++ [⟨tableIndex, reference⟩] }
  else .ok state

/-- A Reference inside an Image or Metadata binds what it names. -/
def recordReferenceBinding (state : XmlBuilder) (element : ElementContext) (reference : Text) :
    Result XmlBuilder :=
  if (element.parent = lit "Image" ∧ state.currentImage.isSome = true) ∨
      element.parent = lit "Metadata" then do
    reject (state.metadataBindingEvents.length ≥ options.maxMetadataEntries) .resourceLimit
      "Metadata binding limit exceeded" element.name
    return { state with metadataBindingEvents := state.metadataBindingEvents ++
      [{ metadataIndex := none
         reference := reference
         scope := if element.parent = lit "Image" then .image else .xisfUnit
         imageIndex := state.currentImage
         byReference := true }] }
  else .ok state

/-- A Reference, wherever it stands. -/
def recordReference (state : XmlBuilder) (element : ElementContext) : Result XmlBuilder := do
  let uid := element.attr "uid"
  let reference := element.attributeOr "ref"
  reject (uid.isSome = true ∨ (element.attr "ref").isNone = true ∨
      isValidUniqueId reference = false) .invalidXisf
    "Reference requires a valid ref and cannot define uid" element.name
    (if uid.isSome then lit "uid" else lit "ref")
  let state := { state with
    references := state.references ++ [reference]
    referencesFromThumbnails :=
      if element.parent = lit "Thumbnail" then state.referencesFromThumbnails ++ [reference]
      else state.referencesFromThumbnails }
  let state ← recordTableReference options state element reference
  recordReferenceBinding options state element reference

/-- The uid of a core element, and References. -/
def recordIdentity (state : XmlBuilder) (element : ElementContext) : Result XmlBuilder :=
  if element.isXisf ∧ isCoreElement element.name then
    if element.name = lit "Reference" then recordReference options state element
    else
      match element.attr "uid" with
      | none => .ok state
      | some uid => do
          reject (isValidUniqueId uid = false) .invalidXisf "Core element uid has invalid syntax"
            element.name (lit "uid")
          reject (uid ∈ state.coreUids) .invalidXisf
            "Core element uid must be unique in the XISF unit" element.name (lit "uid")
          return { state with coreUids := state.coreUids ++ [uid] }
  else .ok state

def isRootChild (state : XmlBuilder) (element : ElementContext) : Bool :=
  state.depth = 2 && element.parent = lit "xisf"

def isImageChild (state : XmlBuilder) (element : ElementContext) : Bool :=
  state.depth = 3 && element.parent = lit "Image" && state.currentImage.isSome

/-- `parse_extent` and `parse_declared_extent`: an optional unsigned attribute. -/
def parseExtent (element : ElementContext) (wanted : String) (message : String) :
    Result (Option Nat) :=
  match element.attr wanted with
  | none => .ok none
  | some text =>
      match parseUnsigned text with
      | some value => .ok (some value)
      | none => fail .invalidXisf (lit message) element.name (lit wanted)

/-- The direct binding of an object inside an Image. -/
def bindToImage (limit : Nat) (message : String) (events : List ObjectBindingEvent)
    (objectIndex : Nat) (imageIndex : Option Nat) (element : ElementContext) :
    Result (List ObjectBindingEvent) :=
  match imageIndex with
  | none => .ok events
  | some image => do
      reject (events.length ≥ limit) .resourceLimit message element.name
      return events ++ [⟨objectIndex, image⟩]

/-- `if (!uid.empty()) uids.emplace(uid, index)` -/
def emplaceUid (map : List (Text × Nat)) (uid : Text) (index : Nat) : List (Text × Nat) :=
  if uid = [] then map else emplace map uid index

/-! ## Tables -/

def startTable (state : XmlBuilder) (element : ElementContext) : Result XmlBuilder := do
  reject (isRootChild state element = false ∧ isImageChild state element = false) .invalidXisf
    "Table must be a direct child of xisf or Image" element.name
  reject (state.tables.length ≥ options.maxTables) .resourceLimit "Table count limit exceeded"
    element.name
  let identity := element.attributeOr "id"
  reject ((element.attr "id").isNone = true ∨ isValidPropertyIdentifier identity = false)
    .invalidXisf "Table requires a valid property identifier" element.name (lit "id")
  let declaredRows ← parseExtent element "rows" "Table extent must be an unsigned integer"
  let declaredColumns ← parseExtent element "columns" "Table extent must be an unsigned integer"
  let table : TableInfo :=
    { uid := element.attributeOr "uid"
      imageIndex := state.currentImage
      id := identity
      caption := element.attributeOr "caption"
      comment := element.attributeOr "comment"
      declaredRows := declaredRows
      declaredColumns := declaredColumns
      structureIndex := none
      structureByReference := false
      rows := [] }
  let state ← consumeTableTextBytes options state
    (table.uid.length + table.id.length + table.caption.length + table.comment.length) element.name
  let events ← bindToImage options.maxTableBindings "Table binding limit exceeded"
    state.tableBindingEvents state.tables.length state.currentImage element
  return { state with
    tables := state.tables ++ [table]
    openTableIndex := some state.tables.length
    tableUids := emplaceUid state.tableUids table.uid state.tables.length
    tableBindingEvents := events }

def startStructure (state : XmlBuilder) (element : ElementContext) : Result XmlBuilder := do
  let rootChild := isRootChild state element
  let tableChild := state.depth ≥ 3 && element.parent = lit "Table" && state.openTableIndex.isSome
  reject (rootChild = false ∧ tableChild = false) .invalidXisf
    "Structure must be a direct child of xisf or Table" element.name
  reject (state.tableStructures.length ≥ options.maxTableStructures) .resourceLimit
    "Table Structure count limit exceeded" element.name
  let uid := element.attr "uid"
  reject (rootChild = true ∧ uid.isNone = true) .invalidXisf
    "Standalone Structure requires a uid" element.name (lit "uid")
  let openTable := state.openTableIndex.getD 0
  reject (tableChild = true ∧
      ((state.tables[openTable]?).bind TableInfo.structureIndex).isSome = true) .invalidXisf
    "Table cannot contain more than one Structure" element.name
  let tableStructure : TableStructureInfo :=
    { uid := uid.getD []
      tableIndex := if tableChild then state.openTableIndex else none
      fields := [] }
  let state ← consumeTableTextBytes options state tableStructure.uid.length element.name
  let index := state.tableStructures.length
  let state := { state with
    tableStructures := state.tableStructures ++ [tableStructure]
    openStructureIndex := some index
    tableStructureUids := emplaceUid state.tableStructureUids tableStructure.uid index }
  if rootChild then
    return { state with
      standaloneStructureUids := emplace state.standaloneStructureUids tableStructure.uid index }
  else
    return { state with
      tables := state.tables.modify openTable fun table =>
        { table with structureIndex := some index } }

def startField (state : XmlBuilder) (element : ElementContext) : Result XmlBuilder := do
  reject (element.parent ≠ lit "Structure" ∨ state.openStructureIndex.isNone = true) .invalidXisf
    "Field must be a direct child of Structure" element.name
  reject (state.tableFieldCount ≥ options.maxTableFields) .resourceLimit
    "Table field limit exceeded" element.name
  let identity := element.attributeOr "id"
  let type := element.attributeOr "type"
  reject ((element.attr "id").isNone = true ∨ isValidPropertyIdentifier identity = false ∨
      type = [] ∨ type = lit "Table") .invalidXisf
    "Field requires a valid id and non-Table property type" element.name
  let field : TableFieldInfo :=
    ⟨identity, type, element.attributeOr "format", element.attributeOr "header"⟩
  let state ← consumeTableTextBytes options state
    (field.id.length + field.type.length + field.format.length + field.header.length) element.name
  return { state with
    tableStructures := state.tableStructures.modify (state.openStructureIndex.getD 0)
      fun tableStructure => { tableStructure with fields := tableStructure.fields ++ [field] }
    tableFieldCount := state.tableFieldCount + 1 }

def startRow (state : XmlBuilder) (element : ElementContext) : Result XmlBuilder := do
  reject (element.parent ≠ lit "Table" ∨ state.openTableIndex.isNone = true ∨
      state.openTableRowIndex.isSome = true) .invalidXisf
    "Row must be a direct child of Table" element.name
  reject (state.tableRowCount ≥ options.maxTableRows) .resourceLimit "Table row limit exceeded"
    element.name
  let openTable := state.openTableIndex.getD 0
  let rowCount := ((state.tables[openTable]?).map fun table => table.rows.length).getD 0
  return { state with
    tables := state.tables.modify openTable fun table => { table with rows := table.rows ++ [⟨[]⟩] }
    openTableRowIndex := some rowCount
    tableRowCount := state.tableRowCount + 1 }

/-- The four data-block attributes, of which a value without a location can
have none. -/
def hasBlockAttributes (element : ElementContext) : Bool :=
  (element.attr "byteOrder").isSome || (element.attr "compression").isSome ||
    (element.attr "subblocks").isSome || (element.attr "checksum").isSome

def isInlineEncoding (block : BlockLocation) : Bool :=
  block.raw = lit "inline:base64" || block.raw = lit "inline:hex"

def modifyRows (table : TableInfo) (row : Nat) (change : TableRowInfo → TableRowInfo) : TableInfo :=
  { table with rows := table.rows.modify row change }

/-- The location of a Cell and its value form. -/
def cellBlock (element : ElementContext) : Result (BlockLocation × ValueForm) :=
  match element.attr "location" with
  | none =>
      .ok (.empty, if (element.attr "value").isNone then .characterData else .attribute)
  | some location => do
      let block := parseLocation location
      reject (block.kind = .unknown ∨ block.kind = .embedded) .invalidXisf
        "Cell has an invalid data block location" element.name (lit "location")
      reject (block.kind = .inlineData ∧ isInlineEncoding block = false) .unsupportedFeature
        "Unsupported inline Cell block encoding" element.name (lit "location")
      return (block, .dataBlock)

def startCell (state : XmlBuilder) (element : ElementContext) : Result XmlBuilder := do
  reject (element.parent ≠ lit "Row" ∨ state.openTableIndex.isNone = true ∨
      state.openTableRowIndex.isNone = true ∨ state.openTableCellIndex.isSome = true) .invalidXisf
    "Cell must be a direct child of Row" element.name
  reject (state.tableCellCount ≥ options.maxTableCells) .resourceLimit "Table cell limit exceeded"
    element.name
  reject ((element.attr "id").isSome = true ∨ (element.attr "type").isSome = true ∨
      (element.attr "format").isSome = true) .invalidXisf
    "Cell cannot declare id, type, or format" element.name
  let value := element.attr "value"
  let location := element.attr "location"
  reject (value.isSome = true ∧ location.isSome = true) .invalidXisf
    "Cell cannot declare both value and location" element.name
  reject (location.isNone = true ∧ hasBlockAttributes element = true) .invalidXisf
    "Cell data-block attributes require a location" element.name
  let state ← consumeTableTextBytes options state (value.getD []).length element.name
  let (block, valueForm) ← cellBlock element
  let byteOrder := element.attributeOr "byteOrder" "little"
  reject (byteOrder ≠ lit "little" ∧ byteOrder ≠ lit "big") .invalidXisf
    "Cell has an invalid byteOrder" element.name (lit "byteOrder")
  let compression := element.attributeOr "compression"
  let subblocks := element.attributeOr "subblocks"
  let checksum := element.attributeOr "checksum"
  let state ← consumeTableTextBytes options state block.raw.length element.name
  let state ← consumeTableTextBytes options state compression.length element.name
  let state ← consumeTableTextBytes options state subblocks.length element.name
  let state ← consumeTableTextBytes options state checksum.length element.name
  let length ← parseExtent element "length" "Cell extent must be an unsigned integer"
  let rows ← parseExtent element "rows" "Cell extent must be an unsigned integer"
  let columns ← parseExtent element "columns" "Cell extent must be an unsigned integer"
  let cell : TableCellInfo :=
    { valueForm := valueForm
      value := value.getD []
      block := block
      byteOrder := if byteOrder = lit "big" then .big else .little
      compression := compression
      subblocks := subblocks
      checksum := checksum
      length := length
      rows := rows
      columns := columns }
  let openTable := state.openTableIndex.getD 0
  let openRow := state.openTableRowIndex.getD 0
  let cellCount := (((state.tables[openTable]?).bind fun table => table.rows[openRow]?).map
    fun row => row.cells.length).getD 0
  return { state with
    tables := state.tables.modify openTable fun table =>
      modifyRows table openRow fun row => ⟨row.cells ++ [cell]⟩
    openTableCellIndex := some cellCount
    tableCellCount := state.tableCellCount + 1 }

/-! ## ICC profiles and ancillary metadata -/

/-- A fresh Base64 or hexadecimal decoder. -/
def beginEncoding (state : XmlBuilder) (base64 : Bool) : XmlBuilder :=
  { state with
    embeddedEncoding := if base64 then .base64 else .hex
    base64Quartet := []
    base64Complete := false
    hexHighNibble := none
    encodedBlockBytes := 0 }

def startIccProfile (state : XmlBuilder) (element : ElementContext) : Result XmlBuilder := do
  reject (isRootChild state element = false ∧ isImageChild state element = false) .invalidXisf
    "ICCProfile must be a direct child of xisf or Image" element.name
  reject (state.iccProfiles.length ≥ options.maxIccProfiles) .resourceLimit
    "ICC profile count limit exceeded" element.name
  let location ← orFail (element.attr "location") .invalidXisf
    "ICCProfile requires a data block location" element.name (lit "location")
  reject ((element.attr "byteOrder").isSome = true) .invalidXisf
    "ICCProfile cannot declare byteOrder" element.name (lit "byteOrder")
  let block := parseLocation location
  reject (block.kind = .unknown ∨ block.kind = .embedded) .invalidXisf
    "ICCProfile has an invalid data block location" element.name (lit "location")
  reject (block.kind = .inlineData ∧ isInlineEncoding block = false) .unsupportedFeature
    "Unsupported inline ICCProfile block encoding" element.name (lit "location")
  let profile : IccProfileInfo :=
    { uid := element.attributeOr "uid"
      imageIndex := state.currentImage
      block := block
      compression := element.attributeOr "compression"
      subblocks := element.attributeOr "subblocks"
      checksum := element.attributeOr "checksum" }
  let index := state.iccProfiles.length
  let events ← bindToImage options.maxIccProfileBindings "ICC profile binding limit exceeded"
    state.iccProfileBindingEvents index state.currentImage element
  let state := { state with
    iccProfiles := state.iccProfiles ++ [profile]
    inlineIccProfileBlocks := state.inlineIccProfileBlocks ++ [[]]
    iccProfileUids := emplaceUid state.iccProfileUids profile.uid index
    iccProfileBindingEvents := events }
  if block.kind = .inlineData then
    return beginEncoding { state with inlineIccProfileIndex := some index }
      (block.raw = lit "inline:base64")
  else return state

/-- `require` of the ancillary branch. -/
def requireAncillary (element : ElementContext) (wanted : String) : Result Text :=
  orFail (element.attr wanted) .invalidXisf
    "Ancillary metadata is missing a required attribute" element.name (lit wanted)

def isUnitInterval (d : Double) : Bool := !d.less 0 && !Double.one.less d

def isPositive (d : Double) : Bool := Double.less 0 d

def isNormalizedTriple (text : Text) : Bool :=
  match parseFiniteTuple platform 3 text with
  | some values => values.all isUnitInterval
  | none => false

def checkRgbWorkingSpace (element : ElementContext) : Result Unit := do
  let gamma ← requireAncillary element "gamma"
  let x ← requireAncillary element "x"
  let y ← requireAncillary element "y"
  let luminance ← requireAncillary element "Y"
  reject (asciiCaseEqual gamma (lit "sRGB") = false ∧
      (parseFiniteDouble platform gamma).any isPositive = false) .invalidXisf
    "RGBWorkingSpace gamma must be sRGB or a positive finite number" element.name (lit "gamma")
  reject (isNormalizedTriple platform x = false ∨ isNormalizedTriple platform y = false ∨
      isNormalizedTriple platform luminance = false) .invalidXisf
    "RGBWorkingSpace x, y, and Y must be finite normalized three-component vectors" element.name

def checkDisplayVector (element : ElementContext) (wanted : String) : Result Unit := do
  let value ← requireAncillary element wanted
  reject ((parseFiniteTuple platform 4 value).isNone = true) .invalidXisf
    "DisplayFunction parameters must be finite four-component vectors" element.name (lit wanted)

def checkDisplayFunction (element : ElementContext) : Result Unit := do
  checkDisplayVector platform element "m"
  checkDisplayVector platform element "s"
  checkDisplayVector platform element "h"
  checkDisplayVector platform element "l"
  checkDisplayVector platform element "r"

def checkColorFilterArray (element : ElementContext) : Result Unit := do
  let pattern ← requireAncillary element "pattern"
  let width ← requireAncillary element "width"
  let height ← requireAncillary element "height"
  let elementCount := match parseUnsigned width, parseUnsigned height with
    | some w, some h => if w = 0 ∨ h = 0 then none else checkedMultiply w h
    | _, _ => none
  reject (elementCount ≠ some pattern.length ∨
      pattern.all (fun c => (lit "0RGBWCMY").contains c) = false) .invalidXisf
    "ColorFilterArray requires a valid width by height pattern" element.name

def checkResolution (element : ElementContext) : Result Unit := do
  let horizontal ← requireAncillary element "horizontal"
  let vertical ← requireAncillary element "vertical"
  let unit := element.attributeOr "unit" "inch"
  reject ((parseFiniteDouble platform horizontal).any isPositive = false ∨
      (parseFiniteDouble platform vertical).any isPositive = false ∨
      (unit ≠ lit "inch" ∧ unit ≠ lit "cm")) .invalidXisf
    "Resolution values must be positive and unit must be inch or cm" element.name

def checkAncillary (kind : AncillaryKind) (element : ElementContext) : Result Unit :=
  match kind with
  | .rgbWorkingSpace => checkRgbWorkingSpace platform element
  | .displayFunction => checkDisplayFunction platform element
  | .colorFilterArray => checkColorFilterArray element
  | .resolution => checkResolution platform element

def startAncillary (state : XmlBuilder) (kind : AncillaryKind) (element : ElementContext) :
    Result XmlBuilder := do
  reject (isRootChild state element = false ∧ isImageChild state element = false) .invalidXisf
    "Ancillary metadata must be a direct child of xisf or Image" element.name
  reject (state.ancillaryObjects.length ≥ options.maxAncillaryObjects) .resourceLimit
    "Ancillary metadata object limit exceeded" element.name
  reject (element.attributes.length > options.maxAncillaryAttributes -
      min state.ancillaryAttributeCount options.maxAncillaryAttributes) .resourceLimit
    "Ancillary metadata attribute limit exceeded" element.name
  checkAncillary platform kind element
  let uid := element.attributeOr "uid"
  let copiedBytes := uid.length + attributeBytes element.attributes
  reject (copiedBytes > u64Max) .resourceLimit "Ancillary metadata byte count overflow" element.name
  let state ← consumeAncillaryBytes options state copiedBytes element.name
  let object : AncillaryObject := ⟨kind, uid, state.currentImage, copyAttributes element.attributes⟩
  let index := state.ancillaryObjects.length
  let events ← bindToImage options.maxAncillaryBindings "Ancillary binding limit exceeded"
    state.ancillaryBindingEvents index state.currentImage element
  return { state with
    ancillaryAttributeCount := state.ancillaryAttributeCount + element.attributes.length
    ancillaryObjects := state.ancillaryObjects ++ [object]
    ancillaryUids := emplaceUid state.ancillaryUids uid index
    ancillaryBindingEvents := events }

/-! ## Images and thumbnails -/

def orientationOf (text : Text) : Option ImageOrientation :=
  if text = lit "0" then some .identity
  else if text = lit "flip" then some .flip
  else if text = lit "90" then some .rotate90
  else if text = lit "90;flip" then some .rotate90Flip
  else if text = lit "-90" then some .rotateMinus90
  else if text = lit "-90;flip" then some .rotateMinus90Flip
  else if text = lit "180" then some .rotate180
  else if text = lit "180;flip" then some .rotate180Flip
  else none

def parseOrientation (element : ElementContext) (message : String) :
    Result (Option ImageOrientation) :=
  match element.attr "orientation" with
  | none => .ok none
  | some text =>
      match orientationOf text with
      | some orientation => .ok (some orientation)
      | none => fail .invalidXisf (lit message) element.name (lit "orientation")

def parsePixelStorage (element : ElementContext) (message : String) : Result PixelStorage := do
  let storage := element.attributeOr "pixelStorage" "Planar"
  reject (storage ≠ lit "Planar" ∧ storage ≠ lit "Normal") .invalidXisf message element.name
    (lit "pixelStorage")
  return if storage = lit "Normal" then .normal else .planar

def parseByteOrder (element : ElementContext) (message : String) : Result ByteOrder := do
  let order := element.attributeOr "byteOrder" "little"
  reject (order ≠ lit "little" ∧ order ≠ lit "big") .invalidXisf message element.name
    (lit "byteOrder")
  return if order = lit "big" then .big else .little

/-- A Thumbnail's `colorSpace` with its channel count. -/
def thumbnailChannelsFit (colorSpace : Text) (channels : Nat) : Bool :=
  (colorSpace = lit "Gray" && (channels = 1 || channels = 2)) ||
    (colorSpace = lit "RGB" && (channels = 3 || channels = 4))

def thumbnailGeometry (options : ReaderOptions) (element : ElementContext) (geometry : Text) :
    Result (Nat × Nat × Nat) :=
  match parseGeometry geometry with
  | .ok [width, height, channels] => do
      reject (width > options.maxThumbnailDimension ∨ height > options.maxThumbnailDimension)
        .resourceLimit "Thumbnail dimensions exceed the configured limit" element.name
        (lit "geometry")
      return (width, height, channels)
  | _ => fail .invalidXisf (lit "Thumbnail must have two dimensions and channels") element.name
      (lit "geometry")

def startThumbnail (state : XmlBuilder) (element : ElementContext) : Result XmlBuilder := do
  reject (isRootChild state element = false ∧ isImageChild state element = false) .invalidXisf
    "Thumbnail must be a direct child of xisf or Image" element.name
  reject (state.thumbnails.length ≥ options.maxThumbnails) .resourceLimit
    "Thumbnail count limit exceeded" element.name
  let geometry ← orFail (element.attr "geometry") .invalidXisf
    "Thumbnail is missing a required attribute" element.name
  let sampleFormat ← orFail (element.attr "sampleFormat") .invalidXisf
    "Thumbnail is missing a required attribute" element.name
  let location ← orFail (element.attr "location") .invalidXisf
    "Thumbnail is missing a required attribute" element.name
  reject ((element.attr "bounds").isSome = true) .invalidXisf
    "Thumbnail cannot declare bounds" element.name (lit "bounds")
  let (width, height, channels) ← thumbnailGeometry options element geometry
  reject (sampleFormat ≠ lit "UInt8" ∧ sampleFormat ≠ lit "UInt16") .invalidXisf
    "Thumbnail sampleFormat must be UInt8 or UInt16" element.name (lit "sampleFormat")
  let colorSpace := element.attributeOr "colorSpace" "Gray"
  reject (thumbnailChannelsFit colorSpace channels = false) .invalidXisf
    "Thumbnail colorSpace and channel count are incompatible" element.name (lit "geometry")
  let orientation ← parseOrientation element "Invalid Thumbnail orientation value"
  let pixelStorage ← parsePixelStorage element "Invalid Thumbnail pixelStorage value"
  let byteOrder ← parseByteOrder element "Invalid Thumbnail byteOrder value"
  let block := parseLocation location
  reject (block.kind = .inlineData ∨ block.kind = .unknown) .invalidXisf
    "Thumbnail has an invalid data block location" element.name (lit "location")
  let image : ImageInfo :=
    { id := element.attributeOr "id"
      geometry := [width, height, channels]
      sampleFormat := if sampleFormat = lit "UInt8" then .uint8 else .uint16
      sampleFormatName := sampleFormat
      colorSpace := colorSpace
      orientation := orientation
      nominalChannelOrder :=
        if colorSpace = lit "RGB" then .redGreenBlueThenAlpha else .grayThenAlpha
      lowerBound := none
      upperBound := none
      pixelStorage := pixelStorage
      byteOrder := byteOrder
      block := block
      compression := element.attributeOr "compression"
      subblocks := element.attributeOr "subblocks"
      checksum := element.attributeOr "checksum" }
  let uid := element.attributeOr "uid"
  let index := state.thumbnails.length
  let events ← bindToImage options.maxThumbnailBindings "Thumbnail binding limit exceeded"
    state.thumbnailBindingEvents index state.currentImage element
  return { state with
    thumbnails := state.thumbnails ++ [⟨uid, state.currentImage, image⟩]
    embeddedThumbnailBlocks := state.embeddedThumbnailBlocks ++ [[]]
    embeddedThumbnailDataSeen := state.embeddedThumbnailDataSeen ++ [false]
    openThumbnailIndex := some index
    thumbnailUids := emplaceUid state.thumbnailUids uid index
    thumbnailBindingEvents := events }

/-- The embedded image that a Data element inside an Image belongs to. -/
def dataImage (state : XmlBuilder) (element : ElementContext) : Option Nat :=
  if state.depth = 3 ∧ element.parent = lit "Image" then
    state.currentImage.filter fun index =>
      (state.images[index]?).any fun image => image.block.kind = .embedded
  else none

/-- The embedded thumbnail that a Data element inside a Thumbnail belongs to. -/
def dataThumbnail (state : XmlBuilder) (element : ElementContext) : Option Nat :=
  if element.parent = lit "Thumbnail" then
    state.openThumbnailIndex.filter fun index =>
      (state.thumbnails[index]?).any fun thumbnail => thumbnail.image.block.kind = .embedded
  else none

/-- The block attributes of a Data element go to its image. -/
def adoptBlockAttributes (element : ElementContext) (image : ImageInfo) : ImageInfo :=
  { image with
    compression := element.attributeOr "compression"
    subblocks := element.attributeOr "subblocks"
    checksum := element.attributeOr "checksum" }

def declaresBlockAttributes (image : ImageInfo) : Bool :=
  image.compression ≠ [] || image.subblocks ≠ [] || image.checksum ≠ []

/-- The image or thumbnail that a Data element belongs to. -/
def dataOwner (state : XmlBuilder) (element : ElementContext) : Option ImageInfo :=
  match dataImage state element with
  | some index => state.images[index]?
  | none => (state.thumbnails[(dataThumbnail state element).getD 0]?).map ThumbnailInfo.image

def startData (state : XmlBuilder) (element : ElementContext) : Result XmlBuilder := do
  let imageData := dataImage state element
  let thumbnailData := dataThumbnail state element
  reject (imageData.isNone = true ∧ thumbnailData.isNone = true) .invalidXisf
    "Data must be a direct child of an embedded Image or Thumbnail" element.name
  reject (imageData.any (fun index => state.embeddedDataSeen.getD index false) = true ∨
      thumbnailData.any (fun index => state.embeddedThumbnailDataSeen.getD index false) = true)
    .invalidXisf "Embedded Image or Thumbnail must contain exactly one Data element" element.name
  let encoding := element.attributeOr "encoding"
  reject (encoding ≠ lit "base64" ∧ encoding ≠ lit "hex") .invalidXisf
    "Data requires a base64 or hex encoding" element.name (lit "encoding")
  reject ((dataOwner state element).any declaresBlockAttributes = true) .invalidXisf
    "Embedded block attributes must be defined on Data" element.name
  let state := match imageData with
    | some index =>
        { state with
          images := state.images.modify index (adoptBlockAttributes element)
          embeddedDataSeen := state.embeddedDataSeen.set index true
          embeddedImageIndex := some index }
    | none =>
        let index := thumbnailData.getD 0
        { state with
          thumbnails := state.thumbnails.modify index fun thumbnail =>
            { thumbnail with image := adoptBlockAttributes element thumbnail.image }
          embeddedThumbnailDataSeen := state.embeddedThumbnailDataSeen.set index true
          embeddedThumbnailIndex := some index }
  return beginEncoding state (encoding = lit "base64")

def sampleFormatOf (name : Text) : Option SampleFormat :=
  if name = lit "UInt8" then some .uint8
  else if name = lit "UInt16" then some .uint16
  else if name = lit "UInt32" then some .uint32
  else if name = lit "UInt64" then some .uint64
  else if name = lit "Float32" then some .float32
  else if name = lit "Float64" then some .float64
  else if name = lit "Complex32" then some .complex32
  else if name = lit "Complex64" then some .complex64
  else none

/-- An error of `parse_geometry` or `parse_bounds`, at its attribute. -/
def atAttribute {α : Type} (element : ElementContext) (name : String) (result : Result α) :
    Result α :=
  match result with
  | .ok value => .ok value
  | .error e => fail e.code e.message element.name (lit name)

def imageBounds (element : ElementContext) (sampleFormat : Text) :
    Result (Option Double × Option Double) := do
  reject ((sampleFormat = lit "Float32" ∨ sampleFormat = lit "Float64") ∧
      (element.attr "bounds").isNone = true) .invalidXisf
    "Floating-point Image requires bounds" element.name (lit "bounds")
  match element.attr "bounds" with
  | none => return (none, none)
  | some bounds =>
      let (lower, upper) ← atAttribute element "bounds" (parseBounds platform bounds)
      return (some lower, some upper)

def nominalChannelOrderOf (colorSpace : Text) : NominalChannelOrder :=
  if colorSpace = lit "RGB" then .redGreenBlueThenAlpha
  else if colorSpace = lit "CIELab" then .cieLABThenAlpha
  else .grayThenAlpha

def startImage (state : XmlBuilder) (element : ElementContext) : Result XmlBuilder := do
  reject (isRootChild state element = false) .invalidXisf
    "Image must be a direct child of the XISF root" element.name
  reject (state.images.length ≥ options.maxImages) .resourceLimit "Image count limit exceeded"
    element.name
  let geometry ← orFail (element.attr "geometry") .invalidXisf
    "Image is missing a required attribute" element.name
  let sampleFormatName ← orFail (element.attr "sampleFormat") .invalidXisf
    "Image is missing a required attribute" element.name
  let location ← orFail (element.attr "location") .invalidXisf
    "Image is missing a required attribute" element.name
  let axes ← atAttribute element "geometry" (parseGeometry geometry)
  reject (axes.length - 1 > options.maxImageDimensions) .resourceLimit
    "Image geometry exceeds the configured dimension limit" element.name (lit "geometry")
  let channels := axes.getLastD 0
  reject (channels > options.maxInspectedChannels) .resourceLimit
    "Image channel count exceeds the inspection limit" element.name (lit "geometry")
  let sampleFormat ← orFail (sampleFormatOf sampleFormatName) .invalidXisf
    "Invalid Image sampleFormat value" element.name (lit "sampleFormat")
  let (lowerBound, upperBound) ← imageBounds platform element sampleFormatName
  let colorSpace := element.attributeOr "colorSpace" "Gray"
  reject (colorSpace ≠ lit "Gray" ∧ colorSpace ≠ lit "RGB" ∧ colorSpace ≠ lit "CIELab") .invalidXisf
    "Invalid Image colorSpace value" element.name (lit "colorSpace")
  reject ((colorSpace = lit "RGB" ∨ colorSpace = lit "CIELab") ∧ channels < 3) .invalidXisf
    "Color Image requires at least three nominal channels" element.name (lit "geometry")
  let orientation ← parseOrientation element "Invalid Image orientation value"
  let id := element.attributeOr "id"
  reject (id ≠ [] ∧ (isValidUniqueId id = false ∨ id ∈ state.imageIds)) .invalidXisf
    "Image id must have valid syntax and be unique" element.name (lit "id")
  let pixelStorage ← parsePixelStorage element "Invalid Image pixelStorage value"
  let byteOrder ← parseByteOrder element "Invalid Image byteOrder value"
  let block := parseLocation location
  reject (block.kind = .inlineData) .invalidXisf "Image pixel data cannot use an inline block"
    element.name (lit "location")
  reject (block.kind = .unknown) .invalidXisf "Invalid Image block location" element.name
    (lit "location")
  let image : ImageInfo :=
    { id := id
      geometry := axes
      sampleFormat := sampleFormat
      sampleFormatName := sampleFormatName
      colorSpace := colorSpace
      orientation := orientation
      nominalChannelOrder := nominalChannelOrderOf colorSpace
      lowerBound := lowerBound
      upperBound := upperBound
      pixelStorage := pixelStorage
      byteOrder := byteOrder
      block := block
      compression := element.attributeOr "compression"
      subblocks := element.attributeOr "subblocks"
      checksum := element.attributeOr "checksum" }
  return { state with
    imageIds := if id = [] then state.imageIds else state.imageIds ++ [id]
    images := state.images ++ [image]
    embeddedBlocks := state.embeddedBlocks ++ [[]]
    embeddedDataSeen := state.embeddedDataSeen ++ [false]
    imageStack := state.images.length :: state.imageStack }

/-! ## Metadata -/

def startMetadata (state : XmlBuilder) (element : ElementContext) : Result XmlBuilder := do
  reject (isRootChild state element = false ∨ state.metadataCount ≠ 0) .invalidXisf
    "Exactly one Metadata element must be a direct root child" element.name
  return { state with metadataCount := state.metadataCount + 1 }

/-- The two mandatory unit Properties, and the `XISF:` namespace of the rest. -/
def checkUnitProperty (state : XmlBuilder) (element : ElementContext) (identity type : Text) :
    Result XmlBuilder := do
  reject ((lit "XISF:").isPrefixOf identity = false) .invalidXisf
    "Metadata Property identifiers must use the XISF namespace" element.name (lit "id")
  if identity = lit "XISF:CreationTime" then do
    reject ((type ≠ lit "TimePoint" ∧ type ≠ lit "String") ∨ state.sawCreationTime = true)
      .invalidXisf "Invalid or duplicate XISF:CreationTime property" element.name (lit "type")
    return { state with sawCreationTime := true }
  else if identity = lit "XISF:CreatorApplication" then do
    reject (type ≠ lit "String" ∨ state.sawCreatorApplication = true) .invalidXisf
      "Invalid or duplicate XISF:CreatorApplication property" element.name (lit "type")
    return { state with sawCreatorApplication := true }
  else return state

/-- The location of a Property and the value form of a metadata entry. -/
def metadataBlock (element : ElementContext) (isProperty : Bool) (location : Option Text) :
    Result (BlockLocation × ValueForm) :=
  match location with
  | none =>
      .ok (.empty,
        if isProperty && (element.attr "value").isNone then .characterData else .attribute)
  | some location => do
      let block := parseLocation location
      reject (block.kind = .unknown ∨ block.kind = .embedded) .invalidXisf
        "Property has an invalid data block location" element.name (lit "location")
      return (block, .dataBlock)

/-- What the type of a Property asks of its value, location and extents. -/
def checkPropertyForm (element : ElementContext) (entry : MetadataEntry)
    (value location : Option Text) :
    Result Unit :=
  let hasDimensions := entry.length.isSome || entry.rows.isSome || entry.columns.isSome
  match classifyPropertyType entry.type with
  | .scalarOrComplex => do
      reject (value.isNone = true ∨ location.isSome = true ∨ hasDimensions = true) .invalidXisf
        "Scalar and complex Property values require only a value attribute" element.name
      reject (isValidScalarOrComplexValue entry.type (value.getD []) = false) .invalidXisf
        "Scalar or complex Property value has invalid XISF plain-text syntax" element.name
        (lit "value")
  | .string =>
      reject (value.isSome = true ∨ hasDimensions = true) .invalidXisf
        "String Property values cannot use value or extent attributes" element.name
        (if value.isSome then lit "value" else lit "length")
  | .timePoint => do
      reject (value.isNone = true ∨ location.isSome = true ∨ hasDimensions = true ∨
          entry.format ≠ []) .invalidXisf
        "TimePoint Property values require a value attribute and cannot use a format or data block"
        element.name
      reject (isValidTimePointValue (value.getD []) = false) .invalidXisf
        "TimePoint Property value has invalid ISO 8601 extended syntax" element.name (lit "value")
  | .vector =>
      reject (value.isSome = true ∨ location.isNone = true ∨ entry.length.isNone = true ∨
          entry.rows.isSome = true ∨ entry.columns.isSome = true) .invalidXisf
        "Vector Property values require length and location attributes only" element.name
  | .matrix =>
      reject (value.isSome = true ∨ location.isNone = true ∨ entry.length.isSome = true ∨
          entry.rows.isNone = true ∨ entry.columns.isNone = true) .invalidXisf
        "Matrix Property values require rows, columns, and location attributes only" element.name
  | .unknown => .ok ()

/-- The checks of a Property or FITSKeyword before its entry is built. -/
def checkMetadata (state : XmlBuilder) (element : ElementContext) (identity : Text) :
    Result XmlBuilder := do
  let isProperty := element.name = lit "Property"
  let type := element.attributeOr "type"
  let value := element.attr "value"
  reject (identity = [] ∨ (isProperty ∧ type = []) ∨
      (¬ isProperty ∧ (value.isNone = true ∨ (element.attr "comment").isNone = true)))
    .invalidXisf
    (if isProperty then "Property is missing a mandatory attribute"
      else "FITSKeyword is missing a mandatory attribute") element.name
  reject (¬ isProperty ∧ isValidFitsKeywordName identity = false) .invalidXisf
    "FITSKeyword name has invalid FITS syntax" element.name (lit "name")
  reject (isProperty ∧ isValidPropertyIdentifier identity = false) .invalidXisf
    "Property id has invalid XISF syntax" element.name (lit "id")
  reject ((value.getD []).length > options.maxMetadataValueBytes) .resourceLimit
    "Metadata value exceeds the inspection limit" element.name (lit "value")
  reject (isProperty ∧ (element.attr "location").isNone = true ∧
      hasBlockAttributes element = true) .invalidXisf
    "Property data-block attributes require a location" element.name
  if isProperty ∧ element.parent = lit "Metadata" then
    checkUnitProperty state element identity type
  else return state

def isMetadataParent (element : ElementContext) : Bool :=
  element.parent = lit "xisf" || element.parent = lit "Image" ||
    (element.name = lit "Property" && element.parent = lit "Metadata")

/-- The entry of a Property or FITSKeyword. -/
def metadataEntry (state : XmlBuilder) (element : ElementContext) (identity : Text)
    (location : Option Text) : Result MetadataEntry := do
  let isProperty : Bool := element.name = lit "Property"
  let byteOrder ← parseByteOrder element "Invalid Property byteOrder value"
  let (block, valueForm) ← metadataBlock element isProperty location
  let length ← parseExtent element "length" "Property extent must be an unsigned integer"
  let rows ← parseExtent element "rows" "Property extent must be an unsigned integer"
  let columns ← parseExtent element "columns" "Property extent must be an unsigned integer"
  return { kind := if isProperty then .property else .fitsKeyword
           scope := if state.currentImage.isSome then .image
             else if element.parent = lit "Metadata" then .xisfUnit else .standalone
           valueForm := valueForm
           imageIndex := state.currentImage
           uid := element.attributeOr "uid"
           name := identity
           type := element.attributeOr "type"
           value := element.attributeOr "value"
           comment := element.attributeOr "comment"
           format := element.attributeOr "format"
           block := block
           byteOrder := byteOrder
           compression := element.attributeOr "compression"
           subblocks := element.attributeOr "subblocks"
           checksum := element.attributeOr "checksum"
           length := length
           rows := rows
           columns := columns }

/-- The binding event of an entry inside an Image or Metadata. -/
def bindMetadata (state : XmlBuilder) (element : ElementContext) (index : Nat)
    (entry : MetadataEntry) : Result (List MetadataBindingEvent) :=
  if entry.scope ≠ .standalone then do
    reject (state.metadataBindingEvents.length ≥ options.maxMetadataEntries) .resourceLimit
      "Metadata binding limit exceeded" element.name
    return state.metadataBindingEvents ++
      [{ metadataIndex := some index
         reference := []
         scope := if entry.scope = .image then .image else .xisfUnit
         imageIndex := entry.imageIndex
         byReference := false }]
  else .ok state.metadataBindingEvents

/-- The text or inline block that the content of a Property goes to. -/
def openMetadataText (state : XmlBuilder) (element : ElementContext) (index : Nat)
    (entry : MetadataEntry) (location : Option Text) : Result XmlBuilder :=
  if element.name = lit "Property" ∧ (element.attr "value").isNone = true ∧
      location.isNone = true then
    .ok { state with textMetadataIndex := some index }
  else if element.name = lit "Property" ∧ entry.block.kind = .inlineData then do
    reject (isInlineEncoding entry.block = false) .unsupportedFeature
      "Unsupported inline Property block encoding" element.name (lit "location")
    return beginEncoding { state with inlineMetadataIndex := some index }
      (entry.block.raw = lit "inline:base64")
  else .ok state

def startMetadataEntry (state : XmlBuilder) (element : ElementContext) : Result XmlBuilder := do
  let isProperty : Bool := element.name = lit "Property"
  reject (isMetadataParent element = false) .invalidXisf
    (if isProperty then "Property has an invalid parent element"
      else "FITSKeyword has an invalid parent element") element.name
  reject (state.metadata.length ≥ options.maxMetadataEntries) .resourceLimit
    "Metadata entry limit exceeded" element.name
  let identity := element.attributeOr (if isProperty then "id" else "name")
  let location := if isProperty then element.attr "location" else none
  let state ← checkMetadata options state element identity
  let entry ← metadataEntry state element identity location
  (if isProperty then checkPropertyForm element entry (element.attr "value") location else .ok ())
  let index := state.metadata.length
  let events ← bindMetadata options state element index entry
  openMetadataText { state with
    metadataUids := emplaceUid state.metadataUids entry.uid index
    metadata := state.metadata ++ [entry]
    inlineMetadataBlocks := state.inlineMetadataBlocks ++ [[]]
    metadataBindingEvents := events } element index entry location

/-! ## The handler -/

/-- The part of the handler that depends on the element's name. -/
def openElement (state : XmlBuilder) (element : ElementContext) : Result XmlBuilder :=
  if element.isXisf = false then .ok state
  else if element.name = lit "Table" then startTable options state element
  else if element.name = lit "Structure" then startStructure options state element
  else if element.name = lit "Field" then startField options state element
  else if element.name = lit "Row" then startRow options state element
  else if element.name = lit "Cell" then startCell options state element
  else if element.name = lit "ICCProfile" then startIccProfile options state element
  else
    match ancillaryKind element.name with
    | some kind => startAncillary options platform state kind element
    | none =>
        if element.name = lit "Thumbnail" then startThumbnail options state element
        else if element.name = lit "Data" then startData state element
        else if element.name = lit "Image" then startImage options platform state element
        else if element.name = lit "Metadata" then startMetadata state element
        else if element.name = lit "Property" ∨ element.name = lit "FITSKeyword" then
          startMetadataEntry options state element
        else .ok state

def isEncodedBlockOpen (state : XmlBuilder) : Bool :=
  state.embeddedImageIndex.isSome || state.inlineMetadataIndex.isSome ||
    state.inlineIccProfileIndex.isSome || state.embeddedThumbnailIndex.isSome

/-- Depth, node and attribute limits, on the counts with this element. -/
def enterElement (state : XmlBuilder) (element : ElementContext) : Result XmlBuilder := do
  let state := { state with depth := state.depth + 1, nodes := state.nodes + 1 }
  reject (state.depth > options.maxXmlDepth) .resourceLimit "XML depth limit exceeded" element.name
  reject (state.nodes > options.maxXmlNodes) .resourceLimit "XML node limit exceeded" element.name
  reject (element.attributes.length > options.maxAttributesPerElement) .resourceLimit
    "XML attribute limit exceeded" element.name
  return state

def pushElement (state : XmlBuilder) (element : ElementContext) (extensionIndex : Option Nat) :
    XmlBuilder :=
  { state with
    elementStack := (if element.isXisf then element.name else []) :: state.elementStack
    qualifiedElementStack := ⟨element.namespaceUri, element.name⟩ :: state.qualifiedElementStack
    extensionStack := extensionIndex :: state.extensionStack }

def startElement (state : XmlBuilder) (qualifiedName : Text) (attributes : List (Text × Text)) :
    Result XmlBuilder := do
  let element : ElementContext :=
    ⟨localName qualifiedName, namespaceName qualifiedName, state.elementStack.headD [], attributes⟩
  let state ← enterElement options state element
  let (state, extensionIndex) ← recordExtension options state element
  let state ← recordAttachedRange (pushElement state element extensionIndex) element
  reject (isEncodedBlockOpen state = true) .invalidXisf
    "Encoded data blocks cannot contain child elements" element.name
  reject (element.parent = lit "Cell" ∨ element.parent = lit "Field" ∨
      (element.parent = lit "Row" ∧ (element.isXisf = false ∨ element.name ≠ lit "Cell")))
    .invalidXisf
    "Table Field and Cell cannot have children, and Row accepts only Cell children" element.name
  if state.depth = 1 then startRoot state element
  else do
    let state ← recordIdentity options state element
    openElement options platform state element

end

end Mmxisf.Reader
