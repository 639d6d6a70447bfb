/-
# Reader.Handlers -- encoded blocks, closing an element, text, and a whole parse

`end_element`, `character_data`, `xml_declaration` and `reject_doctype` of
`reader.cpp`, with the Base64 and hexadecimal decoder that character data inside
an encoded block goes through.  `handleEvents` is what Expat does with the
handlers: it calls them in document order and stops at the first failure.
-/
import Mmxisf.Reader.StartElement

namespace Mmxisf.Reader

set_option autoImplicit false

section

variable (options : ReaderOptions) (platform : Platform)

/-! ## Encoded blocks -/

/-- Base64 padding stands in a quartet as 64. -/
def base64Padding : Nat := 64

def base64Value (c : Byte) : Option Nat :=
  if isUpperLetter c then some (c.toNat - 65)
  else if ch 'a' ≤ c ∧ c ≤ ch 'z' then some (c.toNat - 97 + 26)
  else if isAsciiDigit c then some (c.toNat - 48 + 52)
  else if c = ch '+' then some 62
  else if c = ch '/' then some 63
  else none

/-- The element named in an error of the encoded block that is open. -/
def encodedElement (state : XmlBuilder) : Text :=
  if state.inlineMetadataIndex.isSome then lit "Property"
  else if state.inlineIccProfileIndex.isSome then lit "ICCProfile"
  else lit "Data"

def appendTo (blocks : List Bytes) (index : Nat) (value : Byte) : List Bytes :=
  blocks.modify index fun block => block ++ [value]

/-- The byte goes to the block of the open element, within that kind's limit. -/
def appendInlineByte (state : XmlBuilder) (value : Nat) : Result XmlBuilder :=
  let byte := UInt8.ofNat value
  let full (blocks : List Bytes) (index limit : Nat) : Result Unit :=
    reject ((blocks.getD index []).length ≥ limit) .resourceLimit
      "Encoded block exceeds its serialized byte limit" (encodedElement state)
  match state.inlineMetadataIndex, state.inlineIccProfileIndex, state.embeddedThumbnailIndex with
  | some index, _, _ => do
      full state.inlineMetadataBlocks index options.maxSerializedPropertyBytes
      return { state with inlineMetadataBlocks := appendTo state.inlineMetadataBlocks index byte }
  | none, some index, _ => do
      full state.inlineIccProfileBlocks index options.maxSerializedIccProfileBytes
      return { state with
        inlineIccProfileBlocks := appendTo state.inlineIccProfileBlocks index byte }
  | none, none, some index => do
      full state.embeddedThumbnailBlocks index options.maxSerializedThumbnailBytes
      return { state with
        embeddedThumbnailBlocks := appendTo state.embeddedThumbnailBlocks index byte }
  | none, none, none => do
      let index := state.embeddedImageIndex.getD 0
      full state.embeddedBlocks index options.maxDecodedImageBytes
      return { state with embeddedBlocks := appendTo state.embeddedBlocks index byte }

/-- The one to three bytes of a full quartet. -/
def decodeBase64Quartet (state : XmlBuilder) (q0 q1 q2 q3 : Nat) : Result XmlBuilder := do
  reject (q0 = base64Padding ∨ q1 = base64Padding) .invalidXisf "Invalid Base64 padding"
    (encodedElement state)
  let state ← appendInlineByte options state (q0 * 4 + q1 / 16)
  if q2 = base64Padding then do
    reject (q3 ≠ base64Padding ∨ q1 % 16 ≠ 0) .invalidXisf "Invalid or noncanonical Base64 padding"
      (encodedElement state)
    return { state with base64Complete := true }
  else do
    let state ← appendInlineByte options state (q1 * 16 + q2 / 4)
    if q3 = base64Padding then do
      reject (q2 % 4 ≠ 0) .invalidXisf "Invalid or noncanonical Base64 padding"
        (encodedElement state)
      return { state with base64Complete := true }
    else appendInlineByte options state (q2 * 64 + q3)

def lowercaseHexValue (c : Byte) : Option Nat :=
  if isAsciiDigit c then some (c.toNat - 48)
  else if ch 'a' ≤ c ∧ c ≤ ch 'f' then some (c.toNat - 97 + 10)
  else none

def decodeHexCharacter (state : XmlBuilder) (c : Byte) : Result XmlBuilder := do
  let nibble ← orFail (lowercaseHexValue c) .invalidXisf
    "Base16 data must use lowercase hexadecimal" (encodedElement state)
  match state.hexHighNibble with
  | none => return { state with hexHighNibble := some nibble }
  | some high =>
      let state ← appendInlineByte options state (high * 16 + nibble)
      return { state with hexHighNibble := none }

def decodeBase64Character (state : XmlBuilder) (c : Byte) : Result XmlBuilder := do
  reject (state.base64Complete = true) .invalidXisf "Base64 data continues after padding"
    (encodedElement state)
  let value ← orFail (if c = ch '=' then some base64Padding else base64Value c) .invalidXisf
    "Encoded block contains an invalid Base64 character" (encodedElement state)
  match state.base64Quartet with
  | [q0, q1, q2] => do
      let state ← decodeBase64Quartet options state q0 q1 q2 value
      return { state with base64Quartet := [] }
  | quartet => return { state with base64Quartet := quartet ++ [value] }

def decodeEmbeddedText (state : XmlBuilder) : Text → Result XmlBuilder
  | [] => .ok state
  | c :: rest =>
      if isXmlWhitespace c then decodeEmbeddedText state rest
      else do
        reject (state.encodedBlockBytes ≥ options.maxEncodedBlockBytes) .resourceLimit
          "Encoded block exceeds the encoded byte limit" (encodedElement state)
        let state := { state with encodedBlockBytes := state.encodedBlockBytes + 1 }
        let state ←
          (if state.embeddedEncoding = .hex then decodeHexCharacter options state c
          else decodeBase64Character options state c)
        decodeEmbeddedText state rest

/-! ## Closing an element -/

/-- A Base64 quartet or a hexadecimal pair is still open. -/
def isSequenceIncomplete (state : XmlBuilder) : Bool :=
  (state.embeddedEncoding = .base64 && state.base64Quartet ≠ []) ||
    (state.embeddedEncoding = .hex && state.hexHighNibble.isSome)

def endData (state : XmlBuilder) (name : Text) : Result XmlBuilder := do
  reject (state.embeddedImageIndex.isNone = true ∧ state.embeddedThumbnailIndex.isNone = true)
    .invalidXisf "Unexpected closing Data element" name
  reject (isSequenceIncomplete state = true) .invalidXisf
    "Embedded block has an incomplete encoded byte sequence" name
  return { state with
    embeddedImageIndex := none
    embeddedThumbnailIndex := none
    embeddedEncoding := .none }

def endIccProfile (state : XmlBuilder) (name : Text) : Result XmlBuilder :=
  if state.inlineIccProfileIndex.isSome then do
    reject (isSequenceIncomplete state = true) .invalidXisf
      "Inline ICCProfile block has an incomplete encoded byte sequence" name
    return { state with inlineIccProfileIndex := none, embeddedEncoding := .none }
  else .ok state

def endProperty (state : XmlBuilder) (name : Text) : Result XmlBuilder :=
  if state.inlineMetadataIndex.isSome then do
    reject (isSequenceIncomplete state = true) .invalidXisf
      "Inline Property block has an incomplete encoded byte sequence" name
    return { state with
      inlineMetadataIndex := none
      embeddedEncoding := .none
      textMetadataIndex := none }
  else .ok { state with textMetadataIndex := none }

def endCell (state : XmlBuilder) (name : Text) : Result XmlBuilder := do
  reject (state.openTableCellIndex.isNone = true) .invalidXisf
    "Unexpected closing Cell element" name
  return { state with openTableCellIndex := none }

def endRow (state : XmlBuilder) (name : Text) : Result XmlBuilder := do
  reject (state.openTableIndex.isNone = true ∨ state.openTableRowIndex.isNone = true) .invalidXisf
    "Unexpected closing Row element" name
  let row := (state.tables[state.openTableIndex.getD 0]?).bind fun table =>
    table.rows[state.openTableRowIndex.getD 0]?
  reject (row.any (fun row => row.cells = []) = true) .invalidXisf
    "Table Row must contain at least one Cell" name
  return { state with openTableRowIndex := none }

def endStructure (state : XmlBuilder) (name : Text) : Result XmlBuilder := do
  reject (state.openStructureIndex.isNone = true) .invalidXisf
    "Unexpected closing Structure element" name
  let tableStructure := state.tableStructures[state.openStructureIndex.getD 0]?
  reject (tableStructure.any (fun tableStructure => tableStructure.fields = []) = true) .invalidXisf
    "Structure must contain at least one Field" name
  return { state with openStructureIndex := none }

def endTable (state : XmlBuilder) (name : Text) : Result XmlBuilder := do
  reject (state.openTableIndex.isNone = true) .invalidXisf "Unexpected closing Table element" name
  return { state with openTableIndex := none }

def endThumbnail (state : XmlBuilder) (name : Text) : Result XmlBuilder := do
  reject (state.openThumbnailIndex.isNone = true) .invalidXisf
    "Unexpected closing Thumbnail element" name
  let index := state.openThumbnailIndex.getD 0
  reject ((state.thumbnails[index]?).any (fun thumbnail =>
        thumbnail.image.block.kind = .embedded) = true ∧
      state.embeddedThumbnailDataSeen.getD index false = false) .invalidXisf
    "Embedded Thumbnail requires exactly one Data child" name
  return { state with openThumbnailIndex := none }

def endImage (state : XmlBuilder) (name : Text) : Result XmlBuilder :=
  match state.imageStack with
  | [] => .ok state
  | index :: below => do
      reject ((state.images[index]?).any (fun image => image.block.kind = .embedded) = true ∧
          state.embeddedDataSeen.getD index false = false) .invalidXisf
        "Embedded Image requires exactly one Data child" name
      return { state with imageStack := below }

/-- The part of `end_element` that depends on the element's name. -/
def closeElement (state : XmlBuilder) (isXisf : Bool) (name : Text) : Result XmlBuilder :=
  if isXisf = false then .ok state
  else if name = lit "Data" then endData state name
  else if name = lit "ICCProfile" then endIccProfile state name
  else if name = lit "Property" then endProperty state name
  else if name = lit "Cell" then endCell state name
  else if name = lit "Row" then endRow state name
  else if name = lit "Structure" then endStructure state name
  else if name = lit "Table" then endTable state name
  else if name = lit "Thumbnail" then endThumbnail state name
  else if name = lit "Image" then endImage state name
  else .ok state

/-- The stacks, after an element. -/
def popElement (state : XmlBuilder) : XmlBuilder :=
  { state with
    rootClosed := if state.depth = 1 then true else state.rootClosed
    depth := state.depth - 1
    elementStack := state.elementStack.tail
    qualifiedElementStack := state.qualifiedElementStack.tail
    extensionStack := state.extensionStack.tail }

def endElement (state : XmlBuilder) (qualifiedName : Text) : Result XmlBuilder := do
  let isXisf : Bool := namespaceName qualifiedName = kXisfNamespace
  let state ← closeElement state isXisf (localName qualifiedName)
  return popElement state

/-! ## Text -/

/-- The Cell that text would go to: its Table, Row and Cell are all open. -/
def openCell (state : XmlBuilder) : Option (Nat × Nat × Nat) :=
  match state.openTableIndex, state.openTableRowIndex, state.openTableCellIndex with
  | some table, some row, some cell => some (table, row, cell)
  | _, _, _ => none

def acceptsText (cell : TableCellInfo) : Bool :=
  cell.valueForm = .characterData ||
    (cell.valueForm = .dataBlock && cell.block.kind = .inlineData)

def cellText (state : XmlBuilder) (place : Nat × Nat × Nat) (text : Text) : Result XmlBuilder :=
  let (table, row, cell) := place
  let found := ((state.tables[table]?).bind fun t => t.rows[row]?).bind fun r => r.cells[cell]?
  if found.any acceptsText then do
    let state ← consumeTableTextBytes options state text.length (lit "Cell")
    return { state with
      tables := state.tables.modify table fun t => modifyRows t row fun r =>
        ⟨r.cells.modify cell fun c => { c with value := c.value ++ text }⟩ }
  else do
    reject (containsNonXmlWhitespace text = true) .invalidXisf
      "Cell form cannot contain character data" (lit "Cell")
    return state

def extensionText (state : XmlBuilder) (index : Nat) (text : Text) : Result XmlBuilder := do
  let name := ((state.extensionElements[index]?).map ExtensionElement.name).getD []
  let state ← consumeExtensionBytes options state text.length name
  return { state with
    extensionElements := state.extensionElements.modify index fun element =>
      { element with text := element.text ++ text } }

/-- The name of the innermost element, when that is in the XISF namespace. -/
def innermostXisfName (state : XmlBuilder) : Option Text :=
  match state.qualifiedElementStack with
  | [] => none
  | top :: _ => if top.namespaceUri = kXisfNamespace then some top.name else none

/-- Text where no element takes it: only whitespace, in the places named. -/
def strayText (state : XmlBuilder) (text : Text) : Result XmlBuilder :=
  let visible := containsNonXmlWhitespace text
  if state.depth = 1 ∧ state.elementStack.head? = some (lit "xisf") ∧ visible = true then
    fail .invalidXisf (lit "The XISF root cannot contain character data") (lit "xisf")
  else if state.openThumbnailIndex.isSome = true ∧ visible = true then
    fail .invalidXisf (lit "Thumbnail cannot contain text outside Data") (lit "Thumbnail")
  else if (state.openTableRowIndex.isSome = true ∨ state.openStructureIndex.isSome = true ∨
      state.openTableIndex.isSome = true) ∧ visible = true then
    fail .invalidXisf (lit "Table, Structure, and Row cannot contain text outside Cell")
      (if state.openTableRowIndex.isSome then lit "Row"
        else if state.openStructureIndex.isSome then lit "Structure" else lit "Table")
  else if (state.currentImage.bind fun index => state.images[index]?).any
      (fun image => image.block.kind = .embedded) = true ∧ visible = true then
    fail .invalidXisf (lit "Embedded Image cannot contain text outside Data") (lit "Image")
  else .ok state

def propertyText (state : XmlBuilder) (index : Nat) (text : Text) : Result XmlBuilder := do
  let size := ((state.metadata[index]?).map fun entry => entry.value.length).getD 0
  let limit := options.maxMetadataValueBytes
  reject (text.length > limit - min size limit) .resourceLimit
    "Inline metadata value exceeds the inspection limit" (lit "Property")
  return { state with
    metadata := state.metadata.modify index fun entry =>
      { entry with value := entry.value ++ text } }

def characterData (state : XmlBuilder) (text : Text) : Result XmlBuilder :=
  if text = [] then .ok state
  else if isEncodedBlockOpen state then decodeEmbeddedText options state text
  else
    match openCell state with
    | some place => cellText options state place text
    | none =>
        match state.extensionStack.headD none with
        | some index => extensionText options state index text
        | none => do
            let innermost := innermostXisfName state
            reject (innermost.any (fun name => (ancillaryKind name).isSome) = true ∧
                containsNonXmlWhitespace text = true) .invalidXisf
              "Attribute-based ancillary metadata cannot contain text" (innermost.getD [])
            reject (innermost = some (lit "ICCProfile") ∧ containsNonXmlWhitespace text = true)
              .invalidXisf "Non-inline ICCProfile cannot contain character data" (lit "ICCProfile")
            match state.textMetadataIndex with
            | none => strayText state text
            | some index => propertyText options state index text

/-! ## Declarations -/

def xmlDeclaration (state : XmlBuilder) (version encoding : Option Text) (standalone : Int) :
    Result XmlBuilder := do
  reject (version ≠ some (lit "1.0")) .invalidXisf "XISF requires an XML 1.0 declaration"
  reject (encoding.any (fun name =>
      asciiCaseEqual name (lit "UTF-8") || asciiCaseEqual name (lit "UTF8")) = false) .invalidXisf
    "XISF requires a UTF-8 XML declaration"
  reject (standalone ≠ -1) .invalidXisf "XISF XML declaration cannot specify standalone"
  return { state with sawXmlDeclaration := true }

def handleEvent (state : XmlBuilder) : XmlEvent → Result XmlBuilder
  | .declaration version encoding standalone => xmlDeclaration state version encoding standalone
  | .doctype => fail .malformedXml (lit "DOCTYPE is not allowed in XISF headers")
  | .startElement name attributes => startElement options platform state name attributes
  | .endElement name => endElement state name
  | .characterData text => characterData options state text

/-- The handlers over a document, up to the first failure. -/
def handleEvents (state : XmlBuilder) : List XmlEvent → Result XmlBuilder
  | [] => .ok state
  | event :: rest => do
      let state ← handleEvent options platform state event
      handleEvents state rest

end

end Mmxisf.Reader
