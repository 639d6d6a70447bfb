/-
# Reader.XmlBuilder -- the state of the header parser

`struct XmlBuilder` of `reader.cpp` with the helpers its handlers share.  The
options are an argument of the handlers, not a field.  A handler that calls
`fail` stops the parser and the state it leaves is never looked at again, so a
handler returns the first error or the next state (`Result XmlBuilder`).

The stacks are lists with the top first; the other vectors are in order.  A map
from uids is an association list whose first entry for a uid counts
(`emplace`).
-/
import Mmxisf.Platform
import Mmxisf.Values
import Mmxisf.Library.Fields

namespace Mmxisf.Reader

set_option autoImplicit false

structure ReaderOptions where
  maxHeaderBytes : Nat := 16 * 1024 * 1024
  maxXmlDepth : Nat := 64
  maxXmlNodes : Nat := 250000
  maxAttributesPerElement : Nat := 256
  maxImages : Nat := 64
  maxMetadataEntries : Nat := 100000
  maxMetadataValueBytes : Nat := 8 * 1024 * 1024
  maxExtensionElements : Nat := 4096
  maxExtensionAttributes : Nat := 65536
  maxExtensionBytes : Nat := 4 * 1024 * 1024
  maxAncillaryObjects : Nat := 4096
  maxAncillaryAttributes : Nat := 65536
  maxAncillaryBindings : Nat := 100000
  maxAncillaryBytes : Nat := 4 * 1024 * 1024
  maxIccProfiles : Nat := 4096
  maxIccProfileBindings : Nat := 100000
  maxSerializedIccProfileBytes : Nat := 64 * 1024 * 1024
  maxDecodedIccProfileBytes : Nat := 64 * 1024 * 1024
  maxThumbnails : Nat := 256
  maxThumbnailBindings : Nat := 100000
  maxThumbnailDimension : Nat := 4096
  maxSerializedThumbnailBytes : Nat := 128 * 1024 * 1024
  maxDecodedThumbnailBytes : Nat := 128 * 1024 * 1024
  maxTableStructures : Nat := 256
  maxTables : Nat := 256
  maxTableFields : Nat := 4096
  maxTableRows : Nat := 100000
  maxTableCells : Nat := 1000000
  maxTableBindings : Nat := 100000
  maxTableTextBytes : Nat := 16 * 1024 * 1024
  maxEncodedBlockBytes : Nat := 256 * 1024 * 1024
  maxSerializedImageBytes : Nat := 2 * 1024 * 1024 * 1024
  maxSerializedPropertyBytes : Nat := 256 * 1024 * 1024
  maxDecodedPropertyBytes : Nat := 256 * 1024 * 1024
  maxUnusedSpaceBytes : Nat := 64 * 1024 * 1024
  maxCompressedSubblocks : Nat := 65536
  maxDecompressionRatio : Nat := 65536
  maxZstdWindowBytes : Nat := 256 * 1024 * 1024
  maxImageDimensions : Nat := 8
  maxInspectedChannels : Nat := 64
  maxDecodedChannels : Nat := 16
  maxSamplesPerImage : Nat := 536870912
  maxDecodedImageBytes : Nat := 2 * 1024 * 1024 * 1024
  deriving DecidableEq, Repr

structure AttachedRange where
  offset : Nat
  size : Nat
  deriving DecidableEq, Repr

structure MetadataBindingEvent where
  metadataIndex : Option Nat
  reference : Text
  scope : BindingScope
  imageIndex : Option Nat
  byReference : Bool
  deriving DecidableEq, Repr

/-- The binding events of ancillary objects, ICC profiles, thumbnails and
tables: the object and its image. -/
structure ObjectBindingEvent where
  objectIndex : Nat
  imageIndex : Nat
  deriving DecidableEq, Repr

structure TableStructureReferenceEvent where
  tableIndex : Nat
  reference : Text
  deriving DecidableEq, Repr

structure XmlElementName where
  namespaceUri : Text
  name : Text
  deriving DecidableEq, Repr

inductive EmbeddedEncoding
  | none | base64 | hex
  deriving DecidableEq, Repr

structure XmlBuilder where
  version : Text := []
  images : List ImageInfo := []
  imageIds : List Text := []
  embeddedBlocks : List Bytes := []
  inlineMetadataBlocks : List Bytes := []
  inlineIccProfileBlocks : List Bytes := []
  thumbnails : List ThumbnailInfo := []
  embeddedThumbnailBlocks : List Bytes := []
  embeddedThumbnailDataSeen : List Bool := []
  thumbnailUids : List (Text × Nat) := []
  thumbnailBindingEvents : List ObjectBindingEvent := []
  tableStructures : List TableStructureInfo := []
  tableStructureUids : List (Text × Nat) := []
  standaloneStructureUids : List (Text × Nat) := []
  tables : List TableInfo := []
  tableUids : List (Text × Nat) := []
  tableBindingEvents : List ObjectBindingEvent := []
  tableStructureReferences : List TableStructureReferenceEvent := []
  tableFieldCount : Nat := 0
  tableRowCount : Nat := 0
  tableCellCount : Nat := 0
  tableTextBytes : Nat := 0
  embeddedDataSeen : List Bool := []
  attachedRanges : List AttachedRange := []
  metadata : List MetadataEntry := []
  depth : Nat := 0
  nodes : Nat := 0
  sawRoot : Bool := false
  rootClosed : Bool := false
  sawXmlDeclaration : Bool := false
  imageStack : List Nat := []
  elementStack : List Text := []
  qualifiedElementStack : List XmlElementName := []
  extensionStack : List (Option Nat) := []
  extensionElements : List ExtensionElement := []
  extensionAttributeCount : Nat := 0
  extensionBytes : Nat := 0
  ancillaryObjects : List AncillaryObject := []
  ancillaryUids : List (Text × Nat) := []
  ancillaryBindingEvents : List ObjectBindingEvent := []
  ancillaryAttributeCount : Nat := 0
  ancillaryBytes : Nat := 0
  iccProfiles : List IccProfileInfo := []
  iccProfileUids : List (Text × Nat) := []
  iccProfileBindingEvents : List ObjectBindingEvent := []
  textMetadataIndex : Option Nat := none
  metadataCount : Nat := 0
  sawCreationTime : Bool := false
  sawCreatorApplication : Bool := false
  coreUids : List Text := []
  references : List Text := []
  referencesFromThumbnails : List Text := []
  metadataUids : List (Text × Nat) := []
  metadataBindingEvents : List MetadataBindingEvent := []
  embeddedImageIndex : Option Nat := none
  inlineMetadataIndex : Option Nat := none
  inlineIccProfileIndex : Option Nat := none
  embeddedThumbnailIndex : Option Nat := none
  openThumbnailIndex : Option Nat := none
  openTableIndex : Option Nat := none
  openStructureIndex : Option Nat := none
  openTableRowIndex : Option Nat := none
  openTableCellIndex : Option Nat := none
  embeddedEncoding : EmbeddedEncoding := .none
  base64Quartet : List Nat := []
  base64Complete : Bool := false
  hexHighNibble : Option Nat := none
  encodedBlockBytes : Nat := 0
  deriving DecidableEq, Repr

namespace XmlBuilder

def currentImage (state : XmlBuilder) : Option Nat := state.imageStack.head?

end XmlBuilder

/-- `unordered_map::emplace`: an existing entry stays. -/
def emplace (map : List (Text × Nat)) (key : Text) (index : Nat) : List (Text × Nat) :=
  if (map.lookup key).isSome then map else map ++ [(key, index)]

/-! ## Names -/

def separator : Byte := ch '|'

def localName (qualified : Text) : Text :=
  (qualified.reverse.takeWhile (· ≠ separator)).reverse

def namespaceName (qualified : Text) : Text :=
  ((qualified.reverse.dropWhile (· ≠ separator)).drop 1).reverse

def kXisfNamespace : Text := lit "http://www.pixinsight.com/xisf"

/-- The value of the first attribute without a namespace that has this name. -/
def attributeValue (attributes : List (Text × Text)) (wanted : Text) : Option Text :=
  (attributes.find? fun entry =>
    namespaceName entry.1 = [] && localName entry.1 = wanted).map Prod.snd

def isCoreElement (name : Text) : Bool :=
  name ∈ ["Property", "Structure", "Table", "Metadata", "Image", "FITSKeyword", "ICCProfile",
    "RGBWorkingSpace", "DisplayFunction", "ColorFilterArray", "Resolution", "Thumbnail",
    "Reference"].map lit

def ancillaryKind (name : Text) : Option AncillaryKind :=
  if name = lit "RGBWorkingSpace" then some .rgbWorkingSpace
  else if name = lit "DisplayFunction" then some .displayFunction
  else if name = lit "ColorFilterArray" then some .colorFilterArray
  else if name = lit "Resolution" then some .resolution
  else none

def containsNonXmlWhitespace (text : Text) : Bool := text.any fun c => !isXmlWhitespace c

def asciiFold (c : Byte) : Byte := if isUpperLetter c then c + 32 else c

def asciiCaseEqual (left right : Text) : Bool := left.map asciiFold = right.map asciiFold

/-! ## Attribute values -/

/-- `std::from_chars` to a `std::uint64_t`, over the whole text. -/
def parseUnsigned (text : Text) : Option Nat :=
  if text = [] ∨ text.all isAsciiDigit = false then none
  else
    let value := Library.Decimal.value text
    if value ≤ u64Max then some value else none

def parseFiniteDouble (platform : Platform) (text : Text) : Option Double :=
  let trimmed := trimXmlWhitespace text
  let number := if trimmed.head? = some (ch '+') then trimmed.drop 1 else trimmed
  if number = [] then none
  else (platform.extractDouble number).filter Double.isFinite

def splitColons (text : Text) : List Text := Library.split (ch ':') text

def parseFiniteTuple (platform : Platform) (count : Nat) (text : Text) : Option (List Double) :=
  let parts := splitColons text
  if parts.length ≠ count then none else parts.mapM (parseFiniteDouble platform)

def parseBounds (platform : Platform) (text : Text) : Result (Double × Double) :=
  match splitColons text with
  | [low, high] =>
      match parseFiniteDouble platform low, parseFiniteDouble platform high with
      | some lower, some upper =>
          if lower.less upper then .ok (lower, upper)
          else .error (makeError .invalidXisf "Image bounds are not a finite increasing range")
      | _, _ => .error (makeError .invalidXisf "Image bounds are not a finite increasing range")
  | _ => .error (makeError .invalidXisf "Image bounds must contain two values")

/-- The axes of a geometry, `seen` of them already read. -/
def parseAxes : Nat → List Text → Result (List Nat)
  | _, [] => .ok []
  | seen, token :: rest =>
      match parseUnsigned token with
      | some (value + 1) =>
          if seen + 1 > 9 then
            .error (makeError .resourceLimit "Image geometry exceeds the dimension limit")
          else (parseAxes (seen + 1) rest).map ((value + 1) :: ·)
      | _ => .error (makeError .invalidXisf "Image geometry contains an invalid axis")

def parseGeometry (text : Text) : Result (List Nat) :=
  match parseAxes 0 (splitColons text) with
  | .error e => .error e
  | .ok axes =>
      if axes.length < 2 then
        .error (makeError .invalidXisf "Image geometry must contain a dimension and channels")
      else .ok axes

def attachmentPrefix : Text := lit "attachment:"

def parseLocation (text : Text) : BlockLocation :=
  if attachmentPrefix.isPrefixOf text then
    match splitColons (text.drop attachmentPrefix.length) with
    | [first, second] =>
        match parseUnsigned first, parseUnsigned second with
        | some offset, some size => ⟨.attachment, offset, size, text⟩
        | _, _ => ⟨.unknown, 0, 0, text⟩
    | _ => ⟨.unknown, 0, 0, text⟩
  else if text = lit "embedded" then ⟨.embedded, 0, 0, text⟩
  else if (lit "inline:").isPrefixOf text then ⟨.inlineData, 0, 0, text⟩
  else if (lit "url(").isPrefixOf text ∨ (lit "path(").isPrefixOf text then ⟨.external, 0, 0, text⟩
  else ⟨.unknown, 0, 0, text⟩

/-! ## Byte budgets -/

/-- `consume_extension_bytes`, `consume_ancillary_bytes` and
`consume_table_text_bytes` on their counter: the counter after `count` more
bytes. -/
def consumeBytes (limit used count : Nat) (message : String) (element : Text) : Result Nat :=
  if count > limit - min used limit then fail .resourceLimit (lit message) element
  else .ok (used + count)

def consumeExtensionBytes (options : ReaderOptions) (state : XmlBuilder) (count : Nat)
    (element : Text) : Result XmlBuilder := do
  let used ← consumeBytes options.maxExtensionBytes state.extensionBytes count
    "Extension inventory byte limit exceeded" element
  return { state with extensionBytes := used }

def consumeAncillaryBytes (options : ReaderOptions) (state : XmlBuilder) (count : Nat)
    (element : Text) : Result XmlBuilder := do
  let used ← consumeBytes options.maxAncillaryBytes state.ancillaryBytes count
    "Ancillary metadata byte limit exceeded" element
  return { state with ancillaryBytes := used }

def consumeTableTextBytes (options : ReaderOptions) (state : XmlBuilder) (count : Nat)
    (element : Text) : Result XmlBuilder := do
  let used ← consumeBytes options.maxTableTextBytes state.tableTextBytes count
    "Table text byte limit exceeded" element
  return { state with tableTextBytes := used }

end Mmxisf.Reader
