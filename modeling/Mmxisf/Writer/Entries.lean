/-
# Writer.Entries -- what a caller hands to a writer, and the metadata of a header

`include/mmxisf/writer.hpp` and the metadata functions of `writer.cpp`.  An
enumeration has its declared values only, so the checks for a value outside its
range are not here.  A vector of sets of identifiers is a list of lists.
-/
import Mmxisf.Platform
import Mmxisf.Values
import Mmxisf.Writer.Texts

namespace Mmxisf.Writer

set_option autoImplicit false

structure ImageWriteView where
  id : Text := []
  width : Nat := 0
  height : Nat := 0
  channels : Nat := 0
  sampleFormat : SampleFormat := .unsupported
  colorSpace : Text := []
  pixelStorage : PixelStorage := .planar
  byteOrder : ByteOrder := .little
  lowerBound : Option Double := none
  upperBound : Option Double := none
  compression : CompressionCodec := .none
  byteShuffle : Bool := false
  checksum : ChecksumAlgorithm := .none
  pixels : Bytes := []
  deriving DecidableEq, Repr

inductive MetadataWriteValueForm
  | direct | dataBlock
  deriving DecidableEq, Repr

structure MetadataWriteEntry where
  kind : MetadataKind := .property
  imageIndex : Option Nat := none
  name : Text := []
  type : Text := []
  value : Text := []
  comment : Text := []
  valueForm : MetadataWriteValueForm := .direct
  length : Option Nat := none
  rows : Option Nat := none
  columns : Option Nat := none
  byteOrder : ByteOrder := .little
  format : Text := []
  blockBytes : Bytes := []
  compression : CompressionCodec := .none
  byteShuffle : Bool := false
  checksum : ChecksumAlgorithm := .none
  deriving DecidableEq, Repr

structure WriterOptions where
  attachmentAlignment : Nat := 4096
  maxHeaderBytes : Nat := 16 * 1024 * 1024
  maxImages : Nat := 64
  maxMetadataEntries : Nat := 4096
  maxMetadataValueBytes : Nat := 1024 * 1024
  compressionSubblockBytes : Nat := 16 * 1024 * 1024
  maxCompressionSubblocks : Nat := 65536
  maxImageBytes : Nat := 2 * 1024 * 1024 * 1024
  maxCumulativeImageBytes : Nat := 4 * 1024 * 1024 * 1024
  maxPropertyBytes : Nat := 256 * 1024 * 1024
  maxCumulativePropertyBytes : Nat := 512 * 1024 * 1024
  maxSerializedPropertyBytes : Nat := 256 * 1024 * 1024
  maxCumulativeSerializedPropertyBytes : Nat := 512 * 1024 * 1024
  maxSerializedImageBytes : Nat := 2 * 1024 * 1024 * 1024
  maxCumulativeSerializedBytes : Nat := 4 * 1024 * 1024 * 1024
  creationTime : Text := []
  creatorApplication : Text := []
  deriving DecidableEq, Repr

/-- A file name.  The names that a writer derives are made by appending. -/
abbrev Path := Text

/-- A block as `prepare_block` leaves it: the compressed bytes, or the spool file
that holds them, or neither when the caller's own bytes are written. -/
structure PreparedBlock where
  storage : Bytes := []
  spoolPath : Path := []
  serializedSize : Nat := 0
  compression : Text := []
  subblocks : Text := []
  checksum : Text := []
  deriving DecidableEq, Repr

/-! ## Identifiers -/

def isValidFitsKeywordName (value : Text) : Bool :=
  value ≠ [] && value.length ≤ 8 &&
    value.all fun c => isUpperLetter c || isAsciiDigit c || c = ch '_' || c = ch '-'

/-- `is_start` and `is_continue` of `is_valid_property_identifier`. -/
def isIdentifierStart (c : Byte) : Bool :=
    c = ch '_' || isUpperLetter c || (ch 'a' ≤ c && c ≤ ch 'z')

def isIdentifierContinue (c : Byte) : Bool := isIdentifierStart c || isAsciiDigit c

/-- One round of the loop of `is_valid_property_identifier`, on `expect_start`;
`none` is its return from the loop. -/
def identifierRound (expectStart : Bool) (character : Byte) : Option Bool :=
  if character = ch ':' then if expectStart then none else some true
  else if
      (if expectStart then !isIdentifierStart character else !isIdentifierContinue character) then
    none
  else some false

/-- What `is_valid_property_identifier` returns after its loop, or from it. -/
def identifierVerdict : Option Bool → Bool
  | none => false
  | some expectStart => !expectStart

def isValidPropertyIdentifier (value : Text) : Bool :=
  if value = [] then false else identifierVerdict (value.foldlM identifierRound true)

def isValidImageIdentifier (value : Text) : Bool :=
  if value = [] ∨ (value.head? ≠ some (ch '_') ∧ value.head?.any isAsciiLetter = false) then false
  else (value.drop 1).all fun c => c = ch '_' || isAsciiLetter c || isAsciiDigit c

/-- A vector or matrix Property without elements, which needs no block. -/
def isEmptyPropertyContainer (entry : MetadataWriteEntry) : Bool :=
  if entry.valueForm ≠ .dataBlock ∨ entry.blockBytes ≠ [] then false
  else
    match classifyPropertyType entry.type with
    | .vector => entry.length = some 0
    | .matrix => entry.rows.isSome && entry.columns.isSome &&
        (entry.rows = some 0 || entry.columns = some 0)
    | _ => false

/-! ## The elements of metadata -/

/-- `name="value"` with the blank before it. -/
def xmlAttribute (name : String) (value : Text) : Text :=
  lit " " ++ lit name ++ lit "=\"" ++ value ++ lit "\""

/-- The extents of a block Property as attributes: its length, or else its rows
and columns. -/
def extentAttributes (entry : MetadataWriteEntry) : Text :=
  match entry.length with
  | some length => xmlAttribute "length" (decimal length)
  | none => xmlAttribute "rows" (decimal (entry.rows.getD 0)) ++
      xmlAttribute "columns" (decimal (entry.columns.getD 0))

/-- `attachment:offset:size`. -/
def attachmentLocation (offset size : Nat) : Text :=
  lit "attachment:" ++ decimal offset ++ lit ":" ++ decimal size

/-- The block attributes of an element, where they are not empty. -/
def preparedAttributes (prepared : PreparedBlock) : Text :=
  (if prepared.compression ≠ [] then xmlAttribute "compression" prepared.compression else []) ++
    (if prepared.subblocks ≠ [] then xmlAttribute "subblocks" prepared.subblocks else []) ++
    (if prepared.checksum ≠ [] then xmlAttribute "checksum" prepared.checksum else [])

/-- `make_metadata_xml`; the block of the entry with what was prepared for it, if
it has one. -/
def makeMetadataXml (entry : MetadataWriteEntry) (block : Option (BlockLocation × PreparedBlock)) :
    Result Text := do
  let escapedName ← escapeXml entry.name true
  let escapedValue ← escapeXml entry.value
    (entry.type ≠ lit "String" || entry.kind = .fitsKeyword)
  if entry.kind = .fitsKeyword then do
    let escapedComment ← escapeXml entry.comment true
    return lit "<FITSKeyword" ++ xmlAttribute "name" escapedName ++
      xmlAttribute "value" escapedValue ++ xmlAttribute "comment" escapedComment ++ lit "/>"
  else
    let opening := lit "<Property" ++ xmlAttribute "id" escapedName ++
      xmlAttribute "type" entry.type
    if entry.valueForm = .dataBlock then
      if isEmptyPropertyContainer entry then
        return opening ++
          (if entry.length.isSome then xmlAttribute "length" (lit "0") else
            extentAttributes entry) ++
          xmlAttribute "location" (lit "inline:base64") ++ lit "></Property>"
      else
        match block with
        | none => Mmxisf.fail .internalError (lit "Writer Property block layout is missing")
        | some (location, prepared) => do
            let escapedFormat ← escapeXml entry.format true
            return opening ++ extentAttributes entry ++
              (if entry.byteOrder = .big then xmlAttribute "byteOrder" (lit "big") else []) ++
              (if entry.format ≠ [] then xmlAttribute "format" escapedFormat else []) ++
              preparedAttributes prepared ++
              xmlAttribute "location" (attachmentLocation location.offset location.size) ++ lit "/>"
    else if entry.type = lit "String" then
      return opening ++ lit ">" ++ escapedValue ++ lit "</Property>"
    else return opening ++ xmlAttribute "value" escapedValue ++ lit "/>"

/-! ## The checks of metadata -/

/-- What the metadata loop of `write_impl` keeps: the identifiers that were
used, and the bytes of the Property blocks so far. -/
structure MetadataCheck where
  unitPropertyIds : List Text
  imagePropertyIds : List (List Text)
  cumulativePropertyBytes : Nat
  deriving DecidableEq, Repr

namespace MetadataCheck

def start (imageCount : Nat) : MetadataCheck where
  unitPropertyIds := [lit "XISF:CreationTime", lit "XISF:CreatorApplication"]
  imagePropertyIds := List.replicate imageCount []
  cumulativePropertyBytes := 0

/-- The identifiers of the Properties of an image, or of the unit. -/
def propertyIds (check : MetadataCheck) (imageIndex : Option Nat) : List Text :=
  match imageIndex with
  | some index => check.imagePropertyIds.getD index []
  | none => check.unitPropertyIds

def addPropertyId (check : MetadataCheck) (imageIndex : Option Nat) (name : Text) :
    MetadataCheck :=
  match imageIndex with
  | some index =>
      { check with imagePropertyIds := check.imagePropertyIds.modify index (· ++ [name]) }
  | none => { check with unitPropertyIds := check.unitPropertyIds ++ [name] }

end MetadataCheck

/-- The fields that only a block Property may declare, but for its byte order. -/
def declaresBlock (entry : MetadataWriteEntry) : Bool :=
  entry.length.isSome || entry.rows.isSome || entry.columns.isSome || entry.format ≠ [] ||
    entry.blockBytes ≠ [] || entry.compression ≠ .none || entry.byteShuffle ||
    entry.checksum ≠ .none

def checkFitsKeyword (entry : MetadataWriteEntry) : Result Unit := do
  reject (entry.valueForm ≠ .direct ∨ declaresBlock entry = true) .invalidArgument
    "Writer FITS keywords cannot use Property blocks"
  reject (entry.imageIndex.isNone = true) .invalidArgument
    "Writer FITS keywords require an image index"
  reject (entry.type ≠ []) .invalidArgument "Writer FITS keywords cannot declare a type"
  reject (isValidFitsKeywordName entry.name = false) .invalidArgument
    "Writer FITS keyword name has invalid syntax"

def checkDirectProperty (entry : MetadataWriteEntry) : Result Unit := do
  reject (declaresBlock entry = true ∨ entry.byteOrder ≠ .little) .invalidArgument
    "Writer direct Properties cannot declare block fields"
  reject (entry.type ≠ lit "String" ∧ entry.type ≠ lit "TimePoint" ∧
      isSupportedScalarPropertyType entry.type = false) .unsupportedFeature
    "Writer metadata Property type is not supported"
  reject (entry.type = lit "TimePoint" ∧ isCanonicalUtcTime entry.value = false) .invalidArgument
    "Writer TimePoint values must be YYYY-MM-DDTHH:MM:SSZ"
  reject (isSupportedScalarPropertyType entry.type = true ∧
      isValidScalarProperty entry.type entry.value = false) .invalidArgument
    "Writer scalar Property value is invalid or out of range"

/-- The number of elements that a block Property declares. -/
def elementCount (entry : MetadataWriteEntry) : Result Nat :=
  match classifyPropertyType entry.type with
  | .vector => do
      reject (entry.length.isNone = true ∨ entry.rows.isSome = true ∨ entry.columns.isSome = true)
        .invalidArgument "Writer vector Properties require a length only"
      return entry.length.getD 0
  | .matrix => do
      reject (entry.length.isSome = true ∨ entry.rows.isNone = true ∨ entry.columns.isNone = true)
        .invalidArgument "Writer matrix Properties require rows and columns"
      orFail (checkedMultiply (entry.rows.getD 0) (entry.columns.getD 0)) .overflow
        "Writer Property matrix extent overflows"
  | _ => Mmxisf.fail .internalError (lit "Writer Property category is inconsistent")

/-- The checks of a block Property, with the bytes of the blocks so far. -/
def checkBlockProperty (options : WriterOptions) (cumulative : Nat) (entry : MetadataWriteEntry) :
    Result Nat := do
  reject (entry.value ≠ []) .invalidArgument "Writer block Properties cannot declare a value"
  let layout ← orFail (propertyElementLayout entry.type) .unsupportedFeature
    "Writer block Property element type is not supported"
  let count ← elementCount entry
  let expectedBytes ← orFail (checkedMultiply count layout.elementSize) .overflow
    "Writer Property byte count overflows"
  reject (expectedBytes ≠ entry.blockBytes.length) .invalidArgument
    "Writer Property byte span does not match its typed extent"
  reject (expectedBytes > options.maxPropertyBytes) .resourceLimit
    "Writer Property exceeds its byte budget"
  let cumulative ← orFail ((checkedAdd cumulative expectedBytes).filter
      (· ≤ options.maxCumulativePropertyBytes)) .resourceLimit
    "Writer Properties exceed their cumulative byte budget"
  reject (entry.byteShuffle = true ∧ entry.compression = .none) .invalidArgument
    "Writer Property byte shuffle requires compression"
  reject (isEmptyPropertyContainer entry = true ∧
      (entry.byteOrder ≠ .little ∨ entry.format ≠ [] ∨ entry.compression ≠ .none ∨
        entry.byteShuffle = true ∨ entry.checksum ≠ .none)) .invalidArgument
    "Writer empty vector and matrix Properties require a plain inline block"
  let _ ← escapeXml entry.format true
  return cumulative

/-- The checks of a Property, and its identifier among the others. -/
def checkProperty (options : WriterOptions) (check : MetadataCheck) (entry : MetadataWriteEntry) :
    Result MetadataCheck := do
  reject (isValidPropertyIdentifier entry.name = false) .invalidArgument
    "Writer Property identifier has invalid syntax"
  reject (entry.comment ≠ []) .invalidArgument "Writer Properties cannot declare a FITS comment"
  let cumulative ← (match entry.valueForm with
    | .direct => do
        checkDirectProperty entry
        return check.cumulativePropertyBytes
    | .dataBlock => checkBlockProperty options check.cumulativePropertyBytes entry)
  reject (entry.imageIndex.isNone = true ∧ (lit "XISF:").isPrefixOf entry.name = false)
    .invalidArgument "Writer XISF-unit Property identifiers require XISF namespace"
  reject (entry.name ∈ check.propertyIds entry.imageIndex) .invalidArgument
    "Writer Property identifiers must be unique per association"
  return { check.addPropertyId entry.imageIndex entry.name with
    cumulativePropertyBytes := cumulative }

/-- One round of the metadata loop of `write_impl`. -/
def checkMetadataEntry (options : WriterOptions) (imageCount : Nat) (check : MetadataCheck)
    (entry : MetadataWriteEntry) : Result MetadataCheck := do
  reject (entry.imageIndex.any (· ≥ imageCount) = true) .invalidArgument
    "Writer metadata image index is out of range"
  reject (entry.value.length > options.maxMetadataValueBytes ∨
      entry.comment.length > options.maxMetadataValueBytes ∨
      entry.format.length > options.maxMetadataValueBytes) .resourceLimit
    "Writer metadata value exceeds its byte budget"
  let check ← (match entry.kind with
    | .fitsKeyword => do
        checkFitsKeyword entry
        return check
    | .property => checkProperty options check entry)
  if entry.valueForm = .direct then do
    let _ ← makeMetadataXml entry none
    return check
  else return check

end Mmxisf.Writer
