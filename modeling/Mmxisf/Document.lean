/-
# Document -- what a reader reports about a unit

`include/mmxisf/document.hpp`.  A `double` is its IEEE 754 binary64 bit pattern:
finiteness and order are read off the bits, and only the conversion from and to
text is left to the platform (`Platform`).  The single-valued enumerations
`PixelOrigin` and `PixelTraversal` carry no information and are left out.
-/
import Mmxisf.Base

namespace Mmxisf

set_option autoImplicit false

/-! ## Doubles -/

/-- The bit pattern of a binary64 number. -/
abbrev Double := UInt64

namespace Double

def signBit (d : Double) : Bool := 9223372036854775808 ≤ d.toNat

/-- The exponent and the fraction: the magnitude's place among magnitudes. -/
def magnitude (d : Double) : Nat := d.toNat % 9223372036854775808

/-- `std::isfinite`: the exponent is not all ones. -/
def isFinite (d : Double) : Bool := d.magnitude < 9218868437227405312

/-- The place of a finite number in the order; the two zeros share one. -/
def rank (d : Double) : Int := if d.signBit then -(d.magnitude : Int) else d.magnitude

/-- `left < right` on finite numbers. -/
def less (left right : Double) : Bool := left.rank < right.rank

/-- The bit pattern of `1.0`. -/
def one : Double := 4607182418800017408

end Double

/-! ## Descriptors -/

inductive SampleFormat
  | uint8 | uint16 | uint32 | uint64 | float32 | float64 | complex32 | complex64 | unsupported
  deriving DecidableEq, Repr

inductive PixelStorage
  | planar | normal
  deriving DecidableEq, Repr

inductive ByteOrder
  | little | big
  deriving DecidableEq, Repr

inductive BlockKind
  | attachment | embedded | inlineData | external | unknown
  deriving DecidableEq, Repr

inductive ImageOrientation
  | identity | flip | rotate90 | rotate90Flip | rotateMinus90 | rotateMinus90Flip | rotate180
  | rotate180Flip
  deriving DecidableEq, Repr

inductive NominalChannelOrder
  | grayThenAlpha | redGreenBlueThenAlpha | cieLABThenAlpha
  deriving DecidableEq, Repr

structure BlockLocation where
  kind : BlockKind
  offset : Nat
  size : Nat
  raw : Text
  deriving DecidableEq, Repr

namespace BlockLocation

/-- A default-constructed `BlockLocation`. -/
def empty : BlockLocation := ⟨.unknown, 0, 0, []⟩

end BlockLocation

inductive MetadataKind
  | property | fitsKeyword
  deriving DecidableEq, Repr

inductive MetadataScope
  | standalone | xisfUnit | image
  deriving DecidableEq, Repr

/-- `MetadataEntry::ValueForm` and `TableCellInfo::ValueForm`. -/
inductive ValueForm
  | attribute | characterData | dataBlock
  deriving DecidableEq, Repr

structure MetadataEntry where
  kind : MetadataKind
  scope : MetadataScope
  valueForm : ValueForm
  imageIndex : Option Nat
  uid : Text
  name : Text
  type : Text
  value : Text
  comment : Text
  format : Text
  block : BlockLocation
  byteOrder : ByteOrder
  compression : Text
  subblocks : Text
  checksum : Text
  length : Option Nat
  rows : Option Nat
  columns : Option Nat
  deriving DecidableEq, Repr

/-- `MetadataBinding::Scope`. -/
inductive BindingScope
  | xisfUnit | image
  deriving DecidableEq, Repr

structure MetadataBinding where
  metadataIndex : Nat
  scope : BindingScope
  imageIndex : Option Nat
  byReference : Bool
  deriving DecidableEq, Repr

structure TableFieldInfo where
  id : Text
  type : Text
  format : Text
  header : Text
  deriving DecidableEq, Repr

structure TableStructureInfo where
  uid : Text
  /-- Empty for a standalone root Structure; set for an inline Table child. -/
  tableIndex : Option Nat
  fields : List TableFieldInfo
  deriving DecidableEq, Repr

structure TableCellInfo where
  valueForm : ValueForm
  value : Text
  block : BlockLocation
  byteOrder : ByteOrder
  compression : Text
  subblocks : Text
  checksum : Text
  length : Option Nat
  rows : Option Nat
  columns : Option Nat
  deriving DecidableEq, Repr

structure TableRowInfo where
  cells : List TableCellInfo
  deriving DecidableEq, Repr

structure TableInfo where
  uid : Text
  imageIndex : Option Nat
  id : Text
  caption : Text
  comment : Text
  declaredRows : Option Nat
  declaredColumns : Option Nat
  structureIndex : Option Nat
  structureByReference : Bool
  rows : List TableRowInfo
  deriving DecidableEq, Repr

/-- `TableBinding`, `AncillaryBinding`, `IccProfileBinding` and
`ThumbnailBinding`: an object of the binding's kind, and the image it is bound
to. -/
structure ObjectBinding where
  objectIndex : Nat
  imageIndex : Nat
  byReference : Bool
  deriving DecidableEq, Repr

structure XmlAttribute where
  namespaceUri : Text
  name : Text
  value : Text
  deriving DecidableEq, Repr

structure ExtensionElement where
  namespaceUri : Text
  name : Text
  parentNamespaceUri : Text
  parentName : Text
  parentExtensionIndex : Option Nat
  imageIndex : Option Nat
  attributes : List XmlAttribute
  text : Text
  deriving DecidableEq, Repr

inductive AncillaryKind
  | rgbWorkingSpace | displayFunction | colorFilterArray | resolution
  deriving DecidableEq, Repr

structure AncillaryObject where
  kind : AncillaryKind
  uid : Text
  imageIndex : Option Nat
  attributes : List XmlAttribute
  deriving DecidableEq, Repr

structure IccProfileInfo where
  uid : Text
  imageIndex : Option Nat
  block : BlockLocation
  compression : Text
  subblocks : Text
  checksum : Text
  deriving DecidableEq, Repr

structure ImageInfo where
  id : Text
  geometry : List Nat
  sampleFormat : SampleFormat
  sampleFormatName : Text
  colorSpace : Text
  orientation : Option ImageOrientation
  nominalChannelOrder : NominalChannelOrder
  lowerBound : Option Double
  upperBound : Option Double
  pixelStorage : PixelStorage
  byteOrder : ByteOrder
  block : BlockLocation
  compression : Text
  subblocks : Text
  checksum : Text
  deriving DecidableEq, Repr

structure ThumbnailInfo where
  uid : Text
  imageIndex : Option Nat
  image : ImageInfo
  deriving DecidableEq, Repr

structure Document where
  version : Text
  images : List ImageInfo
  metadata : List MetadataEntry
  fileSize : Nat
  headerLength : Nat
  metadataBindings : List MetadataBinding
  extensionElements : List ExtensionElement
  ancillaryObjects : List AncillaryObject
  ancillaryBindings : List ObjectBinding
  iccProfiles : List IccProfileInfo
  iccProfileBindings : List ObjectBinding
  thumbnails : List ThumbnailInfo
  thumbnailBindings : List ObjectBinding
  tableStructures : List TableStructureInfo
  tables : List TableInfo
  tableBindings : List ObjectBinding
  deriving DecidableEq, Repr

end Mmxisf
