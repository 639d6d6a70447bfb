/-
# PropertyTypes -- the XISF Property types and their element layouts

`src/property_types.hpp`: the category of a Property type name and, for the
block-backed types, the sizes the byte order and the byte shuffle work on.
-/
import Mmxisf.Base

namespace Mmxisf

set_option autoImplicit false

inductive PropertyCategory
  | scalarOrComplex
  | string
  | timePoint
  | vector
  | matrix
  | unknown
  deriving DecidableEq, Repr

def scalarAndComplexTypes : List Text :=
  ["Boolean", "Int8", "UInt8", "Byte", "Int16", "Short", "UInt16", "UShort", "Int32", "Int",
    "UInt32", "UInt", "Int64", "Int128", "UInt64", "UInt128", "Float32", "Float", "Float64",
    "Double", "Float128", "Quad", "Complex32", "Complex64", "Complex", "Complex128"].map lit

def vectorTypes : List Text :=
  ["I8Vector", "UI8Vector", "ByteArray", "I16Vector", "UI16Vector", "I32Vector", "IVector",
    "UI32Vector", "UIVector", "I64Vector", "UI64Vector", "I128Vector", "UI128Vector",
    "F32Vector", "F64Vector", "Vector", "F128Vector", "C32Vector", "C64Vector",
    "C128Vector"].map lit

def matrixTypes : List Text :=
  ["I8Matrix", "UI8Matrix", "ByteMatrix", "I16Matrix", "UI16Matrix", "I32Matrix", "IMatrix",
    "UI32Matrix", "UIMatrix", "I64Matrix", "UI64Matrix", "I128Matrix", "UI128Matrix",
    "F32Matrix", "F64Matrix", "Matrix", "F128Matrix", "C32Matrix", "C64Matrix",
    "C128Matrix"].map lit

def classifyPropertyType (type : Text) : PropertyCategory :=
  if type ∈ scalarAndComplexTypes then .scalarOrComplex
  else if type = lit "String" then .string
  else if type = lit "TimePoint" then .timePoint
  else if type ∈ vectorTypes then .vector
  else if type ∈ matrixTypes then .matrix
  else .unknown

structure PropertyElementLayout where
  elementSize : Nat
  scalarComponentSize : Nat
  stringData : Bool
  deriving DecidableEq, Repr

def propertyElementLayout (type : Text) : Option PropertyElementLayout :=
  if type = lit "String" then some ⟨1, 1, true⟩
  else if type ∈ ["I8Vector", "UI8Vector", "ByteArray", "I8Matrix", "UI8Matrix",
      "ByteMatrix"].map lit then some ⟨1, 1, false⟩
  else if type ∈ ["I16Vector", "UI16Vector", "I16Matrix", "UI16Matrix"].map lit then
    some ⟨2, 2, false⟩
  else if type ∈ ["I32Vector", "IVector", "UI32Vector", "UIVector", "F32Vector", "I32Matrix",
      "IMatrix", "UI32Matrix", "UIMatrix", "F32Matrix"].map lit then some ⟨4, 4, false⟩
  else if type ∈ ["I64Vector", "UI64Vector", "F64Vector", "Vector", "I64Matrix", "UI64Matrix",
      "F64Matrix", "Matrix"].map lit then some ⟨8, 8, false⟩
  else if type ∈ ["I128Vector", "UI128Vector", "F128Vector", "I128Matrix", "UI128Matrix",
      "F128Matrix"].map lit then some ⟨16, 16, false⟩
  else if type = lit "C32Vector" ∨ type = lit "C32Matrix" then some ⟨8, 4, false⟩
  else if type = lit "C64Vector" ∨ type = lit "C64Matrix" then some ⟨16, 8, false⟩
  else if type = lit "C128Vector" ∨ type = lit "C128Matrix" then some ⟨32, 16, false⟩
  else none

end Mmxisf
