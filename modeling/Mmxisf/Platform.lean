/-
# Platform -- what the library takes from outside its sources

Expat, zlib, LZ4, Zstandard, OpenSSL and the floating-point conversions of the
standard library are not part of the repository.  They are the fields of a
`Platform`: deterministic functions, about which nothing is assumed here.  What
a result needs of them it names as a hypothesis.
-/
import Mmxisf.Document

namespace Mmxisf

set_option autoImplicit false

inductive CompressionCodec
  | none | zlib | lz4 | lz4hc | zstd
  deriving DecidableEq, Repr

inductive ChecksumAlgorithm
  | none | sha1 | sha256 | sha512 | sha3_256 | sha3_512
  deriving DecidableEq, Repr

/-- What the handlers of an XML parser are called with.  Names carry their
namespace before the last `|`, as `XML_ParserCreateNS` reports them. -/
inductive XmlEvent
  | declaration (version encoding : Option Text) (standalone : Int)
  | doctype
  | startElement (name : Text) (attributes : List (Text × Text))
  | endElement (name : Text)
  | characterData (text : Text)
  deriving DecidableEq, Repr

/-- The calls a parser makes for a document, and the error it ends with, if
any: its `XML_ErrorString` and its byte index. -/
structure XmlReport where
  events : List XmlEvent
  malformed : Option (Text × Nat)
  deriving DecidableEq, Repr

/-- What one compressor call leaves: the bytes it produced in a buffer of the
given capacity, or why there are none. -/
inductive CompressReply
  | produced (bytes : Bytes)
  | bufferTooSmall
  | failed
  deriving DecidableEq, Repr

/-- What one decompressor call leaves: whether it reported success, with a zlib
stream that ended exactly at the end of its input, and the bytes it produced. -/
structure DecompressReply where
  complete : Bool
  output : Bytes
  deriving DecidableEq, Repr

structure Platform where
  /-- Expat over a document handed to it in these pieces. -/
  parseXml : List Text → XmlReport
  /-- Classic-locale stream extraction without skipping whitespace: the number,
  when extraction does not fail and reaches the end of the text. -/
  extractDouble : Text → Option Double
  /-- `std::to_chars`, scientific, sixteen digits after the point. -/
  toCharsScientific : Double → Text
  digest : ChecksumAlgorithm → Bytes → Bytes
  compressBound : CompressionCodec → Nat → Nat
  /-- Codec, input, size of the output buffer, Zstandard window logarithm. -/
  decompress : CompressionCodec → Bytes → Nat → Nat → DecompressReply
  /-- Zstandard takes this window logarithm as its limit. -/
  acceptsWindowLog : Nat → Bool
  /-- `std::endian::native`, never mixed. -/
  nativeByteOrder : ByteOrder

end Mmxisf
