/-
# ReferenceLibraries -- libraries that do what is assumed of them

What is proved of the files of a writer assumes of its libraries that decompression undoes
compression, that numbers are read back and that a parser reports what a header renders
(`LawfulLibraries`).  The libraries here do: the parser is the scanner, codecs store what
they are given, and a number is written as its bits in decimal.  A call without codecs,
digests and bounds asks of them only what the real ones do, and of one of these there is a
unit (`exists_unit`).
-/
import Mmxisf.HeaderScanner
import Mmxisf.Publication
import Mmxisf.WrittenUnits

namespace Mmxisf

set_option autoImplicit false

open Writer (Codecs WriteCall TypedCall decimal onePixel reliable reliable_file)

/-! ## The libraries -/

/-- Codecs that store their input. -/
def storingCodecs : Codecs where
  outputs _ input output := output = input ∧ input ≠ []
  nonempty := by
    rintro _ input output ⟨rfl, some⟩
    exact some

def referencePlatform : Platform where
  parseXml chunks := ⟨scanHeader chunks.flatten, none⟩
  extractDouble text := (Reader.parseUnsigned text).map UInt64.ofNat
  toCharsScientific d := decimal d.toNat
  digest algorithm _ := List.replicate (digestBytes algorithm) 0
  compressBound _ size := size
  decompress _ input _ _ := ⟨true, input⟩
  acceptsWindowLog _ := true
  nativeByteOrder := .little

/-! ## What they keep -/

def storingLaws : CodecLaws referencePlatform storingCodecs where
  window _ := 0
  restores := by
    rintro codec input output windowLog ⟨rfl, -⟩ _
    rfl
  bounded := by
    rintro codec input output ⟨rfl, -⟩ _
    omega
  digests algorithm bytes _ := List.length_replicate

theorem referenceNumbers : NumberLaws referencePlatform := by
  refine ⟨fun d _ => decimal_tidy _, fun d _ => colon_free _, fun d _ => ⟨decimal_ne_nil _, ?_⟩,
    fun d _ => ?_⟩
  · exact fun plus => not_mem_decimal (by decide) _ (List.mem_of_head? plus)
  · have small : d.toNat ≤ u64Max := Nat.le_of_lt_succ d.toNat_lt
    show (Reader.parseUnsigned (decimal d.toNat)).map UInt64.ofNat = some d
    rw [parseUnsigned_decimal small, Option.map_some, UInt64.ofNat_toNat]

/-- The pieces that a document is handed to a parser in make up the document. -/
theorem flatten_xmlChunks : ∀ {fuel : Nat} {text : Text}, text.length ≤ fuel →
    (Reader.xmlChunks fuel text).flatten = text
  | 0, text, short => (List.length_eq_zero_iff.mp (Nat.le_zero.mp short)).symm
  | fuel + 1, text, short => by
      unfold Reader.xmlChunks
      by_cases none : text = []
      · rw [if_pos none, none]
        rfl
      · have some := List.length_pos_iff.mpr none
        have less : (text.drop Reader.kXmlChunkBytes).length ≤ fuel := by
          rw [List.length_drop, Reader.kXmlChunkBytes]
          omega
        rw [if_neg none, List.flatten_cons, flatten_xmlChunks less, List.take_append_drop]

theorem Splits.refl : ∀ events : List XmlEvent, Reader.Splits events events
  | [] => .nil
  | event :: rest => .keep event (Splits.refl rest)

/-- The scanner reports a header, with every text in one piece. -/
theorem scanHeader_reported {text : Text} {events : List XmlEvent} (renders : Renders text events) :
    Reported referencePlatform text events := by
  refine ⟨rfl, ?_⟩
  show Reader.Splits events (scanHeader (Reader.xmlChunks text.length text).flatten)
  rw [flatten_xmlChunks le_rfl, scanHeader_renders renders]
  exact Splits.refl events

def referenceLibraries {ι : Type} (calls : ι → WriteCall) :
    LawfulLibraries referencePlatform storingCodecs calls where
  laws := storingLaws
  numbers := referenceNumbers
  parsed _ := scanHeader_reported

/-! ## Units -/

/-- A unit of a call that a reliable disk lets succeed. -/
theorem exists_unit (call : TypedCall) (extents : ∀ entry ∈ call.call.metadata, ExtentsFit entry)
    (succeeds : ((Writer.write referencePlatform call.call).answered reliable .empty).1.isOk =
      true) :
    ∃ unit : WrittenUnit, unit.platform = referencePlatform ∧ unit.codecs = storingCodecs ∧
      unit.call = call.call := by
  obtain ⟨_, _, settled, contents, whole⟩ :=
    reliable_file referencePlatform storingCodecs call succeeds
  exact ⟨(referenceLibraries fun _ : Unit => call.call).unit (i := ()) whole.isUnit extents,
    rfl, rfl, rfl⟩

theorem onePixel_succeeds :
    ((Writer.write referencePlatform onePixel.call).answered reliable .empty).1.isOk = true := by
  decide +kernel

/-- The unit of one pixel. -/
theorem exists_onePixel : ∃ unit : WrittenUnit, unit.platform = referencePlatform ∧
    unit.codecs = storingCodecs ∧ unit.call = onePixel.call :=
  exists_unit onePixel (List.forall_mem_nil _) onePixel_succeeds

end Mmxisf
