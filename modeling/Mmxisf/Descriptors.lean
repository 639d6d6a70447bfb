/-
# Descriptors -- the texts that describe a block, written and read

A writer says where a block is, how it is compressed and what its digest is in
four texts.  Each is what the reader's parser of that text takes back to the
numbers it was made of: `parseLocation`, `parseCompressionPlan` and
`parseChecksumPlan` are inverse to `attachmentLocation`, `compressionText` with
`subblocksText`, and `checksumText`, unless a limit of the reader stops them.
-/
import Mmxisf.Reader.Plans
import Mmxisf.Reader.Room
import Mmxisf.Writer.Blocks
import Mmxisf.Writer.Tags

namespace Mmxisf

set_option autoImplicit false

open Library (Gates join split)
open Reader (parseUnsigned splitColons parseLocation ReaderOptions Passes)
open Writer (decimal attachmentLocation)

/-! ## Numbers -/

theorem value_decimal (n : Nat) : Library.Decimal.value (decimal n) = n := by
  have numeral : (toString n).toList = Nat.toDigits 10 n := Nat.toList_repr
  unfold decimal lit Library.Decimal.value
  rw [numeral, List.foldl_map]
  have digits : ∀ c ∈ Nat.toDigits 10 n, (UInt8.ofNat c.toNat).toNat = c.toNat := by
    intro c member
    have digit : c.isDigit = true := Nat.isDigit_of_mem_toDigits (by decide) (by decide) member
    simp only [Char.isDigit, Bool.and_eq_true, decide_eq_true_eq] at digit
    have high : c.toNat ≤ 57 := digit.2
    rw [UInt8.toNat_ofNat']
    omega
  have same : ∀ (cs : List Char) (total : Nat), (∀ c ∈ cs, (UInt8.ofNat c.toNat).toNat = c.toNat) →
      cs.foldl (fun total c => total * 10 + ((UInt8.ofNat c.toNat).toNat - 48)) total =
        Nat.ofDigitChars 10 cs total := by
    intro cs
    induction cs with
    | nil => exact fun _ _ => rfl
    | cons c rest ih =>
        intro total small
        rw [List.foldl_cons, small c List.mem_cons_self,
          ih _ fun d member => small d (List.mem_cons_of_mem _ member), Nat.ofDigitChars_cons,
          Nat.mul_comm]
        rfl
  rw [same _ 0 digits, Nat.ofDigitChars_ten_toDigits]

theorem decimal_ne_nil (n : Nat) : decimal n ≠ [] := by
  have numeral : (toString n).toList = Nat.toDigits 10 n := Nat.toList_repr
  unfold decimal lit
  rw [numeral, ne_eq, List.map_eq_nil_iff]
  exact Nat.toDigits_ne_nil

/-- A number of 64 bits is read back from its numeral. -/
theorem parseUnsigned_decimal {n : Nat} (fits : n ≤ u64Max) :
    parseUnsigned (decimal n) = some n := by
  have digits := Writer.decimal_digits n
  rw [parseUnsigned, if_neg (by simp [decimal_ne_nil n, digits]), value_decimal]
  exact if_pos fits

/-- A byte that is no digit is in no numeral. -/
theorem not_mem_decimal {c : Byte} (other : isAsciiDigit c = false) (n : Nat) : c ∉ decimal n := by
  intro member
  rw [List.all_eq_true.mp (Writer.decimal_digits n) c member] at other
  cases other

theorem colon_free (n : Nat) : ch ':' ∉ decimal n := not_mem_decimal (by decide) n

/-! ## Locations -/

theorem parseLocation_attachment {offset size : Nat} (offsetFits : offset ≤ u64Max)
    (sizeFits : size ≤ u64Max) :
    parseLocation (attachmentLocation offset size) =
      ⟨.attachment, offset, size, attachmentLocation offset size⟩ := by
  have shape : attachmentLocation offset size =
      Reader.attachmentPrefix ++ (decimal offset ++ ch ':' :: decimal size) := by
    unfold attachmentLocation Reader.attachmentPrefix
    rw [List.append_assoc, List.append_assoc]
    rfl
  have attached : Reader.attachmentPrefix.isPrefixOf (attachmentLocation offset size) = true := by
    rw [shape, List.isPrefixOf_iff_prefix]
    exact List.prefix_append _ _
  have fields : splitColons ((attachmentLocation offset size).drop Reader.attachmentPrefix.length) =
      [decimal offset, decimal size] := by
    rw [shape, List.drop_left, splitColons, Library.split_append _ (colon_free offset),
      Library.split_of_not_mem (colon_free size)]
  unfold parseLocation
  rw [if_pos attached, fields]
  simp only [parseUnsigned_decimal offsetFits, parseUnsigned_decimal sizeFits]

/-! ## Checksums -/

/-- The size of a digest. -/
def digestBytes : ChecksumAlgorithm → Nat
  | .none => 0
  | .sha1 => 20
  | .sha256 | .sha3_256 => 32
  | .sha512 | .sha3_512 => 64

/-- The two hexadecimal digits of a byte. -/
def hexadecimal (byte : Byte) : Text :=
  [Writer.checksumDigit (byte.toNat / 16), Writer.checksumDigit (byte.toNat % 16)]

theorem lowercaseHexValue_digit : ∀ value < 16,
    Reader.lowercaseHexValue (Writer.checksumDigit value) = some value ∧
      Writer.checksumDigit value ≠ ch ':' := by
  decide

theorem decodeDigest_hexadecimal : ∀ digest : Bytes,
    Reader.decodeDigest (digest.flatMap hexadecimal) = some digest
  | [] => rfl
  | byte :: rest => by
      have high := (lowercaseHexValue_digit (byte.toNat / 16) (by have := byte.toNat_lt; omega)).1
      have low := (lowercaseHexValue_digit (byte.toNat % 16) (by omega)).1
      have together : byte.toNat / 16 * 16 + byte.toNat % 16 = byte.toNat := by omega
      rw [List.flatMap_cons, hexadecimal, List.cons_append, List.cons_append, List.nil_append,
        Reader.decodeDigest, high, low, decodeDigest_hexadecimal rest]
      simp only [together, UInt8.ofNat_toNat]

theorem length_hexadecimal (digest : Bytes) :
    (digest.flatMap hexadecimal).length = digest.length * 2 := by
  induction digest with
  | nil => rfl
  | cons byte rest ih =>
      rw [List.flatMap_cons, List.length_append, ih, List.length_cons]
      show 2 + _ = _
      omega

/-- The checksum of a block is read back: its algorithm, and the digest. -/
theorem parseChecksumPlan_text {platform : Platform} {algorithm : ChecksumAlgorithm} {bytes : Bytes}
    (declared : algorithm ≠ .none)
    (length : (platform.digest algorithm bytes).length = digestBytes algorithm) :
    Reader.parseChecksumPlan (Writer.checksumText platform algorithm bytes) =
      .ok ⟨algorithm, platform.digest algorithm bytes⟩ := by
  have named : ch ':' ∉ Writer.checksumName algorithm ∧
      (algorithm ≠ .none → Reader.checksumAlgorithm (Writer.checksumName algorithm) =
        some (algorithm, digestBytes algorithm)) := by
    cases algorithm <;> decide
  have colonFree : ch ':' ∉ (platform.digest algorithm bytes).flatMap hexadecimal := by
    rw [List.mem_flatMap]
    rintro ⟨byte, -, member⟩
    have small := byte.toNat_lt
    rcases List.mem_cons.mp member with same | member
    · exact (lowercaseHexValue_digit (byte.toNat / 16) (by omega)).2 same.symm
    · exact (lowercaseHexValue_digit (byte.toNat % 16) (by omega)).2
        (List.mem_singleton.mp member).symm
  have shape : Writer.checksumText platform algorithm bytes = Writer.checksumName algorithm ++
      ch ':' :: (platform.digest algorithm bytes).flatMap hexadecimal := by
    unfold Writer.checksumText
    rw [List.append_assoc]
    rfl
  have some : Writer.checksumText platform algorithm bytes ≠ [] := by
    rw [shape]
    simp
  rw [Reader.parseChecksumPlan, if_neg some, shape, splitColons,
    Library.split_append _ named.1, Library.split_of_not_mem colonFree]
  simp only [named.2 declared, orFail, reject, length_hexadecimal, length, decodeDigest_hexadecimal,
    bind, Except.bind, pure, Except.pure, ne_eq, not_true_eq_false, if_false]

/-! ## Subblocks -/

/-- The sizes of a subblock, as `subblocksText` writes them. -/
def subblockField (sizes : Nat × Nat) : Text := decimal sizes.1 ++ ch ',' :: decimal sizes.2

def subblockOf (sizes : Nat × Nat) : Reader.CompressionSubblock := ⟨sizes.1, sizes.2⟩

theorem join_cons {α : Type} (separator : α) (field : List α) (rest : List (List α)) :
    join separator (field :: rest) = field ++ rest.flatMap (separator :: ·) := by
  induction rest generalizing field with
  | nil => simp [join]
  | cons next rest ih =>
      rw [join, ih, List.flatMap_cons, List.cons_append]
      exact List.cons_ne_nil next rest

theorem foldl_appendSubblock (sizes : List (Nat × Nat)) (text : Text) (some : text ≠ []) :
    sizes.foldl Writer.appendSubblock text =
      text ++ (sizes.map subblockField).flatMap (ch ':' :: ·) := by
  induction sizes generalizing text with
  | nil => simp
  | cons first rest ih =>
      have step : Writer.appendSubblock text first = text ++ ch ':' :: subblockField first := by
        unfold Writer.appendSubblock subblockField
        rw [if_pos some, List.append_assoc, List.append_assoc, List.append_assoc]
        rfl
      rw [List.foldl_cons, step, ih _ (by simp), List.map_cons, List.flatMap_cons,
        List.append_assoc]

theorem appendSubblocks_eq {sizes : List (Nat × Nat)} (some : sizes ≠ []) :
    sizes.foldl Writer.appendSubblock [] = join (ch ':') (sizes.map subblockField) := by
  obtain ⟨first, rest, rfl⟩ := List.exists_cons_of_ne_nil some
  have start : Writer.appendSubblock [] first = subblockField first := by
    unfold Writer.appendSubblock subblockField
    rw [if_neg (by simp), List.nil_append, List.append_assoc]
    rfl
  have named : subblockField first ≠ [] := by
    simp [subblockField, decimal_ne_nil]
  rw [List.foldl_cons, start, foldl_appendSubblock rest _ named, List.map_cons, join_cons]

theorem appendSubblocks_ne_nil {sizes : List (Nat × Nat)} (some : sizes ≠ []) :
    sizes.foldl Writer.appendSubblock [] ≠ [] := by
  rw [appendSubblocks_eq some]
  obtain ⟨first, rest, rfl⟩ := List.exists_cons_of_ne_nil some
  rw [List.map_cons, join_cons]
  simp [subblockField, decimal_ne_nil]

theorem subblockField_colon (sizes : Nat × Nat) : ch ':' ∉ subblockField sizes := by
  unfold subblockField
  rw [List.mem_append, List.mem_cons]
  rintro (inside | same | inside)
  · exact colon_free _ inside
  · exact absurd same (by decide)
  · exact colon_free _ inside

theorem splitColons_subblocks {sizes : List (Nat × Nat)} (some : sizes ≠ []) :
    splitColons (sizes.foldl Writer.appendSubblock []) = sizes.map subblockField := by
  rw [appendSubblocks_eq some, splitColons, Library.split_join (by simpa using some)]
  intro field member
  obtain ⟨pair, -, rfl⟩ := List.mem_map.mp member
  exact subblockField_colon pair

/-- Both sizes of a subblock are positive numbers of 64 bits. -/
def SizesFit (sizes : Nat × Nat) : Prop :=
  (0 < sizes.1 ∧ sizes.1 ≤ u64Max) ∧ 0 < sizes.2 ∧ sizes.2 ≤ u64Max

theorem parseSubblock_field {sizes : Nat × Nat} (fit : SizesFit sizes) :
    Reader.parseSubblock (subblockField sizes) = some (subblockOf sizes) := by
  obtain ⟨compressed, uncompressed⟩ := sizes
  obtain ⟨⟨positive, fits⟩, positiveBefore, fitsBefore⟩ := fit
  obtain ⟨c, rfl⟩ := Nat.exists_eq_add_of_lt positive
  obtain ⟨u, rfl⟩ := Nat.exists_eq_add_of_lt positiveBefore
  have comma (n : Nat) : ch ',' ∉ decimal n := not_mem_decimal (by decide) n
  rw [Reader.parseSubblock, subblockField, Library.split_append _ (comma _),
    Library.split_of_not_mem (comma _)]
  simp only [parseUnsigned_decimal fits, parseUnsigned_decimal fitsBefore]
  rfl

theorem parseSubblocks_fields {ω : Type} {settings : ω → ReaderOptions} :
    ∀ (sizes : List (Nat × Nat)) (count compressed uncompressed : Nat),
      (∀ pair ∈ sizes, SizesFit pair) →
      compressed + (sizes.map Prod.fst).sum ≤ u64Max →
      uncompressed + (sizes.map Prod.snd).sum ≤ u64Max →
      Passes settings (fun o => Reader.parseSubblocks (settings o) count compressed uncompressed
        (sizes.map subblockField)) fun _ => (sizes.map subblockOf,
          compressed + (sizes.map Prod.fst).sum, uncompressed + (sizes.map Prod.snd).sum)
  | [], _, _, _, _, _, _ => passes_ok
  | first :: rest, count, compressed, uncompressed, fit, room, roomBefore => by
      simp only [List.map_cons, List.sum_cons] at room roomBefore
      have later := @parseSubblocks_fields _ settings rest (count + 1) (compressed + first.1)
        (uncompressed + first.2) (fun pair member => fit pair (List.mem_cons_of_mem _ member))
        (by omega) (by omega)
      have sum : checkedAdd compressed first.1 = some (compressed + first.1) :=
        (checkedAdd_eq_some (by omega)).mpr ⟨rfl, by omega⟩
      have sumBefore : checkedAdd uncompressed first.2 = some (uncompressed + first.2) :=
        (checkedAdd_eq_some (by omega)).mpr ⟨rfl, by omega⟩
      simp only [List.map_cons, List.sum_cons, ← Nat.add_assoc]
      unfold Reader.parseSubblocks
      refine .andThen (passes_below (by simp [ReaderOptions.limits])) ?_
      refine .andThen (passes_some (parseSubblock_field (fit first List.mem_cons_self))) ?_
      refine .andThen (passes_some sum) (.andThen (passes_some sumBefore) ?_)
      exact .andThen later passes_ok

/-! ## Compression -/

theorem compressionText_fields (request : Writer.BlockPrepareRequest)
    (compressed : request.compression ≠ .none) :
    ∃ name, Reader.compressionCodec name = some (request.compression, request.byteShuffle) ∧
      Writer.compressionText request ≠ [] ∧
      splitColons (Writer.compressionText request) = name :: decimal request.bytes.length ::
        if request.byteShuffle = true then [decimal request.itemSize] else [] := by
  have named : ∀ codec : CompressionCodec, codec ≠ .none → ∀ shuffled : Bool,
      Reader.compressionCodec (Writer.compressionName codec ++
          (if shuffled = true then lit "+sh" else [])) = some (codec, shuffled) ∧
        ch ':' ∉ Writer.compressionName codec ++ (if shuffled = true then lit "+sh" else []) := by
    rintro (_ | _ | _ | _ | _) <;> decide
  obtain ⟨known, colonFree⟩ := named request.compression compressed request.byteShuffle
  refine ⟨_, known, ?_, ?_⟩
  · unfold Writer.compressionText
    simp [lit]
  · have colon : lit ":" = [ch ':'] := rfl
    unfold Writer.compressionText
    revert colonFree
    cases request.byteShuffle with
    | true =>
        intro colonFree
        simp only [if_true, colon, List.append_assoc, List.cons_append, List.nil_append]
          at colonFree ⊢
        rw [← List.append_assoc, splitColons, Library.split_append _ colonFree,
          Library.split_append _ (colon_free _), Library.split_of_not_mem (colon_free _)]
    | false =>
        intro colonFree
        simp only [Bool.false_eq_true, if_false, colon, List.append_nil, List.append_assoc,
          List.cons_append, List.nil_append] at colonFree ⊢
        rw [splitColons, Library.split_append _ colonFree, Library.split_of_not_mem (colon_free _)]

/-- The plan of a block that was compressed so. -/
def compressedPlan (request : Writer.BlockPrepareRequest) (sizes : List (Nat × Nat))
    (options : Reader.ReaderOptions) : Reader.CompressionPlan where
  codec := request.compression
  byteShuffled := request.byteShuffle
  uncompressedSize := request.bytes.length
  itemSize := if request.byteShuffle = true then request.itemSize else 1
  maxZstdWindowBytes := options.maxZstdWindowBytes
  subblocks := sizes.map subblockOf

/-- A ratio is large enough when it is at least the size. -/
theorem ratio_room {serializedBytes size ratio : Nat} (some : serializedBytes ≠ 0)
    (fits : size ≤ u64Max) (roomy : size ≤ ratio) :
    ¬ size > (checkedMultiply serializedBytes ratio).getD u64Max := by
  rw [Nat.not_lt]
  cases product : checkedMultiply serializedBytes ratio with
  | none => exact fits
  | some maximum =>
      rw [(checkedMultiply_eq_some.mp product).1, Option.getD_some]
      exact roomy.trans (Nat.le_mul_of_pos_left _ (Nat.pos_of_ne_zero some))

section

variable {ω : Type} {settings : ω → ReaderOptions} {maxSerializedBytes maxDecodedBytes : ω → Nat}

/-- The compression of a block is read back. -/
theorem parseCompressionPlan_text {request : Writer.BlockPrepareRequest}
    {sizes : List (Nat × Nat)} {serializedBytes : Nat} {expected : Option Nat}
    (compressed : request.compression ≠ .none) (some : sizes ≠ [])
    (fit : ∀ pair ∈ sizes, SizesFit pair) (total : (sizes.map Prod.fst).sum = serializedBytes)
    (totalBefore : (sizes.map Prod.snd).sum = request.bytes.length)
    (room : serializedBytes ≤ u64Max) (roomBefore : request.bytes.length ≤ u64Max)
    (item : request.byteShuffle = true → request.itemSize ≠ 0 ∧ request.itemSize ≤ u64Max)
    (extent : ∀ size, expected = .some size → size = request.bytes.length)
    (serialized : ∀ o, (settings o).room ≤ maxSerializedBytes o)
    (decoded : ∀ o, (settings o).room ≤ maxDecodedBytes o) :
    Passes settings (fun o => Reader.parseCompressionPlan (Writer.compressionText request)
        (Writer.subblocksText sizes) serializedBytes expected (settings o) request.itemSize
        (maxSerializedBytes o) (maxDecodedBytes o))
      fun o => compressedPlan request sizes (settings o) := by
  obtain ⟨name, known, textual, fields⟩ := compressionText_fields request compressed
  obtain ⟨first, rest, rfl⟩ := List.exists_cons_of_ne_nil some
  obtain ⟨⟨positive, -⟩, positiveBefore, -⟩ := fit first List.mem_cons_self
  simp only [List.map_cons, List.sum_cons] at total totalBefore
  have sized : (parseUnsigned (decimal request.bytes.length)).filter (· ≠ 0) =
      .some request.bytes.length := by
    rw [parseUnsigned_decimal roomBefore]
    exact Option.filter_eq_some_iff.mpr ⟨rfl, decide_eq_true (by omega)⟩
  have agreed : ¬ expected.any (· ≠ request.bytes.length) = true := by
    cases expected with
    | none => simp
    | some size => simp [extent size rfl]
  have declaredItem : (if request.byteShuffle = true then
      (parseUnsigned ((name :: decimal request.bytes.length ::
        if request.byteShuffle = true then [decimal request.itemSize] else []).getD 2 [])).filter
          fun item => item ≠ 0 && item = request.itemSize
      else .some 1) = .some (if request.byteShuffle = true then request.itemSize else 1) := by
    split
    · rename_i shuffled
      obtain ⟨nonzero, fits⟩ := item shuffled
      have third : (name :: decimal request.bytes.length :: [decimal request.itemSize]).getD 2 [] =
          decimal request.itemSize := rfl
      rw [third, parseUnsigned_decimal fits]
      exact Option.filter_eq_some_iff.mpr ⟨rfl, by simp [nonzero]⟩
    · rfl
  unfold Reader.parseCompressionPlan
  refine .andThen (passes_limit serializedBytes fun o roomy beyond => ?_) ?_
  · exact absurd (roomy.trans (serialized o)) (Nat.not_le_of_lt beyond)
  refine .andThen (passes_check (by omega)) (.ifFalse textual ?_)
  rw [fields]
  refine .andThen (passes_check ?_) ?_
  · split <;> simp
  refine .andThen (passes_some (by exact known)) ?_
  refine .andThen (passes_check ?_) ?_
  · split <;> simp
  refine .andThen (passes_some (by exact sized)) ?_
  refine .andThen (passes_check agreed) ?_
  refine .andThen (passes_some declaredItem) ?_
  refine .andThen (passes_check (by omega)) ?_
  refine .andThen (passes_limit request.bytes.length fun o roomy => ?_) ?_
  · exact ratio_room (by omega) roomBefore
      (roomy.trans (ReaderOptions.room_le (by simp [ReaderOptions.limits])))
  refine .andThen (passes_limit request.bytes.length fun o roomy beyond => ?_) ?_
  · have enough := roomy.trans (decoded o)
    omega
  cases rest with
  | nil =>
      have text : Writer.subblocksText [first] = [] := rfl
      simp only [List.map_nil, List.sum_nil, Nat.add_zero] at total totalBefore
      subst total
      refine .ifTrue text (.of_eq fun o => ?_)
      rw [compressedPlan, List.map_singleton, subblockOf, totalBefore]
      rfl
  | cons next rest =>
      have text : Writer.subblocksText (first :: next :: rest) =
          (first :: next :: rest).foldl Writer.appendSubblock [] := if_pos (by simp)
      rw [text]
      refine .ifFalse (appendSubblocks_ne_nil some) ?_
      rw [splitColons_subblocks some]
      refine .andThen (parseSubblocks_fields _ 0 0 0 fit ?_ ?_) ?_
      · simp only [List.map_cons, List.sum_cons] at total ⊢
        omega
      · simp only [List.map_cons, List.sum_cons] at totalBefore ⊢
        omega
      · refine .andThen (passes_check ?_) passes_ok
        simp only [List.map_cons, List.sum_cons] at total totalBefore ⊢
        omega

/-- A block without a codec is read back as it is. -/
theorem parseCompressionPlan_plain {serializedBytes itemSize : Nat} {expected : Option Nat}
    (extent : ∀ size, expected = .some size → size = serializedBytes)
    (fits : serializedBytes ≤ u64Max)
    (serialized : ∀ o, (settings o).room ≤ maxSerializedBytes o)
    (decoded : ∀ o, (settings o).room ≤ maxDecodedBytes o) :
    Passes settings (fun o => Reader.parseCompressionPlan [] [] serializedBytes
      expected (settings o)
        itemSize (maxSerializedBytes o) (maxDecodedBytes o))
      fun _ => { uncompressedSize := serializedBytes } := by
  have agreed : ¬ expected.any (· ≠ serializedBytes) = true := by
    cases expected with
    | none => simp
    | some size => simp [extent size rfl]
  unfold Reader.parseCompressionPlan
  refine .andThen (passes_limit serializedBytes fun o roomy beyond => ?_)
    (.andThen (passes_check (by omega)) (.ifTrue rfl ?_))
  · exact absurd (roomy.trans (serialized o)) (Nat.not_le_of_lt beyond)
  refine .andThen (passes_check (by simp)) (.andThen (passes_check agreed) ?_)
  refine .andThen (passes_limit serializedBytes fun o roomy beyond => ?_) passes_ok
  exact absurd (roomy.trans (decoded o)) (Nat.not_le_of_lt beyond)

end

end Mmxisf
