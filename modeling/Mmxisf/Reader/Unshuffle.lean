/-
# Reader.Unshuffle -- the positions of a byte-shuffled block

Byte `i` of a shuffled block goes to byte `i / itemCount` of item
`i % itemCount`, or stays when it lies in the tail after the last whole item.
That permutes the positions of the block, so what is decoded into a buffer does
not depend on what was there, however the block is cut into subblocks.
-/
import Mmxisf.Reader.Decoded

namespace Mmxisf.Reader

set_option autoImplicit false

open Library (Permutes scatter overwrite slice)

/-! ## The positions -/

section Positions

variable {itemSize size : Nat}

/-- A position before the tail is an item and a byte of it. -/
theorem unshuffledPosition_of_lt {i : Nat} (small : i < size / itemSize * itemSize) :
    unshuffledPosition itemSize size i =
      i % (size / itemSize) * itemSize + i / (size / itemSize) := by
  simp only [unshuffledPosition, if_pos small]

theorem unshuffledPosition_of_tail {i : Nat} (large : size / itemSize * itemSize ≤ i) :
    unshuffledPosition itemSize size i = i := by
  simp only [unshuffledPosition, if_neg (Nat.not_lt.mpr large)]

/-- Item and byte of a shuffled position, with their bounds. -/
theorem item_and_byte {i : Nat} (small : i < size / itemSize * itemSize) :
    i % (size / itemSize) < size / itemSize ∧ i / (size / itemSize) < itemSize := by
  have some : 0 < size / itemSize := by
    rcases Nat.eq_zero_or_pos (size / itemSize) with zero | positive
    · rw [zero, Nat.zero_mul] at small
      exact absurd small (Nat.not_lt_zero i)
    · exact positive
  exact ⟨Nat.mod_lt i some, Nat.div_lt_of_lt_mul small⟩

/-- What is shuffled stays before the tail. -/
theorem unshuffledPosition_lt {i : Nat} (small : i < size / itemSize * itemSize) :
    unshuffledPosition itemSize size i < size / itemSize * itemSize := by
  obtain ⟨item, byte⟩ := item_and_byte small
  rw [unshuffledPosition_of_lt small]
  calc i % (size / itemSize) * itemSize + i / (size / itemSize)
      < i % (size / itemSize) * itemSize + itemSize := Nat.add_lt_add_left byte _
    _ = (i % (size / itemSize) + 1) * itemSize := (Nat.succ_mul _ _).symm
    _ ≤ size / itemSize * itemSize := Nat.mul_le_mul_right _ item

/-- Item and byte can be read off a position, and give the shuffled one back. -/
theorem shuffled_of_position {i : Nat} (small : i < size / itemSize * itemSize) :
    unshuffledPosition itemSize size i % itemSize * (size / itemSize) +
      unshuffledPosition itemSize size i / itemSize = i := by
  obtain ⟨item, byte⟩ := item_and_byte small
  have positive : 0 < itemSize := Nat.lt_of_le_of_lt (Nat.zero_le _) byte
  have offset : unshuffledPosition itemSize size i % itemSize = i / (size / itemSize) := by
    rw [unshuffledPosition_of_lt small, Nat.mul_add_mod_self_right, Nat.mod_eq_of_lt byte]
  have index : unshuffledPosition itemSize size i / itemSize = i % (size / itemSize) := by
    rw [unshuffledPosition_of_lt small, Nat.mul_comm _ itemSize, Nat.mul_add_div positive,
      Nat.div_eq_of_lt byte, Nat.add_zero]
  rw [offset, index, Nat.mul_comm]
  exact Nat.div_add_mod i _

/-- The positions of a block are permuted, whatever the item size. -/
theorem unshuffledPosition_permutes (itemSize size : Nat) :
    Permutes (unshuffledPosition itemSize size) size where
  inside := by
    intro i small
    have whole : size / itemSize * itemSize ≤ size := Nat.div_mul_le_self size itemSize
    rcases Nat.lt_or_ge i (size / itemSize * itemSize) with shuffled | tail
    · exact Nat.lt_of_lt_of_le (unshuffledPosition_lt shuffled) whole
    · rwa [unshuffledPosition_of_tail tail]
  injective := by
    intro a b order _ same
    rcases Nat.lt_or_ge b (size / itemSize * itemSize) with shuffled | tail
    · have first := shuffled_of_position (Nat.lt_trans order shuffled)
      rw [same, shuffled_of_position shuffled] at first
      omega
    · rcases Nat.lt_or_ge a (size / itemSize * itemSize) with shuffledFirst | tailFirst
      · have before := unshuffledPosition_lt shuffledFirst
        rw [same, unshuffledPosition_of_tail tail] at before
        omega
      · rw [unshuffledPosition_of_tail tailFirst, unshuffledPosition_of_tail tail] at same
        omega

end Positions

/-! ## Decoding a whole block -/

/-- The decompressed subblocks. -/
def decompressedPieces (platform : Platform) (serialized : Bytes) (codec : CompressionCodec)
    (maxZstdWindowBytes : Nat) : List CompressionSubblock → Nat → Result (List Bytes)
  | [], _ => .ok []
  | subblock :: rest, inputOffset => do
      let piece ← decompressed platform codec
        (slice serialized inputOffset subblock.compressedSize) subblock.uncompressedSize
        maxZstdWindowBytes
      let pieces ← decompressedPieces platform serialized codec maxZstdWindowBytes rest
        (inputOffset + subblock.compressedSize)
      return piece :: pieces

theorem decompressedPieces_error {platform : Platform} {serialized : Bytes}
    {codec : CompressionCodec} {maxZstdWindowBytes : Nat} {e : Error} :
    ∀ {subblocks : List CompressionSubblock} {inputOffset : Nat},
      decompressedPieces platform serialized codec maxZstdWindowBytes subblocks inputOffset =
        .error e → e ∈ decompressionErrors
  | [], _, run => by cases run
  | subblock :: later, inputOffset, run => by
      simp only [decompressedPieces, bind_eq_error, pure, Except.pure, reduceCtorEq, and_false,
        exists_false, or_false] at run
      rcases run with first | ⟨_, -, rest⟩
      · exact decompressed_error first
      · exact decompressedPieces_error rest

theorem length_decompressedPieces {platform : Platform} {serialized : Bytes}
    {codec : CompressionCodec} {maxZstdWindowBytes : Nat} :
    ∀ {subblocks : List CompressionSubblock} {inputOffset : Nat} {pieces : List Bytes},
      decompressedPieces platform serialized codec maxZstdWindowBytes subblocks inputOffset =
        .ok pieces → pieces.flatten.length = uncompressedTotal subblocks
  | [], _, _, run => by
      simp only [decompressedPieces, Except.ok.injEq] at run
      simp [← run, uncompressedTotal]
  | subblock :: rest, inputOffset, _, run => by
      simp only [decompressedPieces, bind_eq_ok, pure, Except.pure, Except.ok.injEq] at run
      obtain ⟨piece, one, pieces, later, rfl⟩ := run
      have tail := length_decompressedPieces later
      simp only [List.flatten_cons, List.length_append, length_decompressed one, tail,
        uncompressedTotal, List.map_cons, List.sum_cons]

/-- The pieces of a block where they belong: unshuffled together, or one after
the other. -/
def assembled (compression : CompressionPlan) (start : Nat) (joined destination : Bytes) : Bytes :=
  if compression.byteShuffled then
    scatter (unshuffledPosition compression.itemSize destination.length) start joined destination
  else overwrite destination start joined

theorem decodedSubblocks_eq {platform : Platform} {serialized : Bytes}
    {compression : CompressionPlan}
    (item : compression.byteShuffled = true → compression.itemSize ≠ 0) :
    ∀ (subblocks : List CompressionSubblock) (inputOffset outputOffset : Nat)
      (destination : Bytes),
      outputOffset + uncompressedTotal subblocks ≤ destination.length →
      decodedSubblocks platform serialized compression subblocks inputOffset outputOffset
        destination =
      (decompressedPieces platform serialized compression.codec compression.maxZstdWindowBytes
          subblocks inputOffset).map fun pieces =>
        assembled compression outputOffset pieces.flatten destination
  | [], _, outputOffset, destination, _ => by
      simp only [decodedSubblocks, decompressedPieces, Except.map, assembled, List.flatten_nil,
        scatter, Library.overwrite_nil, ite_self]
  | subblock :: rest, inputOffset, outputOffset, destination, fits => by
      simp only [uncompressedTotal, List.map_cons, List.sum_cons] at fits
      simp only [decodedSubblocks, decompressedPieces]
      cases one : decompressed platform compression.codec
          (slice serialized inputOffset subblock.compressedSize) subblock.uncompressedSize
          compression.maxZstdWindowBytes with
      | error e => rfl
      | ok piece =>
          have pieceLength := length_decompressed one
          have placed : (if compression.byteShuffled then
                unshuffledInto piece destination compression.itemSize outputOffset
              else .ok (overwrite destination outputOffset piece)) =
              .ok (assembled compression outputOffset piece destination) := by
            unfold assembled
            by_cases shuffled : compression.byteShuffled = true
            · have accepted : ¬ (compression.itemSize = 0 ∨ outputOffset > destination.length ∨
                  piece.length > destination.length - outputOffset) := by
                have there := item shuffled
                omega
              simp only [if_pos shuffled, unshuffledInto, reject, if_neg accepted, bind,
                Except.bind, pure, Except.pure]
            · simp only [if_neg shuffled]
          have length : (assembled compression outputOffset piece destination).length =
              destination.length := by
            unfold assembled
            split
            · rw [Library.length_scatter]
            · rw [Library.length_overwrite (by omega)]
          have later := @decodedSubblocks_eq platform serialized _ item rest
            (inputOffset + subblock.compressedSize) (outputOffset + subblock.uncompressedSize)
            (assembled compression outputOffset piece destination) (by
              simp only [uncompressedTotal, length]
              omega)
          simp only [bind, Except.bind, placed, later]
          cases tail : decompressedPieces platform serialized compression.codec
              compression.maxZstdWindowBytes rest (inputOffset + subblock.compressedSize) with
          | error e => rfl
          | ok pieces =>
              have tailLength := length_decompressedPieces tail
              simp only [uncompressedTotal] at tailLength
              simp only [Except.map, pure, Except.pure, List.flatten_cons, Except.ok.injEq]
              unfold assembled
              by_cases shuffled : compression.byteShuffled = true
              · simp only [if_pos shuffled, Library.length_scatter, Library.scatter_append,
                  pieceLength]
              · simp only [if_neg shuffled]
                rw [← pieceLength, Library.overwrite_overwrite (by omega)]

/-- What these subblocks of a block decode to, at the front of it. -/
def decodedUpTo (platform : Platform) (serialized : Bytes) (compression : CompressionPlan)
    (done : List CompressionSubblock) : Result Bytes :=
  (decompressedPieces platform serialized compression.codec compression.maxZstdWindowBytes done
    0).map fun pieces => assembled compression 0 pieces.flatten (zeros (uncompressedTotal done))

/-- The bytes that a compressed block decodes to. -/
def decodedBytes (platform : Platform) (serialized : Bytes) (compression : CompressionPlan) :
    Result Bytes :=
  decodedUpTo platform serialized compression compression.subblocks

/-- A block is decoded into a buffer of its size whatever is in the buffer. -/
theorem decoded_eq {platform : Platform} {serialized : Bytes} {compression : CompressionPlan}
    (item : compression.byteShuffled = true → compression.itemSize ≠ 0)
    {destination : Bytes} (length : destination.length = uncompressedTotal compression.subblocks) :
    decoded platform serialized compression destination =
      decodedBytes platform serialized compression := by
  unfold decoded decodedBytes decodedUpTo
  rw [decodedSubblocks_eq item _ _ _ _ (by omega)]
  cases run : decompressedPieces platform serialized compression.codec
      compression.maxZstdWindowBytes compression.subblocks 0 with
  | error e => rfl
  | ok pieces =>
      have piecesLength := length_decompressedPieces run
      have zerosLength : (zeros (uncompressedTotal compression.subblocks)).length =
          uncompressedTotal compression.subblocks := List.length_replicate
      simp only [Except.map, Except.ok.injEq]
      unfold assembled
      by_cases shuffled : compression.byteShuffled = true
      · simp only [if_pos shuffled, length, zerosLength]
        exact (unshuffledPosition_permutes _ _).scatter_congr (by omega) length zerosLength
      · simp only [if_neg shuffled]
        rw [Library.overwrite_all (by omega), Library.overwrite_all (by omega)]

theorem length_decodedUpTo {platform : Platform} {serialized bytes : Bytes}
    {compression : CompressionPlan} {done : List CompressionSubblock}
    (run : decodedUpTo platform serialized compression done = .ok bytes) :
    bytes.length = uncompressedTotal done := by
  unfold decodedUpTo at run
  cases pieces : decompressedPieces platform serialized compression.codec
      compression.maxZstdWindowBytes done 0 with
  | error e => simp [pieces, Except.map] at run
  | ok all =>
      have length := length_decompressedPieces pieces
      simp only [pieces, Except.map, Except.ok.injEq] at run
      subst run
      unfold assembled
      split
      · rw [Library.length_scatter]
        exact List.length_replicate
      · rw [Library.length_overwrite]
        · exact List.length_replicate
        · simp only [zeros, List.length_replicate]
          omega

/-! ## Decoding one subblock after the other -/

section

variable {platform : Platform} {serialized whole piece : Bytes} {compression : CompressionPlan}
  {codec : CompressionCodec} {maxZstdWindowBytes : Nat}

theorem decompressedPieces_append :
    ∀ (done rest : List CompressionSubblock) (inputOffset : Nat),
      decompressedPieces platform serialized codec maxZstdWindowBytes (done ++ rest) inputOffset =
        do
          let first ← decompressedPieces platform serialized codec maxZstdWindowBytes done
            inputOffset
          let later ← decompressedPieces platform serialized codec maxZstdWindowBytes rest
            (inputOffset + compressedTotal done)
          return first ++ later
  | [], rest, inputOffset => by
      simp only [List.nil_append, decompressedPieces, compressedTotal, List.map_nil, List.sum_nil,
        Nat.add_zero, bind, Except.bind, pure, Except.pure]
      cases decompressedPieces platform serialized codec maxZstdWindowBytes rest inputOffset <;> rfl
  | subblock :: done, rest, inputOffset => by
      have tail := decompressedPieces_append done rest (inputOffset + subblock.compressedSize)
      have total : inputOffset + compressedTotal (subblock :: done) =
          inputOffset + subblock.compressedSize + compressedTotal done := by
        simp only [compressedTotal, List.map_cons, List.sum_cons]
        omega
      simp only [List.cons_append, decompressedPieces, tail, total]
      simp only [bind, Except.bind, pure, Except.pure]
      cases decompressed platform codec (slice serialized inputOffset subblock.compressedSize)
          subblock.uncompressedSize maxZstdWindowBytes with
      | error e => rfl
      | ok piece =>
          cases decompressedPieces platform serialized codec maxZstdWindowBytes done
              (inputOffset + subblock.compressedSize) with
          | error e => rfl
          | ok pieces =>
              dsimp only
              cases decompressedPieces platform serialized codec maxZstdWindowBytes rest
                  (inputOffset + subblock.compressedSize + compressedTotal done) <;> rfl

/-- Subblocks are decompressed from their own bytes. -/
theorem decompressedPieces_slice {other : Bytes} :
    ∀ (subblocks : List CompressionSubblock) (inputOffset otherOffset : Nat),
      slice serialized inputOffset (compressedTotal subblocks) =
        slice other otherOffset (compressedTotal subblocks) →
      decompressedPieces platform serialized codec maxZstdWindowBytes subblocks inputOffset =
        decompressedPieces platform other codec maxZstdWindowBytes subblocks otherOffset
  | [], _, _, _ => rfl
  | subblock :: rest, inputOffset, otherOffset, same => by
      have total : compressedTotal (subblock :: rest) =
          subblock.compressedSize + compressedTotal rest := rfl
      rw [total] at same
      have first := congrArg (fun bytes => slice bytes 0 subblock.compressedSize) same
      have later := congrArg
        (fun bytes => slice bytes subblock.compressedSize (compressedTotal rest)) same
      have inside : 0 + subblock.compressedSize ≤
          subblock.compressedSize + compressedTotal rest := by omega
      simp only [Library.slice_slice inside, Nat.add_zero] at first
      simp only [Library.slice_slice le_rfl] at later
      simp only [decompressedPieces, first, decompressedPieces_slice rest _ _ later]

/-- The first subblocks of a longer string. -/
theorem decompressedPieces_first {done : List CompressionSubblock}
    (first : serialized <+: whole) (length : compressedTotal done ≤ serialized.length) :
    decompressedPieces platform whole codec maxZstdWindowBytes done 0 =
      decompressedPieces platform serialized codec maxZstdWindowBytes done 0 := by
  obtain ⟨more, rfl⟩ := first
  apply decompressedPieces_slice
  simp only [slice, List.drop_zero]
  rw [List.take_append_of_le_length length]

/-- Without a shuffle the pieces follow one another. -/
theorem decodedUpTo_unshuffled (unshuffled : compression.byteShuffled = false)
    (done : List CompressionSubblock) :
    decodedUpTo platform serialized compression done =
      (decompressedPieces platform serialized compression.codec compression.maxZstdWindowBytes done
        0).map List.flatten := by
  unfold decodedUpTo assembled
  cases run : decompressedPieces platform serialized compression.codec
      compression.maxZstdWindowBytes done 0 with
  | error e => rfl
  | ok pieces =>
      have length := length_decompressedPieces run
      simp only [Except.map, unshuffled, Bool.false_eq_true, if_false]
      rw [Library.overwrite_all (by simp only [zeros, List.length_replicate, length])]

/-- The plan that `read_image_rows` makes for one subblock. -/
def oneSubblock (compression : CompressionPlan) (subblock : CompressionSubblock) :
    CompressionPlan :=
  { codec := compression.codec
    byteShuffled := compression.byteShuffled
    uncompressedSize := subblock.uncompressedSize
    itemSize := compression.itemSize
    maxZstdWindowBytes := compression.maxZstdWindowBytes
    subblocks := [subblock] }

/-- A subblock decoded on its own is the next part of the block, unless the block
is shuffled and it is not its first. -/
theorem decodedUpTo_next {done : List CompressionSubblock} {subblock : CompressionSubblock}
    {decoded : Bytes} (alone : compression.byteShuffled = true → done = [])
    (length : serialized.length = compressedTotal done)
    (pieceLength : piece.length = subblock.compressedSize)
    (sofar : decodedUpTo platform serialized compression done = .ok decoded) :
    decodedUpTo platform (serialized ++ piece) compression (done ++ [subblock]) =
      (decodedBytes platform piece (oneSubblock compression subblock)).map (decoded ++ ·) := by
  by_cases shuffled : compression.byteShuffled = true
  · obtain rfl := alone shuffled
    have empty : serialized = [] := List.length_eq_zero_iff.mp length
    have none := length_decodedUpTo sofar
    have nothing : decoded = [] := List.length_eq_zero_iff.mp none
    subst empty nothing
    simp only [List.nil_append]
    have same : decodedUpTo platform piece compression [subblock] =
        decodedBytes platform piece (oneSubblock compression subblock) := rfl
    rw [same]
    cases decodedBytes platform piece (oneSubblock compression subblock) <;> rfl
  · have unshuffled : compression.byteShuffled = false := by simpa using shuffled
    have pieces := @decompressedPieces_first platform _ _ compression.codec
      compression.maxZstdWindowBytes _ (List.prefix_append serialized piece) length.ge
    have last : decompressedPieces platform (serialized ++ piece) compression.codec
        compression.maxZstdWindowBytes [subblock] (0 + compressedTotal done) =
        decompressedPieces platform piece compression.codec compression.maxZstdWindowBytes
          [subblock] 0 := by
      apply decompressedPieces_slice
      have total : compressedTotal [subblock] = piece.length := by
        simp [compressedTotal, pieceLength]
      rw [total, Nat.zero_add, ← length]
      exact Library.slice_append_right serialized piece 0 piece.length
    rw [decodedUpTo_unshuffled unshuffled] at sofar
    have one : decodedBytes platform piece (oneSubblock compression subblock) =
        (decompressedPieces platform piece compression.codec compression.maxZstdWindowBytes
          [subblock] 0).map List.flatten :=
      decodedUpTo_unshuffled unshuffled [subblock]
    rw [one, decodedUpTo_unshuffled unshuffled, decompressedPieces_append, pieces, last]
    cases first : decompressedPieces platform serialized compression.codec
        compression.maxZstdWindowBytes done 0 with
    | error e => simp [first, Except.map] at sofar
    | ok before =>
        simp only [first, Except.map, Except.ok.injEq] at sofar
        subst sofar
        simp only [bind, Except.bind, pure, Except.pure]
        cases decompressedPieces platform piece compression.codec compression.maxZstdWindowBytes
            [subblock] 0 with
        | error e => rfl
        | ok pieces => simp only [Except.map, List.flatten_append]

/-- What the first subblocks decode to is the beginning of what all do. -/
theorem decodedUpTo_first {done rest : List CompressionSubblock} {decoded pixels : Bytes}
    (alone : compression.byteShuffled = true → done = [] ∨ rest = [])
    (first : serialized <+: whole) (length : compressedTotal done ≤ serialized.length)
    (sofar : decodedUpTo platform serialized compression done = .ok decoded)
    (all : decodedUpTo platform whole compression (done ++ rest) = .ok pixels) :
    decoded <+: pixels := by
  have pieces := @decompressedPieces_first platform _ _ compression.codec
    compression.maxZstdWindowBytes _ first length
  by_cases shuffled : compression.byteShuffled = true
  · rcases alone shuffled with rfl | rfl
    · have none := length_decodedUpTo sofar
      rw [List.length_eq_zero_iff.mp none]
      exact List.nil_prefix
    · rw [List.append_nil] at all
      unfold decodedUpTo at sofar all
      rw [pieces, sofar, Except.ok.injEq] at all
      rw [all]
  · have unshuffled : compression.byteShuffled = false := by simpa using shuffled
    rw [decodedUpTo_unshuffled unshuffled] at sofar all
    rw [decompressedPieces_append, pieces] at all
    cases before : decompressedPieces platform serialized compression.codec
        compression.maxZstdWindowBytes done 0 with
    | error e => simp [before, Except.map] at sofar
    | ok firsts =>
        simp only [before, Except.map, Except.ok.injEq] at sofar
        subst sofar
        simp only [before, bind, Except.bind, pure, Except.pure] at all
        cases after : decompressedPieces platform whole compression.codec
            compression.maxZstdWindowBytes rest (0 + compressedTotal done) with
        | error e => simp only [after, Except.map, reduceCtorEq] at all
        | ok later =>
            simp only [after, Except.map, Except.ok.injEq, List.flatten_append] at all
            rw [← all]
            exact List.prefix_append _ _

/-- A block whose first subblocks do not decode does not decode. -/
theorem decodedUpTo_error {done rest : List CompressionSubblock} {e : Error}
    (first : serialized <+: whole) (length : compressedTotal done ≤ serialized.length)
    (failed : decodedUpTo platform serialized compression done = .error e) :
    decodedUpTo platform whole compression (done ++ rest) = .error e := by
  have pieces := @decompressedPieces_first platform _ _ compression.codec
    compression.maxZstdWindowBytes _ first length
  unfold decodedUpTo at failed ⊢
  rw [decompressedPieces_append, pieces]
  cases before : decompressedPieces platform serialized compression.codec
      compression.maxZstdWindowBytes done 0 with
  | error e' =>
      simp only [before, Except.map, Except.error.injEq] at failed
      simp only [bind, Except.bind, Except.map, failed]
  | ok firsts => simp [before, Except.map] at failed

end

end Mmxisf.Reader
