/-
# Reader.Opening -- opening a unit from a source that keeps its bytes

`open_source` reads the preamble, the header and every gap between the attached
blocks, each in as many requests as the source makes necessary.  From a source that
keeps its bytes none of that shows: `openSource` comes to the end that the file and
the limits determine (`openFile`), and asks for nothing outside the file.
-/
import Mmxisf.Reader.Serialized

namespace Mmxisf.Reader

set_option autoImplicit false

open Library (slice)

/-- What a source that keeps its bytes holds; a source says its size in 64 bits. -/
structure SourceFile where
  bytes : Bytes
  small : bytes.length ≤ u64Max

/-! ## What a file determines -/

/-- `validate_gap`, on the file. -/
def gapOf (options : ReaderOptions) (file : Bytes) (validated offset size : Nat) : Result Nat := do
  reject (size > options.maxUnusedSpaceBytes - min validated options.maxUnusedSpaceBytes)
    .resourceLimit "Unused-space validation exceeds its byte budget"
  reject ((slice file offset size).all (· = 0) = false) .invalidBlock
    "Unused monolithic file space must be zero-filled"
  return validated + size

/-- The gaps before the ranges: where the last range ended, and the bytes
validated. -/
def gapsOf (options : ReaderOptions) (file : Bytes) :
    Nat → Nat → List AttachedRange → Result (Nat × Nat)
  | cursor, validated, [] => .ok (cursor, validated)
  | cursor, validated, range :: rest => do
      let validated ←
        (if range.offset > cursor then gapOf options file validated cursor (range.offset - cursor)
        else .ok validated)
      gapsOf options file (wrapAdd range.offset range.size) validated rest

def unusedOf (options : ReaderOptions) (file : Bytes) (headerEnd : Nat)
    (ranges : List AttachedRange) : Result Unit := do
  let (cursor, validated) ← gapsOf options file headerEnd 0 ranges
  if cursor < file.length then do
    let _ ← gapOf options file validated cursor (file.length - cursor)
    .ok ()
  else .ok ()

/-- The header of a file that opens. -/
def openFile (platform : Platform) (options : ReaderOptions) (file : Bytes) :
    Result ParsedHeader := do
  reject (file.length < 16) .invalidPreamble "File is shorter than the XISF preamble"
  let headerLength ← checkPreamble options file.length (slice file 0 16)
  let header ← parseHeader platform (slice file 16 headerLength) options file.length headerLength
  unusedOf options file (16 + headerLength) header.attachedRanges
  return header

/-- The document and the decoded blocks, which is what reads start from. -/
structure UnitContents where
  document : Document
  embeddedBlocks : List Bytes
  inlineMetadataBlocks : List Bytes
  inlineIccProfileBlocks : List Bytes
  embeddedThumbnailBlocks : List Bytes
  deriving DecidableEq, Repr

def Impl.contents (impl : Impl) : UnitContents :=
  ⟨impl.document, impl.embeddedBlocks, impl.inlineMetadataBlocks, impl.inlineIccProfileBlocks,
    impl.embeddedThumbnailBlocks⟩

def ParsedHeader.contents (header : ParsedHeader) : UnitContents :=
  ⟨header.document, header.embeddedBlocks, header.inlineMetadataBlocks,
    header.inlineIccProfileBlocks, header.embeddedThumbnailBlocks⟩

/-- A request for bytes of an interval. -/
def ReadBetween (start stop : Nat) (event : ReadEvent) : Prop :=
  ∃ offset size reply, event = .read offset size reply ∧ start ≤ offset ∧ offset + size ≤ stop

/-- A request for bytes of an interval that are in none of the ranges. -/
def ReadsGap (start stop : Nat) (ranges : List AttachedRange) (event : ReadEvent) : Prop :=
  ∃ offset size reply, event = .read offset size reply ∧ start ≤ offset ∧ offset + size ≤ stop ∧
    ∀ range ∈ ranges, offset + size ≤ range.offset ∨ range.offset + range.size ≤ offset

/-! ## Reading it -/

section

variable {L : Type} {platform : Platform} {file : Bytes} {options : ReaderOptions}

/-- Bytes that are fetched are the bytes of the place. -/
theorem Fetches.computes {place : BlockPlace} {start size : Nat} {x : ReadRoutine L Bytes}
    (fetches : Fetches platform (.stable file) place start size x)
    (inFile : place.inlineBlock = none → place.offset + (start + size) ≤ file.length) :
    Computes platform (.stable file)
      (ReadBetween (place.offset + start) (place.offset + (start + size))) x
      (.ok (place.bytesIn file start size)) := by
  intro l s
  refine Library.Routine.wp_mono ?_ (fetches l s)
  rintro result m t ⟨rfl, events, rfl, within, ended⟩
  refine ⟨rfl, .inl ?_, events, rfl, ?_⟩
  · cases result with
    | error e => exact absurd ended (not_failedRead inFile within)
    | ok bytes =>
        obtain ⟨length, obtained⟩ := ended
        rw [obtained.eq_bytesIn inFile, length]
  · intro event member
    obtain ⟨attached, offset, size', reply, rfl, -, -, above, inside⟩ := within event member
    exact ⟨offset, size', reply, rfl, above, inside⟩

theorem readExact_computes {offset size : Nat} (small : file.length ≤ u64Max)
    (inside : offset + size ≤ file.length) :
    Computes platform (.stable file) (ReadBetween offset (offset + size))
      (readExact (L := L) offset size) (.ok (slice file offset size)) := by
  have computes := (@readExact_fetches L platform (.stable file) offset size
    (inside.trans small)).computes fun _ => by simpa using inside
  simpa [BlockPlace.bytesIn] using computes

theorem ReadBetween.mono {start stop start' stop' : Nat} (low : start' ≤ start)
    (high : stop ≤ stop')
    (event : ReadEvent) (between : ReadBetween start stop event) : ReadBetween start'
      stop' event := by
  obtain ⟨offset, size, reply, rfl, above, below⟩ := between
  exact ⟨offset, size, reply, rfl, low.trans above, below.trans high⟩

/-- Bytes that are checked in two parts. -/
theorem reject_zeros_append (first second : Bytes) (code : ErrorCode) (message : String) :
    reject ((first ++ second).all (· = 0) = false) code message =
      (reject (first.all (· = 0) = false) code message >>= fun _ =>
        reject (second.all (· = 0) = false) code message) := by
  rw [List.all_append]
  cases first.all (· = 0) <;> cases second.all (· = 0) <;> rfl

theorem checkZeros_computes (small : file.length ≤ u64Max) {offset size : Nat}
    (inside : offset + size ≤ file.length) :
    ∀ fuel checked, size ≤ checked + fuel → checked ≤ size →
      Computes platform (.stable file) (ReadBetween offset (offset + size))
        (checkZeros (L := L) offset size fuel checked)
        (reject ((slice file (offset + checked) (size - checked)).all (· = 0) = false)
          .invalidBlock "Unused monolithic file space must be zero-filled")
  | 0, checked, enough, within => by
      have done : size - checked = 0 := by omega
      rw [checkZeros, done, Library.slice_zero]
      exact .pure ()
  | fuel + 1, checked, enough, within => by
      unfold checkZeros
      by_cases more : checked < size
      · rw [if_pos more]
        let chunk := min kUnusedSpaceBuffer (size - checked)
        have some : 0 < chunk ∧ chunk ≤ size - checked := by
          simp only [chunk, kUnusedSpaceBuffer]
          omega
        have parts : slice file (offset + checked) (size - checked) =
            slice file (offset + checked) chunk ++
              slice file (offset + (checked + chunk)) (size - (checked + chunk)) := by
          rw [← Nat.add_assoc, Library.slice_append_slice]
          congr 1
          omega
        rw [parts, reject_zeros_append, wrapAdd_eq (by omega)]
        refine .bind_ok ((readExact_computes small (by omega)).mono
          (ReadBetween.mono (by omega) (by omega))) ?_
        refine .bind_value (.refuse _ _ _) fun _ _ => ?_
        exact checkZeros_computes small inside fuel (checked + chunk) (by omega) (by omega)
      · have done : size - checked = 0 := by omega
        rw [if_neg more, done, Library.slice_zero]
        exact .pure ()

theorem validateGap_computes (small : file.length ≤ u64Max) {validated offset size : Nat}
    (inside : offset + size ≤ file.length) :
    Computes platform (.stable file) (ReadBetween offset (offset + size))
      (validateGap (L := L) options validated offset size)
      (gapOf options file validated offset size) := by
  refine .bind_value (.refuse _ _ _) fun _ _ => ?_
  refine .bind_value ?_ fun _ _ => .pure _
  have zeros := @checkZeros_computes L platform file small offset size inside size 0 (by omega)
    (Nat.zero_le _)
  rwa [Nat.add_zero, Nat.sub_zero] at zeros

theorem validateGaps_computes (small : file.length ≤ u64Max) {headerEnd : Nat} :
    ∀ {ranges : List AttachedRange} {cursor validated : Nat},
      checkRanges headerEnd file.length cursor ranges = .ok () → cursor ≤ file.length →
        Computes platform (.stable file) (ReadsGap cursor file.length ranges)
          (validateGaps (L := L) options cursor validated ranges)
          (gapsOf options file cursor validated ranges)
  | [], cursor, validated, _, below => .pure _
  | range :: rest, cursor, validated, checked, below => by
      have order := (payloadOrder_of_checkRanges small checked).1
      simp only [checkRanges, bind_eq_ok, reject_eq_ok, not_or] at checked
      obtain ⟨_, ⟨some, -, early, fits⟩, _, follows, later⟩ := checked
      have within : range.offset + range.size ≤ file.length := by omega
      rw [wrapAdd_eq (by omega)] at later
      rw [validateGaps, gapsOf, wrapAdd_eq (by omega)]
      refine .bind_value ?_ fun validated _ => ?_
      · by_cases gap : range.offset > cursor
        · rw [if_pos gap, if_pos gap]
          refine (validateGap_computes small (by omega)).mono ?_
          rintro event ⟨offset, size, reply, rfl, above, below⟩
          refine ⟨offset, size, reply, rfl, above, by omega, ?_⟩
          rw [List.forall_mem_cons]
          refine ⟨.inl (by omega), fun other member => .inl ?_⟩
          have after : range.offset + range.size ≤ other.offset :=
            List.rel_of_pairwise_cons order.ordered member
          omega
        · rw [if_neg gap, if_neg gap]
          exact .pure _
      · refine (validateGaps_computes small later within).mono ?_
        rintro event ⟨offset, size, reply, rfl, above, below, apart⟩
        refine ⟨offset, size, reply, rfl, by omega, below, ?_⟩
        rw [List.forall_mem_cons]
        exact ⟨.inr above, apart⟩

/-- A byte of a range. -/
def AttachedRange.Contains (range : AttachedRange) (i : Nat) : Prop :=
  range.offset ≤ i ∧ i < range.offset + range.size

instance (range : AttachedRange) (i : Nat) : Decidable (range.Contains i) :=
  inferInstanceAs (Decidable (_ ∧ _))

/-- Up to `stop`, what is in none of the ranges is zero. -/
def ZeroOutside (file : Bytes) (ranges : List AttachedRange) (start stop : Nat) : Prop :=
  ∀ i, start ≤ i → i < stop → (∀ range ∈ ranges, ¬ range.Contains i) → file[i]? = some 0

theorem gapOf_zero {validated offset size after : Nat} (inside : offset + size ≤ file.length)
    (run : gapOf options file validated offset size = .ok after) {i : Nat} (above : offset ≤ i)
    (below : i < offset + size) : file[i]? = some 0 := by
  simp only [gapOf, bind_eq_ok, reject_eq_ok, Bool.not_eq_false, List.all_eq_true,
    decide_eq_true_eq] at run
  obtain ⟨-, -, -, zero, -⟩ := run
  have there : i < file.length := by omega
  have found : (slice file offset size)[i - offset]? = some (file.get ⟨i, there⟩) := by
    rw [Library.getElem?_slice, if_pos (by omega), Nat.add_sub_cancel' above]
    exact List.getElem?_eq_getElem there
  rw [List.getElem?_eq_getElem there]
  exact congrArg some (zero _ (List.mem_of_getElem? found))

/-- After the gaps before the ranges, everything up to the cursor is accounted for. -/
theorem gapsOf_zero (small : file.length ≤ u64Max) {headerEnd : Nat} :
    ∀ {ranges : List AttachedRange} {cursor validated cursor' validated' : Nat},
      checkRanges headerEnd file.length cursor ranges = .ok () → cursor ≤ file.length →
        gapsOf options file cursor validated ranges = .ok (cursor', validated') →
          cursor' ≤ file.length ∧ ZeroOutside file ranges cursor cursor' ∧
            (cursor ≤ cursor' ∧ ∀ range ∈ ranges, range.offset + range.size ≤ cursor')
  | [], cursor, validated, cursor', validated', _, below, run => by
      rw [gapsOf, Except.ok.injEq, Prod.mk.injEq] at run
      obtain ⟨rfl, rfl⟩ := run
      exact ⟨below, fun i above early => by omega, le_rfl, by simp⟩
  | range :: rest, cursor, validated, cursor', validated', checked, below, run => by
      simp only [checkRanges, bind_eq_ok, reject_eq_ok, not_or] at checked
      obtain ⟨_, ⟨some, -, early, fits⟩, _, follows, later⟩ := checked
      have within : range.offset + range.size ≤ file.length := by omega
      rw [wrapAdd_eq (by omega)] at later
      rw [gapsOf, wrapAdd_eq (by omega), bind_eq_ok] at run
      obtain ⟨middle, gap, run⟩ := run
      obtain ⟨inside, zero, grows, ends⟩ := gapsOf_zero small later within run
      refine ⟨inside, fun i above early outside => ?_, by omega, ?_⟩
      · rw [List.forall_mem_cons] at outside
        by_cases before : i < range.offset
        · obtain ⟨-, gap⟩ | ⟨none, -⟩ := ite_eq_ok gap
          · exact gapOf_zero (by omega) gap above (by omega)
          · omega
        · have beyond : range.offset + range.size ≤ i := by
            have apart : ¬ (range.offset ≤ i ∧ i < range.offset + range.size) := outside.1
            omega
          exact zero i beyond early outside.2
      · rw [List.forall_mem_cons]
        exact ⟨grows, ends⟩

theorem validateUnusedSpaces_computes (small : file.length ≤ u64Max) {headerEnd : Nat}
    {ranges : List AttachedRange} (inside : headerEnd ≤ file.length)
    (checked : checkRanges headerEnd file.length headerEnd ranges = .ok ()) :
    Computes platform (.stable file) (ReadsGap headerEnd file.length ranges)
      (validateUnusedSpaces (L := L) options headerEnd file.length ranges)
      (unusedOf options file headerEnd ranges) := by
  refine .bind_value (validateGaps_computes small checked inside) fun last run => ?_
  obtain ⟨cursor, validated⟩ := last
  obtain ⟨below, -, grows, ends⟩ := gapsOf_zero small checked inside run
  dsimp only
  by_cases more : cursor < file.length
  · rw [if_pos more, if_pos more]
    refine .bind_value ((validateGap_computes small (by omega)).mono ?_) fun _ _ => .pure _
    rintro event ⟨offset, size, reply, rfl, above, beyond⟩
    refine ⟨offset, size, reply, rfl, grows.trans above, by omega, fun range member => .inr ?_⟩
    exact (ends range member).trans above
  · rw [if_neg more, if_neg more]
    exact .pure _

theorem unusedOf_zero (small : file.length ≤ u64Max) {headerEnd : Nat}
    {ranges : List AttachedRange} (inside : headerEnd ≤ file.length)
    (checked : checkRanges headerEnd file.length headerEnd ranges = .ok ())
    (run : unusedOf options file headerEnd ranges = .ok ()) :
    ZeroOutside file ranges headerEnd file.length := by
  rw [unusedOf, bind_eq_ok] at run
  obtain ⟨⟨cursor, validated⟩, gaps, run⟩ := run
  obtain ⟨below, zero, -, -⟩ := gapsOf_zero small checked inside gaps
  intro i above early outside
  by_cases before : i < cursor
  · exact zero i above before outside
  · obtain ⟨more, run⟩ | ⟨none, -⟩ := ite_eq_ok run
    · obtain ⟨_, gap, -⟩ := bind_eq_ok.mp run
      exact gapOf_zero (by omega) gap (by omega) (by omega)
    · omega

/-! ## Opening -/

theorem checkRanges_of_parseHeader {xml : Text} {fileSize headerLength : Nat}
    {header : ParsedHeader}
    (run : parseHeader platform xml options fileSize headerLength = .ok header) :
    checkRanges (16 + headerLength) fileSize (16 + headerLength) header.attachedRanges =
      .ok () := by
  simp only [parseHeader, bind_eq_ok, pure, Except.pure, Except.ok.injEq] at run
  obtain ⟨_, -, _, -, _, -, _, -, _, -, _, -, _, -, _, -, _, -, _, -, _, -, _, -, _, -, _, -, _, -,
    ⟨⟩, ranges, rfl⟩ := run
  exact ranges

theorem checkPreamble_within {size headerLength : Nat} {preamble : Bytes}
    (run : checkPreamble options size preamble = .ok headerLength) :
    headerLength ≠ 0 ∧ headerLength ≤ size - 16 := by
  simp only [checkPreamble, bind_eq_ok, reject_eq_ok, not_or, Nat.not_lt, pure, Except.pure,
    Except.ok.injEq] at run
  obtain ⟨-, -, -, -, -, ⟨some, -⟩, -, within, rfl⟩ := run
  exact ⟨some, within⟩

/-- The opened unit, for a size that is known to be a 64-bit one. -/
def openImpl (platform : Platform) (options : ReaderOptions) (file : Bytes) (sourceSize : Nat)
    (small : sourceSize ≤ u64Max) : Result Impl := do
  reject (sourceSize < 16) .invalidPreamble "File is shorter than the XISF preamble"
  let headerLength ← checkPreamble options sourceSize (slice file 0 16)
  match parsed : parseHeader platform (slice file 16 headerLength) options sourceSize
      headerLength with
  | .ok header => do
      unusedOf options file (16 + headerLength) header.attachedRanges
      .ok {
        options
        document := header.document
        embeddedBlocks := header.embeddedBlocks
        inlineMetadataBlocks := header.inlineMetadataBlocks
        inlineIccProfileBlocks := header.inlineIccProfileBlocks
        embeddedThumbnailBlocks := header.embeddedThumbnailBlocks
        wellFormed := (wellFormed_of_parseHeader small parsed).1 }
  | .error e => .error e

theorem openImpl_contents {sourceSize : Nat} (small : sourceSize ≤ u64Max)
    (same : sourceSize = file.length) :
    (openImpl platform options file sourceSize small).map Impl.contents =
      (openFile platform options file).map ParsedHeader.contents := by
  subst same
  unfold openImpl openFile
  cases reject (file.length < 16) .invalidPreamble "File is shorter than the XISF preamble" with
  | error e => rfl
  | ok _ =>
      cases checkPreamble options file.length (slice file 0 16) with
      | error e => rfl
      | ok headerLength =>
          show Except.map _ (match parsed : parseHeader platform
              (slice file 16 headerLength) options
            file.length headerLength with | .ok header => _ | .error e => _) = _
          split
          · rename_i header parsed
            simp only [parsed, bind, Except.bind]
            cases unusedOf options file (16 + headerLength) header.attachedRanges <;> rfl
          · rename_i e failed
            simp only [failed, bind, Except.bind]
            rfl

/-- The header length and the header that a file opens with. -/
structure OpensWith (platform : Platform) (options : ReaderOptions) (file : Bytes)
    (headerLength : Nat) (header : ParsedHeader) : Prop where
  preamble : checkPreamble options file.length (slice file 0 16) = .ok headerLength
  parsed : parseHeader platform (slice file 16 headerLength) options file.length headerLength =
    .ok header

theorem openFile_eq {header : ParsedHeader} (run : openFile platform options file = .ok header) :
    ∃ headerLength, OpensWith platform options file headerLength header ∧
      16 + headerLength ≤ file.length ∧
      unusedOf options file (16 + headerLength) header.attachedRanges = .ok () := by
  simp only [openFile, bind_eq_ok, reject_eq_ok, Nat.not_lt, pure, Except.pure,
    Except.ok.injEq] at run
  obtain ⟨_, long, headerLength, preamble, _, parsed, ⟨⟩, unused, rfl⟩ := run
  have within := checkPreamble_within preamble
  exact ⟨headerLength, ⟨preamble, parsed⟩, by omega, unused⟩

/-- A request of an opening: inside the file, and when a header was accepted for bytes
before the payload or for bytes that no element declares. -/
def OpeningRead (platform : Platform) (options : ReaderOptions) (file : Bytes)
    (event : ReadEvent) : Prop :=
  ReadBetween 0 file.length event ∧ ∀ headerLength header,
    OpensWith platform options file headerLength header →
      ReadBetween 0 (16 + headerLength) event ∨
        ReadsGap (16 + headerLength) file.length header.attachedRanges event

/-- From a source that keeps its bytes, opening ends as the file determines. -/
theorem openSource_computes {size : UInt64} (same : size.toNat = file.length) :
    Computes platform (.stable file) (OpeningRead platform options file)
      (openSource (L := L) platform options)
      (openImpl platform options file size.toNat (Nat.le_of_lt_succ size.toNat_lt)) := by
  have small : file.length ≤ u64Max := same ▸ Nat.le_of_lt_succ size.toNat_lt
  intro l s
  unfold openSource
  rw [Library.Routine.wp_bind, Library.Routine.wp_request]
  refine ⟨trivial, ?_⟩
  rintro reply t ⟨⟨size', rfl, same'⟩, rfl⟩
  obtain rfl : size' = size := UInt64.toNat_inj.mp (same'.trans same.symm)
  rw [Library.Routine.continueWith_ok]
  suffices rest : Computes platform (.stable file) (OpeningRead platform options file) _ _ from
    rest l t
  refine .bind_ok (.ofExcept (.ok size')) ?_
  refine .bind_value (.refuse _ _ _) fun _ long => ?_
  rw [reject_eq_ok] at long
  refine .bind_ok ((readExact_computes small (by omega)).mono ?_) ?_
  · intro event between
    refine ⟨between.mono le_rfl (by omega), fun headerLength header _ => .inl ?_⟩
    exact between.mono le_rfl (by omega)
  refine .bind_value (.ofExcept _) fun headerLength checked => ?_
  have inside : 16 + headerLength ≤ file.length := by
    have within := checkPreamble_within checked
    omega
  rw [same] at checked
  refine .bind_ok ((readExact_computes small inside).mono ?_) ?_
  · intro event between
    refine ⟨between.mono (Nat.zero_le _) inside, fun headerLength' header opens => .inl ?_⟩
    obtain rfl := Except.ok.inj (checked.symm.trans opens.preamble)
    exact between.mono (Nat.zero_le _) le_rfl
  split
  · rename_i e failed
    split
    · rename_i header parsed
      cases failed.symm.trans parsed
    · rename_i e' failed'
      rw [Except.error.inj (failed.symm.trans failed')]
      exact .fail e'
  · rename_i header parsed
    split
    · rename_i header' parsed'
      obtain rfl : header = header' := Except.ok.inj (parsed.symm.trans parsed')
      have ranges := checkRanges_of_parseHeader parsed
      rw [same] at ranges parsed
      have gaps := @validateUnusedSpaces_computes L platform file options small _ _ inside ranges
      rw [← same] at gaps
      refine .bind_value (gaps.mono ?_) fun _ _ => .pure _
      rintro event ⟨offset, count, reply, rfl, above, below, apart⟩
      rw [same] at below
      refine ⟨⟨offset, count, reply, rfl, Nat.zero_le _, below⟩,
        fun headerLength' header' opens => ?_⟩
      obtain rfl := Except.ok.inj (checked.symm.trans opens.preamble)
      obtain rfl := Except.ok.inj (parsed.symm.trans opens.parsed)
      exact .inr ⟨offset, count, reply, rfl, above, below, apart⟩
    · rename_i e failed
      cases failed.symm.trans parsed

end

end Mmxisf.Reader
