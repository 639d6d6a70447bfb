/-
# Compression -- accepted compression descriptors are sound

The descriptor and the subblocks of a block are texts from the file.  An accepted
plan divides the serialized bytes and the decoded bytes into positive pieces that
add up without wrapping (`SoundPlan`), so decoding takes every input and every
output range from inside its buffer and stores every byte once
(`DecodesInPlace`).  `read_image_rows` decodes one subblock at a time, by a plan
that it makes itself, into buffers of limited size (`StagesRows`).
-/
import Mmxisf.RowAgreement

namespace Mmxisf

set_option autoImplicit false

open Reader
open Library (slice scatter Permutes)
open Library.Routine (wp)

/-! ## Descriptors -/

/-- What an accepted plan with a codec promises about its block. -/
structure SoundPlan (subblocks : Text) (serializedBytes : Nat) (expectedBytes : Option Nat)
    (options : ReaderOptions) (maxSerializedBytes maxDecodedBytes : Nat) (plan : CompressionPlan) :
    Prop where
  positive : ∀ subblock ∈ plan.subblocks,
    0 < subblock.compressedSize ∧ 0 < subblock.uncompressedSize
  compressedSum : compressedTotal plan.subblocks = serializedBytes
  uncompressedSum : uncompressedTotal plan.subblocks = plan.uncompressedSize
  noWrap : serializedBytes ≤ u64Max ∧ plan.uncompressedSize ≤ u64Max
  expected : ∀ expected, expectedBytes = some expected → plan.uncompressedSize = expected
  count : subblocks ≠ [] → plan.subblocks.length ≤ options.maxCompressedSubblocks
  ratio : plan.uncompressedSize ≤ serializedBytes * options.maxDecompressionRatio
  serializedLimit : serializedBytes ≤ maxSerializedBytes
  decodedLimit : plan.uncompressedSize ≤ maxDecodedBytes

theorem parseSubblock_positive {pair : Text} {subblock : CompressionSubblock}
    (parsed : parseSubblock pair = some subblock) :
    0 < subblock.compressedSize ∧ 0 < subblock.uncompressedSize := by
  unfold parseSubblock at parsed
  split at parsed
  · split at parsed
    · rw [Option.some.injEq] at parsed
      rw [← parsed]
      exact ⟨Nat.succ_pos _, Nat.succ_pos _⟩
    · cases parsed
  · cases parsed

/-- Each subblock is positive, and there is room for one more before each. -/
theorem parseSubblocks_positive {options : ReaderOptions} :
    ∀ {pairs : List Text} {count compressed uncompressed : Nat}
      {subblocks : List CompressionSubblock} {totals : Nat × Nat},
      parseSubblocks options count compressed uncompressed pairs = .ok (subblocks, totals) →
      (∀ subblock ∈ subblocks, 0 < subblock.compressedSize ∧ 0 < subblock.uncompressedSize) ∧
        (subblocks ≠ [] → count + subblocks.length ≤ options.maxCompressedSubblocks)
  | [], _, _, _, _, _, run => by
      simp only [parseSubblocks, Except.ok.injEq, Prod.mk.injEq] at run
      obtain ⟨rfl, -⟩ := run
      simp
  | pair :: rest, count, _, _, _, _, run => by
      simp only [parseSubblocks, bind_eq_ok, reject_eq_ok, orFail_eq_ok, pure, Except.pure,
        Except.ok.injEq, Prod.mk.injEq] at run
      obtain ⟨_, room, subblock, parsed, _, -, _, -, ⟨later, totals⟩, run, rfl, -⟩ := run
      obtain ⟨positive, counted⟩ := parseSubblocks_positive run
      constructor
      · intro other member
        rcases List.mem_cons.mp member with rfl | member
        · exact parseSubblock_positive parsed
        · exact positive other member
      · intro _
        cases later with
        | nil =>
            rw [List.length_singleton]
            omega
        | cons next more =>
            have within : count + 1 + (next :: more).length ≤ options.maxCompressedSubblocks :=
              counted (by simp)
            simp only [List.length_cons] at within ⊢
            omega

/-- The saturating limit of the source is the product itself. -/
theorem le_ratio {serialized ratio size : Nat} (small : size ≤ u64Max)
    (within : ¬ size > (checkedMultiply serialized ratio).getD u64Max) :
    size ≤ serialized * ratio := by
  cases product : checkedMultiply serialized ratio with
  | some limit =>
      rw [product, Option.getD_some] at within
      rw [(checkedMultiply_eq_some.mp product).1] at within
      omega
  | none =>
      by_contra beyond
      have fits : checkedMultiply serialized ratio = some (serialized * ratio) :=
        checkedMultiply_eq_some.mpr ⟨rfl, .inr (by omega)⟩
      rw [product] at fits
      cases fits

theorem soundPlan_of_parse {compression subblocks : Text} {serializedBytes : Nat}
    {expectedBytes : Option Nat} {options : ReaderOptions}
    {itemSize maxSerializedBytes maxDecodedBytes : Nat} {plan : CompressionPlan}
    (run : parseCompressionPlan compression subblocks serializedBytes expectedBytes options itemSize
      maxSerializedBytes maxDecodedBytes = .ok plan) (coded : plan.codec ≠ .none) :
    SoundPlan subblocks serializedBytes expectedBytes options maxSerializedBytes maxDecodedBytes
      plan := by
  obtain ⟨fits, expected⟩ := parseCompressionPlan_fits run
  obtain ⟨compressedSum, uncompressedSum⟩ := fits.compressed coded
  simp only [parseCompressionPlan, bind_eq_ok, reject_eq_ok] at run
  obtain ⟨_, serializedLimit, _, addressable, run⟩ := run
  obtain ⟨-, run⟩ | ⟨-, run⟩ := ite_eq_ok run
  · simp only [parseUncompressedPlan, bind_eq_ok, pure, Except.pure, Except.ok.injEq] at run
    obtain ⟨_, -, _, -, _, -, rfl⟩ := run
    exact absurd rfl coded
  · simp only [bind_eq_ok, orFail_eq_ok, reject_eq_ok, pure, Except.pure] at run
    obtain ⟨_, -, ⟨codec, byteShuffled⟩, -, _, -, uncompressedSize, declared, _, -, item, -, _,
      nonempty, _, ratio, _, decoded, run⟩ := run
    have some : uncompressedSize ≠ 0 := by
      simpa using (Option.filter_eq_some_iff.mp declared).2
    have small : uncompressedSize ≤ u64Max := by omega
    obtain ⟨empty, run⟩ | ⟨-, run⟩ := ite_eq_ok run
    · rw [Except.ok.injEq] at run
      subst run
      refine ⟨?_, compressedSum, uncompressedSum, ⟨by omega, small⟩, expected,
        fun declared => absurd empty declared, le_ratio small ratio, by omega, ?_⟩
      · intro subblock member
        rw [List.mem_singleton.mp member]
        exact ⟨Nat.pos_of_ne_zero nonempty, Nat.pos_of_ne_zero some⟩
      · dsimp only
        omega
    · simp only [bind_eq_ok, reject_eq_ok, Except.ok.injEq] at run
      obtain ⟨⟨parsed, totals⟩, subblocksParsed, _, -, rfl⟩ := run
      obtain ⟨positive, counted⟩ := parseSubblocks_positive subblocksParsed
      refine ⟨positive, compressedSum, uncompressedSum, ⟨by omega, small⟩, expected, fun _ => ?_,
        le_ratio small ratio, by omega, ?_⟩
      · rcases parsed.eq_nil_or_concat with rfl | ⟨before, last, rfl⟩
        · exact Nat.zero_le _
        · have within := counted (by simp)
          rwa [Nat.zero_add] at within
      · dsimp only
        omega

/-! ## Decoding -/

/-- Where decoding stores byte number `k` of the decompressed bytes, in a
destination of `size` bytes. -/
def storePlace (plan : CompressionPlan) (size k : Nat) : Nat :=
  if plan.byteShuffled then unshuffledPosition plan.itemSize size k else k

/-- A decompressor call on a whole subblock of the serialized bytes, into a buffer
of that subblock's decoded size. -/
def DecompressesSubblock (serialized : Bytes) (plan : CompressionPlan) (event : ReadEvent) : Prop :=
  ∃ before subblock after codec windowLog,
    plan.subblocks = before ++ subblock :: after ∧
      compressedTotal before + subblock.compressedSize ≤ serialized.length ∧
      event = .decompressed codec
        (slice serialized (compressedTotal before) subblock.compressedSize)
        subblock.uncompressedSize windowLog

/-- The refusal of `scatter_unshuffled_bytes`. -/
def geometryError : Error :=
  ⟨.invalidBlock, lit "Invalid byte-shuffled block geometry", none, none, [], []⟩

/-- Decoding `serialized` into `destination` stays inside both: the ranges that
the loop takes for each subblock are in range, the decompressor sees no others,
the geometry of the shuffle is never refused, and when it succeeds the
destination is the decompressed bytes, each stored at one position and each
position stored to once. -/
structure DecodesInPlace (platform : Platform) (env : Environment) (plan : CompressionPlan)
    (serialized destination : Bytes) : Prop where
  subspans : ∀ before subblock after, plan.subblocks = before ++ subblock :: after →
    compressedTotal before + subblock.compressedSize ≤ serialized.length ∧
      uncompressedTotal before + subblock.uncompressedSize ≤ destination.length
  once : ((List.range destination.length).map (storePlace plan destination.length)).Perm
    (List.range destination.length)
  runs : ∀ s, wp (env.world platform)
    (decodeCompressedBlock (L := Unit) platform serialized plan destination)
    (fun result _ t =>
      (∃ calls, t = s ++ calls ∧ ∀ event ∈ calls, DecompressesSubblock serialized plan event) ∧
      result ≠ .error geometryError ∧
      ∀ bytes, result = .ok bytes → ∃ pieces,
        decompressedPieces platform serialized plan.codec plan.maxZstdWindowBytes plan.subblocks 0 =
          .ok pieces ∧
        pieces.flatten.length = destination.length ∧
        bytes = scatter (storePlace plan destination.length) 0 pieces.flatten destination) () s

section

variable {platform : Platform} {env : Environment} {plan : CompressionPlan}
  {serialized destination : Bytes}

theorem storePlace_permutes (plan : CompressionPlan) (size : Nat) :
    Permutes (storePlace plan size) size := by
  unfold storePlace
  cases plan.byteShuffled with
  | true => exact unshuffledPosition_permutes _ _
  | false => exact ⟨fun i small => small, fun a b order _ => Nat.ne_of_lt order⟩

theorem scatter_self {values buffer : Bytes} (length : values.length = buffer.length) :
    scatter (fun k => k) 0 values buffer = values := by
  apply List.ext_getElem?
  intro i
  rcases Nat.lt_or_ge i values.length with small | large
  · have stored := @Library.getElem?_scatter _ (fun k => k) values buffer 0 i
      (fun a b _ order _ => Nat.ne_of_lt order) (fun a _ small => by omega) small
    rwa [Nat.zero_add] at stored
  · rw [List.getElem?_eq_none (by rw [Library.length_scatter]; omega),
      List.getElem?_eq_none large]

/-- Pieces one after the other, or unshuffled, are stores at `storePlace`. -/
theorem assembled_eq_scatter {joined : Bytes} (length : joined.length = destination.length) :
    assembled plan 0 joined destination =
      scatter (storePlace plan destination.length) 0 joined destination := by
  unfold assembled storePlace
  cases plan.byteShuffled with
  | true => rfl
  | false =>
      rw [if_neg Bool.false_ne_true, Library.overwrite_all length.symm]
      exact (scatter_self length).symm

theorem compressedTotal_split {before after : List CompressionSubblock}
    {subblock : CompressionSubblock} :
    compressedTotal (before ++ subblock :: after) =
      compressedTotal before + subblock.compressedSize + compressedTotal after := by
  simp only [compressedTotal, List.map_append, List.sum_append, List.map_cons, List.sum_cons]
  omega

theorem uncompressedTotal_split {before after : List CompressionSubblock}
    {subblock : CompressionSubblock} :
    uncompressedTotal (before ++ subblock :: after) =
      uncompressedTotal before + subblock.uncompressedSize + uncompressedTotal after := by
  simp only [uncompressedTotal, List.map_append, List.sum_append, List.map_cons, List.sum_cons]
  omega

/-- The decompressor is called on the subblocks, each in its place. -/
theorem decodeSubblocks_calls {L : Type}
    (compressedSum : compressedTotal plan.subblocks ≤ serialized.length) :
    ∀ (after before : List CompressionSubblock) (outputOffset : Nat) (destination : Bytes),
      plan.subblocks = before ++ after →
      Computes platform env (DecompressesSubblock serialized plan)
        (decodeSubblocks (L := L) platform serialized plan after (compressedTotal before)
          outputOffset destination)
        (decodedSubblocks platform serialized plan after (compressedTotal before) outputOffset
          destination)
  | [], _, _, destination, _ => .pure destination
  | subblock :: after, before, outputOffset, destination, split => by
      have inside : compressedTotal before + subblock.compressedSize ≤ serialized.length := by
        rw [split, compressedTotal_split] at compressedSum
        omega
      refine (Computes.checkStop _).bind_ok ?_
      refine Computes.bind_value ?_ fun decoded _ => ?_
      · refine (decompressSubblock_computes _ _ _ _).mono ?_
        rintro event ⟨codec, windowLog, same⟩
        exact ⟨before, subblock, after, codec, windowLog, split, inside, same⟩
      · refine Computes.bind_value ?_ fun filled _ => ?_
        · split
          · exact scatterUnshuffledBytes_computes _ _ _ _
          · exact .pure _
        · have next := @decodeSubblocks_calls L compressedSum after (before ++ [subblock])
            (outputOffset + subblock.uncompressedSize) filled (by simp [split])
          rwa [compressedTotal_split] at next

theorem decodeCompressedBlock_calls {L : Type}
    (compressedSum : compressedTotal plan.subblocks ≤ serialized.length) (destination : Bytes) :
    Computes platform env (DecompressesSubblock serialized plan)
      (decodeCompressedBlock (L := L) platform serialized plan destination)
      (decoded platform serialized plan destination) :=
  (Computes.checkStop _).bind_ok
    (decodeSubblocks_calls compressedSum plan.subblocks [] 0 destination rfl)

/-- No decompressor speaks of geometry. -/
theorem not_geometryError : ∀ e ∈ decompressionErrors, e ≠ geometryError := by decide

/-- A plan that fits its buffers decodes in place. -/
theorem decodesInPlace (item : plan.byteShuffled = true → plan.itemSize ≠ 0)
    (compressedSum : compressedTotal plan.subblocks = serialized.length)
    (uncompressedSum : uncompressedTotal plan.subblocks = destination.length) :
    DecodesInPlace platform env plan serialized destination := by
  refine ⟨?_, (storePlace_permutes plan _).perm, ?_⟩
  · intro before subblock after split
    rw [split, compressedTotal_split] at compressedSum
    rw [split, uncompressedTotal_split] at uncompressedSum
    omega
  · intro s
    refine Library.Routine.wp_mono ?_
      (decodeCompressedBlock_calls (Nat.le_of_eq compressedSum) destination () s)
    rintro result m t ⟨-, outcome, added, rfl, emitted⟩
    refine ⟨⟨added, rfl, emitted⟩, ?_⟩
    rw [decoded, decodedSubblocks_eq item _ _ _ _ (by omega)] at outcome
    rcases outcome with rfl | ⟨e, rfl, -, cancelled⟩
    · cases run : decompressedPieces platform serialized plan.codec plan.maxZstdWindowBytes
          plan.subblocks 0 with
      | error e =>
          refine ⟨?_, fun bytes impossible => by cases impossible⟩
          intro same
          cases same
          exact not_geometryError _ (decompressedPieces_error run) rfl
      | ok pieces =>
          have length := (length_decompressedPieces run).trans uncompressedSum
          refine ⟨(fun impossible => by cases impossible), ?_⟩
          rintro bytes same
          cases same
          exact ⟨pieces, rfl, length, assembled_eq_scatter length⟩
    · refine ⟨?_, fun bytes impossible => by cases impossible⟩
      intro same
      cases same
      cases cancelled

end

/-! ## Row delivery -/

/-- Rows shown and subblocks decoded keep the limits of the delivery. -/
def WithinStaging (rowOptions : ImageRowReadOptions) : ReadEvent → Prop
  | .read _ _ _ => True
  | .decompressed _ input size _ =>
      input.length ≤ rowOptions.maxSubblockBytes ∧ size ≤ rowOptions.maxSubblockBytes
  | .consumed row _ => row.bytes.length ≤ rowOptions.maxRowBytes

/-- The two reused row buffers keep the sizes they were made with. -/
structure RowBuffers (rows : RowPlan) (storage : PixelStorage) (l : RowDelivery) : Prop where
  sourceRow : l.sourceRow.length = rows.sourceRowBytes
  planeRow : l.planeRow.length = if storage = .normal then rows.planeRowBytes else 0

section

variable {L M α β : Type} {platform : Platform} {env : Environment} {holds : L → Prop}
  {emits : ReadEvent → Prop} {returns : α → Prop} {returns' : β → Prop}

/-- However it ends, the routine keeps `holds` of its store, adds only events that
`emits` allows, and returns only what `returns` allows. -/
def Stages (platform : Platform) (env : Environment) (holds : L → Prop)
    (emits : ReadEvent → Prop) (returns : α → Prop) (x : ReadRoutine L α) : Prop :=
  ∀ l s, holds l → wp (env.world platform) x
    (fun result m t => holds m ∧ (∃ added, t = s ++ added ∧ ∀ event ∈ added, emits event) ∧
      ∀ a, result = .ok a → returns a) l s

namespace Stages

theorem bind {x : ReadRoutine L α} {next : α → ReadRoutine L β}
    (first : Stages platform env holds emits returns x)
    (rest : ∀ a, returns a → Stages platform env holds emits returns' (next a)) :
    Stages platform env holds emits returns' (x >>= next) := by
  intro l s start
  rw [Library.Routine.wp_bind]
  refine Library.Routine.wp_mono ?_ (first l s start)
  rintro (e | a) m t ⟨held, ⟨added, rfl, allowed⟩, returned⟩
  · exact ⟨held, ⟨added, rfl, allowed⟩, fun b impossible => by cases impossible⟩
  · rw [Library.Routine.continueWith_ok]
    refine Library.Routine.wp_mono ?_ (rest a (returned a rfl) m (s ++ added) held)
    rintro result n u ⟨kept, ⟨more, rfl, allowedMore⟩, ended⟩
    refine ⟨kept, ⟨added ++ more, by rw [List.append_assoc], ?_⟩, ended⟩
    simp only [List.mem_append]
    rintro event (before | after)
    · exact allowed event before
    · exact allowedMore event after

theorem pure {a : α} (returned : returns a) :
    Stages platform env holds emits returns (Pure.pure a : ReadRoutine L α) := by
  intro l s start
  rw [Library.Routine.wp_pure]
  refine ⟨start, ⟨[], by simp, by simp⟩, ?_⟩
  rintro b same
  cases same
  exact returned

theorem of_computes {x : ReadRoutine L α} {value : Result α}
    (computes : Computes platform env emits x value) (returned : ∀ a, value = .ok a → returns a) :
    Stages platform env holds emits returns x := by
  intro l s start
  refine Library.Routine.wp_mono ?_ (computes l s)
  rintro result m t ⟨rfl, outcome, added, rfl, allowed⟩
  refine ⟨start, ⟨added, rfl, allowed⟩, ?_⟩
  rcases outcome with rfl | ⟨e, rfl, -⟩
  · exact returned
  · rintro a impossible
    cases impossible

theorem of_fetches {rowOptions : ImageRowReadOptions} {place : BlockPlace} {start size : Nat}
    {x : ReadRoutine L Bytes} (fetches : Fetches platform env place start size x) :
    Stages platform env holds (WithinStaging rowOptions) (fun bytes => bytes.length = size) x := by
  intro l s before
  refine Library.Routine.wp_mono ?_ (fetches l s)
  rintro result m t ⟨rfl, events, rfl, within, ended⟩
  refine ⟨before, ⟨events, rfl, fun event member => ?_⟩, ?_⟩
  · obtain ⟨-, offset, asked, reply, rfl, -⟩ := within event member
    trivial
  · rintro bytes rfl
    exact ended.1

theorem getStore : Stages platform env holds emits holds Library.Routine.getStore := by
  intro l s start
  rw [Library.Routine.wp_getStore]
  refine ⟨start, ⟨[], by simp, by simp⟩, ?_⟩
  rintro m same
  cases same
  exact start

theorem modifyStore {change : L → L} (kept : ∀ l, holds l → holds (change l)) :
    Stages platform env holds emits (fun _ => True) (Library.Routine.modifyStore change) := by
  intro l s start
  rw [Library.Routine.wp_modifyStore]
  exact ⟨kept l start, ⟨[], by simp, by simp⟩, fun _ _ => trivial⟩

theorem setStore {m : L} (kept : holds m) :
    Stages platform env holds emits (fun _ => True) (Library.Routine.setStore m) := by
  intro l s _
  rw [Library.Routine.wp_setStore]
  exact ⟨kept, ⟨[], by simp, by simp⟩, fun _ _ => trivial⟩

theorem checkStop (message : String) :
    Stages platform env holds emits (fun _ => True) (Reader.checkStop message) :=
  of_computes (Computes.checkStop message) fun _ _ => trivial

theorem ofExcept (result : Result α) :
    Stages platform env holds emits (fun _ => True) (Library.Routine.ofExcept result) :=
  of_computes (Computes.ofExcept result) fun _ _ => trivial

/-- A row is shown. -/
theorem consume {row : ImageRowView} (allowed : ∀ reply, emits (.consumed row reply)) :
    Stages platform env holds emits (fun _ => True)
      (Library.Routine.request (ReadOp.consume row)) := by
  intro l s start
  rw [Library.Routine.wp_request]
  refine ⟨trivial, ?_⟩
  rintro reply t ⟨-, rfl⟩
  exact ⟨start, ⟨_, rfl, by simpa using allowed reply⟩, fun _ _ => trivial⟩

/-- A part with a store of its own. -/
theorem within {init : M} {holds' : M → Prop} {x : ReadRoutine M α}
    (stages : Stages platform env holds' emits returns x) (start : holds' init) :
    Stages platform env holds emits (fun _ => True) (Library.Routine.within init x) := by
  intro l s before
  rw [Library.Routine.wp_within]
  refine Library.Routine.wp_mono ?_ (stages init s start)
  rintro (e | a) m t ⟨-, added, -⟩
  · exact ⟨before, added, fun _ _ => trivial⟩
  · exact ⟨before, added, fun _ _ => trivial⟩

end Stages

variable {context : RowContext} {rowOptions : ImageRowReadOptions}

/-- The buffers of this delivery, and its limits. -/
abbrev StagesRows (platform : Platform) (env : Environment) (context : RowContext)
    (rowOptions : ImageRowReadOptions) (returns : α → Prop) (x : ReadRoutine RowDelivery α) :
    Prop :=
  Stages platform env (RowBuffers context.rows context.plan.image.pixelStorage)
    (WithinStaging rowOptions) returns x

theorem emitPlaneRow_stages (sound : context.plan.Sound) (fits : context.rows.Fits context.plan)
    (small : context.rows.planeRowBytes ≤ rowOptions.maxRowBytes) {channelIndex rowIndex : Nat}
    {bytes : Bytes} (length : bytes.length = context.rows.planeRowBytes) :
    StagesRows platform env context rowOptions
      (fun row => row.length = context.rows.planeRowBytes)
      (emitPlaneRow context channelIndex rowIndex bytes) := by
  obtain ⟨components, -, -, size, -⟩ := sound.sample
  have whole : bytes.length = context.rows.width * components * context.plan.endianComponentSize :=
    by rw [length, fits.planeRow, size, Nat.mul_assoc]
  refine (Stages.checkStop _).bind fun _ _ => ?_
  refine Stages.bind (?_ : StagesRows platform env context rowOptions
    (fun row : Bytes => row.length = context.rows.planeRowBytes) _)
    fun row rowLength => ?_
  · split
    · refine .of_computes (swapByteOrderInPlace_computes sound.component_pos whole) ?_
      rintro row same
      cases same
      rw [Library.length_mirrored sound.component_pos whole, ← whole, length]
    · exact .pure length
  · refine (Stages.consume fun reply => ?_).bind fun _ _ => ?_
    · exact rowLength.le.trans small
    · refine (Stages.ofExcept _).bind fun _ _ => ?_
      refine (Stages.modifyStore fun l held => ⟨held.sourceRow, held.planeRow⟩).bind fun _ _ => ?_
      exact .pure rowLength

theorem emitChannels_stages (sound : context.plan.Sound) (fits : context.rows.Fits context.plan)
    (small : context.rows.planeRowBytes ≤ rowOptions.maxRowBytes)
    (normal : context.plan.image.pixelStorage = .normal) :
    ∀ (count channel : Nat), channel + count = context.plan.channels →
      StagesRows platform env context rowOptions (fun _ => True)
        (emitChannels context count channel)
  | 0, _, _ => .pure trivial
  | count + 1, channel, full => by
      refine Stages.getStore.bind fun delivery held => ?_
      have planeLength : delivery.planeRow.length =
          context.rows.width * context.plan.sampleSize := by
        rw [held.planeRow, if_pos normal, fits.planeRow]
      have perSource := fits.sourceRow
      rw [rowsPerSource, normal] at perSource
      have room := @channelRow_room context.plan channel context.rows.width delivery.sourceRow
        (show channel < context.plan.channels by omega)
        (by rw [held.sourceRow, perSource, fits.planeRow])
      have split := splitRow_pieces room context.rows.width 0 planeLength (by omega)
        (fun k impossible => absurd impossible (Nat.not_lt_zero k))
      have rowLength := length_channelRow room
      rw [← split, ← fits.planeRow] at rowLength
      refine (emitPlaneRow_stages sound fits small rowLength).bind fun row length => ?_
      refine Stages.bind (Stages.modifyStore fun l held => ⟨held.sourceRow, ?_⟩) fun _ _ =>
        emitChannels_stages sound fits small normal count (channel + 1) (by omega)
      rw [if_pos normal]
      exact length

theorem emitSourceRow_stages (sound : context.plan.Sound) (fits : context.rows.Fits context.plan)
    (small : context.rows.planeRowBytes ≤ rowOptions.maxRowBytes) :
    StagesRows platform env context rowOptions (fun _ => True) (emitSourceRow context) := by
  unfold emitSourceRow
  refine Stages.getStore.bind fun delivery held => ?_
  have perSource := fits.sourceRow
  unfold rowsPerSource at perSource
  have counted : ∀ l, RowBuffers context.rows context.plan.image.pixelStorage l →
      RowBuffers context.rows context.plan.image.pixelStorage
        { l with sourceRowOrdinal := l.sourceRowOrdinal + 1 } :=
    fun l held => ⟨held.sourceRow, held.planeRow⟩
  cases storage : context.plan.image.pixelStorage with
  | planar =>
      rw [storage] at perSource
      simp only [Nat.one_mul] at perSource
      have emitted := fun channelIndex rowIndex => @emitPlaneRow_stages platform env _ rowOptions
        sound fits small channelIndex rowIndex _ (held.sourceRow.trans perSource)
      rw [storage] at counted
      simp only [StagesRows, storage] at emitted
      refine (emitted _ _).bind fun row length => ?_
      exact (Stages.modifyStore fun l held => ⟨length.trans perSource.symm, held.planeRow⟩).bind
        fun _ _ => .modifyStore counted
  | normal =>
      have emitted := @emitChannels_stages platform env _ rowOptions sound fits small storage _ 0
        (Nat.zero_add _)
      rw [storage] at counted
      simp only [StagesRows, storage] at emitted
      exact emitted.bind fun _ _ => .modifyStore counted

/-- The rows of a block without a codec are read into the source row. -/
theorem deliverUncompressed_stages (sound : context.plan.Sound)
    (rows : context.rows = rowSizes context.plan)
    (small : context.rows.planeRowBytes ≤ rowOptions.maxRowBytes)
    (uncompressed : context.plan.compression.codec = .none) (imageIndex : Nat) :
    ∀ (count row : Nat), row + count = context.rows.sourceRowCount →
      StagesRows platform env context rowOptions (fun _ => True)
        (deliverUncompressed context imageIndex count row)
  | 0, _, _ => .pure trivial
  | count + 1, row, full => by
      have fits : context.rows.Fits context.plan := rows ▸ rowSizes_fits context.plan
      have total : context.rows.sourceRowCount * context.rows.sourceRowBytes =
          context.plan.serializedBytes := by
        rw [rows, sourceRows_total sound, sound.serialized_eq uncompressed]
      have inside : row * context.rows.sourceRowBytes + context.rows.sourceRowBytes ≤
          context.plan.serializedBytes := by
        rw [← total, ← Nat.succ_mul]
        exact Nat.mul_le_mul_right _ (by omega)
      have noWrap : row * context.rows.sourceRowBytes ≤ u64Max := by
        have bounded := sound.small
        rw [← sound.serialized_eq uncompressed] at bounded
        omega
      unfold deliverUncompressed
      rw [wrapMultiply_eq noWrap]
      refine (Stages.of_fetches (readSerializedChunk_fetches (sound.place.mono inside))).bind
        fun bytes length => ?_
      refine (Stages.modifyStore fun l held => ⟨length, held.planeRow⟩).bind fun _ _ => ?_
      refine (Stages.modifyStore fun l held => ⟨held.sourceRow, held.planeRow⟩).bind fun _ _ => ?_
      exact (emitSourceRow_stages sound fits small).bind fun _ _ =>
        deliverUncompressed_stages sound rows small uncompressed imageIndex count (row + 1)
          (by omega)

theorem feedDecoded_stages (sound : context.plan.Sound) (fits : context.rows.Fits context.plan)
    (small : context.rows.planeRowBytes ≤ rowOptions.maxRowBytes) :
    ∀ (fuel : Nat) (decoded : Bytes),
      StagesRows platform env context rowOptions (fun _ => True) (feedDecoded context fuel decoded)
  | 0, _ => .pure trivial
  | fuel + 1, decoded => by
      unfold feedDecoded
      split
      · exact .pure trivial
      · refine Stages.getStore.bind fun delivery held => ?_
        refine Stages.bind (Stages.setStore ⟨?_, held.planeRow⟩) fun _ _ => ?_
        · -- no byte is copied once the row is full
          rcases Nat.lt_or_ge delivery.rowFill delivery.sourceRow.length with room | full
          · rw [Library.length_overwrite (by rw [List.length_take]; omega)]
            exact held.sourceRow
          · rw [Nat.sub_eq_zero_of_le full, Nat.zero_min, List.take_zero, Library.overwrite_nil]
            exact held.sourceRow
        · refine Stages.bind (?_ : StagesRows platform env context rowOptions (fun _ => True) _)
            fun _ _ =>
            feedDecoded_stages sound fits small fuel _
          split
          · exact (emitSourceRow_stages sound fits small).bind fun _ _ =>
              .modifyStore fun l held => ⟨held.sourceRow, held.planeRow⟩
          · exact .pure trivial

/-- Every call on a subblock's plan is of the size of that subblock. -/
theorem withinStaging_of_call {compression : CompressionPlan} {subblock : CompressionSubblock}
    {serialized : Bytes} {event : ReadEvent}
    (limits : subblock.compressedSize ≤ rowOptions.maxSubblockBytes ∧
      subblock.uncompressedSize ≤ rowOptions.maxSubblockBytes)
    (call : DecompressesSubblock serialized (oneSubblock compression subblock) event) :
    WithinStaging rowOptions event := by
  obtain ⟨before, other, after, codec, windowLog, split, inside, rfl⟩ := call
  have only : other ∈ [subblock] := by
    rw [show [subblock] = before ++ other :: after from split]
    simp
  rw [List.mem_singleton.mp only] at inside ⊢
  exact ⟨(Library.length_slice inside).le.trans limits.1, limits.2⟩

theorem deliverSubblocks_stages (sound : context.plan.Sound)
    (fits : context.rows.Fits context.plan)
    (small : context.rows.planeRowBytes ≤ rowOptions.maxRowBytes)
    (staged : ∀ subblock ∈ context.plan.compression.subblocks,
      subblock.compressedSize ≤ rowOptions.maxSubblockBytes ∧
        subblock.uncompressedSize ≤ rowOptions.maxSubblockBytes) (imageIndex : Nat) :
    ∀ (subblocks : List CompressionSubblock) (serializedOffset : Nat),
      (∀ subblock ∈ subblocks, subblock ∈ context.plan.compression.subblocks) →
      serializedOffset + compressedTotal subblocks ≤ context.plan.serializedBytes →
      StagesRows platform env context rowOptions (fun _ => True)
        (deliverSubblocks platform context imageIndex subblocks serializedOffset)
  | [], _, _, _ => .pure trivial
  | subblock :: rest, serializedOffset, among, inside => by
      simp only [compressedTotal, List.map_cons, List.sum_cons] at inside
      have limits := staged subblock (among subblock List.mem_cons_self)
      unfold deliverSubblocks
      refine (Stages.of_fetches (readSerializedChunk_fetches
        (sound.place.mono (by omega)))).bind fun serialized length => ?_
      refine (Stages.modifyStore fun l held => ⟨held.sourceRow, held.planeRow⟩).bind fun _ _ => ?_
      have calls := @decodeCompressedBlock_calls platform env
        (oneSubblock context.plan.compression subblock) serialized RowDelivery
        (by simp [oneSubblock, compressedTotal, length]) (zeros subblock.uncompressedSize)
      refine Stages.bind ((.of_computes (calls.mono fun event call =>
        withinStaging_of_call limits call) fun _ _ => trivial) :
          StagesRows platform env context rowOptions (fun _ => True) _) fun decoded _ => ?_
      refine (feedDecoded_stages sound fits small _ decoded).bind fun _ _ => ?_
      rw [length]
      exact deliverSubblocks_stages sound fits small staged imageIndex rest _
        (fun other member => among other (List.mem_cons_of_mem _ member))
        (by simp only [compressedTotal]; omega)

theorem deliverRows_stages (sound : context.plan.Sound)
    (rows : context.rows = rowSizes context.plan)
    (limits : WithinRowLimits context.plan rowOptions)
    (small : context.rows.planeRowBytes ≤ rowOptions.maxRowBytes) (imageIndex : Nat) :
    StagesRows platform env context rowOptions (fun _ => True)
      (deliverRows platform context imageIndex) := by
  have fits : context.rows.Fits context.plan := rows ▸ rowSizes_fits context.plan
  unfold deliverRows
  refine Stages.bind (?_ : StagesRows platform env context rowOptions (fun _ => True) _)
    fun _ _ => ?_
  · split
    · rename_i uncompressed
      exact deliverUncompressed_stages sound rows small uncompressed imageIndex _ 0 (Nat.zero_add _)
    · rename_i coded
      unfold deliverCompressed
      refine (deliverSubblocks_stages sound fits small (limits.subblocks coded) imageIndex _ 0
        (fun _ member => member) ?_).bind fun _ _ => ?_
      · rw [Nat.zero_add, (sound.fits.compressed coded).1]
      · exact Stages.getStore.bind fun _ _ => .ofExcept _
  · refine Stages.getStore.bind fun _ _ => (Stages.ofExcept _).bind fun _ _ => ?_
    exact (Stages.checkStop _).bind fun _ _ => .ofExcept _

theorem rowBuffers_start (plan : ImageReadPlan) (rows : RowPlan) :
    RowBuffers rows plan.image.pixelStorage (.start plan rows) := by
  refine ⟨List.length_replicate, ?_⟩
  simp only [RowDelivery.start]
  split
  · exact List.length_replicate
  · rfl

theorem planeRow_within {plan : ImageReadPlan} (sound : plan.Sound)
    (limits : WithinRowLimits plan rowOptions) :
    (rowSizes plan).planeRowBytes ≤ rowOptions.maxRowBytes :=
  (Nat.le_mul_of_pos_left _ (rowsPerSource_pos sound)).trans limits.row

theorem readImageRows_stages (reader : Impl) (imageIndex : Nat)
    (rowOptions : ImageRowReadOptions) :
    Stages platform env (fun _ : L => True) (WithinStaging rowOptions) (fun _ => True)
      (readImageRows platform reader imageIndex rowOptions) := by
  unfold readImageRows
  refine Stages.bind (.of_computes (Computes.ofExcept _) fun plan planned => planned)
    fun plan planned => ?_
  obtain ⟨sound, -⟩ := planImageRead_sound reader.wellFormed planned
  refine (Stages.ofExcept _).bind fun _ _ => (Stages.checkStop _).bind fun _ _ => ?_
  refine Stages.bind (.of_computes (Computes.ofExcept _) fun rows sized => sized)
    fun rows sized => ?_
  obtain ⟨limits, rfl⟩ := (planRows_eq_ok sound).mp sized
  refine Stages.bind (?_ : Stages platform env (fun _ => True) (WithinStaging rowOptions)
    (fun _ => True) _) fun _ _ => ?_
  · intro l s _
    refine Library.Routine.wp_mono ?_ (verifyImageChecksumStreaming_spec sound.place l s)
    rintro result m t ⟨rfl, events, rfl, within, -⟩
    refine ⟨trivial, ⟨events, rfl, fun event member => ?_⟩, fun _ _ => trivial⟩
    obtain ⟨-, offset, asked, reply, rfl, -⟩ := within event member
    trivial
  · exact (Stages.within (deliverRows_stages sound rfl limits (planeRow_within sound limits)
      imageIndex) (rowBuffers_start plan _)).bind fun _ _ => .pure trivial

end

/-- A row delivery of this image, with these sizes: each subblock has a plan of its
own that decodes in place, the sizes are within the limits, and whatever the
source, the sink and the stop token answer the row buffers keep their sizes and
the events keep the limits. -/
structure StagesWithin (platform : Platform) (env : Environment) (rowOptions : ImageRowReadOptions)
    (imageIndex : Nat) (context : RowContext) : Prop where
  one : context.plan.compression.codec ≠ .none →
    ∀ subblock ∈ context.plan.compression.subblocks, ∀ serialized destination : Bytes,
      serialized.length = subblock.compressedSize →
      destination.length = subblock.uncompressedSize →
      DecodesInPlace platform env (oneSubblock context.plan.compression subblock) serialized
        destination
  rowLimit : context.rows.sourceRowBytes ≤ rowOptions.maxRowBytes ∧
    context.rows.planeRowBytes ≤ rowOptions.maxRowBytes
  subblockLimit : context.plan.compression.codec ≠ .none →
    ∀ subblock ∈ context.plan.compression.subblocks,
      subblock.compressedSize ≤ rowOptions.maxSubblockBytes ∧
        subblock.uncompressedSize ≤ rowOptions.maxSubblockBytes
  delivery : ∀ s, wp (env.world platform) (deliverRows platform context imageIndex)
    (fun _ m t => RowBuffers context.rows context.plan.image.pixelStorage m ∧
      ∃ added, t = s ++ added ∧ ∀ event ∈ added, WithinStaging rowOptions event)
    (.start context.plan context.rows) s

/-- For any descriptor texts, sizes, options and limits: an accepted plan with a
codec is sound and decodes any buffer of the serialized size in place into any
destination of the declared size, and so does each one-subblock plan of
`read_image_rows`, whose buffers and events keep the limits of the delivery. -/
theorem compressionPlans_sound (platform : Platform) (env : Environment)
    (compression subblocks : Text) (serializedBytes : Nat) (expectedBytes : Option Nat)
    (options : ReaderOptions) (itemSize maxSerializedBytes maxDecodedBytes : Nat) (reader : Impl)
    (imageIndex : Nat) (rowOptions : ImageRowReadOptions) :
    (∀ plan, parseCompressionPlan compression subblocks serializedBytes expectedBytes options
        itemSize maxSerializedBytes maxDecodedBytes = .ok plan → plan.codec ≠ .none →
      SoundPlan subblocks serializedBytes expectedBytes options maxSerializedBytes maxDecodedBytes
        plan ∧
      ∀ serialized destination : Bytes, serialized.length = serializedBytes →
        destination.length = plan.uncompressedSize →
        DecodesInPlace platform env plan serialized destination) ∧
    (∀ plan rows outputByteOrder,
      planImageRead reader.document reader.options reader.embeddedBlocks imageIndex = .ok plan →
      planRows plan rowOptions = .ok rows →
      StagesWithin platform env rowOptions imageIndex ⟨plan, rows, outputByteOrder⟩) ∧
    wp (env.world platform) (readImageRows platform reader imageIndex rowOptions)
      (fun _ _ events => ∀ event ∈ events, WithinStaging rowOptions event) () [] := by
  refine ⟨?_, ?_, ?_⟩
  · intro plan parsed coded
    have sound := soundPlan_of_parse parsed coded
    have fits := (parseCompressionPlan_fits parsed).1
    exact ⟨sound, fun serialized destination serializedLength destinationLength =>
      decodesInPlace fits.shuffled (sound.compressedSum.trans serializedLength.symm)
        (sound.uncompressedSum.trans destinationLength.symm)⟩
  · intro plan rows outputByteOrder planned sized
    obtain ⟨sound, -⟩ := planImageRead_sound reader.wellFormed planned
    obtain ⟨limits, rfl⟩ := (planRows_eq_ok sound).mp sized
    have small := planeRow_within sound limits
    refine ⟨?_, ⟨limits.row, small⟩, limits.subblocks, ?_⟩
    · intro coded subblock member serialized destination serializedLength destinationLength
      exact decodesInPlace sound.fits.shuffled
        (by simp [oneSubblock, compressedTotal, serializedLength])
        (by simp [oneSubblock, uncompressedTotal, destinationLength])
    · intro s
      refine Library.Routine.wp_mono ?_ (@deliverRows_stages platform env
        ⟨plan, rowSizes plan, outputByteOrder⟩ rowOptions sound rfl limits small imageIndex
        (.start plan (rowSizes plan)) s (rowBuffers_start plan _))
      rintro result m t ⟨held, added, -⟩
      exact ⟨held, added⟩
  · refine Library.Routine.wp_mono ?_
      (readImageRows_stages reader imageIndex rowOptions () [] trivial)
    rintro result m t ⟨-, ⟨added, rfl, allowed⟩, -⟩
    exact allowed

end Mmxisf
