/-
# SpanFrame -- what `read_image_into` leaves in its caller's destination

`ImageInto` says it of one run, from any destination and any source: nothing
beyond the image changes; nothing at all changes when the call fails before it
uses the destination, which a block with a codec or a checksum does only after
its bytes were all read and verified; after a success the front of the
destination is the reference image of the block.

`SpanFrame` adds that two successful runs that were answered with one block leave
one image, whatever their destinations held.
-/
import Mmxisf.Reader.SpanFacts
import Mmxisf.ShortReads

namespace Mmxisf.Reader

set_option autoImplicit false

open Library (slice)
open Library.Routine (wp Run ofExcept aside Tracks)

/-- The bytes that the reads of a trace returned, one after the other. -/
def readBytes : Trace → Bytes
  | [] => []
  | .read _ _ (.ok bytes) :: later => bytes ++ readBytes later
  | _ :: later => readBytes later

/-- The bytes of the block: those of the document, or what was read. -/
def ImageReadPlan.blockIn (plan : ImageReadPlan) (events : Trace) : Bytes :=
  match plan.embeddedBlock with
  | some block => slice block 0 plan.serializedBytes
  | none => readBytes events

section

variable {platform : Platform} {env : Environment} {plan : ImageReadPlan}

theorem readBytes_append (first later : Trace) :
    readBytes (first ++ later) = readBytes first ++ readBytes later := by
  fun_induction readBytes first with
  | case1 => rfl
  | case2 offset size bytes rest ih =>
      rw [List.cons_append, readBytes, ih, List.append_assoc]
  | case3 event rest other ih =>
      rw [List.cons_append, ← ih]
      rw [readBytes]
      exact other

theorem readBytes_decompressed {serialized : Bytes} {events : Trace}
    (slices : ∀ event ∈ events, DecompressesSlice serialized event) : readBytes events = [] := by
  induction events with
  | nil => rfl
  | cons event later ih =>
      obtain ⟨codec, start, count, size, windowLog, rfl⟩ := slices _ List.mem_cons_self
      exact ih fun event member => slices event (List.mem_cons_of_mem _ member)

theorem Pass.readBytes_eq {stop offset : Nat} {bytes : Bytes} {events : Trace}
    (pass : Pass env stop offset bytes events) : readBytes events = bytes := by
  induction pass with
  | nil offset => rfl
  | read allowed nonempty short inside tail ih => rw [readBytes, ih]

theorem Pass.noneRefused {stop offset : Nat} {bytes : Bytes} {events : Trace}
    (pass : Pass env stop offset bytes events) : NoneRefused events := by
  induction pass with
  | nil offset => exact .nil
  | read allowed nonempty short inside tail ih =>
      intro offset size reply member
      rcases List.mem_cons.mp member with same | later
      · cases same
        rintro (empty | long)
        · exact nonempty empty
        · omega
      · exact ih offset size reply later

theorem Obtained.noneRefused {place : BlockPlace} {stop start : Nat} {bytes : Bytes}
    {events : Trace} (obtained : Obtained env place stop start bytes events) :
    NoneRefused events := by
  unfold Obtained at obtained
  split at obtained
  · rw [obtained.2]
    exact .nil
  · exact obtained.noneRefused

/-- What was obtained is the block of the whole trace. -/
theorem Obtained.blockIn_eq {bytes : Bytes} {fetched computed : Trace}
    (obtained : Obtained env plan.place plan.serializedBytes 0 bytes fetched)
    (length : bytes.length = plan.serializedBytes)
    (slices : ∀ event ∈ computed, DecompressesSlice bytes event) :
    plan.blockIn (fetched ++ computed) = bytes := by
  unfold Obtained at obtained
  unfold ImageReadPlan.blockIn
  have place : plan.place.inlineBlock = plan.embeddedBlock := rfl
  rw [place] at obtained
  cases isInline : plan.embeddedBlock with
  | some block =>
      rw [isInline] at obtained
      rw [length] at obtained
      exact obtained.1.symm
  | none =>
      rw [isInline] at obtained
      rw [readBytes_append, readBytes_decompressed slices, List.append_nil]
      exact obtained.readBytes_eq

/-! ## Errors of the decoding functions -/

/-- What the decoding of a block may fail with. -/
def DecodingCode (code : ErrorCode) : Prop := code ≠ .checksumMismatch ∧ code ≠ .cancelled

theorem decodingCode_of_mem : ∀ e ∈ decompressionErrors, DecodingCode e.code := by
  unfold DecodingCode
  decide

theorem blockBytes_error {compression : CompressionPlan} {serialized : Bytes} {e : Error}
    (run : blockBytes platform compression serialized = .error e) : DecodingCode e.code := by
  unfold blockBytes decodedBytes decodedUpTo at run
  split at run
  · cases run
  · cases pieces : decompressedPieces platform serialized compression.codec
        compression.maxZstdWindowBytes compression.subblocks 0 with
    | ok all => simp [pieces, Except.map] at run
    | error e' =>
        simp only [pieces, Except.map, Except.error.injEq] at run
        rw [← run]
        exact decodingCode_of_mem _ (decompressedPieces_error pieces)

/-! ## Filling the destination -/

/-- The block has to be copied before it is used. -/
def ImageReadPlan.Staged (plan : ImageReadPlan) : Prop :=
  plan.compression.codec ≠ .none ∨ plan.checksum.algorithm ≠ .none

/-- Some reply of the source was an error or no part of what was asked for. -/
def SourceFailed (events : Trace) : Prop :=
  ∃ offset size reply, .read offset size reply ∈ events ∧ BadReply size reply

/-- How the filling of a destination whose front is the image's ends. -/
structure FillOutcome (platform : Platform) (plan : ImageReadPlan) (outputStorage : PixelStorage)
    (outputByteOrder : ByteOrder) (rest : Bytes) (before : Span) (result : Result Unit)
    (after : Span) (events : Trace) : Prop where
  kept : Span.Kept plan.expectedBytes rest after
  source : plan.Staged → SourceFailed events → (∃ e, result = .error e) ∧ after = before
  checksum : plan.Staged → ∀ e, result = .error e → e.code = .checksumMismatch → after = before
  decompression : plan.compression.codec ≠ .none → outputStorage ≠ plan.image.pixelStorage →
    ∀ e, result = .error e → e.code ≠ .cancelled → after = before
  filled : result = .ok () →
    ∃ pixels, blockBytes platform plan.compression (plan.blockIn events) = .ok pixels ∧
      plan.IsReference outputStorage outputByteOrder pixels (after.bytes.take plan.expectedBytes)

section

variable {outputStorage : PixelStorage} {outputByteOrder : ByteOrder} {rest : Bytes}
  {before after : Span} {residue : Residue}

/-- Nothing was written yet. -/
theorem FillOutcome.untouched {e : Error} {events : Trace}
    (kept : Span.Kept plan.expectedBytes rest before) :
    FillOutcome platform plan outputStorage outputByteOrder rest before (.error e) before
      events where
  kept := kept
  source _ _ := ⟨⟨e, rfl⟩, rfl⟩
  checksum _ _ _ _ := rfl
  decompression _ _ _ _ _ := rfl
  filled impossible := by cases impossible

theorem reference_front {dest : Bytes} {source : Bytes}
    (holds : Span.Holds plan.expectedBytes rest dest after)
    (reference : plan.IsReference outputStorage outputByteOrder source dest) :
    plan.IsReference outputStorage outputByteOrder source
      (after.bytes.take plan.expectedBytes) := by
  rw [holds.bytes, ← holds.length, List.take_left]
  exact reference

/-- With a codec and another layout the decoder has a buffer of its own, and the
transformation that follows it fails only when it is cancelled. -/
theorem decodeStagedImageInto_decompression {serialized dest : Bytes} (sound : plan.Sound)
    (holds : Span.Holds plan.expectedBytes rest dest before)
    (compressed : plan.compression.codec ≠ .none)
    (changed : outputStorage ≠ plan.image.pixelStorage) (s : Trace) :
    wp (env.world platform)
      (decodeStagedImageInto platform residue plan serialized outputStorage outputByteOrder)
      (fun result after _ => ∀ e, result = .error e → e.code ≠ .cancelled → after = before)
      before s := by
  unfold decodeStagedImageInto
  rw [if_pos compressed, if_pos changed, Library.Routine.wp_bind, Library.Routine.wp_aside]
  refine Library.Routine.wp_mono ?_ (decodeCompressedBlock_computes serialized plan.compression
    (zeros plan.expectedBytes) () s)
  rintro (e | sourcePixels) _ t -
  · exact fun _ _ _ => rfl
  · rw [Library.Routine.continueWith_ok]
    have fills := @transformPixelStorageFromBuffer_fills _ _ _ plan outputStorage outputByteOrder
      sound sourcePixels holds
    have computes := @transformFrom_computes Unit platform env plan outputStorage outputByteOrder
      (fun _ => False) sourcePixels plan.sampleCount 0 dest () t
    refine Library.Routine.wp_mono ?_ (fills.wp computes)
    rintro (e | _) after u ended e' same other
    · obtain ⟨_, -, -, outcome, -⟩ := ended
      cases same
      rcases outcome with impossible | ⟨_, same, -, cancelled⟩
      · cases impossible
      · cases same
        exact absurd cancelled other
    · cases same

/-- The decoding of a block that was copied and verified. -/
theorem decodeStagedImageInto_outcome (sound : plan.Sound) {serialized dest : Bytes}
    {fetched : Trace} (holds : Span.Holds plan.expectedBytes rest dest before)
    (length : serialized.length = plan.serializedBytes)
    (obtained : Obtained env plan.place plan.serializedBytes 0 serialized fetched) (s : Trace) :
    wp (env.world platform)
      (decodeStagedImageInto platform residue plan serialized outputStorage outputByteOrder)
      (fun result after t => ∃ events, t = s ++ events ∧
        FillOutcome platform plan outputStorage outputByteOrder rest before result after events)
      before (s ++ fetched) := by
  obtain ⟨value, valued, computes⟩ := @decodeStagedImage_computes Unit platform env plan
    outputStorage outputByteOrder sound serialized dest length holds.length
  have fills := @decodeStagedImage_fills _ _ _ residue platform plan outputStorage
    outputByteOrder serialized sound length holds
  have ends := Tracks.wp fills (computes () (s ++ fetched))
  have atomic : wp (env.world platform)
      (decodeStagedImageInto platform residue plan serialized outputStorage outputByteOrder)
      (fun result after _ => plan.compression.codec ≠ .none →
        outputStorage ≠ plan.image.pixelStorage →
        ∀ e, result = .error e → e.code ≠ .cancelled → after = before)
      before (s ++ fetched) := by
    by_cases buffered : plan.compression.codec ≠ .none ∧
        outputStorage ≠ plan.image.pixelStorage
    · exact Library.Routine.wp_mono (fun _ _ _ unchanged _ _ => unchanged)
        (decodeStagedImageInto_decompression sound holds buffered.1 buffered.2 _)
    · exact Library.Routine.wp_mono
        (fun _ _ _ _ compressed changed => absurd ⟨compressed, changed⟩ buffered) ends
  have noneFailed {computed : Trace}
      (slices : ∀ event ∈ computed, DecompressesSlice serialized event) :
      ¬ SourceFailed (fetched ++ computed) := by
    rintro ⟨offset, size, reply, member, bad⟩
    rcases List.mem_append.mp member with before | after
    · exact obtained.noneRefused offset size reply before bad
    · obtain ⟨_, _, _, _, _, impossible⟩ := slices _ after
      cases impossible
  refine Library.Routine.wp_mono ?_ (Library.Routine.wp_and ends atomic)
  rintro result after t ⟨ended, unchanged⟩
  cases result with
  | error e =>
      obtain ⟨_, kept, -, outcome, computed, rfl, slices⟩ := ended
      refine ⟨fetched ++ computed, by rw [List.append_assoc], kept, ?_, ?_, unchanged, ?_⟩
      · exact fun _ failed => absurd failed (noneFailed slices)
      · -- a mismatch is reported before anything is decoded
        intro _ e' same mismatch
        cases same
        exfalso
        rcases outcome with decoding | ⟨_, same, -, cancelled⟩
        · unfold ImageValue at valued
          rw [← decoding] at valued
          split at valued
          · rename_i failed
            cases valued
            exact (blockBytes_error failed).1 mismatch
          · obtain ⟨_, impossible, -⟩ := valued
            cases impossible
        · cases same
          rw [cancelled] at mismatch
          cases mismatch
      · intro impossible
        cases impossible
  | ok _ =>
      obtain ⟨filled, _, shows, -, outcome, computed, rfl, slices⟩ := ended
      refine ⟨fetched ++ computed, by rw [List.append_assoc], shows.kept, ?_, ?_, unchanged, ?_⟩
      · exact fun _ failed => absurd failed (noneFailed slices)
      · intro _ _ impossible
        cases impossible
      · intro _
        rw [obtained.blockIn_eq length slices]
        rcases outcome with rfl | ⟨_, impossible, -⟩
        · unfold ImageValue at valued
          split at valued
          · cases valued
          · rename_i pixels decoded
            obtain ⟨_, same, reference⟩ := valued
            cases same
            exact ⟨pixels, decoded, reference_front shows reference⟩
        · cases impossible

/-- A block that is not copied first is written while it is read: only the frame
and the success are promised. -/
theorem FillOutcome.streamed {result : Result Unit} {events : Trace}
    (uncompressed : plan.compression.codec = .none) (undeclared : plan.checksum.algorithm = .none)
    (kept : Span.Kept plan.expectedBytes rest after)
    (filled : result = .ok () → plan.IsReference outputStorage outputByteOrder
      (plan.blockIn events) (after.bytes.take plan.expectedBytes)) :
    FillOutcome platform plan outputStorage outputByteOrder rest before result after events := by
  have unstaged : ¬ plan.Staged := by
    rintro (compressed | declared)
    · exact compressed uncompressed
    · exact declared undeclared
  refine ⟨kept, ?_, ?_, ?_, fun same => ⟨_, ?_, filled same⟩⟩
  · exact fun staged => absurd staged unstaged
  · exact fun staged => absurd staged unstaged
  · exact fun compressed => absurd uncompressed compressed
  · unfold blockBytes
    rw [if_pos uncompressed]

theorem transformPixelStorageInto_outcome (sound : plan.Sound) {imageIndex : Nat} {dest : Bytes}
    (uncompressed : plan.compression.codec = .none) (undeclared : plan.checksum.algorithm = .none)
    (holds : Span.Holds plan.expectedBytes rest dest before) (s : Trace) :
    wp (env.world platform)
      (transformPixelStorageInto plan outputStorage outputByteOrder imageIndex)
      (fun result after t => ∃ events, t = s ++ events ∧
        FillOutcome platform plan outputStorage outputByteOrder rest before result after events)
      before s := by
  have spec := @transformChunks_spec Unit platform env plan outputStorage outputByteOrder sound
    uncompressed imageIndex plan.sampleCount 0 _ _ _ (by omega) (by omega) (by simp) .nil
    (.zero holds.length) () s
  have fills := @transformChunks_fills rest plan outputStorage outputByteOrder sound imageIndex
    plan.sampleCount 0 _ _ holds
  refine Library.Routine.wp_mono ?_ (Tracks.wp fills spec)
  rintro (e | _) after t ended
  · obtain ⟨_, kept, -, later, rfl, -, -⟩ := ended
    refine ⟨later, rfl, .streamed uncompressed undeclared kept ?_⟩
    intro impossible
    cases impossible
  · obtain ⟨filled, _, shows, -, later, rfl, -, bytes, length, obtained, reference⟩ := ended
    refine ⟨later, rfl, .streamed uncompressed undeclared shows.kept fun _ => ?_⟩
    have block := obtained.blockIn_eq length fun event (member : event ∈ []) => nomatch member
    rw [List.append_nil, List.nil_append] at block
    rw [block]
    exact reference_front shows reference

theorem copyImageInto_outcome (sound : plan.Sound) {imageIndex : Nat}
    (uncompressed : plan.compression.codec = .none) (undeclared : plan.checksum.algorithm = .none)
    (kept : Span.Kept plan.expectedBytes rest before) (s : Trace) :
    wp (env.world platform)
      (copySerializedImageInto residue plan imageIndex >>= fun _ =>
        orderPixelsInto plan outputByteOrder)
      (fun result after t => ∃ events, t = s ++ events ∧
        FillOutcome platform plan plan.image.pixelStorage outputByteOrder rest before result after
          events) before s := by
  have room := sound.serialized_eq uncompressed
  have tracks := @copySerializedImage_tracks _ _ _ residue plan imageIndex sound.place
    (Nat.le_of_eq room) kept
  rw [Library.Routine.wp_bind]
  refine Library.Routine.wp_mono ?_
    (Tracks.wp tracks (copySerializedImage_fetches sound.place () s))
  rintro (e | _) after t ended
  · obtain ⟨_, kept, -, fetched, rfl, -, -⟩ := ended
    refine ⟨fetched, rfl, .streamed uncompressed undeclared kept ?_⟩
    intro impossible
    cases impossible
  · obtain ⟨bytes, _, ⟨-, starts⟩, -, fetched, rfl, -, length, obtained⟩ := ended
    rw [Nat.zero_add] at obtained
    have block := obtained.blockIn_eq length fun event (member : event ∈ []) => nomatch member
    rw [List.append_nil] at block
    have full := starts.holds (length.trans room)
    obtain ⟨final, reference, computes⟩ := @orderPixels_computes Unit platform env plan
      outputByteOrder (fun _ => False) sound bytes (length.trans room)
    rw [Library.Routine.continueWith_ok]
    refine Library.Routine.wp_mono ?_
      (Tracks.wp (orderPixels_fills full) (computes () (s ++ fetched)))
    rintro (e | _) last u ended
    · obtain ⟨_, kept, -, -, more, rfl, -⟩ := ended
      refine ⟨fetched ++ more, by rw [List.append_assoc],
        .streamed uncompressed undeclared kept ?_⟩
      intro impossible
      cases impossible
    · obtain ⟨ordered, _, shows, -, value, more, rfl, nothing⟩ := ended
      obtain rfl : more = [] := List.eq_nil_iff_forall_not_mem.mpr nothing
      refine ⟨fetched, by rw [List.append_nil],
        .streamed uncompressed undeclared shows.kept fun _ => ?_⟩
      rcases value with same | ⟨_, impossible, -⟩
      · cases same
        rw [block]
        exact reference_front shows reference
      · cases impossible

theorem fillImageInto_outcome (sound : plan.Sound) {imageIndex : Nat} {dest : Bytes}
    (holds : Span.Holds plan.expectedBytes rest dest before) (s : Trace) :
    wp (env.world platform)
      (fillImageInto platform residue plan imageIndex outputStorage outputByteOrder)
      (fun result after t => ∃ events, t = s ++ events ∧
        FillOutcome platform plan outputStorage outputByteOrder rest before result after events)
      before s := by
  unfold fillImageInto
  by_cases staged : needsSerializedStaging plan.compression plan.checksum = true
  · rw [if_pos staged, Library.Routine.wp_bind, Library.Routine.wp_aside]
    refine Library.Routine.wp_mono ?_ (copySerializedImage_fetches sound.place () s)
    rintro (e | serialized) _ _ ⟨-, fetched, rfl, -, ended⟩
    · exact ⟨fetched, rfl, .untouched holds.kept⟩
    · obtain ⟨length, obtained⟩ := ended
      rw [Nat.zero_add] at obtained
      rw [Library.Routine.continueWith_ok, Library.Routine.wp_bind, Library.Routine.wp_aside,
        Library.Routine.wp_ofExcept]
      cases verified : verifyChecksum platform plan.checksum serialized with
      | error e => exact ⟨fetched, rfl, .untouched holds.kept⟩
      | ok _ =>
          rw [Library.Routine.continueWith_ok]
          exact decodeStagedImageInto_outcome sound holds length obtained s
  · rw [if_neg staged]
    simp only [needsSerializedStaging, ne_eq, decide_not, Bool.or_eq_true, Bool.not_eq_true',
      decide_eq_false_iff_not, not_or, not_not] at staged
    obtain ⟨uncompressed, undeclared⟩ := staged
    by_cases changed : outputStorage ≠ plan.image.pixelStorage
    · rw [if_pos changed]
      exact transformPixelStorageInto_outcome sound uncompressed undeclared holds s
    · rw [if_neg changed]
      rw [not_not] at changed
      subst changed
      exact copyImageInto_outcome sound uncompressed undeclared holds.kept s

end

end

/-! ## The whole call -/

/-- What one run of `read_image_into` does to the destination `before`. -/
structure ImageInto (platform : Platform) (reader : Impl) (imageIndex : Nat)
    (readOptions : RawImageReadOptions) (before : Span) (result : Result Nat) (after : Span)
    (events : Trace) : Prop where
  /-- A plan that is refused is the whole call. -/
  planning : ∀ e, planImageRead reader.document reader.options reader.embeddedBlocks imageIndex =
    .error e → result = .error e ∧ after = before
  /-- So is a destination that is too small, and an option that names nothing. -/
  arguments : ∀ plan,
    planImageRead reader.document reader.options reader.embeddedBlocks imageIndex = .ok plan →
    before.bytes.length < plan.expectedBytes ∨ readOptions.pixelStorage = none ∨
      readOptions.byteOrder = none →
    (∃ e, result = .error e ∧ e.code = .invalidArgument) ∧ after = before
  /-- However the call ends, the bytes beyond the image are what they were. -/
  frame : ∀ plan,
    planImageRead reader.document reader.options reader.embeddedBlocks imageIndex = .ok plan →
    after.bytes.length = before.bytes.length ∧
      ∀ i, plan.expectedBytes ≤ i → after.bytes[i]? = before.bytes[i]?
  source : ∀ plan,
    planImageRead reader.document reader.options reader.embeddedBlocks imageIndex = .ok plan →
    plan.Staged → SourceFailed events → (∃ e, result = .error e) ∧ after = before
  checksum : ∀ plan,
    planImageRead reader.document reader.options reader.embeddedBlocks imageIndex = .ok plan →
    plan.Staged → ∀ e, result = .error e → e.code = .checksumMismatch → after = before
  /-- With a codec and another layout, the call changes something and fails only
  when it is cancelled. -/
  decompression : ∀ plan storage,
    planImageRead reader.document reader.options reader.embeddedBlocks imageIndex = .ok plan →
    readOptions.pixelStorage = some storage → plan.compression.codec ≠ .none →
    resolvePixelStorage plan storage ≠ plan.image.pixelStorage →
    ∀ e, result = .error e → e.code ≠ .cancelled → after = before
  /-- After a success the front is the reference image of the block. -/
  success : ∀ written, result = .ok written → ∃ plan storage order pixels,
    planImageRead reader.document reader.options reader.embeddedBlocks imageIndex = .ok plan ∧
    readOptions.pixelStorage = some storage ∧ readOptions.byteOrder = some order ∧
    written = plan.expectedBytes ∧ written ≤ before.bytes.length ∧
    blockBytes platform plan.compression (plan.blockIn events) = .ok pixels ∧
    plan.IsReference (resolvePixelStorage plan storage)
      (resolveByteOrder platform plan.image.byteOrder order) pixels (after.bytes.take written)

section

variable {platform : Platform} {reader : Impl} {imageIndex : Nat}
  {readOptions : RawImageReadOptions} {before after : Span} {plan : ImageReadPlan}
  {result : Result Nat} {events : Trace}

/-- A call that ends before it uses the destination. -/
theorem ImageInto.refused {e : Error}
    (planning : ∀ e', planImageRead reader.document reader.options reader.embeddedBlocks
      imageIndex = .error e' → e = e')
    (arguments : ∀ plan,
      planImageRead reader.document reader.options reader.embeddedBlocks imageIndex = .ok plan →
      e.code = .invalidArgument) :
    ImageInto platform reader imageIndex readOptions before (.error e) before [] where
  planning e' failed := ⟨by rw [planning e' failed], rfl⟩
  arguments plan planned _ := ⟨⟨e, rfl, arguments plan planned⟩, rfl⟩
  frame _ _ := ⟨rfl, fun _ _ => rfl⟩
  source _ _ _ _ := ⟨⟨e, rfl⟩, rfl⟩
  checksum _ _ _ _ _ _ := rfl
  decompression _ _ _ _ _ _ _ _ _ := rfl
  success _ impossible := by cases impossible

/-- A call that fills the front of the destination. -/
theorem ImageInto.of_fill {storage : PixelStorageOutput} {order : ByteOrderOutput}
    {filled : Result Unit}
    (planned : planImageRead reader.document reader.options reader.embeddedBlocks imageIndex =
      .ok plan)
    (room : plan.expectedBytes ≤ before.bytes.length)
    (storageGiven : readOptions.pixelStorage = some storage)
    (orderGiven : readOptions.byteOrder = some order)
    (outcome : FillOutcome platform plan (resolvePixelStorage plan storage)
      (resolveByteOrder platform plan.image.byteOrder order)
      (before.bytes.drop plan.expectedBytes) before filled after events) :
    ImageInto platform reader imageIndex readOptions before
      (filled.map fun _ => plan.expectedBytes) after events := by
  have same {other : ImageReadPlan}
      (found : planImageRead reader.document reader.options reader.embeddedBlocks imageIndex =
        .ok other) : other = plan := by
    rw [planned] at found
    cases found
    rfl
  have error {e : Error} (failed : filled.map (fun _ => plan.expectedBytes) = .error e) :
      filled = .error e := by
    cases filled with
    | ok _ => cases failed
    | error e' =>
        cases failed
        rfl
  constructor
  · intro e failed
    rw [planned] at failed
    cases failed
  · intro other found bad
    obtain rfl := same found
    rw [storageGiven, orderGiven] at bad
    rcases bad with small | impossible | impossible
    · omega
    · cases impossible
    · cases impossible
  · intro other found
    obtain rfl := same found
    obtain ⟨front, length, bytes⟩ := outcome.kept
    have split := List.take_append_drop other.expectedBytes before.bytes
    have frontLength : (before.bytes.take other.expectedBytes).length = other.expectedBytes := by
      rw [List.length_take]
      omega
    constructor
    · rw [bytes, List.length_append, length, List.length_drop]
      omega
    · intro i beyond
      rw [bytes, List.getElem?_append_right (by omega), length, List.getElem?_drop]
      congr 1
      omega
  · intro other found staged failed
    obtain rfl := same found
    obtain ⟨⟨e, rfl⟩, unchanged⟩ := outcome.source staged failed
    exact ⟨⟨e, rfl⟩, unchanged⟩
  · intro other found staged e failed mismatch
    obtain rfl := same found
    exact outcome.checksum staged e (error failed) mismatch
  · intro other storage' found given compressed changed e failed code
    obtain rfl := same found
    rw [storageGiven] at given
    cases given
    exact outcome.decompression compressed changed e (error failed) code
  · intro written ok
    cases filled with
    | error e => cases ok
    | ok _ =>
        cases ok
        obtain ⟨pixels, decoded, reference⟩ := outcome.filled rfl
        exact ⟨plan, storage, order, pixels, planned, storageGiven, orderGiven, rfl, room, decoded,
          reference⟩

theorem readImageIntoSpan_leaves (env : Environment) (residue : Residue) (reader : Impl)
    (imageIndex : Nat) (readOptions : RawImageReadOptions) (before : Span) (s : Trace) :
    wp (env.world platform) (readImageIntoSpan platform residue reader imageIndex readOptions)
      (fun result after t => ∃ events, t = s ++ events ∧
        ImageInto platform reader imageIndex readOptions before result after events) before s := by
  unfold readImageIntoSpan
  cases planned : planImageRead reader.document reader.options reader.embeddedBlocks imageIndex with
  | error e =>
      refine ⟨[], (List.append_nil s).symm, .refused ?_ ?_⟩
      · intro e' failed
        rw [planned] at failed
        cases failed
        rfl
      · intro plan found
        rw [planned] at found
        cases found
  | ok plan =>
      have refused {e : Error} (code : e.code = .invalidArgument) :
          ∃ events, s = s ++ events ∧
            ImageInto platform reader imageIndex readOptions before (.error e) before events := by
        refine ⟨[], (List.append_nil s).symm, .refused ?_ fun _ _ => code⟩
        intro e' failed
        rw [planned] at failed
        cases failed
      rw [Library.Routine.ofExcept_ok_bind, Library.Routine.wp_bind, Library.Routine.wp_getStore,
        Library.Routine.continueWith_ok, Library.Routine.wp_bind, Library.Routine.wp_aside]
      unfold refuse reject
      rw [Library.Routine.wp_ofExcept]
      by_cases small : before.bytes.length < plan.expectedBytes
      · rw [if_pos small]
        exact refused rfl
      · rw [if_neg small, Library.Routine.continueWith_ok]
        cases storageGiven : readOptions.pixelStorage with
        | none => exact refused rfl
        | some storage =>
            cases orderGiven : readOptions.byteOrder with
            | none => exact refused rfl
            | some order =>
                have room : plan.expectedBytes ≤ before.bytes.length := Nat.le_of_not_lt small
                have holds : Span.Holds plan.expectedBytes (before.bytes.drop plan.expectedBytes)
                    (before.bytes.take plan.expectedBytes) before := by
                  refine ⟨?_, (List.take_append_drop _ _).symm⟩
                  rw [List.length_take]
                  omega
                obtain ⟨sound, -⟩ := planImageRead_sound reader.wellFormed planned
                have fills := @fillImageInto_outcome platform env plan
                  (resolvePixelStorage plan storage)
                  (resolveByteOrder platform plan.image.byteOrder order) _ before residue sound
                  imageIndex _ holds s
                change wp (env.world platform) (_ >>= fun _ => pure plan.expectedBytes) _ before s
                rw [Library.Routine.wp_bind]
                refine Library.Routine.wp_mono ?_ fills
                rintro (e | _) after t ⟨events, grown, outcome⟩
                · exact ⟨events, grown, .of_fill planned room storageGiven orderGiven outcome⟩
                · exact ⟨events, grown, .of_fill planned room storageGiven orderGiven outcome⟩

end

/-- `read_image_into`, from any destination and any source. -/
structure SpanFrame (platform : Platform) : Prop where
  leaves : ∀ (env : Environment) (residue : Residue) (reader : Impl) (imageIndex : Nat)
    (readOptions : RawImageReadOptions) (before : Span) (s : Trace),
    wp (env.world platform) (readImageIntoSpan platform residue reader imageIndex readOptions)
      (fun result after t => ∃ events, t = s ++ events ∧
        ImageInto platform reader imageIndex readOptions before result after events) before s
  /-- Two runs that succeed and were answered with one block leave one image. -/
  determined : ∀ (env env' : Environment) (residue residue' : Residue) (reader : Impl)
    (imageIndex : Nat) (readOptions : RawImageReadOptions) (plan : ImageReadPlan)
    (before before' after after' : Span) (written written' : Nat) (events events' : Trace),
    planImageRead reader.document reader.options reader.embeddedBlocks imageIndex = .ok plan →
    Run (env.world platform) (readImageIntoSpan platform residue reader imageIndex readOptions)
      before [] (.ok written) after events →
    Run (env'.world platform) (readImageIntoSpan platform residue' reader imageIndex readOptions)
      before' [] (.ok written') after' events' →
    plan.blockIn events = plan.blockIn events' →
    after.bytes.take plan.expectedBytes = after'.bytes.take plan.expectedBytes

theorem readImageInto_spanFrame (platform : Platform) : SpanFrame platform where
  leaves := readImageIntoSpan_leaves
  determined env env' residue residue' reader imageIndex readOptions plan before before' after
      after' written written' events events' planned run run' same := by
    obtain ⟨_, rfl, left⟩ := Library.Routine.run_of_wp
      (readImageIntoSpan_leaves env residue reader imageIndex readOptions before []) run
    obtain ⟨_, rfl, right⟩ := Library.Routine.run_of_wp
      (readImageIntoSpan_leaves env' residue' reader imageIndex readOptions before' []) run'
    obtain ⟨_, storage, order, pixels, found, given, ordered, rfl, -, decoded, reference⟩ :=
      left.success written rfl
    rw [planned] at found
    cases found
    obtain ⟨_, storage', order', pixels', found', given', ordered', rfl, -, decoded', reference'⟩ :=
      right.success written' rfl
    rw [planned] at found'
    cases found'
    rw [given] at given'
    cases given'
    rw [ordered] at ordered'
    cases ordered'
    rw [← same, decoded] at decoded'
    cases decoded'
    exact reference.unique (planImageRead_sound reader.wellFormed planned).1 reference'

end Mmxisf.Reader
