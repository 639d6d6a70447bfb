/-
# Reader.Rows -- the rows that a source row becomes

A planar source row is one row of a channel; an interleaved one is split into a
row for each channel.  `sourceRowViews` are the rows shown for one source row and
`pixelRows` those of all whole source rows of a byte string, so that more bytes
only add rows (`pixelRows_append`).

`Emits` says what a sink may have been shown when it was to be shown these rows:
all of them, or the first ones up to a stop or to the row it refused.
-/
import Mmxisf.Reader.Pixels

namespace Mmxisf.Reader

set_option autoImplicit false

open Library (slice overwrite mirrored)
open Library.Routine (wp request)

/-! ## Rows of the source -/

/-- The samples of one channel in an interleaved row of `width` pixels. -/
def channelRow (plan : ImageReadPlan) (width : Nat) (sourceRow : Bytes) (channel : Nat) : Bytes :=
  (List.range' 0 width).flatMap fun pixel =>
    slice sourceRow ((pixel * plan.channels + channel) * plan.sampleSize) plan.sampleSize

/-- How many rows a source row becomes. -/
def rowsPerSource (plan : ImageReadPlan) : Nat :=
  match plan.image.pixelStorage with
  | .planar => 1
  | .normal => plan.channels

/-- The rows shown for source row `ordinal`, which has these bytes. -/
def sourceRowViews (context : RowContext) (sourceRow : Bytes) (ordinal : Nat) : List ImageRowView :=
  match context.plan.image.pixelStorage with
  | .planar => [⟨ordinal / context.rows.height, ordinal % context.rows.height,
      context.outputByteOrder, context.plan.orderedBytes context.outputByteOrder sourceRow⟩]
  | .normal => (List.range' 0 context.plan.channels).map fun channel =>
      ⟨channel, ordinal, context.outputByteOrder,
        context.plan.orderedBytes context.outputByteOrder
          (channelRow context.plan context.rows.width sourceRow channel)⟩

/-- The rows of the source rows from `first` on, `count` of them. -/
def rowsFrom (context : RowContext) (pixels : Bytes) (first count : Nat) : List ImageRowView :=
  (List.range' first count).flatMap fun ordinal =>
    sourceRowViews context (slice pixels (ordinal * context.rows.sourceRowBytes)
      context.rows.sourceRowBytes) ordinal

/-- The rows of the whole source rows of these bytes. -/
def pixelRows (context : RowContext) (pixels : Bytes) : List ImageRowView :=
  rowsFrom context pixels 0 (pixels.length / context.rows.sourceRowBytes)

/-- The sizes of a delivery fit its plan. -/
structure RowPlan.Fits (plan : ImageReadPlan) (rows : RowPlan) : Prop where
  width : rows.width = axis plan.image 0
  height : rows.height = axis plan.image 1
  planeRow : rows.planeRowBytes = rows.width * plan.sampleSize
  sourceRow : rows.sourceRowBytes = rowsPerSource plan * rows.planeRowBytes
  planarRows : rows.planarRowCount = rows.height * plan.channels
  sourceRows : rows.sourceRowCount * rowsPerSource plan = rows.planarRowCount

section

variable {context : RowContext} {pixels more : Bytes}

theorem rowsFrom_append_count (first count later : Nat) :
    rowsFrom context pixels first count ++ rowsFrom context pixels (first + count) later =
      rowsFrom context pixels first (count + later) := by
  unfold rowsFrom
  rw [← List.flatMap_append, List.range'_append_1]

/-- Bytes added at the end leave the rows that were whole. -/
theorem rowsFrom_append (more : Bytes) {first count : Nat}
    (inside : (first + count) * context.rows.sourceRowBytes ≤ pixels.length) :
    rowsFrom context (pixels ++ more) first count = rowsFrom context pixels first count := by
  unfold rowsFrom
  apply List.flatMap_congr
  intro ordinal member
  simp only [List.mem_range'_1] at member
  congr 1
  have room : (ordinal + 1) * context.rows.sourceRowBytes ≤ pixels.length :=
    (Nat.mul_le_mul_right _ (by omega)).trans inside
  rw [Nat.succ_mul] at room
  exact Library.slice_append_left room

/-- More bytes add the rows that they complete. -/
theorem pixelRows_append (pixels more : Bytes) :
    pixelRows context (pixels ++ more) = pixelRows context pixels ++
      rowsFrom context (pixels ++ more) (pixels.length / context.rows.sourceRowBytes)
        ((pixels ++ more).length / context.rows.sourceRowBytes -
          pixels.length / context.rows.sourceRowBytes) := by
  have grows : pixels.length / context.rows.sourceRowBytes ≤
      (pixels ++ more).length / context.rows.sourceRowBytes :=
    Nat.div_le_div_right (by rw [List.length_append]; omega)
  have kept := @rowsFrom_append context pixels more 0 (pixels.length / context.rows.sourceRowBytes)
    (by rw [Nat.zero_add]; exact Nat.div_mul_le_self _ _)
  have joined := @rowsFrom_append_count context (pixels ++ more) 0
    (pixels.length / context.rows.sourceRowBytes) ((pixels ++ more).length /
    context.rows.sourceRowBytes -
      pixels.length / context.rows.sourceRowBytes)
  rw [Nat.zero_add, Nat.add_sub_cancel' grows] at joined
  unfold pixelRows
  rw [← joined, kept]

theorem pixelRows_extends {whole : Bytes} (first : pixels <+: whole) :
    pixelRows context pixels <+: pixelRows context whole := by
  obtain ⟨more, rfl⟩ := first
  rw [pixelRows_append]
  exact List.prefix_append _ _

/-! ## Splitting an interleaved row -/

theorem splitRow_pieces {plan : ImageReadPlan} {channel width : Nat} {sourceRow : Bytes}
    (room : ∀ pixel < width, (pixel * plan.channels + channel) * plan.sampleSize +
      plan.sampleSize ≤ sourceRow.length) :
    ∀ (count pixel : Nat) {planeRow : Bytes}, planeRow.length = width * plan.sampleSize →
      pixel + count = width →
      (∀ k < pixel, slice planeRow (k * plan.sampleSize) plan.sampleSize =
        slice sourceRow ((k * plan.channels + channel) * plan.sampleSize) plan.sampleSize) →
      splitRow plan channel sourceRow count pixel planeRow =
        channelRow plan width sourceRow channel
  | 0, pixel, planeRow, length, full, done => by
      obtain rfl : pixel = width := full
      have pieces : ∀ k < pixel, (slice sourceRow
          ((k * plan.channels + channel) * plan.sampleSize) plan.sampleSize).length =
          plan.sampleSize := fun k small => Library.length_slice (room k small)
      refine Library.eq_of_slices length (Library.length_flatMap_range fun k small => ?_)
        fun k small => ?_
      · rw [Nat.zero_add]
        exact pieces k small
      · rw [splitRow, done k small, channelRow,
          Library.slice_flatMap_range (fun i inside => ?_) small, Nat.zero_add]
        rw [Nat.zero_add]
        exact pieces i inside
  | count + 1, pixel, planeRow, length, full, done => by
      have small : pixel < width := by omega
      have pieceLength := Library.length_slice (room pixel small)
      have written : pixel * plan.sampleSize + (slice sourceRow
          ((pixel * plan.channels + channel) * plan.sampleSize) plan.sampleSize).length ≤
          planeRow.length := by
        rw [pieceLength, length, ← Nat.succ_mul]
        exact Nat.mul_le_mul_right _ small
      rw [splitRow]
      refine splitRow_pieces room count (pixel + 1)
        ((Library.length_overwrite written).trans length)
        (by omega) fun k before => ?_
      rcases Nat.lt_succ_iff_lt_or_eq.mp before with earlier | rfl
      · have apart : k * plan.sampleSize + plan.sampleSize ≤ pixel * plan.sampleSize := by
          rw [← Nat.succ_mul]
          exact Nat.mul_le_mul_right _ earlier
        rw [Library.slice_overwrite_other written (.inl apart), done k earlier]
      · have same := Library.slice_overwrite_same written
        rwa [pieceLength] at same

theorem length_channelRow {plan : ImageReadPlan} {channel width : Nat} {sourceRow : Bytes}
    (room : ∀ pixel < width, (pixel * plan.channels + channel) * plan.sampleSize +
      plan.sampleSize ≤ sourceRow.length) :
    (channelRow plan width sourceRow channel).length = width * plan.sampleSize := by
  apply Library.length_flatMap_range
  intro pixel small
  rw [Nat.zero_add]
  exact Library.length_slice (room pixel small)

/-- The samples of a channel are inside a whole interleaved row. -/
theorem channelRow_room {plan : ImageReadPlan} {channel width : Nat} {sourceRow : Bytes}
    (small : channel < plan.channels)
    (length : sourceRow.length = plan.channels * (width * plan.sampleSize)) :
    ∀ pixel < width, (pixel * plan.channels + channel) * plan.sampleSize + plan.sampleSize ≤
      sourceRow.length := by
  intro pixel inside
  have index : pixel * plan.channels + channel + 1 ≤ width * plan.channels :=
    calc pixel * plan.channels + channel + 1 ≤ pixel * plan.channels + plan.channels := by omega
      _ = (pixel + 1) * plan.channels := (Nat.succ_mul _ _).symm
      _ ≤ width * plan.channels := Nat.mul_le_mul_right _ inside
  calc (pixel * plan.channels + channel) * plan.sampleSize + plan.sampleSize
      = (pixel * plan.channels + channel + 1) * plan.sampleSize := (Nat.succ_mul _ _).symm
    _ ≤ width * plan.channels * plan.sampleSize := Nat.mul_le_mul_right _ index
    _ = sourceRow.length := by rw [length, Nat.mul_comm width, Nat.mul_assoc]

end

/-! ## What a sink was shown -/

section

variable {L : Type} {platform : Platform} {env : Environment}

/-- A sink that takes every row. -/
def shown (views : List ImageRowView) : Trace := views.map fun view => .consumed view (.ok ())

/-- What happens when these rows are to be shown. -/
inductive Emits (env : Environment) (views : List ImageRowView) : Result Unit → Trace → Prop
  | all : Emits env views (.ok ()) (shown views)
  | cancelled {e : Error} {before after : List ImageRowView} (split : views = before ++ after)
      (cancelled : Cancelled env e) : Emits env views (.error e) (shown before)
  | refused {e : Error} {before after : List ImageRowView} {view : ImageRowView}
      (split : views = before ++ view :: after) (refusal : env.sink view (.error e)) :
      Emits env views (.error e) (shown before ++ [.consumed view (.error e)])

namespace Emits

variable {views later : List ImageRowView} {result : Result Unit} {events more : Trace}

theorem append (first : Emits env views (.ok ()) events) (second : Emits env later result more) :
    Emits env (views ++ later) result (events ++ more) := by
  cases first
  cases second with
  | all =>
      rw [shown, shown, ← List.map_append]
      exact .all
  | @cancelled e before after split cancelled =>
      rw [shown, shown, ← List.map_append]
      exact .cancelled (by rw [split, List.append_assoc]) cancelled
  | @refused e before after view split refusal =>
      rw [← List.append_assoc, shown, shown, ← List.map_append]
      exact .refused (by rw [split, List.append_assoc]) refusal

/-- A failure leaves the rows that would have come later. -/
theorem failed {e : Error} (first : Emits env views (.error e) events) :
    Emits env (views ++ later) (.error e) events := by
  cases first with
  | @cancelled _ before after split cancelled =>
      exact .cancelled (by rw [split, List.append_assoc]) cancelled
  | @refused _ before after view split refusal =>
      exact .refused
        (by rw [split, List.append_assoc, List.cons_append]) refusal

end Emits

/-- A routine that shows rows and, when it succeeds, leaves the store as `leaves`
says. -/
def Shows (platform : Platform) (env : Environment) (views : List ImageRowView)
    {α : Type} (leaves : α → RowDelivery → Prop) (x : ReadRoutine RowDelivery α)
    (l : RowDelivery) : Prop :=
  ∀ s, wp (env.world platform) x
    (fun result m t => ∃ events, t = s ++ events ∧ Emits env views (result.map fun _ => ()) events ∧
      ∀ a, result = .ok a → leaves a m) l s

namespace Shows

variable {α β : Type} {views later : List ImageRowView} {leaves : α → RowDelivery → Prop}
  {leaves' : β → RowDelivery → Prop} {x : ReadRoutine RowDelivery α}
  {next : α → ReadRoutine RowDelivery β} {l : RowDelivery}

theorem pure {a : α} (holds : leaves a l) :
    Shows platform env [] leaves (Pure.pure a : ReadRoutine RowDelivery α) l := by
  intro s
  rw [Library.Routine.wp_pure]
  refine ⟨[], by simp, .all, ?_⟩
  rintro b same
  rw [Except.ok.injEq] at same
  exact same ▸ holds

/-- The rows of a sequence are those of its parts. -/
theorem bind (first : Shows platform env views leaves x l)
    (rest : ∀ a m, leaves a m → Shows platform env later leaves' (next a) m) :
    Shows platform env (views ++ later) leaves' (x >>= next) l := by
  intro s
  rw [Library.Routine.wp_bind]
  refine Library.Routine.wp_mono ?_ (first s)
  rintro (e | a) m t ⟨events, rfl, emits, left⟩
  · exact ⟨events, rfl, emits.failed, by simp⟩
  · rw [Library.Routine.continueWith_ok]
    refine Library.Routine.wp_mono ?_ (rest a m (left a rfl) (s ++ events))
    rintro result n u ⟨more, rfl, emitsMore, leftMore⟩
    exact ⟨events ++ more, by rw [List.append_assoc], Emits.append emits emitsMore, leftMore⟩

/-- A part that shows nothing comes last. -/
theorem andThen (first : Shows platform env views leaves x l)
    (rest : ∀ a m, leaves a m → Shows platform env [] leaves' (next a) m) :
    Shows platform env views leaves' (x >>= next) l := by
  have both := first.bind rest
  rwa [List.append_nil] at both

theorem modifyStore {change : RowDelivery → RowDelivery} {leaves : Unit → RowDelivery → Prop}
    (holds : leaves () (change l)) :
    Shows platform env [] leaves (Library.Routine.modifyStore change) l := by
  intro s
  rw [Library.Routine.wp_modifyStore]
  exact ⟨[], by simp, .all, fun _ _ => holds⟩

end Shows

variable {context : RowContext} {l : RowDelivery}

theorem emitPlaneRow_shows {channelIndex rowIndex count : Nat} {bytes : Bytes}
    (positive : 0 < context.plan.endianComponentSize)
    (length : bytes.length = count * context.plan.endianComponentSize) :
    Shows platform env
      [⟨channelIndex, rowIndex, context.outputByteOrder,
        context.plan.orderedBytes context.outputByteOrder bytes⟩]
      (fun row m => row = context.plan.orderedBytes context.outputByteOrder bytes ∧
        m = { l with rowsDelivered := l.rowsDelivered + 1
                     bytesDelivered := l.bytesDelivered + bytes.length })
      (emitPlaneRow context channelIndex rowIndex bytes) l := by
  intro s
  have nothing : ∀ {e : Error}, Cancelled env e →
      Emits env [⟨channelIndex, rowIndex, context.outputByteOrder,
        context.plan.orderedBytes context.outputByteOrder bytes⟩] (.error e) [] :=
    fun cancelled => @Emits.cancelled _ _ _ [] _ rfl cancelled
  have ordered : Computes platform env (fun _ => False)
      (if context.outputByteOrder ≠ context.plan.image.byteOrder then
        swapByteOrderInPlace bytes context.plan.endianComponentSize
      else pure bytes : ReadRoutine RowDelivery Bytes)
      (.ok (context.plan.orderedBytes context.outputByteOrder bytes)) := by
    unfold ImageReadPlan.orderedBytes
    by_cases same : context.plan.image.byteOrder = context.outputByteOrder
    · rw [if_neg (not_not.mpr same.symm), if_pos same]
      exact .pure bytes
    · rw [if_pos (Ne.symm same), if_neg same]
      exact swapByteOrderInPlace_computes positive length
  have orderedLength : (context.plan.orderedBytes context.outputByteOrder bytes).length =
      bytes.length := by
    unfold ImageReadPlan.orderedBytes
    split
    · rfl
    · rw [Library.length_mirrored positive length, length]
  unfold emitPlaneRow
  refine wp_afterStop ?_ fun e cancelled => ⟨[], by simp, nothing cancelled, by simp⟩
  rw [Library.Routine.wp_bind]
  refine Library.Routine.wp_mono ?_ (ordered l s)
  rintro result m t ⟨rfl, outcome, added, rfl, none⟩
  have silent : added = [] := List.eq_nil_iff_forall_not_mem.mpr none
  subst silent
  rw [List.append_nil]
  rcases outcome with rfl | ⟨e, rfl, cancelled⟩
  · rw [Library.Routine.continueWith_ok, Library.Routine.wp_bind, Library.Routine.wp_request]
    refine ⟨trivial, ?_⟩
    rintro reply t ⟨allowed, rfl⟩
    rw [Library.Routine.continueWith_ok, Library.Routine.wp_bind, Library.Routine.wp_ofExcept]
    cases reply with
    | error e =>
        exact ⟨_, rfl, @Emits.refused _ _ _ [] [] _ rfl allowed, by simp⟩
    | ok _ =>
        rw [Library.Routine.continueWith_ok, Library.Routine.wp_bind,
          Library.Routine.wp_modifyStore, Library.Routine.continueWith_ok, Library.Routine.wp_pure]
        refine ⟨_, rfl, .all, ?_⟩
        rintro row same
        rw [Except.ok.injEq] at same
        exact ⟨same.symm, by rw [orderedLength]⟩
  · exact ⟨[], by simp, nothing cancelled, by simp⟩

/-- The channels of an interleaved source row, from `channel` on. -/
theorem emitChannels_shows (sound : context.plan.Sound)
    (fits : RowPlan.Fits context.plan context.rows) {sourceRow : Bytes}
    (sourceLength : sourceRow.length = context.plan.channels * context.rows.planeRowBytes) :
    ∀ (count channel : Nat) {l : RowDelivery}, channel + count = context.plan.channels →
      l.sourceRow = sourceRow → l.planeRow.length = context.rows.planeRowBytes →
      Shows platform env
        ((List.range' channel count).map fun channel =>
          ⟨channel, l.sourceRowOrdinal, context.outputByteOrder,
            context.plan.orderedBytes context.outputByteOrder
              (channelRow context.plan context.rows.width sourceRow channel)⟩)
        (fun _ m => ∃ planeRow, planeRow.length = context.rows.planeRowBytes ∧
          m = { l with planeRow := planeRow
                       rowsDelivered := l.rowsDelivered + count
                       bytesDelivered := l.bytesDelivered + count * context.rows.planeRowBytes })
        (emitChannels context count channel) l
  | 0, channel, l, _, _, planeLength => by
      intro s
      exact ⟨[], by simp, .all, fun _ _ => ⟨l.planeRow, planeLength, by simp⟩⟩
  | count + 1, channel, l, full, same, planeLength => by
      obtain ⟨components, -, -, size, -⟩ := sound.sample
      have small : channel < context.plan.channels := by omega
      have room := channelRow_room small
        (sourceLength.trans (by rw [fits.planeRow]))
      have rowLength := length_channelRow room
      have split := splitRow_pieces room
        context.rows.width 0 (planeLength.trans fits.planeRow) (by omega)
        (fun k impossible => absurd impossible (Nat.not_lt_zero k))
      have whole : (channelRow context.plan context.rows.width sourceRow channel).length =
          context.rows.width * components * context.plan.endianComponentSize := by
        rw [rowLength, size, Nat.mul_assoc]
      have orderedLength : (context.plan.orderedBytes context.outputByteOrder
          (channelRow context.plan context.rows.width sourceRow channel)).length =
          context.rows.planeRowBytes := by
        unfold ImageReadPlan.orderedBytes
        split
        · rw [rowLength, fits.planeRow]
        · rw [Library.length_mirrored sound.component_pos whole, ← whole, rowLength, fits.planeRow]
      rw [List.range'_succ, List.map_cons, ← List.singleton_append]
      intro s
      unfold emitChannels
      rw [Library.Routine.wp_bind, Library.Routine.wp_getStore, Library.Routine.continueWith_ok,
        same]
      dsimp only
      rw [split]
      refine (emitPlaneRow_shows sound.component_pos whole).bind (fun row m left => ?_) s
      obtain ⟨rfl, rfl⟩ := left
      refine (@Shows.modifyStore _ _ _ _ (fun _ m => m = _) rfl).bind
        (fun _ m left => ?_)
      subst left
      intro s
      refine Library.Routine.wp_mono ?_
        (emitChannels_shows sound fits sourceLength count (channel + 1)
          (l := { l with
            planeRow := context.plan.orderedBytes context.outputByteOrder
              (channelRow context.plan context.rows.width sourceRow channel)
            rowsDelivered := l.rowsDelivered + 1
            bytesDelivered := l.bytesDelivered +
              (channelRow context.plan context.rows.width sourceRow channel).length })
          (by omega) same orderedLength s)
      rintro result n u ⟨later, rfl, emits, leaves⟩
      refine ⟨later, rfl, emits, fun a ok => ?_⟩
      obtain ⟨planeRow, planeLength, rfl⟩ := leaves a ok
      refine ⟨planeRow, planeLength, ?_⟩
      rw [rowLength, ← fits.planeRow, Nat.succ_mul]
      simp only [same, RowDelivery.mk.injEq, true_and, and_true]
      omega

/-- What the emission of a source row leaves: the buffers, the next ordinal and
the counts. -/
structure RowEmitted (context : RowContext) (l m : RowDelivery) : Prop where
  sourceRow : m.sourceRow.length = context.rows.sourceRowBytes
  planeRow : context.plan.image.pixelStorage = .normal →
    m.planeRow.length = context.rows.planeRowBytes
  rowFill : m.rowFill = l.rowFill
  ordinal : m.sourceRowOrdinal = l.sourceRowOrdinal + 1
  rows : m.rowsDelivered = l.rowsDelivered + rowsPerSource context.plan
  bytes : m.bytesDelivered = l.bytesDelivered + context.rows.sourceRowBytes
  hashed : m.hashed = l.hashed

theorem emitSourceRow_shows (sound : context.plan.Sound)
    (fits : RowPlan.Fits context.plan context.rows)
    (sourceLength : l.sourceRow.length = context.rows.sourceRowBytes)
    (planeLength : context.plan.image.pixelStorage = .normal →
      l.planeRow.length = context.rows.planeRowBytes) :
    Shows platform env (sourceRowViews context l.sourceRow l.sourceRowOrdinal)
      (fun _ m => RowEmitted context l m) (emitSourceRow context) l := by
  intro s
  have perSource := fits.sourceRow
  unfold emitSourceRow
  rw [Library.Routine.wp_bind, Library.Routine.wp_getStore, Library.Routine.continueWith_ok]
  unfold sourceRowViews
  unfold rowsPerSource at perSource
  cases storage : context.plan.image.pixelStorage with
  | planar =>
      rw [storage] at perSource
      simp only [Nat.one_mul] at perSource
      obtain ⟨components, -, -, size, -⟩ := sound.sample
      have whole : l.sourceRow.length =
          context.rows.width * components * context.plan.endianComponentSize := by
        rw [sourceLength, perSource, fits.planeRow, size, Nat.mul_assoc]
      have orderedLength : (context.plan.orderedBytes context.outputByteOrder
          l.sourceRow).length = context.rows.sourceRowBytes := by
        unfold ImageReadPlan.orderedBytes
        split
        · exact sourceLength
        · rw [Library.length_mirrored sound.component_pos whole, ← whole, sourceLength]
      refine (emitPlaneRow_shows (l := l) sound.component_pos whole).andThen
        (fun row m left => ?_) s
      obtain ⟨rfl, rfl⟩ := left
      refine (@Shows.modifyStore _ _ _ _ (fun _ m => m = _) rfl).andThen fun _ m left => ?_
      subst left
      refine .modifyStore ⟨orderedLength, ?_, rfl, rfl, ?_, ?_, rfl⟩
      · intro impossible
        rw [storage] at impossible
        cases impossible
      · simp only [rowsPerSource, storage]
      · simp only [sourceLength]
  | normal =>
      rw [storage] at perSource
      dsimp only at perSource ⊢
      refine (emitChannels_shows sound fits (sourceLength.trans perSource) context.plan.channels 0
        (l := l) (by omega) rfl (planeLength storage)).andThen (fun _ m left => ?_) s
      obtain ⟨planeRow, length, rfl⟩ := left
      refine .modifyStore ⟨sourceLength, fun _ => length, rfl, rfl, ?_, ?_, rfl⟩
      · simp only [rowsPerSource, storage]
      · simp only [perSource]

end

end Mmxisf.Reader
