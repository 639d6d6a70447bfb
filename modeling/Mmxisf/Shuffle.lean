/-
# Shuffle -- the writer's shuffle and the reader's unshuffle

Both sides compute where a byte goes from its place in the whole block, so the
block may be cut anywhere.  `unshuffledPosition` permutes the positions of the
block (`unshuffledPosition_permutes`); the writer gathers along it and the
reader scatters along it, and `Library.Buffer` has the two laws that make these
inverse.
-/
import Mmxisf.Writer.Shuffle
import Mmxisf.Reader.Unshuffle

namespace Mmxisf

set_option autoImplicit false

open Library (Permutes gathered scatter)
open Reader (unshuffledPosition unshuffledPosition_permutes unshuffledPosition_of_tail
  scatterUnshuffledBytes unshuffledInto ReadRoutine Computes
  Environment Cancelled Trace)
open Writer (shuffledRange shuffledSource)

/-- The writer reads where the reader writes. -/
theorem shuffledSource_eq (itemSize size i : Nat) :
    shuffledSource itemSize size i = unshuffledPosition itemSize size i := rfl

/-! ## Ranges -/

/-- Consecutive ranges of these sizes, the first at `start`. -/
def consecutiveRanges : Nat → List Nat → List (Nat × Nat)
  | _, [] => []
  | start, size :: rest => (start, size) :: consecutiveRanges (start + size) rest

/-- A range of the shuffled string is gathered along the positions. -/
theorem shuffledRange_eq {input : Bytes} {itemSize start size : Nat} (item : itemSize ≠ 0)
    (inside : start + size ≤ input.length) :
    shuffledRange input itemSize start size =
      .ok (gathered (unshuffledPosition itemSize input.length) input start size) := by
  have accepted : ¬ (itemSize = 0 ∨ start > input.length ∨ size > input.length - start) := by
    omega
  have within : ∀ i, start ≤ i → i < start + size →
      unshuffledPosition itemSize input.length i < input.length := fun i _ high =>
    (unshuffledPosition_permutes itemSize input.length).inside i (by omega)
  simp only [shuffledRange, reject, if_neg accepted, bind, Except.bind, pure, Except.pure,
    Except.ok.injEq]
  apply List.ext_getElem?
  intro i
  by_cases small : i < size
  · rw [Library.getElem?_gathered within small, List.getElem?_map, List.getElem?_range small,
      Option.map_some, shuffledSource_eq]
    have there := within (start + i) (by omega) (by omega)
    simp only [List.getD_eq_getElem?_getD, List.getElem?_eq_getElem there, Option.getD_some]
  · rw [List.getElem?_eq_none (by simpa using Nat.le_of_not_lt small), List.getElem?_eq_none
      (by rw [Library.length_gathered within]; omega)]

/-- Consecutive ranges have the positions of their union. -/
theorem positions_of_ranges (place : Nat → Nat) : ∀ (sizes : List Nat) (start : Nat),
    ((consecutiveRanges start sizes).flatMap fun range =>
      (List.range' range.1 range.2).map place) = (List.range' start sizes.sum).map place
  | [], start => rfl
  | size :: rest, start => by
      rw [consecutiveRanges, List.flatMap_cons, positions_of_ranges place rest (start + size),
        List.sum_cons, ← List.map_append, List.range'_append_1]

/-- The shuffled ranges, joined, are the shuffled whole. -/
theorem shuffledRanges_eq {input : Bytes} {itemSize : Nat} (item : itemSize ≠ 0) :
    ∀ (sizes : List Nat) (start : Nat), start + sizes.sum ≤ input.length →
      ∃ pieces : List Bytes,
        (consecutiveRanges start sizes).mapM
          (fun range => shuffledRange input itemSize range.1 range.2) = .ok pieces ∧
        pieces.map List.length = sizes ∧
        pieces.flatten =
          gathered (unshuffledPosition itemSize input.length) input start sizes.sum
  | [], start, _ => ⟨[], rfl, rfl, rfl⟩
  | size :: rest, start, inside => by
      rw [List.sum_cons] at inside ⊢
      have within : ∀ i, start ≤ i → i < start + size →
          unshuffledPosition itemSize input.length i < input.length := fun i _ high =>
        (unshuffledPosition_permutes itemSize input.length).inside i (by omega)
      obtain ⟨pieces, ranges, lengths, joined⟩ :=
        @shuffledRanges_eq input _ item rest (start + size) (by omega)
      refine ⟨gathered (unshuffledPosition itemSize input.length) input start size :: pieces,
        ?_, ?_, ?_⟩
      · simp only [consecutiveRanges, List.mapM_cons, ranges,
          shuffledRange_eq item (show start + size ≤ input.length by omega)]
        rfl
      · rw [List.map_cons, Library.length_gathered within, lengths]
      · rw [List.flatten_cons, joined, Library.gathered_append]

/-! ## Pieces -/

/-- The pieces of a shuffled block are scattered in order, each at its offset. -/
def scatterPieces {L : Type} (itemSize : Nat) : Nat → List Bytes → Bytes → ReadRoutine L Bytes
  | _, [], output => pure output
  | start, piece :: rest, output => do
      let output ← scatterUnshuffledBytes piece output itemSize start
      scatterPieces itemSize (start + piece.length) rest output

theorem scatterPieces_computes {L : Type} {platform : Platform} {env : Environment}
    {itemSize : Nat} (item : itemSize ≠ 0) :
    ∀ (pieces : List Bytes) (start : Nat) (output : Bytes),
      start + pieces.flatten.length ≤ output.length →
      Computes platform env (fun _ => False)
        (scatterPieces (L := L) itemSize start pieces output)
        (.ok (scatter (unshuffledPosition itemSize output.length) start pieces.flatten output))
  | [], _, output, _ => .pure output
  | piece :: rest, start, output, inside => by
      rw [List.flatten_cons, List.length_append] at inside
      have accepted : ¬ (itemSize = 0 ∨ start > output.length ∨
          piece.length > output.length - start) := by omega
      have one : unshuffledInto piece output itemSize start =
          .ok (scatter (unshuffledPosition itemSize output.length) start piece output) := by
        simp only [unshuffledInto, reject, if_neg accepted, bind, Except.bind, pure,
          Except.pure]
      have first := @Reader.scatterUnshuffledBytes_computes L platform env (fun _ => False) piece
        output itemSize start
      rw [one] at first
      refine first.bind_ok ?_
      have later := @scatterPieces_computes L platform env _ item rest (start + piece.length)
        (scatter (unshuffledPosition itemSize output.length) start piece output)
        (by rw [Library.length_scatter]; omega)
      rw [Library.length_scatter, ← Library.scatter_append] at later
      rwa [List.flatten_cons]

/-- A run of a computation without a trace ends with its value, or was
cancelled. -/
theorem Reader.Computes.run {L α : Type} {platform : Platform} {env : Environment}
    {emits : Reader.ReadEvent → Prop} {x : ReadRoutine L α} {value : Result α}
    (computes : Computes platform env emits x value) {l m : L} {s t : Trace}
    {result : Except Error α}
    (run : Library.Routine.Run (env.world platform) x l s result m t) :
    result = value ∨ ∃ e, result = .error e ∧ Cancelled env e :=
  (Library.Routine.run_of_wp (computes l s) run).2.1

/-- A string that is shuffled in ranges: they join to the shuffled whole; scattered in
order into a buffer of that size they write every position once and leave the input,
unless they are cancelled; what is scattered and shuffled again is what was scattered;
and the bytes after the last whole item stay in place. -/
structure ShuffleRoundTrip (input : Bytes) (itemSize : Nat) (sizes : List Nat) (whole : Bytes)
    (pieces : List Bytes) : Prop where
  shuffled : shuffledRange input itemSize 0 input.length = .ok whole
  ranges : (consecutiveRanges 0 sizes).mapM
    (fun range => shuffledRange input itemSize range.1 range.2) = .ok pieces
  joined : pieces.flatten = whole
  once : ((consecutiveRanges 0 sizes).flatMap fun range =>
    (List.range' range.1 range.2).map (unshuffledPosition itemSize input.length)).Perm
      (List.range input.length)
  scattered : ∀ (platform : Platform) (env : Environment) (buffer : Bytes),
    buffer.length = input.length → ∀ (s t : Trace) (result : Except Error Bytes),
    Library.Routine.Run (env.world platform) (scatterPieces itemSize 0 pieces buffer) () s
      result () t →
    result = .ok input ∨ ∃ e, result = .error e ∧ Cancelled env e
  reshuffled : ∀ (shuffled buffer : Bytes), shuffled.length = input.length →
    buffer.length = input.length →
    ∃ output, shuffledRange output itemSize 0 output.length = .ok shuffled ∧
      ∀ (platform : Platform) (env : Environment) (s t : Trace) (result : Except Error Bytes),
      Library.Routine.Run (env.world platform)
        (scatterUnshuffledBytes shuffled buffer itemSize 0) () s result () t →
      result = .ok output ∨ ∃ e, result = .error e ∧ Cancelled env e
  tail : ∀ i, input.length - input.length % itemSize ≤ i → whole[i]? = input[i]?

/-- Shuffling in ranges, whatever they are, and scattering undo each other. -/
theorem byteShuffle_roundTrip (input : Bytes) (itemSize : Nat) (item : 1 ≤ itemSize)
    (sizes : List Nat) (partition : sizes.sum = input.length) :
    ∃ whole pieces, ShuffleRoundTrip input itemSize sizes whole pieces := by
  have nonzero : itemSize ≠ 0 := by omega
  have permutes := unshuffledPosition_permutes itemSize input.length
  obtain ⟨pieces, ranges, lengths, joined⟩ :=
    @shuffledRanges_eq input _ nonzero sizes 0 (by omega)
  rw [partition] at joined
  have whole := @shuffledRange_eq input _ 0 input.length nonzero (by omega)
  have inside : ∀ i, 0 ≤ i → i < 0 + input.length →
      unshuffledPosition itemSize input.length i < input.length := fun i _ high =>
    permutes.inside i (by omega)
  refine ⟨_, pieces, whole, ranges, joined, ?_, ?_, ?_, ?_⟩
  · rw [positions_of_ranges, partition, ← List.range_eq_range']
    exact permutes.perm
  · intro platform env buffer length s t result run
    have fits : 0 + pieces.flatten.length ≤ buffer.length := by
      rw [joined, Library.length_gathered inside]
      omega
    have computes := @scatterPieces_computes Unit platform env _ nonzero pieces 0 buffer fits
    rw [length, joined, permutes.scatter_gathered rfl length] at computes
    exact computes.run run
  · intro shuffled buffer shuffledLength bufferLength
    have accepted : ¬ (itemSize = 0 ∨ 0 > buffer.length ∨
        shuffled.length > buffer.length - 0) := by omega
    refine ⟨Library.scatter (unshuffledPosition itemSize buffer.length) 0 shuffled buffer, ?_, ?_⟩
    · rw [shuffledRange_eq nonzero (by omega), Library.length_scatter, bufferLength,
        permutes.gathered_scatter shuffledLength bufferLength]
    · intro platform env s t result run
      have computes := @Reader.scatterUnshuffledBytes_computes Unit platform env (fun _ => False)
        shuffled buffer itemSize 0
      simp only [unshuffledInto, reject, if_neg accepted, bind, Except.bind, pure,
        Except.pure] at computes
      exact computes.run run
  · intro i tail
    have items : input.length - input.length % itemSize = input.length / itemSize * itemSize := by
      have parts := Nat.div_add_mod input.length itemSize
      rw [Nat.mul_comm] at parts
      omega
    by_cases small : i < input.length
    · rw [Library.getElem?_gathered inside small, Nat.zero_add,
        unshuffledPosition_of_tail (by omega)]
    · rw [List.getElem?_eq_none (by rw [Library.length_gathered inside]; omega),
        List.getElem?_eq_none (by omega)]

/-- Seven bytes in items of two, cut inside an item and before the tail. -/
theorem byteShuffle_roundTrip_seven : ∃ pieces,
    (consecutiveRanges 0 [3, 4]).mapM
      (fun range => shuffledRange [1, 2, 3, 4, 5, 6, 7] 2 range.1 range.2) = .ok pieces ∧
    pieces.flatten = [1, 3, 5, 2, 4, 6, 7] := by
  obtain ⟨whole, pieces, roundTrip⟩ :=
    byteShuffle_roundTrip [1, 2, 3, 4, 5, 6, 7] 2 (by decide) [3, 4] (by decide)
  have known : shuffledRange [1, 2, 3, 4, 5, 6, 7] 2 0 7 = .ok [1, 3, 5, 2, 4, 6, 7] := by decide
  cases known.symm.trans roundTrip.shuffled
  exact ⟨pieces, roundTrip.ranges, roundTrip.joined⟩

end Mmxisf
