/-
# Library.Buffer -- pieces of a buffer, and writes at computed positions

A buffer is a list whose length does not change.  Three things are done to one:

* a piece is read out (`slice`);
* a piece is written over it (`overwrite`);
* the elements of a list are written one by one at positions that a function
  gives (`scatter`).

Each is known by what it leaves at every position.  When the position function
is injective on the range written, `scatter` undoes the reading in the same
order (`scatter_gather`), however the list is cut (`scatter_append`).
-/
import Mathlib.Data.List.Perm.Basic
import Mathlib.Data.List.Nodup
import Mathlib.Tactic.Common

namespace Mmxisf.Library

set_option autoImplicit false

variable {β : Type}

/-! ## Slices -/

/-- The `size` elements from `offset` on. -/
def slice (buffer : List β) (offset size : Nat) : List β := (buffer.drop offset).take size

theorem length_slice {buffer : List β} {offset size : Nat}
    (inside : offset + size ≤ buffer.length) : (slice buffer offset size).length = size := by
  simp only [slice, List.length_take, List.length_drop]
  omega

theorem getElem?_slice (buffer : List β) (offset size i : Nat) :
    (slice buffer offset size)[i]? = if i < size then buffer[offset + i]? else none := by
  simp only [slice, List.getElem?_take, List.getElem?_drop]

@[simp] theorem slice_zero (buffer : List β) (offset : Nat) : slice buffer offset 0 = [] := by
  simp [slice]

theorem slice_all {buffer : List β} {size : Nat} (all : buffer.length ≤ size) :
    slice buffer 0 size = buffer := by
  simp [slice, List.take_of_length_le all]

theorem slice_append_slice (buffer : List β) (offset first second : Nat) :
    slice buffer offset first ++ slice buffer (offset + first) second =
      slice buffer offset (first + second) := by
  simp only [slice]
  rw [← List.drop_drop, List.take_add]

theorem slice_slice {buffer : List β} {offset size start count : Nat}
    (inside : start + count ≤ size) :
    slice (slice buffer offset size) start count = slice buffer (offset + start) count := by
  apply List.ext_getElem?
  intro i
  simp only [getElem?_slice]
  by_cases small : i < count
  · rw [if_pos small, if_pos (by omega), if_pos small, Nat.add_assoc]
  · rw [if_neg small, if_neg small]

/-- A slice that ends in the first part. -/
theorem slice_append_left {left right : List β} {offset size : Nat}
    (inside : offset + size ≤ left.length) :
    slice (left ++ right) offset size = slice left offset size := by
  simp only [slice]
  rw [List.drop_append_of_le_length (by omega), List.take_append_of_le_length]
  rw [List.length_drop]
  omega

/-- A slice that starts in the second part. -/
theorem slice_append_right (left right : List β) (offset size : Nat) :
    slice (left ++ right) (left.length + offset) size = slice right offset size := by
  simp only [slice]
  rw [List.drop_append, List.drop_of_length_le (by omega), List.nil_append,
    Nat.add_sub_cancel_left]

/-- Buffers that agree on every piece of one size agree. -/
theorem eq_of_slices {left right : List β} {size count : Nat}
    (leftLength : left.length = count * size) (rightLength : right.length = count * size)
    (same : ∀ k < count, slice left (k * size) size = slice right (k * size) size) :
    left = right := by
  apply List.ext_getElem?
  intro i
  by_cases inside : i < count * size
  · have positive : 0 < size := by
      rcases Nat.eq_zero_or_pos size with zero | positive
      · simp [zero] at inside
      · exact positive
    have small : i / size < count := Nat.div_lt_of_lt_mul (by rwa [Nat.mul_comm] at inside)
    have place : i / size * size + i % size = i := by
      rw [Nat.mul_comm]
      exact Nat.div_add_mod i size
    have piece := congrArg (fun xs => xs[i % size]?) (same (i / size) small)
    simp only [getElem?_slice, if_pos (Nat.mod_lt i positive), place] at piece
    exact piece
  · rw [List.getElem?_eq_none (by omega), List.getElem?_eq_none (by omega)]

/-- The pieces of a list put together from pieces of one size. -/
theorem slice_flatMap_range {f : Nat → List β} {size : Nat} :
    ∀ {count start k : Nat}, (∀ i < count, (f (start + i)).length = size) → k < count →
      slice ((List.range' start count).flatMap f) (k * size) size = f (start + k)
  | 0, _, _, _, small => absurd small (Nat.not_lt_zero _)
  | count + 1, start, k, lengths, small => by
      have first : (f start).length = size := lengths 0 (by omega)
      rw [List.range'_succ, List.flatMap_cons]
      cases k with
      | zero => simp [slice, ← first]
      | succ k =>
          have later : ∀ i < count, (f (start + 1 + i)).length = size := fun i inside => by
            have length := lengths (i + 1) (by omega)
            rwa [show start + (i + 1) = start + 1 + i by omega] at length
          have skip : slice (f start ++ (List.range' (start + 1) count).flatMap f)
              ((k + 1) * size) size =
              slice ((List.range' (start + 1) count).flatMap f) (k * size) size := by
            simp only [slice, Nat.succ_mul]
            rw [← first, Nat.add_comm, List.drop_append, List.drop_of_length_le (by omega),
              List.nil_append, Nat.add_sub_cancel_left]
          rw [skip, slice_flatMap_range later (by omega)]
          congr 1
          omega

theorem length_flatMap_range {f : Nat → List β} {size : Nat} :
    ∀ {count start : Nat}, (∀ i < count, (f (start + i)).length = size) →
      ((List.range' start count).flatMap f).length = count * size
  | 0, _, _ => by simp
  | count + 1, start, lengths => by
      have first : (f start).length = size := lengths 0 (by omega)
      have later : ∀ i < count, (f (start + 1 + i)).length = size := fun i inside => by
        have length := lengths (i + 1) (by omega)
        rwa [show start + (i + 1) = start + 1 + i by omega] at length
      rw [List.range'_succ, List.flatMap_cons, List.length_append, first,
        length_flatMap_range later, Nat.succ_mul, Nat.add_comm]

/-! ## Overwriting -/

/-- `piece` written over the buffer at `offset`. -/
def overwrite (buffer : List β) (offset : Nat) (piece : List β) : List β :=
  buffer.take offset ++ piece ++ buffer.drop (offset + piece.length)

theorem length_overwrite {buffer piece : List β} {offset : Nat}
    (inside : offset + piece.length ≤ buffer.length) :
    (overwrite buffer offset piece).length = buffer.length := by
  simp only [overwrite, List.length_append, List.length_take, List.length_drop]
  omega

theorem getElem?_overwrite {buffer piece : List β} {offset : Nat}
    (inside : offset + piece.length ≤ buffer.length) (i : Nat) :
    (overwrite buffer offset piece)[i]? =
      if offset ≤ i ∧ i < offset + piece.length then piece[i - offset]? else buffer[i]? := by
  have before : (buffer.take offset).length = offset := by
    rw [List.length_take]
    omega
  unfold overwrite
  by_cases early : i < offset
  · rw [List.append_assoc, List.getElem?_append_left (by omega), if_neg (by omega),
      List.getElem?_take, if_pos early]
  · by_cases written : i < offset + piece.length
    · rw [if_pos ⟨by omega, written⟩, List.append_assoc,
        List.getElem?_append_right (by omega), before, List.getElem?_append_left (by omega)]
    · rw [if_neg (by omega), List.getElem?_append_right (by simp only [List.length_append]; omega),
        List.getElem?_drop]
      congr 1
      simp only [List.length_append]
      omega

theorem slice_overwrite_same {buffer piece : List β} {offset : Nat}
    (inside : offset + piece.length ≤ buffer.length) :
    slice (overwrite buffer offset piece) offset piece.length = piece := by
  apply List.ext_getElem?
  intro i
  rw [getElem?_slice]
  by_cases small : i < piece.length
  · rw [if_pos small, getElem?_overwrite inside, if_pos ⟨by omega, by omega⟩]
    congr 1
    omega
  · rw [if_neg small, List.getElem?_eq_none (by omega)]

theorem slice_overwrite_other {buffer piece : List β} {offset start size : Nat}
    (inside : offset + piece.length ≤ buffer.length)
    (apart : start + size ≤ offset ∨ offset + piece.length ≤ start) :
    slice (overwrite buffer offset piece) start size = slice buffer start size := by
  apply List.ext_getElem?
  intro i
  simp only [getElem?_slice]
  by_cases small : i < size
  · rw [if_pos small, if_pos small, getElem?_overwrite inside, if_neg (by omega)]
  · rw [if_neg small, if_neg small]

/-- Two pieces written one after the other are one piece. -/
theorem overwrite_overwrite {buffer first second : List β} {offset : Nat}
    (inside : offset + (first.length + second.length) ≤ buffer.length) :
    overwrite (overwrite buffer offset first) (offset + first.length) second =
      overwrite buffer offset (first ++ second) := by
  have firstInside : offset + first.length ≤ buffer.length := by omega
  have secondInside : offset + first.length + second.length ≤
      (overwrite buffer offset first).length := by
    rw [length_overwrite firstInside]
    omega
  have bothInside : offset + (first ++ second).length ≤ buffer.length := by
    rw [List.length_append]
    omega
  apply List.ext_getElem?
  intro i
  rw [getElem?_overwrite secondInside, getElem?_overwrite firstInside,
    getElem?_overwrite bothInside, List.length_append, List.getElem?_append]
  by_cases late : offset + first.length ≤ i ∧ i < offset + first.length + second.length
  · rw [if_pos late, if_pos (by omega), if_neg (by omega)]
    congr 1
    omega
  · rw [if_neg late]
    by_cases early : offset ≤ i ∧ i < offset + first.length
    · rw [if_pos early, if_pos (by omega), if_pos (by omega)]
    · rw [if_neg early, if_neg (by omega)]

/-- One element written is a piece of one. -/
theorem set_eq_overwrite {buffer : List β} {i : Nat} {value : β} (inside : i < buffer.length) :
    buffer.set i value = overwrite buffer i [value] := by
  rw [List.set_eq_take_append_cons_drop, if_pos inside]
  simp [overwrite]

@[simp] theorem overwrite_nil (buffer : List β) (offset : Nat) :
    overwrite buffer offset [] = buffer := by
  simp [overwrite]

theorem overwrite_all {buffer piece : List β} (all : buffer.length = piece.length) :
    overwrite buffer 0 piece = piece := by
  simp [overwrite, Nat.le_of_eq all]

/-- Writing inside the first part leaves the second. -/
theorem overwrite_append_left {left right piece : List β} {offset : Nat}
    (inside : offset + piece.length ≤ left.length) :
    overwrite (left ++ right) offset piece = overwrite left offset piece ++ right := by
  unfold overwrite
  rw [List.take_append_of_le_length (by omega), List.drop_append_of_le_length (by omega)]
  simp only [List.append_assoc]

/-! ## Scattering -/

/-- The elements of a list, the first of them number `start`, written one by one
at the position of their number. -/
def scatter (place : Nat → Nat) : Nat → List β → List β → List β
  | _, [], buffer => buffer
  | start, value :: rest, buffer => scatter place (start + 1) rest (buffer.set (place start) value)

/-- The elements of a buffer at the positions of `start`, `start + 1`, ... -/
def gathered (place : Nat → Nat) (buffer : List β) (start size : Nat) : List β :=
  (List.range' start size).filterMap fun i => buffer[place i]?

variable {place : Nat → Nat}

@[simp] theorem length_scatter (values buffer : List β) (start : Nat) :
    (scatter place start values buffer).length = buffer.length := by
  induction values generalizing start buffer with
  | nil => rfl
  | cons value rest ih => simp only [scatter, ih, List.length_set]

theorem scatter_append (first second buffer : List β) (start : Nat) :
    scatter place start (first ++ second) buffer =
      scatter place (start + first.length) second (scatter place start first buffer) := by
  induction first generalizing start buffer with
  | nil => rfl
  | cons value rest ih =>
      simp only [List.cons_append, scatter, List.length_cons, ih]
      rw [show start + 1 + rest.length = start + (rest.length + 1) by omega]

/-- A position that no number of the list has keeps its element. -/
theorem getElem?_scatter_other {values buffer : List β} {start j : Nat}
    (other : ∀ i, i < values.length → place (start + i) ≠ j) :
    (scatter place start values buffer)[j]? = buffer[j]? := by
  induction values generalizing start buffer with
  | nil => rfl
  | cons value rest ih =>
      have later : ∀ i, i < rest.length → place (start + 1 + i) ≠ j := by
        intro i small
        have apart := other (i + 1) (by simp only [List.length_cons]; omega)
        rwa [show start + (i + 1) = start + 1 + i by omega] at apart
      have first : place start ≠ j := other 0 (by simp only [List.length_cons]; omega)
      rw [scatter, ih later, List.getElem?_set_ne first]

/-- The position of each number has that element, when no two numbers share
one. -/
theorem getElem?_scatter {values buffer : List β} {start i : Nat}
    (injective : ∀ a b, start ≤ a → a < b → b < start + values.length → place a ≠ place b)
    (inside : ∀ a, start ≤ a → a < start + values.length → place a < buffer.length)
    (small : i < values.length) :
    (scatter place start values buffer)[place (start + i)]? = values[i]? := by
  induction values generalizing start buffer i with
  | nil => simp at small
  | cons value rest ih =>
      simp only [List.length_cons] at injective inside small
      cases i with
      | zero =>
          have later : ∀ k, k < rest.length → place (start + 1 + k) ≠ place start := by
            intro k small same
            exact injective start (start + 1 + k) (by omega) (by omega) (by omega) same.symm
          have there : place start < buffer.length := inside start (by omega) (by omega)
          rw [Nat.add_zero, scatter, getElem?_scatter_other later]
          simp [there]
      | succ i =>
          rw [scatter, List.getElem?_cons_succ, show start + (i + 1) = start + 1 + i by omega]
          apply ih
          · intro a b low order high
            exact injective a b (by omega) order (by omega)
          · intro a low high
            rw [List.length_set]
            exact inside a (by omega) (by omega)
          · omega

theorem length_gathered {buffer : List β} {start size : Nat}
    (inside : ∀ i, start ≤ i → i < start + size → place i < buffer.length) :
    (gathered place buffer start size).length = size := by
  induction size generalizing start with
  | zero => rfl
  | succ size ih =>
      have there : place start < buffer.length := inside start (by omega) (by omega)
      have tail := @ih (start + 1) fun i low high => inside i (by omega) (by omega)
      rw [gathered, List.range'_succ, List.filterMap_cons, List.getElem?_eq_getElem there]
      exact congrArg (· + 1) tail

theorem getElem?_gathered {buffer : List β} {start size i : Nat}
    (inside : ∀ i, start ≤ i → i < start + size → place i < buffer.length) (small : i < size) :
    (gathered place buffer start size)[i]? = buffer[place (start + i)]? := by
  induction size generalizing start i with
  | zero => omega
  | succ size ih =>
      have there : place start < buffer.length := inside start (by omega) (by omega)
      have later : ∀ k, start + 1 ≤ k → k < start + 1 + size → place k < buffer.length :=
        fun k low high => inside k (by omega) (by omega)
      have unfolded : gathered place buffer start (size + 1) =
          buffer[place start] :: gathered place buffer (start + 1) size := by
        rw [gathered, List.range'_succ, List.filterMap_cons, List.getElem?_eq_getElem there]
        rfl
      rw [unfolded]
      cases i with
      | zero => rw [List.getElem?_cons_zero, Nat.add_zero, List.getElem?_eq_getElem there]
      | succ i =>
          rw [List.getElem?_cons_succ, ih later (by omega)]
          congr 2
          omega

theorem gathered_append (buffer : List β) (start first second : Nat) :
    gathered place buffer start first ++ gathered place buffer (start + first) second =
      gathered place buffer start (first + second) := by
  simp only [gathered]
  rw [← List.filterMap_append, List.range'_append_1]

/-- The positions of the first `size` numbers are the first `size` positions,
in some order. -/
structure Permutes (place : Nat → Nat) (size : Nat) : Prop where
  inside : ∀ i < size, place i < size
  injective : ∀ a b, a < b → b < size → place a ≠ place b

namespace Permutes

variable {size : Nat}

theorem perm (permutes : Permutes place size) :
    ((List.range size).map place).Perm (List.range size) := by
  have nodup : ((List.range size).map place).Nodup := by
    rw [List.nodup_map_iff_inj_on List.nodup_range]
    intro a memberA b memberB same
    simp only [List.mem_range] at memberA memberB
    rcases Nat.lt_trichotomy a b with order | equal | order
    · exact absurd same (permutes.injective a b order memberB)
    · exact equal
    · exact absurd same.symm (permutes.injective b a order memberA)
  have within : ((List.range size).map place).Subperm (List.range size) := by
    apply List.subperm_of_subset nodup
    intro j member
    simp only [List.mem_map, List.mem_range] at member ⊢
    obtain ⟨i, small, rfl⟩ := member
    exact permutes.inside i small
  exact within.perm_of_length_le (by simp)

/-- Every position is the position of a number. -/
theorem covers (permutes : Permutes place size) {j : Nat} (small : j < size) :
    ∃ i < size, place i = j := by
  have member : j ∈ (List.range size).map place :=
    permutes.perm.mem_iff.mpr (List.mem_range.mpr small)
  simpa using member

/-- Scattering what was gathered gives the buffer back. -/
theorem scatter_gathered (permutes : Permutes place size) {source buffer : List β}
    (sourceLength : source.length = size) (bufferLength : buffer.length = size) :
    scatter place 0 (gathered place source 0 size) buffer = source := by
  have inside : ∀ i, 0 ≤ i → i < 0 + size → place i < source.length := by
    intro i _ small
    rw [sourceLength]
    exact permutes.inside i (by omega)
  have gatheredLength := length_gathered inside
  apply List.ext_getElem?
  intro j
  by_cases small : j < size
  · obtain ⟨i, smallI, rfl⟩ := permutes.covers small
    have written : (scatter place 0 (gathered place source 0 size) buffer)[place (0 + i)]? =
        (gathered place source 0 size)[i]? := by
      apply getElem?_scatter
      · intro a b _ order high
        exact permutes.injective a b order (by omega)
      · intro a _ high
        rw [bufferLength]
        exact permutes.inside a (by omega)
      · omega
    rw [Nat.zero_add] at written
    rw [written, getElem?_gathered inside smallI, Nat.zero_add]
  · rw [List.getElem?_eq_none (by rw [length_scatter]; omega),
      List.getElem?_eq_none (by omega)]

/-- What is scattered over a whole buffer does not depend on what was in it. -/
theorem scatter_congr (permutes : Permutes place size) {values buffer other : List β}
    (valuesLength : values.length = size) (bufferLength : buffer.length = size)
    (otherLength : other.length = size) :
    scatter place 0 values buffer = scatter place 0 values other := by
  have written : ∀ {target : List β} {i : Nat}, target.length = size → i < size →
      (scatter place 0 values target)[place i]? = values[i]? := by
    intro target i length small
    have entry := @getElem?_scatter _ place values target 0 i
      (fun a b _ order high => permutes.injective a b order (by omega))
      (fun a _ high => by rw [length]; exact permutes.inside a (by omega)) (by omega)
    rwa [Nat.zero_add] at entry
  apply List.ext_getElem?
  intro j
  by_cases small : j < size
  · obtain ⟨i, smallI, rfl⟩ := permutes.covers small
    rw [written bufferLength smallI, written otherLength smallI]
  · rw [List.getElem?_eq_none (by rw [length_scatter]; omega),
      List.getElem?_eq_none (by rw [length_scatter]; omega)]

/-- Gathering what was scattered gives the list back. -/
theorem gathered_scatter (permutes : Permutes place size) {values buffer : List β}
    (valuesLength : values.length = size) (bufferLength : buffer.length = size) :
    gathered place (scatter place 0 values buffer) 0 size = values := by
  have inside : ∀ i, 0 ≤ i → i < 0 + size →
      place i < (scatter place 0 values buffer).length := by
    intro i _ small
    rw [length_scatter, bufferLength]
    exact permutes.inside i (by omega)
  have gatheredLength := length_gathered inside
  apply List.ext_getElem?
  intro i
  by_cases small : i < size
  · have written : (scatter place 0 values buffer)[place (0 + i)]? = values[i]? := by
      apply getElem?_scatter
      · intro a b _ order high
        exact permutes.injective a b order (by omega)
      · intro a _ high
        rw [bufferLength]
        exact permutes.inside a (by omega)
      · omega
    rw [getElem?_gathered inside small, written]
  · rw [List.getElem?_eq_none (by omega), List.getElem?_eq_none (by omega)]

end Permutes

/-! ## Reversing pieces -/

/-- The buffer with every whole piece of `size` elements reversed. -/
def mirrored (size : Nat) (buffer : List β) : List β :=
  (List.range' 0 (buffer.length / size)).flatMap fun k => (slice buffer (k * size) size).reverse

section

variable {size count : Nat} {buffer : List β}

theorem length_piece (length : buffer.length = count * size) {k : Nat} (small : k < count) :
    (slice buffer (k * size) size).length = size := by
  apply length_slice
  rw [length, ← Nat.succ_mul]
  exact Nat.mul_le_mul_right size small

theorem mirrored_eq (positive : 0 < size) (length : buffer.length = count * size) :
    mirrored size buffer =
      (List.range' 0 count).flatMap fun k => (slice buffer (k * size) size).reverse := by
  rw [mirrored, length, Nat.mul_div_cancel _ positive]

theorem length_mirrored (positive : 0 < size) (length : buffer.length = count * size) :
    (mirrored size buffer).length = count * size := by
  rw [mirrored_eq positive length, length_flatMap_range]
  intro i small
  rw [List.length_reverse, Nat.zero_add, length_piece length small]

theorem slice_mirrored (positive : 0 < size) (length : buffer.length = count * size) {k : Nat}
    (small : k < count) :
    slice (mirrored size buffer) (k * size) size = (slice buffer (k * size) size).reverse := by
  rw [mirrored_eq positive length, slice_flatMap_range _ small, Nat.zero_add]
  intro i inside
  rw [List.length_reverse, Nat.zero_add, length_piece length inside]

/-- Mirroring a run of whole pieces is a run of the mirrored buffer. -/
theorem mirrored_slice (positive : 0 < size) (length : buffer.length = count * size)
    {start pieces : Nat} (inside : start + pieces ≤ count) :
    slice (mirrored size buffer) (start * size) (pieces * size) =
      mirrored size (slice buffer (start * size) (pieces * size)) := by
  have room : start * size + pieces * size ≤ count * size := by
    rw [← Nat.add_mul]
    exact Nat.mul_le_mul_right size inside
  have sliceLength : (slice buffer (start * size) (pieces * size)).length = pieces * size :=
    length_slice (by omega)
  refine @eq_of_slices _ _ _ size pieces ?_ ?_ ?_
  · exact length_slice (by rw [length_mirrored positive length]; exact room)
  · exact length_mirrored positive sliceLength
  · intro k small
    have within : k * size + size ≤ pieces * size := by
      rw [← Nat.succ_mul]
      exact Nat.mul_le_mul_right size small
    rw [slice_slice within, slice_mirrored positive sliceLength small, slice_slice within,
      ← Nat.add_mul, slice_mirrored positive length (by omega)]

/-- Pieces of one element read the same backwards. -/
@[simp] theorem mirrored_one (buffer : List β) : mirrored 1 buffer = buffer := by
  have whole : buffer.length = buffer.length * 1 := (Nat.mul_one _).symm
  refine eq_of_slices (length_mirrored Nat.one_pos whole) whole fun k small => ?_
  obtain ⟨single, same⟩ := List.length_eq_one_iff.mp (length_piece whole small)
  rw [slice_mirrored Nat.one_pos whole small, same, List.reverse_singleton]

theorem mirrored_mirrored (positive : 0 < size) (length : buffer.length = count * size) :
    mirrored size (mirrored size buffer) = buffer := by
  have once := length_mirrored positive length
  refine eq_of_slices (length_mirrored positive once) length fun k small => ?_
  rw [slice_mirrored positive once small, slice_mirrored positive length small,
    List.reverse_reverse]

end

end Mmxisf.Library
