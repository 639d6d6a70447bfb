/-
# Library.Positional -- numbers in positional notation, and their order as texts

`positional base digits` is the number that a list of digits denotes, the most
significant first.  A checker that never computes the number can still compare
it: by the number of digits when the first is not zero (`positional_lt_of_length`),
and digit by digit when there are as many (`positional_le_iff`).  The number is
below a power of the base exactly when its significant digits are few enough
(`positional_lt_pow_iff`).
-/
import Mathlib.Data.Nat.Digits.Lemmas

namespace Mmxisf.Library

set_option autoImplicit false

/-- The number that digits denote, the most significant first. -/
def positional (base : Nat) (digits : List Nat) : Nat := Nat.ofDigits base digits.reverse

section

variable {base d : Nat} {digits other rest : List Nat}

@[simp] theorem positional_nil : positional base [] = 0 := rfl

theorem positional_cons :
    positional base (d :: rest) = d * base ^ rest.length + positional base rest := by
  unfold positional
  rw [List.reverse_cons, Nat.ofDigits_append, Nat.ofDigits_singleton, List.length_reverse]
  ring

theorem positional_lt (small : ∀ d ∈ digits, d < base) :
    positional base digits < base ^ digits.length := by
  induction digits with
  | nil => simp
  | cons d rest ih =>
      rw [List.forall_mem_cons] at small
      have later := ih small.2
      rw [positional_cons, List.length_cons, pow_succ']
      calc d * base ^ rest.length + positional base rest
          < d * base ^ rest.length + base ^ rest.length := by omega
        _ = (d + 1) * base ^ rest.length := by ring
        _ ≤ base * base ^ rest.length := Nat.mul_le_mul_right _ small.1

/-- Reading the digits from the left, after others that denote `value`. -/
theorem foldl_positional (value : Nat) :
    digits.foldl (fun value d => value * base + d) value =
      value * base ^ digits.length + positional base digits := by
  induction digits generalizing value with
  | nil => simp
  | cons d rest ih =>
      rw [List.foldl_cons, ih, positional_cons, List.length_cons, pow_succ']
      ring

theorem pow_le_positional (significant : d ≠ 0) :
    base ^ rest.length ≤ positional base (d :: rest) := by
  rw [positional_cons]
  have once : 1 * base ^ rest.length ≤ d * base ^ rest.length :=
    Nat.mul_le_mul_right _ (Nat.one_le_iff_ne_zero.mpr significant)
  omega

/-- The first digit decides about a multiple of its place. -/
theorem positional_lt_mul_pow_iff (small : ∀ d ∈ rest, d < base) {factor : Nat} :
    positional base (d :: rest) < factor * base ^ rest.length ↔ d < factor := by
  have later := positional_lt small
  rw [positional_cons]
  constructor
  · intro less
    by_contra more
    have scaled : factor * base ^ rest.length ≤ d * base ^ rest.length :=
      Nat.mul_le_mul_right _ (Nat.le_of_not_lt more)
    omega
  · intro less
    have scaled : (d + 1) * base ^ rest.length ≤ factor * base ^ rest.length :=
      Nat.mul_le_mul_right _ less
    rw [Nat.add_mul, Nat.one_mul] at scaled
    omega

/-- Leading zeros do not count. -/
theorem positional_dropZeros : positional base (digits.dropWhile (· = 0)) =
    positional base digits := by
  induction digits with
  | nil => rfl
  | cons d rest ih =>
      by_cases zero : d = 0
      · rw [List.dropWhile_cons_of_pos (by simpa using zero), ih, positional_cons, zero]
        omega
      · rw [List.dropWhile_cons_of_neg (by simpa using zero)]

/-- With a first digit that is not zero, fewer digits are a smaller number. -/
theorem positional_lt_of_length (positive : 0 < base) (small : ∀ d ∈ other, d < base)
    (significant : d ≠ 0) (fewer : other.length < (d :: rest).length) :
    positional base other < positional base (d :: rest) :=
  calc positional base other < base ^ other.length := positional_lt small
    _ ≤ base ^ rest.length :=
      Nat.pow_le_pow_right positive (Nat.le_of_lt_succ (by simpa using fewer))
    _ ≤ positional base (d :: rest) := pow_le_positional significant

/-- Texts of one length are compared as the numbers are, when the characters are
ordered as their digits. -/
theorem positional_le_iff {α : Type} [LT α] [Std.Asymm (α := α) (· < ·)]
    [Std.Trichotomous (α := α) (· < ·)] {value : α → Nat} {left right : List α}
    (same : left.length = right.length)
    (smallLeft : ∀ a ∈ left, value a < base) (smallRight : ∀ b ∈ right, value b < base)
    (order : ∀ a ∈ left, ∀ b ∈ right, (a < b ↔ value a < value b) ∧ (a = b ↔ value a = value b)) :
    left ≤ right ↔ positional base (left.map value) ≤ positional base (right.map value) := by
  induction left generalizing right with
  | nil =>
      obtain rfl : right = [] := List.length_eq_zero_iff.mp same.symm
      simp
  | cons a rest ih =>
      cases right with
      | nil => cases same
      | cons b other =>
          rw [List.forall_mem_cons] at smallLeft smallRight
          have length : rest.length = other.length := Nat.succ.inj same
          have inner := ih length smallLeft.2 smallRight.2 fun c member d member' =>
            order c (List.mem_cons_of_mem _ member) d (List.mem_cons_of_mem _ member')
          obtain ⟨less, equal⟩ := order a List.mem_cons_self b List.mem_cons_self
          have lower := @positional_lt base (rest.map value) (by simpa using smallLeft.2)
          have upper := @positional_lt base (other.map value) (by simpa using smallRight.2)
          rw [List.cons_le_cons_iff, less, equal, inner, List.map_cons, List.map_cons,
            positional_cons, positional_cons, List.length_map, List.length_map, ← length]
          rw [List.length_map] at lower upper
          rw [← length] at upper
          rcases lt_trichotomy (value a) (value b) with before | same | after
          · have step : (value a + 1) * base ^ rest.length ≤ value b * base ^ rest.length :=
              Nat.mul_le_mul_right _ before
            rw [Nat.add_mul, Nat.one_mul] at step
            simp only [before, true_or, true_iff]
            omega
          · rw [same]
            simp
          · have step : (value b + 1) * base ^ rest.length ≤ value a * base ^ rest.length :=
              Nat.mul_le_mul_right _ after
            rw [Nat.add_mul, Nat.one_mul] at step
            constructor
            · rintro (before | ⟨same, _⟩) <;> omega
            · intro below
              omega

/-- A number is below a power of the base when its significant digits fit. -/
theorem positional_lt_pow_iff (positive : 1 < base) (small : ∀ d ∈ digits, d < base) {count : Nat} :
    positional base digits < base ^ count ↔ (digits.dropWhile (· = 0)).length ≤ count := by
  rw [← positional_dropZeros]
  have small' : ∀ d ∈ digits.dropWhile (· = 0), d < base := fun d member =>
    small d ((List.dropWhile_sublist _).subset member)
  cases significant : digits.dropWhile (· = 0) with
  | nil => simpa using Nat.pow_pos (Nat.zero_lt_of_lt positive)
  | cons d rest =>
      rw [significant] at small'
      have nonzero : d ≠ 0 := by
        have first := List.head?_dropWhile_not (· = 0) digits
        simpa [significant] using first
      constructor
      · intro less
        have power : base ^ rest.length < base ^ count :=
          Nat.lt_of_le_of_lt (pow_le_positional nonzero) less
        exact (Nat.pow_lt_pow_iff_right positive).mp power
      · intro few
        exact Nat.lt_of_lt_of_le (positional_lt small')
          (Nat.pow_le_pow_right (Nat.zero_lt_of_lt positive) few)

end

end Mmxisf.Library
