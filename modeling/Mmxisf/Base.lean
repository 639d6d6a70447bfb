/-
# Base -- bytes, texts, errors and checked 64-bit arithmetic

A `std::string` and a `std::span<const std::byte>` are both lists of bytes, so
`size()` is `length` and no encoding is chosen for text.  `std::uint64_t` and
`std::size_t` values are natural numbers; where the source checks a product or a
sum the check is here (`checkedMultiply`, `checkedAdd`), and where it adds
without a check the model adds modulo `2 ^ 64` (`wrapAdd`, `wrapMultiply`,
`wrapSubtract`), so that "does not wrap" is something to prove.
-/
import Mathlib.Algebra.Group.Nat.Defs
import Mathlib.Tactic.Common

namespace Mmxisf

set_option autoImplicit false

abbrev Byte := UInt8
abbrev Bytes := List Byte
abbrev Text := List Byte

instance instLawfulBEqText : LawfulBEq Text := inferInstance

/-- The bytes of an ASCII string literal. -/
def lit (s : String) : Text := s.toList.map fun c => UInt8.ofNat c.toNat

/-- The byte of an ASCII character literal. -/
def ch (c : Char) : Byte := UInt8.ofNat c.toNat

inductive ErrorCode
  | ioError
  | invalidSignature
  | invalidPreamble
  | headerTooLarge
  | malformedXml
  | resourceLimit
  | invalidXisf
  | unsupportedFeature
  | invalidBlock
  | checksumMismatch
  | invalidArgument
  | overflow
  | cancelled
  | internalError
  deriving DecidableEq, Repr

structure Error where
  code : ErrorCode
  message : Text
  byteOffset : Option Nat
  imageIndex : Option Nat
  element : Text
  attributeName : Text
  deriving DecidableEq, Repr

abbrev Result := Except Error

/-- `make_error` of both translation units. -/
def makeError (code : ErrorCode) (message : String) : Error :=
  ⟨code, lit message, none, none, [], []⟩

/-! ## Checks -/

/-- The error of `make_error`, with the element and attribute that the header
parser adds. -/
def fail {α : Type} (code : ErrorCode) (message : Text) (element : Text := [])
    (attributeName : Text := []) : Result α :=
  .error ⟨code, message, none, none, element, attributeName⟩

/-- `if (bad) return make_error(...)`, or `state.fail(...)` in the header parser. -/
def reject (bad : Prop) [Decidable bad] (code : ErrorCode) (message : String)
    (element : Text := []) (attributeName : Text := []) : Result Unit :=
  if bad then fail code (lit message) element attributeName else .ok ()

@[simp] theorem reject_eq_ok {bad : Prop} [Decidable bad] {code : ErrorCode} {message : String}
    {element attributeName : Text} {u : Unit} :
    reject bad code message element attributeName = .ok u ↔ ¬ bad := by
  unfold reject fail
  split <;> simp_all

theorem reject_eq_error {bad : Prop} [Decidable bad] {code : ErrorCode} {message : String}
    {element attributeName : Text} {e : Error} :
    reject bad code message element attributeName = .error e ↔
      bad ∧ e = ⟨code, lit message, none, none, element, attributeName⟩ := by
  unfold reject fail
  split
  · simp_all [eq_comm]
  · simp_all

/-- A value that must be there. -/
def orFail {α : Type} (value : Option α) (code : ErrorCode) (message : String)
    (element : Text := []) (attributeName : Text := []) : Result α :=
  match value with
  | some found => .ok found
  | none => fail code (lit message) element attributeName

@[simp] theorem orFail_eq_ok {α : Type} {value : Option α} {code : ErrorCode} {message : String}
    {element attributeName : Text} {found : α} :
    orFail value code message element attributeName = .ok found ↔ value = some found := by
  cases value <;> simp [orFail, fail]

/-- A sequence succeeds exactly when both parts do. -/
theorem bind_eq_ok {α β : Type} {x : Result α} {next : α → Result β} {b : β} :
    (x >>= next) = .ok b ↔ ∃ a, x = .ok a ∧ next a = .ok b := by
  cases x with
  | error e => simp [bind, Except.bind]
  | ok a => simp [bind, Except.bind]

/-- A sequence fails as its first part does, or else as its second. -/
theorem bind_eq_error {α β : Type} {x : Result α} {next : α → Result β} {e : Error} :
    (x >>= next) = .error e ↔ x = .error e ∨ ∃ a, x = .ok a ∧ next a = .error e := by
  cases x with
  | error e' => simp [bind, Except.bind]
  | ok a => simp [bind, Except.bind]

theorem map_eq_ok {α β : Type} {x : Result α} {f : α → β} {b : β} :
    x.map f = .ok b ↔ ∃ a, x = .ok a ∧ f a = b := by
  cases x with
  | error e => simp [Except.map]
  | ok a => simp [Except.map]

/-- A choice succeeds as one of its branches does. -/
theorem ite_eq_ok {α : Type} {condition : Prop} [Decidable condition] {yes no : Result α} {a : α}
    (run : (if condition then yes else no) = .ok a) :
    (condition ∧ yes = .ok a) ∨ (¬ condition ∧ no = .ok a) := by
  by_cases holds : condition
  · rw [if_pos holds] at run
    exact .inl ⟨holds, run⟩
  · rw [if_neg holds] at run
    exact .inr ⟨holds, run⟩

/-! ## 64-bit arithmetic -/

/-- `std::numeric_limits<std::uint64_t>::max()`, and of `std::size_t` and
zlib's `uLong` on a 64-bit host. -/
def u64Max : Nat := 18446744073709551615

def checkedMultiply (left right : Nat) : Option Nat :=
  if left ≠ 0 ∧ right > u64Max / left then none else some (left * right)

def checkedAdd (left right : Nat) : Option Nat :=
  if right > u64Max - left then none else some (left + right)

/-- An unchecked `std::uint64_t` sum. -/
def wrapAdd (left right : Nat) : Nat := (left + right) % (u64Max + 1)

/-- An unchecked `std::uint64_t` product. -/
def wrapMultiply (left right : Nat) : Nat := (left * right) % (u64Max + 1)

/-- An unchecked `std::uint64_t` difference. -/
def wrapSubtract (left right : Nat) : Nat := (left + (u64Max + 1) - right) % (u64Max + 1)

theorem checkedMultiply_eq_some {left right product : Nat} :
    checkedMultiply left right = some product ↔
      product = left * right ∧ (left = 0 ∨ left * right ≤ u64Max) := by
  unfold checkedMultiply
  by_cases zero : left = 0
  · simp [zero, eq_comm]
  · have fits : right ≤ u64Max / left ↔ left * right ≤ u64Max := by
      rw [Nat.le_div_iff_mul_le (Nat.pos_of_ne_zero zero), Nat.mul_comm]
    by_cases beyond : right > u64Max / left
    · have large : ¬ left * right ≤ u64Max := fun small => absurd (fits.mpr small) (by omega)
      simp [zero, beyond, large]
    · have small : left * right ≤ u64Max := fits.mp (by omega)
      simp [zero, beyond, small, eq_comm]

theorem checkedAdd_eq_some {left right sum : Nat} (fits : left ≤ u64Max) :
    checkedAdd left right = some sum ↔ sum = left + right ∧ left + right ≤ u64Max := by
  unfold checkedAdd
  by_cases beyond : right > u64Max - left
  · rw [if_pos beyond]
    constructor
    · intro impossible
      cases impossible
    · rintro ⟨-, small⟩
      omega
  · rw [if_neg beyond, Option.some.injEq]
    constructor
    · intro same
      exact ⟨same.symm, by omega⟩
    · rintro ⟨rfl, -⟩
      rfl

theorem wrapAdd_eq {left right : Nat} (small : left + right ≤ u64Max) :
    wrapAdd left right = left + right := Nat.mod_eq_of_lt (Nat.lt_succ_of_le small)

theorem wrapMultiply_eq {left right : Nat} (small : left * right ≤ u64Max) :
    wrapMultiply left right = left * right := Nat.mod_eq_of_lt (Nat.lt_succ_of_le small)

theorem wrapSubtract_eq {left right : Nat} (small : left ≤ u64Max) (fits : right ≤ left) :
    wrapSubtract left right = left - right := by
  unfold wrapSubtract
  rw [show left + (u64Max + 1) - right = left - right + (u64Max + 1) by omega, Nat.add_mod_right]
  exact Nat.mod_eq_of_lt (by omega)

end Mmxisf
