/-
# Library.Fields -- separated fields and decimal numbers

`split` cuts a list at a separator; `join` puts one between fields.  Fields
without the separator survive the way there and back (`split_join`).
`Decimal.value` reads a string of digits.
-/
import Mathlib.Data.Nat.Digits.Lemmas

namespace Mmxisf.Library

set_option autoImplicit false

/-! ## Separated fields -/

section Fields

variable {α : Type} [DecidableEq α]

/-- The fields of a list between separators; the empty list is one empty field. -/
def split (separator : α) : List α → List (List α)
  | [] => [[]]
  | c :: rest =>
      if c = separator then [] :: split separator rest
      else
        match split separator rest with
        | field :: fields => (c :: field) :: fields
        | [] => [[c]]

/-- One separator between fields. -/
def join (separator : α) : List (List α) → List α
  | [] => []
  | [field] => field
  | field :: rest => field ++ separator :: join separator rest

/-- A first field without the separator stays whole. -/
theorem split_append {separator : α} : ∀ {field : List α} (rest : List α), separator ∉ field →
    split separator (field ++ separator :: rest) = field :: split separator rest
  | [], rest, _ => by simp [split]
  | c :: field, rest, free => by
      have other : c ≠ separator := fun same => free (by simp [same])
      have tail := split_append rest fun inside =>
        free (List.mem_cons_of_mem _ inside)
      rw [List.cons_append, split, if_neg other, tail]

theorem split_of_not_mem {separator : α} : ∀ {field : List α}, separator ∉ field →
    split separator field = [field]
  | [], _ => rfl
  | c :: field, free => by
      have other : c ≠ separator := fun same => free (by simp [same])
      have tail := split_of_not_mem fun inside =>
        free (List.mem_cons_of_mem _ inside)
      rw [split, if_neg other, tail]

theorem split_cons (separator : α) : ∀ list : List α, ∃ first rest,
    split separator list = first :: rest
  | [] => ⟨_, _, rfl⟩
  | c :: list => by
      obtain ⟨first, rest, tail⟩ := split_cons separator list
      unfold split
      rw [tail]
      split_ifs <;> exact ⟨_, _, rfl⟩

/-- What has no separator goes to the first field. -/
theorem split_prefix {separator : α} {list first : List α} {rest : List (List α)}
    (tail : split separator list = first :: rest) : ∀ {front : List α}, separator ∉ front →
      split separator (front ++ list) = (front ++ first) :: rest
  | [], _ => tail
  | c :: front, free => by
      rw [List.mem_cons, not_or] at free
      rw [List.cons_append, split, if_neg (Ne.symm free.1), split_prefix tail free.2]
      rfl

/-- Fields without the separator survive being joined and split. -/
theorem split_join {separator : α} : ∀ {fields : List (List α)}, fields ≠ [] →
    (∀ field ∈ fields, separator ∉ field) → split separator (join separator fields) = fields
  | [], nonempty, _ => absurd rfl nonempty
  | [field], _, free => split_of_not_mem (free field (by simp))
  | field :: next :: rest, _, free => by
      have tail := split_join (by simp) fun f member =>
        free f (List.mem_cons_of_mem _ member)
      rw [join, split_append _ (free field List.mem_cons_self), tail]
      simp

end Fields

/-! ## Decimal numbers -/

/-- The number a digit string denotes, leading zeros included. -/
def Decimal.value (digits : List UInt8) : Nat :=
  digits.foldl (fun total c => total * 10 + (c.toNat - 48)) 0

end Mmxisf.Library
