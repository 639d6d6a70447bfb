/-
# Library.Totals -- records changed in place, and the sum of their sizes

A program that charges a budget for what it stores keeps the total of the sizes of
its records.  The total of a list grows by the size of a record that is appended,
and by what one record of it grows by.
-/
import Mathlib.Data.List.Basic
import Mathlib.Tactic.Common

namespace Mmxisf.Library

set_option autoImplicit false

variable {α : Type}

def total (size : α → Nat) : List α → Nat
  | [] => 0
  | a :: records => size a + total size records

@[simp] theorem total_nil (size : α → Nat) : total size [] = 0 := rfl

@[simp] theorem total_cons (size : α → Nat) (a : α) (records : List α) :
    total size (a :: records) = size a + total size records := rfl

@[simp] theorem total_append (size : α → Nat) (records more : List α) :
    total size (records ++ more) = total size records + total size more := by
  induction records with
  | nil => simp only [List.nil_append, total_nil, Nat.zero_add]
  | cons a records ih => rw [List.cons_append, total_cons, total_cons, ih, Nat.add_assoc]

/-- Lists with the same sizes have the same total. -/
theorem total_congr {β : Type} {size : α → Nat} {size' : β → Nat} {records : List α}
    {more : List β} (same : records.map size = more.map size') :
    total size records = total size' more := by
  induction records generalizing more with
  | nil =>
      obtain rfl := List.map_eq_nil_iff.mp same.symm
      rfl
  | cons a records ih =>
      cases more with
      | nil => cases same
      | cons b more =>
          obtain ⟨first, rest⟩ := List.cons.inj same
          rw [total_cons, total_cons, first, ih rest]

/-- One record grows. -/
theorem total_modify {size : α → Nat} {change : α → α} {records : List α} {i grown : Nat} {a : α}
    (there : records[i]? = some a) (grows : size (change a) = size a + grown) :
    total size (records.modify i change) = total size records + grown := by
  induction records generalizing i with
  | nil => cases there
  | cons first rest ih =>
      cases i with
      | zero =>
          obtain rfl : first = a := Option.some.inj there
          rw [List.modify_zero_cons, total_cons, total_cons, grows]
          omega
      | succ i =>
          rw [List.modify_succ_cons, total_cons, total_cons, ih there]
          omega

/-- The records keep their sizes. -/
theorem total_modify_same {size : α → Nat} {change : α → α} (records : List α) (i : Nat)
    (same : ∀ a, size (change a) = size a) :
    total size (records.modify i change) = total size records := by
  cases there : records[i]? with
  | none =>
      rw [List.getElem?_eq_none_iff] at there
      rw [List.modify_eq_self there]
  | some a => exact total_modify there ((same a).trans (Nat.add_zero _).symm)

/-- A change that keeps every record's parts keeps them all. -/
theorem flatMap_modify_same {β : Type} {part : α → List β} {change : α → α} (records : List α)
    (i : Nat) (same : ∀ a, part (change a) = part a) :
    (records.modify i change).flatMap part = records.flatMap part := by
  induction records generalizing i with
  | nil => simp
  | cons first rest ih =>
      cases i with
      | zero => rw [List.modify_zero_cons, List.flatMap_cons, List.flatMap_cons, same]
      | succ i => rw [List.modify_succ_cons, List.flatMap_cons, List.flatMap_cons, ih]

/-- The parts of the last record come last, and change with it. -/
theorem flatMap_last {β : Type} {part : α → List β} {records : List α} {i : Nat} {a : α}
    (there : records[i]? = some a) (last : i + 1 = records.length) :
    ∃ before, records.flatMap part = before ++ part a ∧
      ∀ change : α → α, (records.modify i change).flatMap part = before ++ part (change a) := by
  induction records generalizing i with
  | nil => cases there
  | cons first rest ih =>
      cases i with
      | zero =>
          obtain rfl : first = a := Option.some.inj there
          obtain rfl : rest = [] := List.eq_nil_of_length_eq_zero (by simpa using last.symm)
          exact ⟨[], by simp, fun change => by simp⟩
      | succ i =>
          obtain ⟨before, parts, changed⟩ := ih there (by simpa using last)
          refine ⟨part first ++ before, ?_, fun change => ?_⟩
          · rw [List.flatMap_cons, parts, List.append_assoc]
          · rw [List.modify_succ_cons, List.flatMap_cons, changed, List.append_assoc]

theorem getElem?_modify_ite (records : List α) (i j : Nat) (change : α → α) :
    (records.modify i change)[j]? = if j = i then (records[j]?).map change else records[j]? := by
  rw [List.getElem?_modify]
  by_cases same : j = i
  · simp [same]
  · simp [same, Ne.symm same]

theorem modify_append_right (before after : List α) (i : Nat) (change : α → α) :
    (before ++ after).modify (before.length + i) change = before ++ after.modify i change := by
  induction before with
  | nil => rw [List.nil_append, List.length_nil, Nat.zero_add, List.nil_append]
  | cons first rest ih =>
      rw [List.cons_append, List.length_cons, Nat.add_right_comm, List.modify_succ_cons, ih,
        List.cons_append]

/-- A property of all, kept by a change of one. -/
theorem forall_mem_modify {holds : α → Prop} {change : α → α} {records : List α} {i : Nat}
    (all : ∀ a ∈ records, holds a) (kept : ∀ a, records[i]? = some a → holds a → holds (change a)) :
    ∀ a ∈ records.modify i change, holds a := by
  intro a member
  obtain ⟨j, there⟩ := List.getElem?_of_mem member
  rw [List.getElem?_modify, Option.map_eq_map, Option.map_eq_some_iff] at there
  obtain ⟨before, there, rfl⟩ := there
  have holds := all before (List.mem_of_getElem? there)
  split
  · rename_i here
    subst here
    exact kept before there holds
  · exact holds

end Mmxisf.Library
