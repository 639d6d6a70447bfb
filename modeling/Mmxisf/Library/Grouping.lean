/-
# Library.Grouping -- items in groups, and the items themselves

Items that have a group, taken group by group, are the items in another order.  What
is made of each item and its number, and depends on the item only, is made of the items.
-/
import Mathlib.Data.List.Basic
import Mathlib.Tactic.Common

namespace Mmxisf.Library

set_option autoImplicit false

section

variable {α : Type} {groupOf : α → Option Nat}

/-- The items of each of the first groups, group by group. -/
def grouped (groupOf : α → Option Nat) (count : Nat) (items : List α) : List α :=
  (List.range count).flatMap fun group => items.filter fun item => groupOf item = some group

theorem grouped_perm (items : List α) (count : Nat) :
    (grouped groupOf count items).Perm
    (items.filter fun item => (groupOf item).any (· < count)) := by
  induction count with
  | zero =>
      have none : (items.filter fun item => (groupOf item).any (· < 0)) = [] := by
        simp
      rw [none]
      exact .refl _
  | succ count ih =>
      have last : (grouped groupOf (count + 1) items) = grouped groupOf count items ++
          items.filter fun item => groupOf item = some count := by
        rw [grouped, List.range_succ, List.flatMap_append, List.flatMap_singleton, grouped]
      have before : ((items.filter fun item => (groupOf item).any (· < count + 1)).filter
          fun item => (groupOf item).any (· < count)) =
          items.filter fun item => (groupOf item).any (· < count) := by
        rw [List.filter_filter]
        refine List.filter_congr fun item _ => ?_
        cases groupOf item with
        | none => rfl
        | some group =>
            simp only [Option.any_some, Bool.and_eq_left_iff_imp, decide_eq_true_eq]
            omega
      have own : ((items.filter fun item => (groupOf item).any (· < count + 1)).filter
          fun item => !(groupOf item).any (· < count)) =
          items.filter fun item => groupOf item = some count := by
        rw [List.filter_filter]
        refine List.filter_congr fun item _ => ?_
        cases groupOf item with
        | none => rfl
        | some group =>
            rw [Option.any_some, Option.any_some, Bool.eq_iff_iff]
            simp only [Bool.and_eq_true, Bool.not_eq_true', decide_eq_false_iff_not,
              decide_eq_true_eq, Option.some.injEq]
            omega
      rw [last]
      refine (ih.append_right _).trans ?_
      rw [← before, ← own]
      exact List.filter_append_perm _ _

/-- All items, when those with a group have one of the first. -/
theorem grouped_append_perm {items : List α} {count : Nat}
    (inside : ∀ item ∈ items, ∀ group, groupOf item = some group → group < count) :
    (grouped groupOf count items ++ items.filter fun item => (groupOf item).isNone).Perm items := by
  have some : (items.filter fun item => (groupOf item).any (· < count)) =
      items.filter fun item => (groupOf item).isSome := by
    refine List.filter_congr fun item member => ?_
    cases there : groupOf item with
    | none => rfl
    | some group => simp [inside item member group there]
  have rest : (items.filter fun item => (groupOf item).isNone) =
      items.filter fun item => !(groupOf item).isSome := by
    refine List.filter_congr fun item _ => ?_
    cases groupOf item <;> rfl
  refine ((grouped_perm items count).append_right _).trans ?_
  rw [some, rest]
  exact List.filter_append_perm _ _

/-- What is made of the items, in their groups. -/
theorem grouped_map {β : Type} (f : β → α) (count : Nat) (items : List β) :
    (grouped (fun item => groupOf (f item)) count items).map f =
      grouped groupOf count (items.map f) := by
  unfold grouped
  rw [List.map_flatMap]
  refine List.flatMap_congr fun group _ => ?_
  rw [List.filter_map]
  rfl

end

/-- What is kept of items with their numbers, when the numbers do not matter. -/
theorem filterMap_mapIdx {α β γ : Type} {number : Nat → α → β} {kept : β → Option γ}
    {own : α → Option γ} {items : List α}
    (same : ∀ i item, items[i]? = some item → kept (number i item) = own item) :
    (items.mapIdx number).filterMap kept = items.filterMap own := by
  rw [List.mapIdx_eq_zipIdx_map, List.filterMap_map]
  calc items.zipIdx.filterMap (kept ∘ fun item => number item.2 item.1)
      = items.zipIdx.filterMap (own ∘ Prod.fst) :=
        List.filterMap_congr fun item member =>
          same item.2 item.1 (List.mem_zipIdx_iff_getElem?.mp member)
    _ = items.filterMap own := by rw [← List.filterMap_map, List.zipIdx_map_fst]

end Mmxisf.Library
