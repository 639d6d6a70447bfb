/-
# Library.Directory -- elements found by the keys some of them have

A program that reads a list of elements keeps, for those that have a key, an
association list from the key to what it knows of the element.  Where no key is
used twice, looking one up finds the element that has it (`lookup_directory`).
-/
import Mathlib.Data.List.Nodup
import Mathlib.Tactic.Common

namespace Mmxisf.Library

set_option autoImplicit false

variable {α β κ : Type}

/-- The keys of some elements, with the value of each. -/
def directory (key : α → Option κ) (value : α → β) (elements : List α) : List (κ × β) :=
  elements.flatMap fun a => (key a).toList.map fun k => (k, value a)

section

variable [DecidableEq κ] {key : α → Option κ} {value : α → β} {elements : List α} {k : κ}

/-- No other element has the key. -/
theorem key_unique {a : α} {rest : List α} (unique : ((a :: rest).filterMap key).Nodup)
    (has : key a = some k) : rest.filter (fun b => decide (key b = some k)) = [] := by
  rw [List.filterMap_cons_some has, List.nodup_cons] at unique
  rw [List.filter_eq_nil_iff]
  intro b member isKey
  exact unique.1 (List.mem_filterMap.mpr ⟨b, member, of_decide_eq_true isKey⟩)

theorem filter_key {a : α} (unique : (elements.filterMap key).Nodup) (member : a ∈ elements)
    (has : key a = some k) : elements.filter (fun b => decide (key b = some k)) = [a] := by
  induction elements with
  | nil => cases member
  | cons b rest ih =>
      by_cases here : key b = some k
      · have others := key_unique unique here
        rw [List.filter_cons_of_pos (by simp [here]), others]
        rcases List.mem_cons.mp member with rfl | later
        · rfl
        · have inFilter : a ∈ rest.filter fun b => decide (key b = some k) :=
            List.mem_filter.mpr ⟨later, decide_eq_true has⟩
          rw [others] at inFilter
          cases inFilter
      · rw [List.filter_cons_of_neg (by simp [here])]
        refine ih (unique.sublist ((List.sublist_cons_self b rest).filterMap key)) ?_
        rcases List.mem_cons.mp member with rfl | later
        · exact absurd has here
        · exact later

variable [BEq κ] [LawfulBEq κ]

/-- Looking a key up finds the element that has it. -/
theorem lookup_directory (unique : (elements.filterMap key).Nodup) :
    ((directory key value elements).lookup k).toList =
      (elements.filter fun a => decide (key a = some k)).map value := by
  induction elements with
  | nil => rfl
  | cons a rest ih =>
      rw [directory, List.flatMap_cons, ← directory]
      cases here : key a with
      | none =>
          rw [List.filterMap_cons_none here] at unique
          simpa [here] using ih unique
      | some k' =>
          by_cases same : k = k'
          · subst same
            rw [List.filter_cons_of_pos (by simp [here]), key_unique unique here]
            simp
          · rw [List.filterMap_cons_some here, List.nodup_cons] at unique
            rw [List.filter_cons_of_neg (by simp [here, Ne.symm same]), ← ih unique.2]
            have other : (k == k') = false := beq_eq_false_iff_ne.mpr same
            simp [List.lookup_cons, other]

end

/-! ## Positions -/

/-- What the one element at a position adds. -/
theorem flatMap_of_position {elements : List α} {added : α → List β} {i : Nat}
    (others : ∀ j a, elements[j]? = some a → j ≠ i → added a = []) :
    elements.flatMap added = (elements[i]?).toList.flatMap added := by
  induction elements generalizing i with
  | nil => rfl
  | cons a rest ih =>
      rw [List.flatMap_cons]
      cases i with
      | zero =>
          have later : rest.flatMap added = [] :=
            List.flatMap_eq_nil_iff.mpr fun b member => by
              obtain ⟨j, there⟩ := List.getElem?_of_mem member
              exact others (j + 1) b (by simpa using there) (by omega)
          simp [later]
      | succ i =>
          have after : ∀ j b, rest[j]? = some b → j ≠ i → added b = [] :=
            fun j b there other => others (j + 1) b (by simpa using there) (by omega)
          rw [others 0 a rfl (by omega), ih after]
          rfl

end Mmxisf.Library
