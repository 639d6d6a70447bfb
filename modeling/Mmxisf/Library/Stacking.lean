/-
# Library.Stacking -- ranges one after another, each start a multiple

`stacked` places sizes: the first where it is said, each later one at the next
multiple after the end of the one before.  `stackEnd` is where the last one ends.
`laid` is what a file holds when contents are placed so: from a position on, filler
up to each range, and the content.  It is `spread` over the places of the contents,
which does not say where these come from.
-/
import Mathlib.Algebra.Group.Nat.Defs
import Mathlib.Data.Nat.Basic
import Mathlib.Order.Monotone.Defs
import Mathlib.Tactic.Common
import Mmxisf.Library.Buffer

namespace Mmxisf.Library

set_option autoImplicit false

/-- The least multiple that is not less. -/
def roundUp (alignment value : Nat) : Nat :=
  if value % alignment = 0 then value else value + (alignment - value % alignment)

section

variable {alignment value : Nat}

theorem le_roundUp : value ≤ roundUp alignment value := by
  unfold roundUp
  split
  · exact Nat.le_refl _
  · exact Nat.le_add_right _ _

theorem roundUp_lt (positive : 0 < alignment) : roundUp alignment value < value + alignment := by
  unfold roundUp
  split
  · omega
  · omega

theorem dvd_roundUp (positive : 0 < alignment) : alignment ∣ roundUp alignment value := by
  unfold roundUp
  split
  · rename_i whole
    exact Nat.dvd_of_mod_eq_zero whole
  · have small := Nat.mod_lt value positive
    rw [← Nat.add_sub_assoc (Nat.le_of_lt small), Nat.add_comm, Nat.add_sub_assoc (Nat.mod_le _ _)]
    exact Nat.dvd_add (Nat.dvd_refl _) (Nat.dvd_sub_mod value)

theorem roundUp_least {multiple : Nat} (positive : 0 < alignment) (whole : alignment ∣ multiple)
    (le : value ≤ multiple) : roundUp alignment value ≤ multiple := by
  have near := @roundUp_lt alignment value positive
  by_contra above
  have between := Nat.le_of_dvd (Nat.sub_pos_of_lt (Nat.not_le.mp above))
    (Nat.dvd_sub (dvd_roundUp positive) whole)
  omega

theorem roundUp_mono (positive : 0 < alignment) : Monotone (roundUp alignment) :=
  fun _ _ le => roundUp_least positive (dvd_roundUp positive) (Nat.le_trans le le_roundUp)

end

/-- The ranges of sizes from an offset on, as offsets and sizes. -/
def stacked (alignment : Nat) : Nat → List Nat → List (Nat × Nat)
  | _, [] => []
  | offset, size :: rest =>
      (offset, size) :: stacked alignment (roundUp alignment (offset + size)) rest

/-- Where the last range ends; without one, the offset. -/
def stackEnd (alignment : Nat) : Nat → List Nat → Nat
  | offset, [] => offset
  | offset, [size] => offset + size
  | offset, size :: next :: rest =>
      stackEnd alignment (roundUp alignment (offset + size)) (next :: rest)

theorem stacked_sizes (alignment : Nat) : ∀ (offset : Nat) (sizes : List Nat),
    (stacked alignment offset sizes).map Prod.snd = sizes
  | _, [] => rfl
  | offset, size :: rest => by
      rw [stacked, List.map_cons, stacked_sizes alignment _ rest]

theorem stacked_length (alignment offset : Nat) (sizes : List Nat) :
    (stacked alignment offset sizes).length = sizes.length := by
  rw [← List.length_map Prod.snd, stacked_sizes]

section

variable {alignment : Nat} {sizes : List Nat}

theorem dvd_stacked (positive : 0 < alignment) :
    ∀ {offset : Nat} {sizes : List Nat}, alignment ∣ offset →
      ∀ range ∈ stacked alignment offset sizes, alignment ∣ range.1
  | _, [], _, _, member => nomatch member
  | offset, size :: rest, whole, range, member => by
      rcases List.mem_cons.mp member with rfl | later
      · exact whole
      · exact dvd_stacked positive (dvd_roundUp positive) range later

/-- A range starts at or after the end of the one before, less than a multiple
later. -/
def Follows (alignment : Nat) (range next : Nat × Nat) : Prop :=
  range.1 + range.2 ≤ next.1 ∧ next.1 < range.1 + range.2 + alignment

theorem stacked_isChain (positive : 0 < alignment) : ∀ {offset : Nat} {sizes : List Nat},
    (stacked alignment offset sizes).IsChain (Follows alignment)
  | _, [] => .nil
  | _, [_] => .singleton _
  | offset, size :: next :: rest => by
      refine .cons_cons ⟨le_roundUp, roundUp_lt positive⟩ ?_
      exact @stacked_isChain positive _ (next :: rest)

/-- Every range lies between the first start and the end. -/
theorem stacked_within : ∀ {offset : Nat} {sizes : List Nat},
    ∀ range ∈ stacked alignment offset sizes,
      offset ≤ range.1 ∧ range.1 + range.2 ≤ stackEnd alignment offset sizes
  | _, [], _, member => nomatch member
  | offset, [size], range, member => by
      obtain rfl := List.mem_singleton.mp member
      exact ⟨Nat.le_refl _, Nat.le_refl _⟩
  | offset, size :: next :: rest, range, member => by
      rcases List.mem_cons.mp member with rfl | later
      · refine ⟨Nat.le_refl _, ?_⟩
        have inside := @stacked_within (roundUp alignment (offset + size)) (next :: rest)
          (roundUp alignment (offset + size), next) List.mem_cons_self
        exact Nat.le_trans le_roundUp (Nat.le_trans (Nat.le_add_right _ _) inside.2)
      · obtain ⟨above, below⟩ := @stacked_within _ (next :: rest) range later
        exact ⟨Nat.le_trans (Nat.le_trans (Nat.le_add_right _ _) le_roundUp) above, below⟩

theorem le_stackEnd : ∀ {offset : Nat} {sizes : List Nat}, offset ≤ stackEnd alignment offset sizes
  | _, [] => Nat.le_refl _
  | offset, size :: _ => Nat.le_trans (Nat.le_add_right offset size)
      (stacked_within (offset, size) List.mem_cons_self).2

/-- Stacked from later on, sizes do not end earlier. -/
theorem stackEnd_mono (positive : 0 < alignment) :
    ∀ (sizes : List Nat), Monotone fun offset => stackEnd alignment offset sizes
  | [], _, _, le => le
  | [size], _, _, le => Nat.add_le_add_right le size
  | size :: next :: rest, _, _, le =>
      stackEnd_mono positive (next :: rest) (roundUp_mono positive (Nat.add_le_add_right le size))

/-- Ranges that are not empty start one after another. -/
theorem stacked_ascending : ∀ {offset : Nat} {sizes : List Nat}, (∀ size ∈ sizes, size ≠ 0) →
    (stacked alignment offset sizes).Pairwise fun range later => range.1 < later.1
  | _, [], _ => .nil
  | offset, size :: rest, filled => by
      rw [List.forall_mem_cons] at filled
      refine .cons (fun later member => ?_) (stacked_ascending filled.2)
      have after := (stacked_within later member).1
      have before := @le_roundUp alignment (offset + size)
      have some : size ≠ 0 := filled.1
      dsimp only
      omega

end

section

variable {α : Type} (filler : α) (alignment : Nat)

/-- What is written from a position on: filler up to an offset, the content there,
and the rest from the next multiple on. -/
def laid : Nat → Nat → List (List α) → List α
  | _, _, [] => []
  | position, offset, content :: rest =>
      List.replicate (offset - position) filler ++ content ++
        laid (offset + content.length) (roundUp alignment (offset + content.length)) rest

variable {filler alignment}

theorem length_laid : ∀ {position offset : Nat} {contents : List (List α)}, contents ≠ [] →
    position ≤ offset → position + (laid filler alignment position offset contents).length =
      stackEnd alignment offset (contents.map List.length)
  | _, _, [], nonempty, _ => absurd rfl nonempty
  | position, offset, [content], _, before => by
      simp only [laid, List.append_nil, List.length_append, List.length_replicate, List.map_cons,
        List.map_nil, stackEnd]
      omega
  | position, offset, content :: next :: rest, _, before => by
      have later := @length_laid (offset + content.length)
        (roundUp alignment (offset + content.length)) (next :: rest)
        (List.cons_ne_nil _ _) le_roundUp
      rw [List.map_cons, List.map_cons, stackEnd, ← List.map_cons, ← later, laid,
        List.length_append,
        List.length_append, List.length_replicate]
      omega

/-- What is written before the rest: filler up to the offset, and the content. -/
def laidFirst (filler : α) (head : List α) (offset : Nat) (content : List α) : List α :=
  head ++ List.replicate (offset - head.length) filler ++ content

section

variable {head content : List α} {offset : Nat} {rest : List (List α)}

theorem length_gap (before : head.length ≤ offset) :
    (head ++ List.replicate (offset - head.length) filler).length = offset := by
  rw [List.length_append, List.length_replicate]
  omega

theorem length_laidFirst (before : head.length ≤ offset) :
    (laidFirst filler head offset content).length = offset + content.length := by
  rw [laidFirst, List.length_append, length_gap before]

theorem laid_cons (before : head.length ≤ offset) :
    head ++ laid filler alignment head.length offset (content :: rest) =
      laidFirst filler head offset content ++
        laid filler alignment (laidFirst filler head offset content).length
          (roundUp alignment (laidFirst filler head offset content).length) rest := by
  rw [length_laidFirst before, laid, laidFirst, List.append_assoc, List.append_assoc,
    List.append_assoc]

end

/-- Each content is in its range. -/
theorem slice_laid : ∀ {contents : List (List α)} {head : List α} {offset : Nat},
    head.length ≤ offset →
    ∀ placed ∈ (stacked alignment offset (contents.map List.length)).zip contents,
      slice (head ++ laid filler alignment head.length offset contents) placed.1.1 placed.1.2 =
      placed.2
  | [], _, _, _, _, member => nomatch member
  | content :: rest, head, offset, before, placed, member => by
      rw [laid_cons before]
      rcases List.mem_cons.mp member with rfl | later
      · show slice _ offset content.length = content
        rw [slice, laidFirst, List.append_assoc, List.drop_left' (length_gap before)]
        exact List.take_left' rfl
      · rw [← length_laidFirst before] at later
        exact slice_laid le_roundUp placed later

/-- Outside the ranges there is filler. -/
theorem getElem?_laid : ∀ {contents : List (List α)} {head : List α} {offset i : Nat},
    head.length ≤ offset → head.length ≤ i →
    i < (head ++ laid filler alignment head.length offset contents).length →
    (∀ range ∈ stacked alignment offset (contents.map List.length),
      i < range.1 ∨ range.1 + range.2 ≤ i) →
    (head ++ laid filler alignment head.length offset contents)[i]? = some filler
  | [], head, _, i, _, after, inside, _ => by
      rw [laid, List.append_nil] at inside
      omega
  | content :: rest, head, offset, i, before, after, inside, outside => by
      rw [laid_cons before] at inside ⊢
      have first := @length_laidFirst α filler head content offset before
      rcases outside _ List.mem_cons_self with low | high
      · dsimp only at low
        rw [List.getElem?_append_left (by omega), laidFirst,
          List.getElem?_append_left (by rw [length_gap before]; exact low),
          List.getElem?_append_right after]
        exact List.getElem?_replicate_of_lt (by omega)
      · dsimp only at high
        apply getElem?_laid le_roundUp (by omega) inside
        intro range member
        rw [first] at member
        exact outside range (List.mem_cons_of_mem _ member)

end

/-! ## Contents where it is said -/

section

variable {α : Type} {filler : α} {alignment limit : Nat}

/-- What is written from a position on when contents have these offsets. -/
def spread (filler : α) : Nat → List (Nat × List α) → List α
  | _, [] => []
  | position, (offset, content) :: rest =>
      List.replicate (offset - position) filler ++ content ++
        spread filler (offset + content.length) rest

/-- Where the last of them ends. -/
def spreadEnd : Nat → List (Nat × List α) → Nat
  | position, [] => position
  | _, (offset, content) :: rest => spreadEnd (offset + content.length) rest

/-- None starts before the one before it ends, and all end within a limit. -/
inductive Ascends (limit : Nat) : Nat → List (Nat × List α) → Prop
  | nil {position : Nat} : Ascends limit position []
  | cons {position offset : Nat} {content : List α} {rest : List (Nat × List α)}
      (after : position ≤ offset) (inside : offset + content.length ≤ limit)
      (later : Ascends limit (offset + content.length) rest) :
      Ascends limit position ((offset, content) :: rest)

theorem spread_append {more : List (Nat × List α)} :
    ∀ {position : Nat} {places : List (Nat × List α)},
    spread filler position (places ++ more) =
      spread filler position places ++ spread filler (spreadEnd position places) more
  | _, [] => rfl
  | position, (offset, content) :: rest => by
      rw [List.cons_append, spread, spread_append, ← List.append_assoc]
      rfl

theorem Ascends.append {more : List (Nat × List α)} :
    ∀ {position : Nat} {places : List (Nat × List α)},
    Ascends limit position (places ++ more) →
      Ascends limit position places ∧ Ascends limit (spreadEnd position places) more
  | _, [], ascends => ⟨.nil, ascends⟩
  | _, (_, _) :: _, .cons after inside later => by
      obtain ⟨first, rest⟩ := later.append
      exact ⟨.cons after inside first, rest⟩

/-- Contents with the offsets of their ranges. -/
def placed (alignment : Nat) : Nat → List (List α) → List (Nat × List α)
  | _, [] => []
  | offset, content :: rest =>
      (offset, content) :: placed alignment (roundUp alignment (offset + content.length)) rest

theorem spread_placed : ∀ {position offset : Nat} {contents : List (List α)},
    spread filler position (placed alignment offset contents) =
      laid filler alignment position offset contents
  | _, _, [] => rfl
  | position, offset, content :: rest => by
      rw [placed, spread, laid, spread_placed]

theorem ascends_placed : ∀ {position offset : Nat} {contents : List (List α)}, position ≤ offset →
    stackEnd alignment offset (contents.map List.length) ≤ limit →
    Ascends limit position (placed alignment offset contents)
  | _, _, [], _, _ => .nil
  | _, _, [_], after, inside => .cons after inside .nil
  | position, offset, content :: next :: rest, after, inside => by
      have first : offset + content.length ≤
          stackEnd alignment offset ((content :: next :: rest).map List.length) :=
        (stacked_within (offset, content.length) List.mem_cons_self).2
      refine .cons after (Nat.le_trans first inside) ?_
      exact ascends_placed le_roundUp inside

end

end Mmxisf.Library
