/-
# Library.Outline -- the elements of a document, as events open and close them

An event parser reports that an element starts, that one ends, and the items that
stand between.  The `Outline` of a document so far has every element that was
started, in document order, each with its ancestors, innermost first, and the
items directly in it; and the path of the elements that are open.

Nothing is said about what a program makes of an element: a program that keeps a
list of records, one for each element of a kind, is compared with
`outline.ofKind`, which grows as the list does (`ofKind_start`, `ofKind_append`).

* `Coherent` is what every outline satisfies: positions are positions, a path is
  made of elements of the outline, and goes down in document order.
* `Matches` is "one record for each element, in order".
-/
import Mathlib.Data.List.Forall2
import Mathlib.Data.List.Nodup
import Mathlib.Tactic.Common

namespace Mmxisf.Library

set_option autoImplicit false

/-- An element by its position in document order and its tag. -/
structure Frame (Tag : Type) where
  index : Nat
  tag : Tag
  deriving DecidableEq, Repr

/-- An element with the elements around it and the items directly in it. -/
structure Element (Tag Item : Type) extends Frame Tag where
  ancestors : List (Frame Tag)
  content : List Item
  deriving DecidableEq, Repr

structure Outline (Tag Item : Type) where
  elements : List (Element Tag Item) := []
  opened : List (Frame Tag) := []
  deriving DecidableEq, Repr

variable {Tag Item : Type}

namespace Element

/-- More items directly in the element, if it is the one at `index`. -/
def extendAt (index : Nat) (items : List Item) (element : Element Tag Item) : Element Tag Item :=
  if element.index = index then { element with content := element.content ++ items } else element

variable {index : Nat} {items : List Item} {element : Element Tag Item}

@[simp] theorem extendAt_tag : (element.extendAt index items).tag = element.tag := by
  unfold extendAt
  split <;> rfl

@[simp] theorem extendAt_index : (element.extendAt index items).index = element.index := by
  unfold extendAt
  split <;> rfl

@[simp] theorem extendAt_ancestors :
    (element.extendAt index items).ancestors = element.ancestors := by
  unfold extendAt
  split <;> rfl

@[simp] theorem extendAt_frame :
    (element.extendAt index items).toFrame = element.toFrame := by
  unfold extendAt
  split <;> rfl

theorem extendAt_same (same : element.index = index) :
    (element.extendAt index items).content = element.content ++ items := by
  rw [extendAt, if_pos same]

theorem extendAt_other (other : element.index ≠ index) :
    element.extendAt index items = element := by
  rw [extendAt, if_neg other]

end Element

namespace Outline

/-- The element that starts next. -/
def fresh (outline : Outline Tag Item) (tag : Tag) : Element Tag Item :=
  { index := outline.elements.length, tag := tag, ancestors := outline.opened, content := [] }

/-- An element starts inside those that are open. -/
def start (outline : Outline Tag Item) (tag : Tag) : Outline Tag Item where
  elements := outline.elements ++ [outline.fresh tag]
  opened := (outline.fresh tag).toFrame :: outline.opened

/-- The innermost open element ends. -/
def finish (outline : Outline Tag Item) : Outline Tag Item :=
  { outline with opened := outline.opened.tail }

/-- Items in the innermost open element. -/
def append (outline : Outline Tag Item) (items : List Item) : Outline Tag Item :=
  match outline.opened with
  | [] => outline
  | top :: _ => { outline with elements := outline.elements.map (Element.extendAt top.index items) }

/-- The elements of a kind, in document order. -/
def ofKind (outline : Outline Tag Item) (kind : Tag → Bool) : List (Element Tag Item) :=
  outline.elements.filter fun element => kind element.tag

/-- The number of elements of a kind before a frame: its position among them, if
it is of the kind. -/
def rank (outline : Outline Tag Item) (kind : Tag → Bool) (frame : Frame Tag) : Nat :=
  (outline.elements.take frame.index).countP fun element => kind element.tag

/-- The position of the innermost open element of a kind among those of the kind. -/
def openIndex (outline : Outline Tag Item) (kind : Tag → Bool) : Option Nat :=
  (outline.opened.find? fun frame => kind frame.tag).map (outline.rank kind)

variable {outline : Outline Tag Item} {tag : Tag} {items : List Item}

@[simp] theorem start_elements :
    (outline.start tag).elements = outline.elements ++ [outline.fresh tag] := rfl

@[simp] theorem start_opened :
    (outline.start tag).opened = (outline.fresh tag).toFrame :: outline.opened := rfl

@[simp] theorem finish_elements : outline.finish.elements = outline.elements := rfl

@[simp] theorem finish_opened : outline.finish.opened = outline.opened.tail := rfl

@[simp] theorem append_opened : (outline.append items).opened = outline.opened := by
  unfold append
  split <;> rfl

theorem append_elements {top : Frame Tag} {below : List (Frame Tag)}
    (opened : outline.opened = top :: below) :
    (outline.append items).elements = outline.elements.map (Element.extendAt top.index items) := by
  unfold append
  rw [opened]

/-- Items change no element but by its content. -/
theorem exists_of_mem_append {element : Element Tag Item}
    (member : element ∈ (outline.append items).elements) : ∃ old ∈ outline.elements,
      element.toFrame = old.toFrame ∧ element.ancestors = old.ancestors := by
  cases opened : outline.opened with
  | nil =>
      unfold append at member
      rw [opened] at member
      exact ⟨element, member, rfl, rfl⟩
  | cons top below =>
      rw [append_elements opened] at member
      obtain ⟨old, inside, rfl⟩ := List.mem_map.mp member
      exact ⟨old, inside, old.extendAt_frame, old.extendAt_ancestors⟩

@[simp] theorem fresh_index : (outline.fresh tag).index = outline.elements.length := rfl

@[simp] theorem fresh_tag : (outline.fresh tag).tag = tag := rfl

@[simp] theorem fresh_ancestors : (outline.fresh tag).ancestors = outline.opened := rfl

@[simp] theorem fresh_content : (outline.fresh tag).content = [] := rfl

/-! ## Kinds -/

variable {kind : Tag → Bool}

theorem ofKind_start (kind : Tag → Bool) :
    (outline.start tag).ofKind kind =
      outline.ofKind kind ++ if kind tag then [outline.fresh tag] else [] := by
  unfold ofKind
  rw [start_elements, List.filter_append, List.filter_singleton, fresh_tag]
  cases kind tag <;> rfl

theorem ofKind_start_same (same : kind tag = true) :
    (outline.start tag).ofKind kind = outline.ofKind kind ++ [outline.fresh tag] := by
  rw [ofKind_start, if_pos same]

theorem ofKind_start_other (other : kind tag = false) :
    (outline.start tag).ofKind kind = outline.ofKind kind := by
  rw [ofKind_start, other, if_neg Bool.false_ne_true, List.append_nil]

theorem length_ofKind_start (kind : Tag → Bool) :
    ((outline.start tag).ofKind kind).length =
      (outline.ofKind kind).length + if kind tag then 1 else 0 := by
  rw [ofKind_start, List.length_append]
  split <;> rfl

@[simp] theorem ofKind_finish (kind : Tag → Bool) :
    outline.finish.ofKind kind = outline.ofKind kind := rfl

theorem ofKind_append (kind : Tag → Bool) {top : Frame Tag} {below : List (Frame Tag)}
    (opened : outline.opened = top :: below) :
    (outline.append items).ofKind kind =
      (outline.ofKind kind).map (Element.extendAt top.index items) := by
  unfold ofKind
  rw [append_elements opened, List.filter_map]
  congr 1
  refine List.filter_congr fun element _ => ?_
  rw [Function.comp_apply, Element.extendAt_tag]

@[simp] theorem length_ofKind_append (kind : Tag → Bool) :
    ((outline.append items).ofKind kind).length = (outline.ofKind kind).length := by
  cases opened : outline.opened with
  | nil =>
      unfold append
      rw [opened]
  | cons top below => rw [ofKind_append kind opened, List.length_map]

theorem rank_start {frame : Frame Tag} (before : frame.index ≤ outline.elements.length) :
    (outline.start tag).rank kind frame = outline.rank kind frame := by
  unfold rank
  rw [start_elements, List.take_append_of_le_length before]

theorem rank_fresh : (outline.start tag).rank kind (outline.fresh tag).toFrame =
    (outline.ofKind kind).length := by
  have all : (outline.fresh tag).toFrame.index ≤ outline.elements.length := Nat.le_refl _
  rw [rank_start all, rank, fresh_index, List.take_length, List.countP_eq_length_filter]
  rfl

@[simp] theorem rank_finish (kind : Tag → Bool) : outline.finish.rank kind = outline.rank kind :=
    rfl

@[simp] theorem rank_append (kind : Tag → Bool) :
    (outline.append items).rank kind = outline.rank kind := by
  funext frame
  unfold rank
  cases opened : outline.opened with
  | nil =>
      unfold append
      rw [opened]
  | cons top below =>
      rw [append_elements opened, ← List.map_take, List.countP_map]
      congr 1
      funext element
      rw [Function.comp_apply, Element.extendAt_tag]

/-- The element of a frame is at the frame's rank. -/
theorem getElem?_rank {frame : Frame Tag} {element : Element Tag Item}
    (there : outline.elements[frame.index]? = some element) (same : kind element.tag = true) :
    (outline.ofKind kind)[outline.rank kind frame]? = some element := by
  obtain ⟨small, rfl⟩ := List.getElem?_eq_some_iff.mp there
  have split : outline.elements = outline.elements.take frame.index ++
      outline.elements[frame.index] :: outline.elements.drop (frame.index + 1) := by
    rw [← List.drop_eq_getElem_cons small, List.take_append_drop]
  have found : outline.ofKind kind =
      ((outline.elements.take frame.index).filter fun element => kind element.tag) ++
        outline.elements[frame.index] ::
          (outline.elements.drop (frame.index + 1)).filter fun element => kind element.tag := by
    conv_lhs => rw [ofKind, split]
    rw [List.filter_append, List.filter_cons, if_pos same]
  rw [found, rank, List.countP_eq_length_filter, List.getElem?_append_right (Nat.le_refl _),
    Nat.sub_self]
  rfl

theorem openIndex_start_same (same : kind tag = true) :
    (outline.start tag).openIndex kind = some (outline.ofKind kind).length := by
  unfold openIndex
  rw [start_opened, List.find?_cons_of_pos (by exact same), Option.map_some, rank_fresh]

theorem openIndex_finish_other {top : Frame Tag} {below : List (Frame Tag)}
    (opened : outline.opened = top :: below) (other : kind top.tag = false) :
    outline.finish.openIndex kind = outline.openIndex kind := by
  unfold openIndex
  rw [finish_opened, opened, List.tail_cons, List.find?_cons_of_neg (by simp [other])]
  rfl

theorem openIndex_eq_none (closed : ∀ frame ∈ outline.opened, kind frame.tag = false) :
    outline.openIndex kind = none := by
  unfold openIndex
  rw [Option.map_eq_none_iff, List.find?_eq_none]
  intro frame member
  rw [closed frame member]
  exact Bool.false_ne_true

@[simp] theorem openIndex_append (kind : Tag → Bool) :
    (outline.append items).openIndex kind = outline.openIndex kind := by
  unfold openIndex
  rw [append_opened, rank_append]

theorem openIndex_isSome :
    (outline.openIndex kind).isSome = true ↔ ∃ frame ∈ outline.opened, kind frame.tag = true := by
  unfold openIndex
  rw [Option.isSome_map, List.find?_isSome]

/-! ## Coherence -/

/-- A path: each frame is an element of the list whose ancestors are the frames
after it, and it comes after them in document order. -/
def IsPath (elements : List (Element Tag Item)) : List (Frame Tag) → Prop
  | [] => True
  | frame :: rest =>
      (∃ element, elements[frame.index]? = some element ∧ element.toFrame = frame ∧
        element.ancestors = rest) ∧
      (∀ other ∈ rest, other.index < frame.index) ∧ IsPath elements rest

/-- What every outline satisfies. -/
structure Coherent (outline : Outline Tag Item) : Prop where
  index : ∀ (i : Nat) (element : Element Tag Item), outline.elements[i]? = some element →
    element.index = i
  opened : IsPath outline.elements outline.opened
  ancestors : ∀ element ∈ outline.elements, IsPath outline.elements element.ancestors

theorem IsPath.mono {elements elements' : List (Element Tag Item)} {path : List (Frame Tag)}
    (kept : ∀ (i : Nat) (element : Element Tag Item), elements[i]? = some element →
      ∃ element' : Element Tag Item, elements'[i]? = some element' ∧
        element'.toFrame = element.toFrame ∧ element'.ancestors = element.ancestors)
    (holds : IsPath elements path) : IsPath elements' path := by
  induction path with
  | nil => exact trivial
  | cons frame rest ih =>
      obtain ⟨⟨element, there, same, around⟩, later, below⟩ := holds
      obtain ⟨element', there', same', around'⟩ := kept _ _ there
      exact ⟨⟨element', there', same'.trans same, around'.trans around⟩, later, ih below⟩

theorem IsPath.lt_length {elements : List (Element Tag Item)} {path : List (Frame Tag)}
    (holds : IsPath elements path) : ∀ frame ∈ path, frame.index < elements.length := by
  induction path with
  | nil => simp
  | cons frame rest ih =>
      obtain ⟨⟨element, there, -⟩, -, below⟩ := holds
      intro other member
      rcases List.mem_cons.mp member with rfl | member
      · exact (List.getElem?_eq_some_iff.mp there).1
      · exact ih below other member

theorem IsPath.element {elements : List (Element Tag Item)} {path : List (Frame Tag)}
    (holds : IsPath elements path) : ∀ frame ∈ path,
      ∃ element, elements[frame.index]? = some element ∧ element.toFrame = frame := by
  induction path with
  | nil => simp
  | cons frame rest ih =>
      obtain ⟨⟨element, there, same, -⟩, -, below⟩ := holds
      intro other member
      rcases List.mem_cons.mp member with rfl | member
      · exact ⟨element, there, same⟩
      · exact ih below other member

theorem coherent_empty : Coherent ({} : Outline Tag Item) :=
  ⟨by simp, trivial, by simp⟩

theorem Coherent.start (coherent : Coherent outline) (tag : Tag) :
    Coherent (outline.start tag) := by
  have kept : ∀ (i : Nat) (element : Element Tag Item), outline.elements[i]? = some element →
      ∃ element' : Element Tag Item, (outline.start tag).elements[i]? = some element' ∧
        element'.toFrame = element.toFrame ∧ element'.ancestors = element.ancestors := by
    intro i element there
    have small := (List.getElem?_eq_some_iff.mp there).1
    exact ⟨element, by rw [start_elements, List.getElem?_append_left small, there], rfl, rfl⟩
  have path := coherent.opened.mono kept
  refine ⟨?_, ⟨⟨outline.fresh tag, ?_, rfl, rfl⟩, ?_, path⟩, ?_⟩
  · intro i element there
    rw [start_elements, List.getElem?_append] at there
    split at there
    · exact coherent.index i element there
    · rename_i beyond
      rw [List.getElem?_singleton] at there
      split at there
      · rw [Option.some.injEq] at there
        rw [← there, fresh_index]
        omega
      · cases there
  · rw [start_elements, List.getElem?_append_right (by simp)]
    simp
  · intro other member
    exact coherent.opened.lt_length other member
  · intro element member
    rcases List.mem_append.mp member with old | new
    · exact (coherent.ancestors element old).mono kept
    · rw [List.mem_singleton.mp new]
      exact path

/-- A start tag of another kind leaves what is open of this kind. -/
theorem Coherent.openIndex_start_other (coherent : Coherent outline) {kind : Tag → Bool} {tag : Tag}
    (other : kind tag = false) : (outline.start tag).openIndex kind = outline.openIndex kind := by
  unfold openIndex
  rw [start_opened, List.find?_cons_of_neg (by simp [other])]
  cases found : outline.opened.find? fun frame => kind frame.tag with
  | none => rfl
  | some frame =>
      rw [Option.map_some, Option.map_some, rank_start]
      exact Nat.le_of_lt (coherent.opened.lt_length frame (List.mem_of_find?_eq_some found))

theorem Coherent.openIndex_start (coherent : Coherent outline) (kind : Tag → Bool) (tag : Tag) :
    (outline.start tag).openIndex kind =
      if kind tag then some (outline.ofKind kind).length else outline.openIndex kind := by
  cases same : kind tag with
  | true => rw [openIndex_start_same same, if_pos rfl]
  | false => rw [coherent.openIndex_start_other same, if_neg Bool.false_ne_true]

/-- An open element of a kind is an element of the kind. -/
theorem Coherent.element_of_openIndex (coherent : Coherent outline) {kind : Tag → Bool} {k : Nat}
    (found : outline.openIndex kind = some k) : ∃ frame ∈ outline.opened, kind frame.tag = true ∧
      ∃ element, (outline.ofKind kind)[k]? = some element ∧ element.toFrame = frame := by
  unfold openIndex at found
  obtain ⟨frame, isOpen, rfl⟩ := Option.map_eq_some_iff.mp found
  have member := List.mem_of_find?_eq_some isOpen
  have same : kind frame.tag = true :=
    List.find?_some (p := fun frame : Frame Tag => kind frame.tag) isOpen
  obtain ⟨element, there, equal⟩ := coherent.opened.element frame member
  refine ⟨frame, member, same, element, getElem?_rank there ?_, equal⟩
  rw [← same, ← equal]

theorem Coherent.openIndex_lt (coherent : Coherent outline) {kind : Tag → Bool} {k : Nat}
    (found : outline.openIndex kind = some k) : k < (outline.ofKind kind).length := by
  obtain ⟨-, -, -, element, there, -⟩ := coherent.element_of_openIndex found
  exact (List.getElem?_eq_some_iff.mp there).1

theorem Coherent.finish (coherent : Coherent outline) : Coherent outline.finish := by
  refine ⟨coherent.index, ?_, coherent.ancestors⟩
  rw [finish_opened]
  have path := coherent.opened
  cases opened : outline.opened with
  | nil => exact trivial
  | cons top below =>
      rw [opened] at path
      exact path.2.2

theorem Coherent.append (coherent : Coherent outline) (items : List Item) :
    Coherent (outline.append items) := by
  cases opened : outline.opened with
  | nil =>
      unfold Outline.append
      rw [opened]
      exact coherent
  | cons top below =>
      have elements : (outline.append items).elements =
          outline.elements.map (Element.extendAt top.index items) := append_elements opened
      have kept : ∀ (i : Nat) (element : Element Tag Item), outline.elements[i]? = some element →
          ∃ element' : Element Tag Item, (outline.append items).elements[i]? = some element' ∧
            element'.toFrame = element.toFrame ∧ element'.ancestors = element.ancestors := by
        intro i element there
        exact ⟨element.extendAt top.index items, by rw [elements, List.getElem?_map, there]; rfl,
          element.extendAt_frame, element.extendAt_ancestors⟩
      refine ⟨?_, ?_, ?_⟩
      · intro i element there
        rw [elements, List.getElem?_map] at there
        obtain ⟨element', there', rfl⟩ := Option.map_eq_some_iff.mp there
        rw [Element.extendAt_index]
        exact coherent.index i element' there'
      · rw [append_opened]
        exact coherent.opened.mono kept
      · intro element member
        rw [elements] at member
        obtain ⟨element', member', rfl⟩ := List.mem_map.mp member
        rw [Element.extendAt_ancestors]
        exact (coherent.ancestors element' member').mono kept

/-- The element of an open frame. -/
theorem Coherent.frame_of_index (coherent : Coherent outline) {top : Frame Tag}
    (isOpen : top ∈ outline.opened) {element : Element Tag Item}
    (member : element ∈ outline.elements) (same : element.index = top.index) :
    element.toFrame = top := by
  obtain ⟨other, there, frame⟩ := coherent.opened.element top isOpen
  obtain ⟨i, found⟩ := List.getElem?_of_mem member
  have index := coherent.index i element found
  rw [← same, index, found, Option.some.injEq] at there
  rw [there, frame]

/-- Items directly in an element of no such kind. -/
theorem Coherent.ofKind_append_other (coherent : Coherent outline) {top : Frame Tag}
    {below : List (Frame Tag)} (opened : outline.opened = top :: below)
    (other : kind top.tag = false) (items : List Item) :
    (outline.append items).ofKind kind = outline.ofKind kind := by
  rw [ofKind_append kind opened]
  refine (List.map_congr_left fun element inside => ?_).trans (List.map_id _)
  obtain ⟨member, same⟩ := List.mem_filter.mp inside
  refine Element.extendAt_other fun here => ?_
  have frame := coherent.frame_of_index (by rw [opened]; exact List.mem_cons_self) member here
  rw [show element.tag = top.tag from congrArg Frame.tag frame, other] at same
  cases same

@[simp] theorem append_nil : outline.append [] = outline := by
  unfold append
  split
  · rfl
  · have same (index : Nat) : (Element.extendAt index [] : Element Tag Item → _) = id := by
      funext element
      unfold Element.extendAt
      split <;> simp
    rw [same, List.map_id]

/-- Elements are at different positions. -/
theorem Coherent.index_injective (coherent : Coherent outline) :
    (outline.elements.map fun element => element.index).Nodup := by
  rw [List.nodup_iff_injective_get]
  intro i j same
  have first := coherent.index i _ (List.getElem?_eq_getElem (by simpa using i.2))
  have second := coherent.index j _ (List.getElem?_eq_getElem (by simpa using j.2))
  simp only [List.get_eq_getElem, List.getElem_map] at same
  exact Fin.ext (by omega)

/-- An element of a kind is at its rank. -/
theorem Coherent.getElem?_of_mem (coherent : Coherent outline) {kind : Tag → Bool}
    {element : Element Tag Item} (member : element ∈ outline.ofKind kind) :
    (outline.ofKind kind)[outline.rank kind element.toFrame]? = some element := by
  obtain ⟨inside, same⟩ := List.mem_filter.mp member
  obtain ⟨i, there⟩ := List.getElem?_of_mem inside
  refine getElem?_rank ?_ same
  rw [coherent.index i element there]
  exact there

theorem Coherent.rank_of_getElem? (coherent : Coherent outline) {kind : Tag → Bool} {i : Nat}
    {element : Element Tag Item} (there : (outline.ofKind kind)[i]? = some element) :
    outline.rank kind element.toFrame = i := by
  have atRank := coherent.getElem?_of_mem (List.mem_of_getElem? there)
  have unique : (outline.ofKind kind).Nodup :=
    coherent.index_injective.of_map.sublist List.filter_sublist
  obtain ⟨small, rfl⟩ := List.getElem?_eq_some_iff.mp there
  obtain ⟨small', same⟩ := List.getElem?_eq_some_iff.mp atRank
  exact (List.Nodup.getElem_inj_iff unique).mp same

end Outline

/-! ## Records -/

/-- One record for each element, in order. -/
abbrev Matches {α β : Type} (relation : α → β → Prop) (elements : List α) (records : List β) :
    Prop :=
  List.Forall₂ relation elements records

namespace Matches

variable {α β : Type} {relation relation' : α → β → Prop} {elements : List α} {records : List β}

theorem mono (weaker : ∀ a b, relation a b → relation' a b)
    (holds : Matches relation elements records) : Matches relation' elements records :=
  List.Forall₂.imp weaker holds

/-- A new element with a new record. -/
theorem concat {element : α} {record : β} (holds : Matches relation elements records)
    (fresh : relation element record) :
    Matches relation (elements ++ [element]) (records ++ [record]) :=
  List.rel_append holds (.cons fresh .nil)

theorem get {i : Nat} {record : β} (holds : Matches relation elements records)
    (there : records[i]? = some record) : ∃ element, elements[i]? = some element ∧
      relation element record := by
  induction holds generalizing i with
  | nil => simp at there
  | cons first rest ih =>
      cases i with
      | zero =>
          rw [List.getElem?_cons_zero, Option.some.injEq] at there
          exact ⟨_, rfl, there ▸ first⟩
      | succ i =>
          rw [List.getElem?_cons_succ] at there ⊢
          exact ih there

theorem get_element {i : Nat} {element : α} (holds : Matches relation elements records)
    (there : elements[i]? = some element) : ∃ record, records[i]? = some record ∧
      relation element record := by
  induction holds generalizing i with
  | nil => simp at there
  | cons first rest ih =>
      cases i with
      | zero =>
          rw [List.getElem?_cons_zero, Option.some.injEq] at there
          exact ⟨_, rfl, there ▸ first⟩
      | succ i =>
          rw [List.getElem?_cons_succ] at there ⊢
          exact ih there

/-- Elements and records change together: the ones at `i` as `changed` says, the
others as `same` says. -/
theorem modify {i : Nat} {f : α → α} {g : β → β} (holds : Matches relation elements records)
    (same : ∀ j a b, j ≠ i → elements[j]? = some a → records[j]? = some b → relation a b →
      relation' (f a) b)
    (changed : ∀ a b, elements[i]? = some a → records[i]? = some b → relation a b →
      relation' (f a) (g b)) :
    Matches relation' (elements.map f) (records.modify i g) := by
  induction holds generalizing i with
  | nil => simp
  | cons first rest ih =>
      cases i with
      | zero =>
          rw [List.modify_zero_cons, List.map_cons]
          refine .cons (changed _ _ rfl rfl first) ?_
          rw [List.forall₂_map_left_iff]
          refine List.forall₂_iff_get.mpr ⟨rest.length_eq, fun k small small' => ?_⟩
          have inElements := List.getElem?_eq_getElem small
          have inRecords := List.getElem?_eq_getElem small'
          exact same (k + 1) _ _ (by omega) (by rw [List.getElem?_cons_succ, inElements]; rfl)
            (by rw [List.getElem?_cons_succ, inRecords]; rfl) (rest.get small small')
      | succ i =>
          rw [List.modify_succ_cons, List.map_cons]
          refine .cons (same 0 _ _ (by omega) rfl rfl first) (ih ?_ ?_)
          · intro j a b other inElements inRecords related
            exact same (j + 1) a b (by omega) inElements inRecords related
          · intro a b inElements inRecords related
            exact changed a b inElements inRecords related

/-- Items in the innermost element, and its record changed with it. -/
theorem append {Tag Item : Type} {outline : Outline Tag Item} (coherent : outline.Coherent)
    {kind : Tag → Bool} {related : Element Tag Item → β → Prop}
    (holds : Matches related (outline.ofKind kind) records) {top : Frame Tag}
    {below : List (Frame Tag)} (opened : outline.opened = top :: below)
    (same : kind top.tag = true) {items : List Item} {change : β → β}
    (changed : ∀ element record, element.toFrame = top →
      records[outline.rank kind top]? = some record → related element record →
        related (element.extendAt top.index items) (change record)) :
    Matches related ((outline.append items).ofKind kind)
      (records.modify (outline.rank kind top) change) := by
  have isOpen : top ∈ outline.opened := by
    rw [opened]
    exact List.mem_cons_self
  rw [Outline.ofKind_append kind opened]
  refine holds.modify ?_ ?_
  · intro j element record other there found held
    rwa [Element.extendAt_other]
    intro here
    have frame := coherent.frame_of_index isOpen (List.mem_filter.mp (List.mem_of_getElem? there)).1
      here
    exact other (by rw [← frame, coherent.rank_of_getElem? there])
  · intro element record there found held
    obtain ⟨member, kinds⟩ := List.mem_filter.mp (List.mem_of_getElem? there)
    refine changed element record ?_ found held
    obtain ⟨other, atTop, frame⟩ := coherent.opened.element top isOpen
    have atRank : (outline.ofKind kind)[outline.rank kind top]? = some other :=
      Outline.getElem?_rank atTop
        (by rw [show other.tag = top.tag from congrArg Frame.tag frame, same])
    rw [there, Option.some.injEq] at atRank
    rw [atRank, frame]

end Matches

end Mmxisf.Library
