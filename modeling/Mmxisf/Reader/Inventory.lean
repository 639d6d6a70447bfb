/-
# Reader.Inventory -- every attached block of the document is in the inventory

The handler notes the attached location of every element it opens
(`recordAttachedRange`); the branches below it build the descriptors.  Here the
two are tied together: whatever the events, the attachments of the descriptors,
each as often as it occurs, are among the ranges noted.  The header checks then
hold of the descriptors too.

What one handler can do to the descriptors is `Extends`; it is proved once for
each handler, and `handleEvents` only follows the events.
-/
import Mmxisf.Reader.Header
import Mathlib.Data.Multiset.AddSub
import Mathlib.Algebra.BigOperators.Group.Multiset.Basic
import Mathlib.Algebra.Order.Group.Multiset
import Mathlib.Tactic.Abel

namespace Mmxisf.Reader

set_option autoImplicit false

/-! ## What a document declares -/

/-- The attached range of a location, if it is attached. -/
def attachedRange (block : BlockLocation) : Multiset AttachedRange :=
  if block.kind = .attachment then {⟨block.offset, block.size⟩} else 0

/-- The attached ranges of a list of descriptors. -/
def attachedRanges {α : Type} (block : α → BlockLocation) (descriptors : List α) :
    Multiset AttachedRange :=
  (descriptors.map fun descriptor => attachedRange (block descriptor)).sum

def rowRanges (row : TableRowInfo) : Multiset AttachedRange :=
  attachedRanges TableCellInfo.block row.cells

def tableRanges (table : TableInfo) : Multiset AttachedRange := (table.rows.map rowRanges).sum

/-- The attached ranges of images, metadata, ICC profiles, thumbnails and table
cells. -/
def declaredRanges (images : List ImageInfo) (metadata : List MetadataEntry)
    (profiles : List IccProfileInfo) (thumbnails : List ThumbnailInfo) (tables : List TableInfo) :
    Multiset AttachedRange :=
  attachedRanges ImageInfo.block images + attachedRanges MetadataEntry.block metadata +
    attachedRanges IccProfileInfo.block profiles +
    attachedRanges (fun thumbnail => thumbnail.image.block) thumbnails +
    (tables.map tableRanges).sum

/-- The axes of an image are there. -/
def HasAxes (image : ImageInfo) : Prop := ∀ extent ∈ image.geometry, extent ≠ 0

namespace XmlBuilder

def declared (state : XmlBuilder) : Multiset AttachedRange :=
  declaredRanges state.images state.metadata state.iccProfiles state.thumbnails state.tables

/-- Every image and every thumbnail has its axes. -/
def AxesPresent (state : XmlBuilder) : Prop :=
  (∀ image ∈ state.images, HasAxes image) ∧ ∀ thumbnail ∈ state.thumbnails, HasAxes thumbnail.image

end XmlBuilder

/-! ## Sums over descriptors -/

section Sums

variable {α : Type} (f : α → Multiset AttachedRange)

theorem sum_map_append_one (xs : List α) (x : α) :
    ((xs ++ [x]).map f).sum = (xs.map f).sum + f x := by
  simp

theorem sum_map_modify_le {change : α → α} {extra : Multiset AttachedRange}
    (small : ∀ x, f (change x) ≤ f x + extra) (xs : List α) (i : Nat) :
    ((xs.modify i change).map f).sum ≤ (xs.map f).sum + extra := by
  induction xs generalizing i with
  | nil =>
      rw [List.modify_nil, List.map_nil, List.sum_nil]
      exact Multiset.zero_le _
  | cons x rest ih =>
      cases i with
      | zero =>
          simp only [List.modify_zero_cons, List.map_cons, List.sum_cons]
          calc f (change x) + (rest.map f).sum
              ≤ (f x + extra) + (rest.map f).sum := add_le_add_left (small x) _
            _ = f x + (rest.map f).sum + extra := by rw [add_right_comm]
      | succ i =>
          simp only [List.modify_succ_cons, List.map_cons, List.sum_cons, add_assoc]
          exact add_le_add_right (ih i) _

theorem sum_map_modify_of_same {change : α → α} (same : ∀ x, f (change x) = f x) (xs : List α)
    (i : Nat) : ((xs.modify i change).map f).sum = (xs.map f).sum := by
  induction xs generalizing i with
  | nil => simp
  | cons x rest ih =>
      cases i with
      | zero => simp only [List.modify_zero_cons, List.map_cons, List.sum_cons, same]
      | succ i => simp only [List.modify_succ_cons, List.map_cons, List.sum_cons, ih]

theorem sum_map_set_of_same {xs : List α} {i : Nat} {x y : α} (there : xs[i]? = some x)
    (same : f y = f x) : ((xs.set i y).map f).sum = (xs.map f).sum := by
  induction xs generalizing i with
  | nil => simp at there
  | cons z rest ih =>
      cases i with
      | zero =>
          simp only [List.getElem?_cons_zero, Option.some.injEq] at there
          simp only [List.set_cons_zero, List.map_cons, List.sum_cons, same, there]
      | succ i =>
          simp only [List.getElem?_cons_succ] at there
          simp only [List.set_cons_succ, List.map_cons, List.sum_cons, ih there]

end Sums

/-- An element of a list with one element changed was there, before or after the
change. -/
theorem mem_modify {α : Type} {change : α → α} {xs : List α} {i : Nat} {y : α}
    (member : y ∈ xs.modify i change) : y ∈ xs ∨ ∃ x ∈ xs, y = change x := by
  induction xs generalizing i with
  | nil => simp at member
  | cons x rest ih =>
      cases i with
      | zero =>
          simp only [List.modify_zero_cons, List.mem_cons] at member
          rcases member with rfl | later
          · exact .inr ⟨x, List.mem_cons_self, rfl⟩
          · exact .inl (List.mem_cons_of_mem _ later)
      | succ i =>
          simp only [List.modify_succ_cons, List.mem_cons] at member
          rcases member with rfl | later
          · exact .inl List.mem_cons_self
          · rcases ih later with there | ⟨z, there, rfl⟩
            · exact .inl (List.mem_cons_of_mem _ there)
            · exact .inr ⟨z, List.mem_cons_of_mem _ there, rfl⟩

/-! ## One handler -/

/-- From `state` to `state'` the inventory is unchanged and the descriptors
declare at most `own` more. -/
structure Extends (own : Multiset AttachedRange) (state state' : XmlBuilder) : Prop where
  inventory : state'.attachedRanges = state.attachedRanges
  declared : state'.declared ≤ state.declared + own
  axes : state.AxesPresent → state'.AxesPresent

namespace Extends

variable {own more : Multiset AttachedRange} {first second third : XmlBuilder}

theorem refl (state : XmlBuilder) : Extends 0 state state :=
  ⟨rfl, by rw [add_zero], id⟩

theorem trans (before : Extends own first second) (after : Extends more second third) :
    Extends (own + more) first third where
  inventory := after.inventory.trans before.inventory
  declared := by
    calc third.declared ≤ second.declared + more := after.declared
      _ ≤ (first.declared + own) + more := add_le_add_left before.declared _
      _ = first.declared + (own + more) := add_assoc _ _ _
  axes := fun holds => after.axes (before.axes holds)

theorem mono (small : own ≤ more) (holds : Extends own first second) : Extends more first second :=
  ⟨holds.inventory, holds.declared.trans (add_le_add_right small _), holds.axes⟩

/-- Nothing, and then something. -/
theorem after (before : Extends 0 first second) (rest : Extends own second third) :
    Extends own first third := by
  have both := before.trans rest
  rwa [zero_add] at both

/-- Something, and then nothing. -/
theorem andThen (before : Extends own first second) (rest : Extends 0 second third) :
    Extends own first third := by
  have both := before.trans rest
  rwa [add_zero] at both

/-- Nothing the inventory is about has changed, but for tables that declare the
same ranges. -/
theorem of_same (inventory : second.attachedRanges = first.attachedRanges)
    (images : second.images = first.images) (metadata : second.metadata = first.metadata)
    (profiles : second.iccProfiles = first.iccProfiles)
    (thumbnails : second.thumbnails = first.thumbnails)
    (tables : (second.tables.map tableRanges).sum = (first.tables.map tableRanges).sum) :
    Extends 0 first second where
  inventory := inventory
  declared := by
    simp only [XmlBuilder.declared, declaredRanges, images, metadata, profiles, thumbnails, tables,
      add_zero, le_refl]
  axes := by
    simp only [XmlBuilder.AxesPresent, images, thumbnails, imp_self]

end Extends

section

variable {options : ReaderOptions} {platform : Platform} {state state' : XmlBuilder}
  {element : ElementContext}

/-- The attached range of the element's own location. -/
def ownRange (element : ElementContext) : Multiset AttachedRange :=
  match element.attr "location" with
  | none => 0
  | some location => attachedRange (parseLocation location)

@[simp] theorem attachedRange_empty : attachedRange .empty = 0 := rfl

/-! ### Byte budgets and decoders -/

theorem consumeTableTextBytes_extends {count : Nat} {name : Text}
    (run : consumeTableTextBytes options state count name = .ok state') :
    Extends 0 state state' := by
  simp only [consumeTableTextBytes, bind_eq_ok, pure, Except.pure, Except.ok.injEq] at run
  obtain ⟨used, -, rfl⟩ := run
  exact .of_same rfl rfl rfl rfl rfl rfl

theorem consumeExtensionBytes_extends {count : Nat} {name : Text}
    (run : consumeExtensionBytes options state count name = .ok state') :
    Extends 0 state state' := by
  simp only [consumeExtensionBytes, bind_eq_ok, pure, Except.pure, Except.ok.injEq] at run
  obtain ⟨used, -, rfl⟩ := run
  exact .of_same rfl rfl rfl rfl rfl rfl

theorem consumeAncillaryBytes_extends {count : Nat} {name : Text}
    (run : consumeAncillaryBytes options state count name = .ok state') :
    Extends 0 state state' := by
  simp only [consumeAncillaryBytes, bind_eq_ok, pure, Except.pure, Except.ok.injEq] at run
  obtain ⟨used, -, rfl⟩ := run
  exact .of_same rfl rfl rfl rfl rfl rfl

theorem beginEncoding_extends (state : XmlBuilder) (base64 : Bool) :
    Extends 0 state (beginEncoding state base64) :=
  .of_same rfl rfl rfl rfl rfl rfl

/-! ### Tables -/

theorem startTable_extends (run : startTable options state element = .ok state') :
    Extends 0 state state' := by
  simp only [startTable, bind_eq_ok, pure, Except.pure, Except.ok.injEq] at run
  obtain ⟨_, -, _, -, _, -, _, -, _, -, charged, charge, _, -, rfl⟩ := run
  refine (consumeTableTextBytes_extends charge).andThen (.of_same rfl rfl rfl rfl rfl ?_)
  simp only [sum_map_append_one]
  exact add_zero _

theorem startStructure_extends (run : startStructure options state element = .ok state') :
    Extends 0 state state' := by
  simp only [startStructure, bind_eq_ok, pure, Except.pure] at run
  obtain ⟨_, -, _, -, _, -, _, -, charged, charge, rest⟩ := run
  refine (consumeTableTextBytes_extends charge).andThen ?_
  split at rest <;> rw [Except.ok.injEq] at rest <;> subst rest
  · exact .of_same rfl rfl rfl rfl rfl rfl
  · refine .of_same rfl rfl rfl rfl rfl (sum_map_modify_of_same _ (fun table => ?_) _ _)
    rfl

theorem startField_extends (run : startField options state element = .ok state') :
    Extends 0 state state' := by
  simp only [startField, bind_eq_ok, pure, Except.pure, Except.ok.injEq] at run
  obtain ⟨_, -, _, -, _, -, charged, charge, rfl⟩ := run
  exact (consumeTableTextBytes_extends charge).andThen (.of_same rfl rfl rfl rfl rfl rfl)

theorem startRow_extends (run : startRow options state element = .ok state') :
    Extends 0 state state' := by
  simp only [startRow, bind_eq_ok, pure, Except.pure, Except.ok.injEq] at run
  obtain ⟨_, -, _, -, rfl⟩ := run
  refine .of_same rfl rfl rfl rfl rfl (sum_map_modify_of_same _ (fun table => ?_) _ _)
  simp only [tableRanges, sum_map_append_one]
  exact add_zero _

theorem cellBlock_range {block : BlockLocation} {form : ValueForm}
    (run : cellBlock element = .ok (block, form)) : attachedRange block = ownRange element := by
  unfold cellBlock at run
  unfold ownRange
  cases found : element.attr "location" with
  | none =>
      simp only [found, Except.ok.injEq, Prod.mk.injEq] at run
      rw [← run.1, attachedRange_empty]
  | some location =>
      simp only [found, bind_eq_ok, pure, Except.pure, Except.ok.injEq, Prod.mk.injEq] at run
      obtain ⟨_, -, _, -, rfl, -⟩ := run
      rfl

theorem startCell_extends (run : startCell options state element = .ok state') :
    Extends (ownRange element) state state' := by
  simp only [startCell, bind_eq_ok, pure, Except.pure, Except.ok.injEq] at run
  obtain ⟨_, -, _, -, _, -, _, -, _, -, first, charge, ⟨block, form⟩, located, _, -, second,
    charge₂, third, charge₃, fourth, charge₄, fifth, charge₅, _, -, _, -, _, -, rfl⟩ := run
  have charged : Extends 0 state fifth :=
    (consumeTableTextBytes_extends charge).andThen <|
      (consumeTableTextBytes_extends charge₂).andThen <|
      (consumeTableTextBytes_extends charge₃).andThen <|
      (consumeTableTextBytes_extends charge₄).andThen (consumeTableTextBytes_extends charge₅)
  refine charged.after ⟨rfl, ?_, id⟩
  rw [← cellBlock_range located]
  simp only [XmlBuilder.declared, declaredRanges, add_assoc]
  refine add_le_add_right (add_le_add_right (add_le_add_right (add_le_add_right ?_ _) _) _) _
  refine sum_map_modify_le _ (fun table => sum_map_modify_le _ (fun row => ?_) _ _) _ _
  simp only [rowRanges, attachedRanges, sum_map_append_one, le_refl]

/-! ### ICC profiles and ancillary metadata -/

theorem startIccProfile_extends (run : startIccProfile options state element = .ok state') :
    Extends (ownRange element) state state' := by
  simp only [startIccProfile, bind_eq_ok, pure, Except.pure, orFail_eq_ok] at run
  obtain ⟨_, -, _, -, location, found, _, -, _, -, _, -, _, -, rest⟩ := run
  have own : ownRange element = attachedRange (parseLocation location) := by
    simp only [ownRange, found]
  rw [own]
  split at rest <;> rw [Except.ok.injEq] at rest <;> subst rest
  all_goals
    refine ⟨rfl, ?_, id⟩
    simp only [XmlBuilder.declared, declaredRanges, attachedRanges, beginEncoding,
      sum_map_append_one]
    exact le_of_eq (by abel)

theorem startAncillary_extends {kind : AncillaryKind}
    (run : startAncillary options platform state kind element = .ok state') :
    Extends 0 state state' := by
  simp only [startAncillary, bind_eq_ok, pure, Except.pure, Except.ok.injEq] at run
  obtain ⟨_, -, _, -, _, -, _, -, _, -, charged, charge, _, -, rfl⟩ := run
  exact (consumeAncillaryBytes_extends charge).andThen (.of_same rfl rfl rfl rfl rfl rfl)

/-! ### Images and thumbnails -/

/-- The axes `parse_geometry` accepts are there. -/
theorem parseAxes_ne_zero {seen : Nat} {tokens : List Text} {axes : List Nat}
    (run : parseAxes seen tokens = .ok axes) : ∀ extent ∈ axes, extent ≠ 0 := by
  induction tokens generalizing seen axes with
  | nil =>
      simp only [parseAxes, Except.ok.injEq] at run
      simp [← run]
  | cons token rest ih =>
      unfold parseAxes at run
      split at run
      · split at run
        · cases run
        · cases tail : parseAxes (seen + 1) rest with
          | error e => simp [tail, Except.map] at run
          | ok later =>
              simp only [tail, Except.map, Except.ok.injEq] at run
              simp only [← run, List.forall_mem_cons]
              exact ⟨Nat.succ_ne_zero _, ih tail⟩
      · cases run

theorem parseGeometry_ne_zero {geometry : Text} {axes : List Nat}
    (run : parseGeometry geometry = .ok axes) : ∀ extent ∈ axes, extent ≠ 0 := by
  unfold parseGeometry at run
  split at run
  · cases run
  · rename_i parsed accepted
    split at run
    · cases run
    · rw [Except.ok.injEq] at run
      exact run ▸ parseAxes_ne_zero accepted

theorem thumbnailGeometry_ne_zero {geometry : Text} {width height channels : Nat}
    (run : thumbnailGeometry options element geometry = .ok (width, height, channels)) :
    ∀ extent ∈ [width, height, channels], extent ≠ 0 := by
  unfold thumbnailGeometry at run
  split at run
  · rename_i accepted
    simp only [bind_eq_ok, pure, Except.pure, Except.ok.injEq, Prod.mk.injEq] at run
    obtain ⟨_, -, rfl, rfl, rfl⟩ := run
    exact parseGeometry_ne_zero accepted
  · cases run

theorem startThumbnail_extends (run : startThumbnail options state element = .ok state') :
    Extends (ownRange element) state state' := by
  simp only [startThumbnail, bind_eq_ok, pure, Except.pure, orFail_eq_ok, Except.ok.injEq] at run
  obtain ⟨_, -, _, -, geometry, -, format, -, location, found, _, -, ⟨width, height, channels⟩,
    parsed, _, -, _, -, _, -, _, -, _, -, _, -, _, -, rfl⟩ := run
  have own : ownRange element = attachedRange (parseLocation location) := by
    simp only [ownRange, found]
  rw [own]
  refine ⟨rfl, ?_, ?_⟩
  · simp only [XmlBuilder.declared, declaredRanges, attachedRanges, sum_map_append_one]
    exact le_of_eq (by abel)
  · rintro ⟨images, thumbnails⟩
    refine ⟨images, ?_⟩
    simp only [List.forall_mem_append, List.forall_mem_singleton]
    exact ⟨thumbnails, thumbnailGeometry_ne_zero parsed⟩

theorem atAttribute_eq_ok {α : Type} {name : String} {result : Result α} {value : α} :
    atAttribute element name result = .ok value ↔ result = .ok value := by
  cases result <;> simp [atAttribute, fail]

theorem startImage_extends (run : startImage options platform state element = .ok state') :
    Extends (ownRange element) state state' := by
  simp only [startImage, bind_eq_ok, pure, Except.pure, orFail_eq_ok, atAttribute_eq_ok,
    Except.ok.injEq] at run
  obtain ⟨_, -, _, -, geometry, -, format, -, location, found, axes, parsed, _, -, _, -, _, -,
    _, -, _, -, _, -, _, -, _, -, _, -, _, -, _, -, _, -, rfl⟩ := run
  have own : ownRange element = attachedRange (parseLocation location) := by
    simp only [ownRange, found]
  rw [own]
  refine ⟨rfl, ?_, ?_⟩
  · simp only [XmlBuilder.declared, declaredRanges, attachedRanges, sum_map_append_one]
    exact le_of_eq (by abel)
  · rintro ⟨images, thumbnails⟩
    refine ⟨?_, thumbnails⟩
    simp only [List.forall_mem_append, List.forall_mem_singleton]
    exact ⟨images, parseGeometry_ne_zero parsed⟩

theorem startData_extends (run : startData state element = .ok state') :
    Extends 0 state state' := by
  simp only [startData, bind_eq_ok, pure, Except.pure, Except.ok.injEq] at run
  obtain ⟨_, -, _, -, _, -, _, -, rfl⟩ := run
  refine .andThen ?_ (beginEncoding_extends _ _)
  split
  · refine ⟨rfl, ?_, ?_⟩
    · simp only [XmlBuilder.declared, declaredRanges, attachedRanges, add_zero]
      rw [sum_map_modify_of_same]
      intro image
      rfl
    · rintro ⟨images, thumbnails⟩
      refine ⟨fun image member => ?_, thumbnails⟩
      obtain same | ⟨before, there, rfl⟩ := mem_modify member
      · exact images image same
      · exact images before there
  · refine ⟨rfl, ?_, ?_⟩
    · simp only [XmlBuilder.declared, declaredRanges, attachedRanges, add_zero]
      rw [sum_map_modify_of_same (fun thumbnail : ThumbnailInfo =>
        attachedRange thumbnail.image.block)]
      intro thumbnail
      rfl
    · rintro ⟨images, thumbnails⟩
      refine ⟨images, fun thumbnail member => ?_⟩
      obtain same | ⟨before, there, rfl⟩ := mem_modify member
      · exact thumbnails thumbnail same
      · exact thumbnails before there

/-! ### Metadata -/

theorem startMetadata_extends (run : startMetadata state element = .ok state') :
    Extends 0 state state' := by
  simp only [startMetadata, bind_eq_ok, pure, Except.pure, Except.ok.injEq] at run
  obtain ⟨_, -, rfl⟩ := run
  exact .of_same rfl rfl rfl rfl rfl rfl

theorem checkUnitProperty_extends {identity type : Text}
    (run : checkUnitProperty state element identity type = .ok state') :
    Extends 0 state state' := by
  simp only [checkUnitProperty, bind_eq_ok, pure, Except.pure] at run
  obtain ⟨_, -, rest⟩ := run
  split at rest
  · simp only [bind_eq_ok, Except.ok.injEq] at rest
    obtain ⟨_, -, rfl⟩ := rest
    exact .of_same rfl rfl rfl rfl rfl rfl
  · split at rest
    · simp only [bind_eq_ok, Except.ok.injEq] at rest
      obtain ⟨_, -, rfl⟩ := rest
      exact .of_same rfl rfl rfl rfl rfl rfl
    · rw [Except.ok.injEq] at rest
      exact rest ▸ .refl state

theorem checkMetadata_extends {identity : Text}
    (run : checkMetadata options state element identity = .ok state') :
    Extends 0 state state' := by
  simp only [checkMetadata, bind_eq_ok, pure, Except.pure] at run
  obtain ⟨_, -, _, -, _, -, _, -, _, -, rest⟩ := run
  split at rest
  · exact checkUnitProperty_extends rest
  · rw [Except.ok.injEq] at rest
    exact rest ▸ .refl state

theorem metadataBlock_range {isProperty : Bool} {location : Option Text} {block : BlockLocation}
    {form : ValueForm} (own : location = none ∨ location = element.attr "location")
    (run : metadataBlock element isProperty location = .ok (block, form)) :
    attachedRange block ≤ ownRange element := by
  unfold metadataBlock at run
  cases location with
  | none =>
      simp only [Except.ok.injEq, Prod.mk.injEq] at run
      rw [← run.1, attachedRange_empty]
      exact Multiset.zero_le _
  | some location =>
      have found : element.attr "location" = some location := by
        rcases own with none_ | same
        · cases none_
        · exact same.symm
      simp only [bind_eq_ok, pure, Except.pure, Except.ok.injEq, Prod.mk.injEq] at run
      obtain ⟨_, -, rfl, -⟩ := run
      simp only [ownRange, found, le_refl]

theorem openMetadataText_extends {index : Nat} {entry : MetadataEntry} {location : Option Text}
    (run : openMetadataText state element index entry location = .ok state') :
    Extends 0 state state' := by
  unfold openMetadataText at run
  split at run
  · rw [Except.ok.injEq] at run
    subst run
    exact .of_same rfl rfl rfl rfl rfl rfl
  · split at run
    · simp only [bind_eq_ok, pure, Except.pure, Except.ok.injEq] at run
      obtain ⟨_, -, rfl⟩ := run
      exact .of_same rfl rfl rfl rfl rfl rfl
    · rw [Except.ok.injEq] at run
      exact run ▸ .refl state

theorem startMetadataEntry_extends (run : startMetadataEntry options state element = .ok state') :
    Extends (ownRange element) state state' := by
  simp only [startMetadataEntry, metadataEntry, bind_eq_ok, pure, Except.pure,
    Except.ok.injEq] at run
  obtain ⟨_, -, _, -, checked, check, entry, ⟨order, -, ⟨block, form⟩, located, built⟩,
    _, -, events,
    -, text⟩ := run
  obtain ⟨_, -, _, -, _, -, rfl⟩ := built
  refine (checkMetadata_extends check).after (.andThen ?_ (openMetadataText_extends text))
  have own : attachedRange block ≤ ownRange element := by
    refine metadataBlock_range ?_ located
    by_cases isProperty : element.name = lit "Property" <;> simp [isProperty]
  refine .mono own ⟨rfl, ?_, id⟩
  simp only [XmlBuilder.declared, declaredRanges, attachedRanges, sum_map_append_one]
  exact le_of_eq (by abel)

/-! ### The common part of every element -/

theorem recordIdentity_extends (run : recordIdentity options state element = .ok state') :
    Extends 0 state state' := by
  unfold recordIdentity at run
  split at run
  · split at run
    · simp only [recordReference, bind_eq_ok] at run
      obtain ⟨_, -, named, table, binding⟩ := run
      refine @Extends.after _ _ named _ ?_ ?_
      · unfold recordTableReference at table
        split at table
        · simp only [bind_eq_ok, pure, Except.pure, Except.ok.injEq] at table
          obtain ⟨_, -, _, -, rfl⟩ := table
          exact .of_same rfl rfl rfl rfl rfl rfl
        · rw [Except.ok.injEq] at table
          subst table
          exact .of_same rfl rfl rfl rfl rfl rfl
      · unfold recordReferenceBinding at binding
        split at binding
        · simp only [bind_eq_ok, pure, Except.pure, Except.ok.injEq] at binding
          obtain ⟨_, -, rfl⟩ := binding
          exact .of_same rfl rfl rfl rfl rfl rfl
        · rw [Except.ok.injEq] at binding
          exact binding ▸ .refl named
    · split at run
      · rw [Except.ok.injEq] at run
        exact run ▸ .refl state
      · simp only [bind_eq_ok, pure, Except.pure, Except.ok.injEq] at run
        obtain ⟨_, -, _, -, rfl⟩ := run
        exact .of_same rfl rfl rfl rfl rfl rfl
  · rw [Except.ok.injEq] at run
    exact run ▸ .refl state

theorem recordExtension_extends {index : Option Nat}
    (run : recordExtension options state element = .ok (state', index)) :
    Extends 0 state state' := by
  unfold recordExtension at run
  split at run
  · simp only [bind_eq_ok, pure, Except.pure, Except.ok.injEq, Prod.mk.injEq] at run
    obtain ⟨_, -, _, -, _, -, _, -, charged, charge, rfl, -⟩ := run
    exact (consumeExtensionBytes_extends charge).andThen (.of_same rfl rfl rfl rfl rfl rfl)
  · rw [Except.ok.injEq, Prod.mk.injEq] at run
    exact run.1 ▸ .refl state

/-- The element's own range is noted, and nothing else changes. -/
theorem recordAttachedRange_eq (run : recordAttachedRange state element = .ok state') :
    ∃ ranges, state' = { state with attachedRanges := ranges } ∧
      (ranges : Multiset AttachedRange) = (state.attachedRanges : Multiset AttachedRange) +
        ownRange element := by
  unfold recordAttachedRange at run
  unfold ownRange
  cases found : element.attr "location" with
  | none =>
      simp only [found, Except.ok.injEq] at run
      exact ⟨state.attachedRanges, run.symm, (add_zero _).symm⟩
  | some location =>
      simp only [found] at run
      split at run
      · rename_i other
        rw [Except.ok.injEq] at run
        refine ⟨state.attachedRanges, run.symm, ?_⟩
        have notAttached : (parseLocation location).kind ≠ .attachment := by
          unfold parseLocation
          rw [if_neg (by simp [other])]
          split
          · simp
          · split
            · simp
            · split <;> simp
        simp only [attachedRange, if_neg notAttached, add_zero]
      · split at run
        · rename_i attached
          rw [Except.ok.injEq] at run
          refine ⟨_, run.symm, ?_⟩
          simp only [attachedRange, if_pos attached]
          rfl
        · rename_i notAttached
          split at run
          · cases run
          · rw [Except.ok.injEq] at run
            refine ⟨state.attachedRanges, run.symm, ?_⟩
            simp only [attachedRange, if_neg notAttached, add_zero]

theorem startRoot_extends (run : startRoot state element = .ok state') :
    Extends 0 state state' := by
  unfold startRoot at run
  obtain ⟨_, -, next⟩ := bind_eq_ok.mp run
  obtain ⟨_, -, rest⟩ := bind_eq_ok.mp next
  injection rest with same
  subst same
  exact .of_same rfl rfl rfl rfl rfl rfl

theorem openElement_extends (run : openElement options platform state element = .ok state') :
    Extends (ownRange element) state state' := by
  have nothing {second : XmlBuilder} (holds : Extends 0 state second) :
      Extends (ownRange element) state second := holds.mono (Multiset.zero_le _)
  have unchanged {second : XmlBuilder} (same : (.ok state : Result XmlBuilder) = .ok second) :
      Extends (ownRange element) state second := by
    cases same
    exact nothing (.refl state)
  unfold openElement at run
  obtain ⟨-, run⟩ | ⟨-, run⟩ := ite_eq_ok run
  · exact unchanged run
  obtain ⟨-, run⟩ | ⟨-, run⟩ := ite_eq_ok run
  · exact nothing (startTable_extends run)
  obtain ⟨-, run⟩ | ⟨-, run⟩ := ite_eq_ok run
  · exact nothing (startStructure_extends run)
  obtain ⟨-, run⟩ | ⟨-, run⟩ := ite_eq_ok run
  · exact nothing (startField_extends run)
  obtain ⟨-, run⟩ | ⟨-, run⟩ := ite_eq_ok run
  · exact nothing (startRow_extends run)
  obtain ⟨-, run⟩ | ⟨-, run⟩ := ite_eq_ok run
  · exact startCell_extends run
  obtain ⟨-, run⟩ | ⟨-, run⟩ := ite_eq_ok run
  · exact startIccProfile_extends run
  cases kind : ancillaryKind element.name with
  | some kind =>
      rw [kind] at run
      exact nothing (startAncillary_extends run)
  | none =>
      rw [kind] at run
      obtain ⟨-, run⟩ | ⟨-, run⟩ := ite_eq_ok run
      · exact startThumbnail_extends run
      obtain ⟨-, run⟩ | ⟨-, run⟩ := ite_eq_ok run
      · exact nothing (startData_extends run)
      obtain ⟨-, run⟩ | ⟨-, run⟩ := ite_eq_ok run
      · exact startImage_extends run
      obtain ⟨-, run⟩ | ⟨-, run⟩ := ite_eq_ok run
      · exact nothing (startMetadata_extends run)
      obtain ⟨-, run⟩ | ⟨-, run⟩ := ite_eq_ok run
      · exact startMetadataEntry_extends run
      · exact unchanged run

end

/-! ## All handlers -/

/-- The attached range that an event declares, whatever element it is. -/
def eventRange : XmlEvent → Multiset AttachedRange
  | .startElement name attributes =>
      ownRange ⟨localName name, namespaceName name, [], attributes⟩
  | _ => 0

/-- The inventory is `seen`, the descriptors declare only ranges of it, each as
often as it is there, and every image has its axes. -/
structure Inventoried (seen : Multiset AttachedRange) (state : XmlBuilder) : Prop where
  inventory : (state.attachedRanges : Multiset AttachedRange) = seen
  declared : state.declared ≤ seen
  axes : state.AxesPresent

section

variable {options : ReaderOptions} {platform : Platform} {state state' : XmlBuilder}
  {seen : Multiset AttachedRange}

theorem Inventoried.of_extends (holds : Inventoried seen state) (step : Extends 0 state state') :
    Inventoried seen state' where
  inventory := by rw [step.inventory, holds.inventory]
  declared := (add_zero state.declared ▸ step.declared).trans holds.declared
  axes := step.axes holds.axes

theorem Inventoried.startElement {name : Text} {attributes : List (Text × Text)}
    (holds : Inventoried seen state)
    (run : startElement options platform state name attributes = .ok state') :
    Inventoried (seen + eventRange (.startElement name attributes)) state' := by
  simp only [Reader.startElement, enterElement, bind_eq_ok, pure, Except.pure,
    Except.ok.injEq] at run
  obtain ⟨entered, ⟨_, -, _, -, _, -, rfl⟩, ⟨extended, index⟩, extension, noted, note, _, -, _, -,
    rest⟩ := run
  have before : Extends 0 state extended := by
    refine .after ?_ (recordExtension_extends extension)
    exact .of_same rfl rfl rfl rfl rfl rfl
  obtain ⟨inventory, known, axes⟩ := holds.of_extends before
  obtain ⟨ranges, rfl, total⟩ := recordAttachedRange_eq note
  have noted : (ranges : Multiset AttachedRange) =
      seen + eventRange (.startElement name attributes) := by
    rw [total, ← inventory]
    rfl
  -- The branch of the element may declare what was just noted, and no more.
  have finish : ∀ {second : XmlBuilder} {element : ElementContext},
      Extends (ownRange element)
        { pushElement extended element index with attachedRanges := ranges }
        second →
      ownRange element = eventRange (.startElement name attributes) →
      Inventoried (seen + eventRange (.startElement name attributes)) second := by
    intro second element step own
    refine ⟨?_, ?_, step.axes axes⟩
    · rw [step.inventory]
      exact noted
    · calc second.declared ≤ extended.declared + ownRange element := step.declared
        _ ≤ seen + eventRange (.startElement name attributes) := by
            rw [own]
            exact add_le_add_left known _
  split at rest
  · exact finish ((startRoot_extends rest).mono (Multiset.zero_le _)) rfl
  · simp only [bind_eq_ok] at rest
    obtain ⟨identified, identity, opened⟩ := rest
    exact finish ((recordIdentity_extends identity).after (openElement_extends opened)) rfl

/-! ### Closing elements and text -/

theorem closeElement_extends {isXisf : Bool} {name : Text}
    (run : closeElement state isXisf name = .ok state') : Extends 0 state state' := by
  unfold closeElement at run
  obtain ⟨-, run⟩ | ⟨-, run⟩ := ite_eq_ok run
  · rw [Except.ok.injEq] at run
    exact run ▸ .refl state
  obtain ⟨-, run⟩ | ⟨-, run⟩ := ite_eq_ok run
  · simp only [endData, bind_eq_ok, pure, Except.pure, Except.ok.injEq] at run
    obtain ⟨_, -, _, -, rfl⟩ := run
    exact .of_same rfl rfl rfl rfl rfl rfl
  obtain ⟨-, run⟩ | ⟨-, run⟩ := ite_eq_ok run
  · unfold endIccProfile at run
    split at run
    · simp only [bind_eq_ok, pure, Except.pure, Except.ok.injEq] at run
      obtain ⟨_, -, rfl⟩ := run
      exact .of_same rfl rfl rfl rfl rfl rfl
    · rw [Except.ok.injEq] at run
      exact run ▸ .refl state
  obtain ⟨-, run⟩ | ⟨-, run⟩ := ite_eq_ok run
  · unfold endProperty at run
    split at run
    · simp only [bind_eq_ok, pure, Except.pure, Except.ok.injEq] at run
      obtain ⟨_, -, rfl⟩ := run
      exact .of_same rfl rfl rfl rfl rfl rfl
    · rw [Except.ok.injEq] at run
      subst run
      exact .of_same rfl rfl rfl rfl rfl rfl
  obtain ⟨-, run⟩ | ⟨-, run⟩ := ite_eq_ok run
  · simp only [endCell, bind_eq_ok, pure, Except.pure, Except.ok.injEq] at run
    obtain ⟨_, -, rfl⟩ := run
    exact .of_same rfl rfl rfl rfl rfl rfl
  obtain ⟨-, run⟩ | ⟨-, run⟩ := ite_eq_ok run
  · simp only [endRow, bind_eq_ok, pure, Except.pure, Except.ok.injEq] at run
    obtain ⟨_, -, _, -, rfl⟩ := run
    exact .of_same rfl rfl rfl rfl rfl rfl
  obtain ⟨-, run⟩ | ⟨-, run⟩ := ite_eq_ok run
  · simp only [endStructure, bind_eq_ok, pure, Except.pure, Except.ok.injEq] at run
    obtain ⟨_, -, _, -, rfl⟩ := run
    exact .of_same rfl rfl rfl rfl rfl rfl
  obtain ⟨-, run⟩ | ⟨-, run⟩ := ite_eq_ok run
  · simp only [endTable, bind_eq_ok, pure, Except.pure, Except.ok.injEq] at run
    obtain ⟨_, -, rfl⟩ := run
    exact .of_same rfl rfl rfl rfl rfl rfl
  obtain ⟨-, run⟩ | ⟨-, run⟩ := ite_eq_ok run
  · simp only [endThumbnail, bind_eq_ok, pure, Except.pure, Except.ok.injEq] at run
    obtain ⟨_, -, _, -, rfl⟩ := run
    exact .of_same rfl rfl rfl rfl rfl rfl
  obtain ⟨-, run⟩ | ⟨-, run⟩ := ite_eq_ok run
  · unfold endImage at run
    split at run
    · rw [Except.ok.injEq] at run
      exact run ▸ .refl state
    · simp only [bind_eq_ok, pure, Except.pure, Except.ok.injEq] at run
      obtain ⟨_, -, rfl⟩ := run
      exact .of_same rfl rfl rfl rfl rfl rfl
  · rw [Except.ok.injEq] at run
    exact run ▸ .refl state

theorem endElement_extends {name : Text} (run : endElement state name = .ok state') :
    Extends 0 state state' := by
  simp only [endElement, bind_eq_ok, pure, Except.pure, Except.ok.injEq] at run
  obtain ⟨closed, close, rfl⟩ := run
  exact (closeElement_extends close).andThen (.of_same rfl rfl rfl rfl rfl rfl)

theorem appendInlineByte_extends {value : Nat}
    (run : appendInlineByte options state value = .ok state') : Extends 0 state state' := by
  unfold appendInlineByte at run
  split at run
  all_goals
    simp only [bind_eq_ok, pure, Except.pure, Except.ok.injEq] at run
    obtain ⟨_, -, rfl⟩ := run
    exact .of_same rfl rfl rfl rfl rfl rfl

theorem decodeHexCharacter_extends {c : Byte}
    (run : decodeHexCharacter options state c = .ok state') : Extends 0 state state' := by
  simp only [decodeHexCharacter, bind_eq_ok, pure, Except.pure] at run
  obtain ⟨nibble, -, rest⟩ := run
  split at rest
  · rw [Except.ok.injEq] at rest
    subst rest
    exact .of_same rfl rfl rfl rfl rfl rfl
  · simp only [bind_eq_ok, Except.ok.injEq] at rest
    obtain ⟨appended, append, rfl⟩ := rest
    exact (appendInlineByte_extends append).andThen (.of_same rfl rfl rfl rfl rfl rfl)

theorem decodeBase64Quartet_extends {q0 q1 q2 q3 : Nat}
    (run : decodeBase64Quartet options state q0 q1 q2 q3 = .ok state') :
    Extends 0 state state' := by
  simp only [decodeBase64Quartet, bind_eq_ok, pure, Except.pure] at run
  obtain ⟨_, -, one, first, rest⟩ := run
  refine (appendInlineByte_extends first).after ?_
  split at rest
  · simp only [bind_eq_ok, Except.ok.injEq] at rest
    obtain ⟨_, -, rfl⟩ := rest
    exact .of_same rfl rfl rfl rfl rfl rfl
  · simp only [bind_eq_ok] at rest
    obtain ⟨two, second, rest⟩ := rest
    refine (appendInlineByte_extends second).after ?_
    split at rest
    · simp only [bind_eq_ok, Except.ok.injEq] at rest
      obtain ⟨_, -, rfl⟩ := rest
      exact .of_same rfl rfl rfl rfl rfl rfl
    · exact appendInlineByte_extends rest

theorem decodeBase64Character_extends {c : Byte}
    (run : decodeBase64Character options state c = .ok state') : Extends 0 state state' := by
  simp only [decodeBase64Character, bind_eq_ok, pure, Except.pure] at run
  obtain ⟨_, -, value, -, rest⟩ := run
  split at rest
  · simp only [bind_eq_ok, Except.ok.injEq] at rest
    obtain ⟨decoded, quartet, rfl⟩ := rest
    exact (decodeBase64Quartet_extends quartet).andThen (.of_same rfl rfl rfl rfl rfl rfl)
  · rw [Except.ok.injEq] at rest
    subst rest
    exact .of_same rfl rfl rfl rfl rfl rfl

theorem decodeEmbeddedText_extends {text : Text}
    (run : decodeEmbeddedText options state text = .ok state') : Extends 0 state state' := by
  induction text generalizing state with
  | nil =>
      simp only [decodeEmbeddedText, Except.ok.injEq] at run
      exact run ▸ .refl state
  | cons c rest ih =>
      unfold decodeEmbeddedText at run
      split at run
      · exact ih run
      · simp only [bind_eq_ok] at run
        obtain ⟨_, -, decoded, character, later⟩ := run
        refine .after ?_ (ih later)
        split at character
        · refine .after ?_ (decodeHexCharacter_extends character)
          exact .of_same rfl rfl rfl rfl rfl rfl
        · refine .after ?_ (decodeBase64Character_extends character)
          exact .of_same rfl rfl rfl rfl rfl rfl

theorem cellText_extends {place : Nat × Nat × Nat} {text : Text}
    (run : cellText options state place text = .ok state') : Extends 0 state state' := by
  obtain ⟨table, row, cell⟩ := place
  simp only [cellText] at run
  split at run
  · simp only [bind_eq_ok, pure, Except.pure, Except.ok.injEq] at run
    obtain ⟨charged, charge, rfl⟩ := run
    refine (consumeTableTextBytes_extends charge).andThen (.of_same rfl rfl rfl rfl rfl ?_)
    refine sum_map_modify_of_same _ (fun table => ?_) _ _
    refine sum_map_modify_of_same _ (fun row => ?_) _ _
    refine sum_map_modify_of_same _ (fun cell => ?_) _ _
    rfl
  · simp only [bind_eq_ok, pure, Except.pure, Except.ok.injEq] at run
    obtain ⟨_, -, rfl⟩ := run
    exact .refl state

theorem strayText_same {text : Text} (run : strayText state text = .ok state') :
    state' = state := by
  simp only [strayText] at run
  obtain ⟨-, run⟩ | ⟨-, run⟩ := ite_eq_ok run
  · cases run
  obtain ⟨-, run⟩ | ⟨-, run⟩ := ite_eq_ok run
  · cases run
  obtain ⟨-, run⟩ | ⟨-, run⟩ := ite_eq_ok run
  · cases run
  obtain ⟨-, run⟩ | ⟨-, run⟩ := ite_eq_ok run
  · cases run
  · rw [Except.ok.injEq] at run
    exact run.symm

theorem characterData_extends {text : Text}
    (run : characterData options state text = .ok state') : Extends 0 state state' := by
  unfold characterData at run
  split at run
  · rw [Except.ok.injEq] at run
    exact run ▸ .refl state
  split at run
  · exact decodeEmbeddedText_extends run
  split at run
  · exact cellText_extends run
  split at run
  · simp only [extensionText, bind_eq_ok, pure, Except.pure, Except.ok.injEq] at run
    obtain ⟨charged, charge, rfl⟩ := run
    exact (consumeExtensionBytes_extends charge).andThen (.of_same rfl rfl rfl rfl rfl rfl)
  · simp only [bind_eq_ok] at run
    obtain ⟨_, -, _, -, rest⟩ := run
    split at rest
    · exact strayText_same rest ▸ .refl state
    · simp only [propertyText, bind_eq_ok, pure, Except.pure, Except.ok.injEq] at rest
      obtain ⟨_, -, rfl⟩ := rest
      refine ⟨rfl, ?_, id⟩
      simp only [XmlBuilder.declared, declaredRanges, attachedRanges, add_zero]
      rw [sum_map_modify_of_same (fun entry : MetadataEntry => attachedRange entry.block)]
      intro entry
      rfl

theorem xmlDeclaration_extends {version encoding : Option Text} {standalone : Int}
    (run : xmlDeclaration state version encoding standalone = .ok state') :
    Extends 0 state state' := by
  simp only [xmlDeclaration, bind_eq_ok, pure, Except.pure, Except.ok.injEq] at run
  obtain ⟨_, -, _, -, _, -, rfl⟩ := run
  exact .of_same rfl rfl rfl rfl rfl rfl

/-! ### Runs -/

theorem Inventoried.handleEvent {event : XmlEvent} (holds : Inventoried seen state)
    (run : handleEvent options platform state event = .ok state') :
    Inventoried (seen + eventRange event) state' := by
  cases event with
  | startElement name attributes => exact holds.startElement run
  | doctype => cases run
  | declaration version encoding standalone =>
      exact (add_zero seen).symm ▸ holds.of_extends (xmlDeclaration_extends run)
  | endElement name => exact (add_zero seen).symm ▸ holds.of_extends (endElement_extends run)
  | characterData text => exact (add_zero seen).symm ▸ holds.of_extends (characterData_extends run)

theorem Inventoried.handleEvents {events : List XmlEvent} (holds : Inventoried seen state)
    (run : handleEvents options platform state events = .ok state') :
    Inventoried (seen + (events.map eventRange).sum) state' := by
  induction events generalizing state seen with
  | nil =>
      simp only [Reader.handleEvents, Except.ok.injEq] at run
      rw [List.map_nil, List.sum_nil, add_zero, ← run]
      exact holds
  | cons event rest ih =>
      simp only [Reader.handleEvents, bind_eq_ok] at run
      obtain ⟨next, step, later⟩ := run
      rw [List.map_cons, List.sum_cons, ← add_assoc]
      exact ih (holds.handleEvent step) later

/-- The attached ranges that the elements of a header text declare, those of
extensions and unknown elements included. -/
def headerRanges (platform : Platform) (xml : Text) : Multiset AttachedRange :=
  ((platform.parseXml (xmlChunks xml.length xml)).events.map eventRange).sum

/-- Whatever the header text, its ranges are the inventory and its descriptors
are in it. -/
theorem inventoried_of_parse {xml : Text}
    (run : parseXmlHeader options platform xml = .ok state) :
    Inventoried (headerRanges platform xml) state := by
  simp only [parseXmlHeader, bind_eq_ok, pure, Except.pure] at run
  obtain ⟨_, -, parsed, events, rest⟩ := run
  have start : Inventoried 0 {} := ⟨rfl, Multiset.zero_le _, by simp [XmlBuilder.AxesPresent]⟩
  split at rest
  · cases rest
  · rw [Except.ok.injEq] at rest
    rw [headerRanges, ← zero_add (List.sum _)]
    exact rest ▸ start.handleEvents events

end

/-! ## The document -/

/-- `left` ends before `right` starts. -/
def AttachedRange.Before (left right : AttachedRange) : Prop :=
  left.offset + left.size ≤ right.offset

/-- A range is nonempty and lies in the payload. -/
structure AttachedRange.InPayload (headerEnd fileSize : Nat) (range : AttachedRange) : Prop where
  nonempty : range.size ≠ 0
  start : headerEnd ≤ range.offset
  stop : range.offset + range.size ≤ fileSize

/-- The ranges, in this order, follow one another in the payload. -/
structure PayloadOrder (headerEnd fileSize : Nat) (ranges : List AttachedRange) : Prop where
  inside : ∀ range ∈ ranges, range.InPayload headerEnd fileSize
  ordered : ranges.Pairwise AttachedRange.Before

/-- The attached ranges that the descriptors of a document declare. -/
def documentRanges (document : Document) : Multiset AttachedRange :=
  declaredRanges document.images document.metadata document.iccProfiles document.thumbnails
    document.tables

/-- The block locations of images, metadata, ICC profiles, thumbnails and table
cells. -/
def documentBlocks (document : Document) : List BlockLocation :=
  document.images.map ImageInfo.block ++ document.metadata.map MetadataEntry.block ++
    document.iccProfiles.map IccProfileInfo.block ++
    document.thumbnails.map (fun thumbnail => thumbnail.image.block) ++
    document.tables.flatMap fun table => table.rows.flatMap fun row =>
      row.cells.map TableCellInfo.block

theorem sum_attachedRange_flatMap {α : Type} (blocks : α → List BlockLocation) (xs : List α) :
    ((xs.flatMap blocks).map attachedRange).sum =
      (xs.map fun x => ((blocks x).map attachedRange).sum).sum := by
  induction xs with
  | nil => rfl
  | cons x xs ih =>
      rw [List.flatMap_cons, List.map_append, List.sum_append, ih, List.map_cons, List.sum_cons]

/-- The ranges of a document are those of its blocks. -/
theorem documentRanges_eq (document : Document) :
    documentRanges document = ((documentBlocks document).map attachedRange).sum := by
  simp only [documentRanges, documentBlocks, declaredRanges, attachedRanges,
    List.map_append, List.sum_append, sum_attachedRange_flatMap, List.map_map, Function.comp_def]
  rfl

theorem mem_documentRanges {document : Document} {block : BlockLocation}
    (member : block ∈ documentBlocks document) (attached : block.kind = .attachment) :
    ⟨block.offset, block.size⟩ ∈ documentRanges document := by
  rw [documentRanges_eq]
  revert member
  induction documentBlocks document with
  | nil => intro member; cases member
  | cons first rest ih =>
      intro member
      rw [List.map_cons, List.sum_cons, Multiset.mem_add]
      rcases List.mem_cons.mp member with rfl | later
      · left
        simp [attachedRange, attached]
      · exact .inr (ih later)

/-- What the header checks establish of a document. -/
structure WellFormed (document : Document) : Prop where
  fileSize : document.fileSize ≤ u64Max
  imageAxes : ∀ image ∈ document.images, HasAxes image
  thumbnailAxes : ∀ thumbnail ∈ document.thumbnails, HasAxes thumbnail.image
  ranges : ∃ order : List AttachedRange,
    PayloadOrder (16 + document.headerLength) document.fileSize order ∧
      documentRanges document ≤ (order : Multiset AttachedRange)

/-- Every attached block of a document is in its payload. -/
theorem WellFormed.block_inPayload {document : Document} (wellFormed : WellFormed document)
    {block : BlockLocation} (member : block ∈ documentBlocks document)
    (attached : block.kind = .attachment) :
    AttachedRange.InPayload (16 + document.headerLength) document.fileSize
      ⟨block.offset, block.size⟩ := by
  obtain ⟨order, payload, covered⟩ := wellFormed.ranges
  have there := Multiset.mem_of_le covered (mem_documentRanges member attached)
  exact payload.inside _ (Multiset.mem_coe.mp there)

theorem payloadOrder_of_checkRanges {headerEnd fileSize : Nat} (small : fileSize ≤ u64Max) :
    ∀ {ranges : List AttachedRange} {previousEnd : Nat},
      checkRanges headerEnd fileSize previousEnd ranges = .ok () →
        PayloadOrder headerEnd fileSize ranges ∧ ∀ range ∈ ranges, previousEnd ≤ range.offset
  | [], _, _ => ⟨⟨by simp, .nil⟩, by simp⟩
  | range :: rest, previousEnd, run => by
      simp only [checkRanges, bind_eq_ok, reject_eq_ok, not_or] at run
      obtain ⟨_, ⟨nonempty, start, early, fits⟩, _, follows, later⟩ := run
      have stop : range.offset + range.size ≤ fileSize := by omega
      rw [wrapAdd_eq (by omega)] at later
      obtain ⟨⟨inside, ordered⟩, after⟩ := payloadOrder_of_checkRanges small later
      refine ⟨⟨?_, List.pairwise_cons.mpr ⟨after, ordered⟩⟩, ?_⟩
      · rw [List.forall_mem_cons]
        exact ⟨⟨nonempty, by omega, stop⟩, inside⟩
      · rw [List.forall_mem_cons]
        refine ⟨by omega, fun other member => ?_⟩
        have beyond := after other member
        omega

/-- Resolving References to Structures leaves the cells of every table. -/
theorem resolveStructureReferences_ranges {state : XmlBuilder} {tables : List TableInfo}
    (run : resolveStructureReferences state = .ok tables) :
    (tables.map tableRanges).sum = (state.tables.map tableRanges).sum := by
  have step : ∀ (events : List TableStructureReferenceEvent) (carried : List TableInfo × List Nat)
      (result : List TableInfo × List Nat),
      events.foldlM (resolveStructureReference state.standaloneStructureUids) carried =
        .ok result →
      (result.1.map tableRanges).sum = (carried.1.map tableRanges).sum := by
    intro events
    induction events with
    | nil =>
        intro carried result run
        cases run
        rfl
    | cons event rest ih =>
        intro carried result run
        rw [List.foldlM_cons, bind_eq_ok] at run
        obtain ⟨next, one, later⟩ := run
        rw [ih next result later]
        obtain ⟨tables, seen⟩ := carried
        simp only [resolveStructureReference] at one
        split at one
        · cases one
        · rename_i table found
          simp only [bind_eq_ok, pure, Except.pure, Except.ok.injEq] at one
          obtain ⟨_, -, target, -, rfl⟩ := one
          exact sum_map_set_of_same tableRanges found rfl
  simp only [resolveStructureReferences, bind_eq_ok, pure, Except.pure, Except.ok.injEq] at run
  obtain ⟨result, folded, rfl⟩ := run
  exact step _ _ result folded

/-- A document that `parse_header` returns is well formed, its header and file
sizes are those of the call, and the ranges returned with it are those of the
header and cover what it declares. -/
theorem wellFormed_of_parseHeader {platform : Platform} {xml : Text} {options : ReaderOptions}
    {fileSize headerLength : Nat} {parsed : ParsedHeader} (small : fileSize ≤ u64Max)
    (run : parseHeader platform xml options fileSize headerLength = .ok parsed) :
    WellFormed parsed.document ∧ parsed.document.fileSize = fileSize ∧
      parsed.document.headerLength = headerLength ∧
      PayloadOrder (16 + headerLength) fileSize parsed.attachedRanges ∧
      documentRanges parsed.document ≤ (parsed.attachedRanges : Multiset AttachedRange) ∧
      (parsed.attachedRanges : Multiset AttachedRange) = headerRanges platform xml := by
  simp only [parseHeader, bind_eq_ok, pure, Except.pure, Except.ok.injEq] at run
  obtain ⟨state, parse, _, -, tables, resolved, _, -, bindings, -, _, -, _, -, _, -, _, -, _, -,
    _, -, _, -, _, -, _, -, _, -, _, ranges, rfl⟩ := run
  obtain ⟨inventory, declared, images, thumbnails⟩ := inventoried_of_parse parse
  have order := (payloadOrder_of_checkRanges small ranges).1
  have sorted : (sortRanges state.attachedRanges : Multiset AttachedRange) =
      headerRanges platform xml :=
    (Multiset.coe_eq_coe.mpr (List.mergeSort_perm _ _)).trans inventory
  have covered : declaredRanges state.images state.metadata state.iccProfiles state.thumbnails
      tables ≤ (sortRanges state.attachedRanges : Multiset AttachedRange) := by
    rw [sorted]
    simpa only [XmlBuilder.declared, declaredRanges, resolveStructureReferences_ranges resolved]
      using declared
  exact ⟨⟨small, images, thumbnails, _, order, covered⟩, rfl, rfl, order, covered, sorted⟩

end Mmxisf.Reader
