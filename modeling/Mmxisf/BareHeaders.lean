/-
# BareHeaders -- the headers of one unit, whatever its layout

A header holds the offsets of its blocks and nothing else of the layout: with every offset
left at zero (`bareUnit`) the same texts are made, and what a header is longer is the digits
of its offsets (`makeHeader_bares`).
-/
import Mmxisf.UnitDocument

namespace Mmxisf

set_option autoImplicit false

open Library (stacked)
open Writer (ImageWriteView MetadataWriteEntry PlannedBlock PreparedBlock WriterOptions UnitPlan
  hasBlock placeOf blockSize)

/-! ## Digits -/

theorem decimal_length (value : Nat) :
    (Writer.decimal value).length = (Nat.toDigits 10 value).length := by
  have digits : (toString value).toList = Nat.toDigits 10 value := Nat.toList_repr
  unfold Writer.decimal lit
  rw [List.length_map, digits]

theorem decimal_length_le {value count : Nat} (positive : 0 < count) :
    (Writer.decimal value).length ≤ count ↔ value < 10 ^ count := by
  rw [decimal_length]
  exact Nat.length_toDigits_le_iff (by decide) positive

theorem decimal_length_pos (value : Nat) : 0 < (Writer.decimal value).length := by
  rw [decimal_length]
  exact Nat.length_toDigits_pos

theorem decimal_length_mono {value larger : Nat} (le : value ≤ larger) :
    (Writer.decimal value).length ≤ (Writer.decimal larger).length := by
  have positive := decimal_length_pos larger
  rw [decimal_length_le positive]
  exact Nat.lt_of_le_of_lt le ((decimal_length_le positive).mp (Nat.le_refl _))

/-- The digits of the offsets beyond the first of each. -/
def extraDigits (alignment start : Nat) (sizes : List Nat) : Nat :=
  ((stacked alignment start sizes).map fun range => (Writer.decimal range.1).length - 1).sum

/-! ## Headers without offsets -/

section

variable {α β : Type}

/-- An item with the offset of its block left at zero. -/
def bareItem (item : α × PlannedBlock) : α × PlannedBlock :=
  (item.1, ⟨item.2.prepared, placeOf (0, blockSize item)⟩)

/-- The digits of the offset of a block beyond the first. -/
def offsetDigits (block : PlannedBlock) : Nat :=
  (Writer.decimal block.location.offset).length - 1

def entryDigits (item : MetadataWriteEntry × PlannedBlock) : Nat :=
  if hasBlock item.1 = true then offsetDigits item.2 else 0

/-- A text is made exactly when it is made without offsets, and is longer by so many digits. -/
structure Bares (full bare : Result Text) (digits : Nat) : Prop where
  shorter : ∀ {text : Text}, full = .ok text →
    ∃ short, bare = .ok short ∧ text.length = short.length + digits
  made : ∀ {short : Text}, bare = .ok short → ∃ text, full = .ok text

theorem location_length (offset size : Nat) :
    (Writer.xmlAttribute "location" (Writer.attachmentLocation offset size)).length =
      (Writer.xmlAttribute "location" (Writer.attachmentLocation 0 size)).length +
        ((Writer.decimal offset).length - 1) := by
  have positive := decimal_length_pos offset
  have one : (Writer.decimal 0).length = 1 := by decide
  simp only [Writer.xmlAttribute, Writer.attachmentLocation, List.length_append, one]
  omega

theorem entryXml_blockless {item : MetadataWriteEntry × PlannedBlock}
    (blockless : ¬ hasBlock item.1 = true) :
    Writer.entryXml (bareItem item) = Writer.entryXml item := by
  unfold Writer.entryXml bareItem
  dsimp only
  split
  · rename_i form
    have empty : Writer.isEmptyPropertyContainer item.1 = true := by
      simpa [hasBlock, form] using blockless
    unfold Writer.makeMetadataXml
    simp only [empty, if_true]
  · rfl

/-- What is written of a block Property before and after its location. -/
theorem makeMetadataXml_around {entry : MetadataWriteEntry} {location : BlockLocation}
    {prepared : PreparedBlock} {text : Text} (property : ¬ entry.kind = .fitsKeyword)
    (attached : hasBlock entry = true)
    (made : Writer.makeMetadataXml entry (some (location, prepared)) = .ok text) :
    ∃ before after, ∀ other : BlockLocation,
      Writer.makeMetadataXml entry (some (other, prepared)) = .ok (before ++
        Writer.xmlAttribute "location" (Writer.attachmentLocation other.offset other.size) ++
          after) := by
  obtain ⟨form, filled⟩ : entry.valueForm = .dataBlock ∧
      Writer.isEmptyPropertyContainer entry = false := by
    simpa [hasBlock] using attached
  simp only [Writer.makeMetadataXml, bind_eq_ok, if_neg property, if_pos form, filled,
    Bool.false_eq_true, if_false] at made
  obtain ⟨escapedName, name, escapedValue, value, escapedFormat, format, -⟩ := made
  refine ⟨lit "<Property" ++ Writer.xmlAttribute "id" escapedName ++
    Writer.xmlAttribute "type" entry.type ++ Writer.extentAttributes entry ++
    (if entry.byteOrder = .big then Writer.xmlAttribute "byteOrder" (lit "big") else []) ++
    (if entry.format ≠ [] then Writer.xmlAttribute "format" escapedFormat else []) ++
    Writer.preparedAttributes prepared, lit "/>", fun other => ?_⟩
  simp only [Writer.makeMetadataXml, bind_eq_ok, if_neg property, if_pos form, filled,
    Bool.false_eq_true, if_false]
  exact ⟨escapedName, name, escapedValue, value, escapedFormat, format, rfl⟩

theorem entryXml_bares {item : MetadataWriteEntry × PlannedBlock}
    (named : item.1.kind = .fitsKeyword → item.1.valueForm = .direct)
    (sized : hasBlock item.1 = true → item.2.location.size = blockSize item) :
    Bares (Writer.entryXml item) (Writer.entryXml (bareItem item)) (entryDigits item) := by
  by_cases attached : hasBlock item.1 = true
  · have form : item.1.valueForm = .dataBlock := by
      simp only [hasBlock, Bool.and_eq_true, decide_eq_true_eq] at attached
      exact attached.1
    have property : ¬ item.1.kind = .fitsKeyword := by
      intro fits
      rw [named fits] at form
      cases form
    have full : Writer.entryXml item =
        Writer.makeMetadataXml item.1 (some (item.2.location, item.2.prepared)) := by
      rw [Writer.entryXml, if_pos form]
    have bare : Writer.entryXml (bareItem item) =
        Writer.makeMetadataXml item.1 (some (placeOf (0, blockSize item), item.2.prepared)) := by
      show Writer.makeMetadataXml item.1 (if item.1.valueForm = .dataBlock then _ else _) = _
      rw [if_pos form]
      rfl
    rw [full, bare]
    constructor
    · intro text made
      obtain ⟨before, after, texts⟩ := makeMetadataXml_around property attached made
      obtain rfl := Except.ok.inj ((texts _).symm.trans made)
      refine ⟨_, texts _, ?_⟩
      have longer := location_length item.2.location.offset item.2.location.size
      simp only [entryDigits, attached, if_true, offsetDigits, placeOf, List.length_append]
      rw [longer, sized attached]
      omega
    · intro short made
      obtain ⟨before, after, texts⟩ := makeMetadataXml_around property attached made
      exact ⟨_, texts _⟩
  · rw [entryXml_blockless attached, entryDigits, if_neg attached]
    exact ⟨fun made => ⟨_, made, rfl⟩, fun made => ⟨_, made⟩⟩

/-- The texts of a list of items, put together. -/
theorem Bares.mapM {full bare : α → Result Text} {digits : α → Nat} {items : List α}
    (each : ∀ item ∈ items, Bares (full item) (bare item) (digits item)) :
    ∀ {texts : List Text}, items.mapM full = .ok texts →
      ∃ shorts, items.mapM bare = .ok shorts ∧ (shorts = [] ↔ texts = []) ∧
        texts.flatten.length = shorts.flatten.length + (items.map digits).sum := by
  induction items with
  | nil =>
      rintro _ ⟨⟩
      exact ⟨[], rfl, Iff.rfl, rfl⟩
  | cons item rest ih =>
      obtain ⟨first, later⟩ := List.forall_mem_cons.mp each
      intro texts made
      simp only [List.mapM_cons, bind_eq_ok] at made ⊢
      obtain ⟨text, one, more, others, same⟩ := made
      cases same
      obtain ⟨short, shortMade, length⟩ := first.shorter one
      obtain ⟨shorts, shortsMade, -, lengths⟩ := ih later others
      refine ⟨_, ⟨short, shortMade, shorts, shortsMade, rfl⟩, by simp, ?_⟩
      simp only [List.flatten_cons, List.length_append, List.map_cons, List.sum_cons]
      omega

theorem Bares.mapM_made {full bare : α → Result Text} {digits : α → Nat} {items : List α}
    (each : ∀ item ∈ items, Bares (full item) (bare item) (digits item)) :
    ∀ {shorts : List Text}, items.mapM bare = .ok shorts →
      ∃ texts, items.mapM full = .ok texts := by
  induction items with
  | nil => exact fun _ => ⟨[], rfl⟩
  | cons item rest ih =>
      obtain ⟨first, later⟩ := List.forall_mem_cons.mp each
      intro shorts made
      simp only [List.mapM_cons, bind_eq_ok] at made ⊢
      obtain ⟨short, one, others, more, -⟩ := made
      obtain ⟨text, textMade⟩ := first.made one
      obtain ⟨texts, textsMade⟩ := ih later more
      exact ⟨_, text, textMade, texts, textsMade, rfl⟩

variable {platform : Platform} {metadata : List (MetadataWriteEntry × PlannedBlock)}

/-- What is asked of the entries of a plan whose blocks have their places. -/
def EntriesPlaced (metadata : List (MetadataWriteEntry × PlannedBlock)) : Prop :=
  ∀ item ∈ metadata, (item.1.kind = .fitsKeyword → item.1.valueForm = .direct) ∧
    (hasBlock item.1 = true → item.2.location.size = blockSize item)

theorem EntriesPlaced.bares (placed : EntriesPlaced metadata) (chosen : MetadataWriteEntry → Bool) :
    ∀ item ∈ metadata.filter fun item => chosen item.1,
      Bares (Writer.entryXml item) (Writer.entryXml (bareItem item)) (entryDigits item) :=
  fun item member => entryXml_bares (placed item (List.mem_of_mem_filter member)).1
    (placed item (List.mem_of_mem_filter member)).2

theorem bareEntries (chosen : MetadataWriteEntry → Bool) :
    ((metadata.map bareItem).filter fun item => chosen item.1).mapM Writer.entryXml =
      (metadata.filter fun item => chosen item.1).mapM fun item =>
        Writer.entryXml (bareItem item) := by
  rw [List.filter_map, List.mapM_map]
  rfl

/-- The entries that a choice by the entry alone takes. -/
theorem entries_bare (placed : EntriesPlaced metadata) (chosen : MetadataWriteEntry → Bool)
    {texts : List Text}
    (made : (metadata.filter fun item => chosen item.1).mapM Writer.entryXml = .ok texts) :
    ∃ shorts, ((metadata.map bareItem).filter fun item => chosen item.1).mapM Writer.entryXml =
        .ok shorts ∧ (shorts = [] ↔ texts = []) ∧
      texts.flatten.length = shorts.flatten.length +
        ((metadata.filter fun item => chosen item.1).map entryDigits).sum := by
  rw [bareEntries]
  exact Bares.mapM (placed.bares chosen) made

theorem entries_made (placed : EntriesPlaced metadata) (chosen : MetadataWriteEntry → Bool)
    {shorts : List Text}
    (made : ((metadata.map bareItem).filter fun item => chosen item.1).mapM Writer.entryXml =
      .ok shorts) :
    ∃ texts, (metadata.filter fun item => chosen item.1).mapM Writer.entryXml = .ok texts := by
  rw [bareEntries] at made
  exact Bares.mapM_made (placed.bares chosen) made

/-- How an image ends. -/
def imageEnding (entries : List Text) : Text :=
  if entries = [] then lit "/>" else lit ">" ++ entries.flatten ++ lit "</Image>"

theorem imageEnding_length {texts shorts : List Text} {digits : Nat}
    (empty : shorts = [] ↔ texts = [])
    (length : texts.flatten.length = shorts.flatten.length + digits) :
    (imageEnding texts).length = (imageEnding shorts).length + digits := by
  unfold imageEnding
  by_cases none : shorts = []
  · rw [none, empty.mp none, List.flatten_nil, List.length_nil, Nat.zero_add] at length
    rw [if_pos none, if_pos (empty.mp none), ← length, Nat.add_zero]
  · rw [if_neg none, if_neg (mt empty.mpr none)]
    simp only [List.length_append]
    omega

/-- What is written of an image before its location, and what is written after it. -/
theorem imageXml_around {view : ImageWriteView} {block : PlannedBlock} {index : Nat} {text : Text}
    (made : Writer.imageXml platform metadata ((view, block), index) = .ok text) :
    ∃ before entries, (metadata.filter fun item => decide (item.1.imageIndex = some index)).mapM
        Writer.entryXml = .ok entries ∧
      ∀ (location : BlockLocation) (others : List (MetadataWriteEntry × PlannedBlock))
        (texts : List Text), (others.filter fun item => decide (item.1.imageIndex =
            some index)).mapM Writer.entryXml = .ok texts →
          Writer.imageXml platform others ((view, ⟨block.prepared, location⟩), index) =
            .ok (before ++ Writer.xmlAttribute "location"
              (Writer.attachmentLocation location.offset location.size) ++ imageEnding texts) := by
  simp only [Writer.imageXml, bind_eq_ok] at made
  obtain ⟨escapedId, isId, bounds, areBounds, entries, areEntries, -⟩ := made
  refine ⟨lit "<Image" ++ (if view.id ≠ [] then Writer.xmlAttribute "id" escapedId else []) ++
    Writer.xmlAttribute "geometry" (Writer.decimal view.width ++ lit ":" ++
      Writer.decimal view.height ++ lit ":" ++ Writer.decimal view.channels) ++
    Writer.xmlAttribute "sampleFormat" (Writer.sampleFormatDescription view.sampleFormat).1 ++
    Writer.xmlAttribute "colorSpace" view.colorSpace ++
    Writer.xmlAttribute "pixelStorage" (lit "Planar") ++
    Writer.xmlAttribute "byteOrder" (lit "little") ++ bounds ++
    Writer.preparedAttributes block.prepared, entries, areEntries, ?_⟩
  intro location others texts areTexts
  simp only [Writer.imageXml, bind_eq_ok]
  exact ⟨escapedId, isId, bounds, areBounds, texts, areTexts, rfl⟩

theorem imageXml_bares (placed : EntriesPlaced metadata) {view : ImageWriteView}
    {block : PlannedBlock} (index : Nat) (sized : block.location.size = blockSize (view, block)) :
    Bares (Writer.imageXml platform metadata ((view, block), index))
      (Writer.imageXml platform (metadata.map bareItem) (bareItem (view, block), index))
      (offsetDigits block + ((metadata.filter fun item =>
        decide (item.1.imageIndex = some index)).map entryDigits).sum) := by
  constructor
  · intro text made
    obtain ⟨before, entries, areEntries, texts⟩ := imageXml_around made
    obtain rfl := Except.ok.inj ((texts _ _ _ areEntries).symm.trans made)
    obtain ⟨shorts, areShorts, empty, length⟩ :=
      entries_bare placed (fun entry => decide (entry.imageIndex = some index)) areEntries
    refine ⟨_, texts _ _ _ areShorts, ?_⟩
    have longer := location_length block.location.offset block.location.size
    have ending := imageEnding_length empty length
    simp only [offsetDigits, placeOf, List.length_append]
    rw [longer, sized, ending]
    omega
  · intro short made
    obtain ⟨before, entries, areEntries, texts⟩ := imageXml_around made
    obtain ⟨all, areAll⟩ := entries_made placed
      (fun entry => decide (entry.imageIndex = some index)) areEntries
    exact ⟨_, texts _ _ _ areAll⟩

end

/-- A plan whose blocks have no offsets. -/
def bareUnit (plan : UnitPlan) : UnitPlan where
  images := plan.images.map bareItem
  metadata := plan.metadata.map bareItem

section

variable {platform : Platform} {options : WriterOptions} {plan : UnitPlan} {start : Nat}

theorem bareUnit_same {other : UnitPlan} (same : plan.SameBlocks other) :
    bareUnit other = bareUnit plan := by
  have items {α : Type} (list : List (α × PlannedBlock)) : list.map bareItem =
      (list.map Writer.preparedItem).map fun item =>
        (item.1, ⟨item.2, placeOf (0, item.2.serializedSize)⟩) := by
    rw [List.map_map]
    rfl
  unfold bareUnit
  rw [items other.images, items other.metadata, same.images, same.metadata, ← items, ← items]

/-- Every placed block is as long as it was prepared. -/
theorem placed_sizes {alignment : Nat} (placed : plan.Stacked alignment start) :
    (∀ item ∈ plan.images, item.2.location.size = blockSize item) ∧
      ∀ item ∈ plan.metadata, hasBlock item.1 = true → item.2.location.size = blockSize item := by
  have sizes : plan.locations.map (·.size) = plan.sizes := by
    rw [placed.locations, List.map_map]
    exact Library.stacked_sizes ..
  unfold UnitPlan.locations UnitPlan.sizes at sizes
  rw [List.map_append, List.map_map, List.map_map] at sizes
  obtain ⟨images, entries⟩ := List.append_inj sizes (by rw [List.length_map, List.length_map])
  constructor
  · exact List.map_inj_left.mp images
  · exact fun item member attached =>
      List.map_inj_left.mp entries item (List.mem_filter.mpr ⟨member, attached⟩)

/-- The digits of all the offsets. -/
theorem unitDigits {alignment : Nat} (placed : plan.Stacked alignment start) :
    (plan.images.map fun item => offsetDigits item.2).sum + (plan.metadata.map entryDigits).sum =
      extraDigits alignment start plan.sizes := by
  have entries (list : List (MetadataWriteEntry × PlannedBlock)) : (list.map entryDigits).sum =
      ((list.filter fun item => hasBlock item.1).map fun item => offsetDigits item.2).sum := by
    induction list with
    | nil => rfl
    | cons item rest ih =>
        rw [List.map_cons, List.sum_cons, ih, entryDigits, List.filter_cons]
        split
        · rw [List.map_cons, List.sum_cons]
        · exact Nat.zero_add _
  have all : ((stacked alignment start plan.sizes).map fun range =>
      (Writer.decimal range.1).length - 1) =
        plan.locations.map fun location => (Writer.decimal location.offset).length - 1 := by
    rw [placed.locations, List.map_map]
    rfl
  rw [extraDigits, all, entries, UnitPlan.locations, List.map_append, List.map_map, List.map_map,
    List.sum_append]
  rfl

/-- The same digits in the order of the header. -/
theorem headerDigits {alignment : Nat} (accepted : AcceptedUnit options
      (plan.images.map Prod.fst) (plan.metadata.map Prod.fst))
    (placed : plan.Stacked alignment start) :
    (plan.images.zipIdx.map fun item => offsetDigits item.1.2 + ((plan.metadata.filter fun entry =>
        decide (entry.1.imageIndex = some item.2)).map entryDigits).sum).sum +
      ((plan.metadata.filter fun item => item.1.imageIndex.isNone).map entryDigits).sum =
        extraDigits alignment start plan.sizes := by
  have own : (plan.images.zipIdx.map fun item => ((plan.metadata.filter fun entry =>
      decide (entry.1.imageIndex = some item.2)).map entryDigits).sum).sum =
        ((imageItems plan.metadata plan.images.zipIdx).map entryDigits).sum := by
    rw [imageItems, List.map_flatMap, List.flatMap, List.sum_flatten, List.map_map]
    rfl
  have offsets : (plan.images.zipIdx.map fun item => offsetDigits item.1.2).sum =
      (plan.images.map fun item => offsetDigits item.2).sum := by
    rw [← List.zipIdx_map_fst 0 plan.images, List.map_map, List.zipIdx_map_fst]
    rfl
  have all : ((imageItems plan.metadata plan.images.zipIdx).map entryDigits).sum +
      ((plan.metadata.filter fun item => item.1.imageIndex.isNone).map entryDigits).sum =
        (plan.metadata.map entryDigits).sum := by
    rw [← List.sum_append, ← List.map_append, imageItems_eq]
    exact ((Library.grouped_append_perm fun item member index own => by
      have entry := accepted.entry _ (List.mem_map_of_mem member)
      rw [List.length_map] at entry
      exact entry.inRange index own).map entryDigits).sum_eq
  rw [List.sum_map_add, own, offsets, Nat.add_assoc, all]
  exact unitDigits placed

/-- The header of a layout is the header without offsets, and their digits. -/
theorem makeHeader_bares (accepted : AcceptedUnit options (plan.images.map Prod.fst)
      (plan.metadata.map Prod.fst)) (placed : plan.Stacked options.attachmentAlignment start) :
    Bares (Writer.makeHeader platform options plan)
      (Writer.makeHeader platform options (bareUnit plan))
      (extraDigits options.attachmentAlignment start plan.sizes) := by
  obtain ⟨imageSizes, entrySizes⟩ := placed_sizes placed
  have entriesPlaced : EntriesPlaced plan.metadata := fun item member =>
    ⟨fun fits => ((accepted.entry _ (List.mem_map_of_mem member)).fitsKeyword fits).1,
      entrySizes item member⟩
  have each : ∀ item ∈ plan.images.zipIdx, Bares (Writer.imageXml platform plan.metadata item)
      (Writer.imageXml platform (plan.metadata.map bareItem) (bareItem item.1, item.2))
      (offsetDigits item.1.2 + ((plan.metadata.filter fun entry =>
        decide (entry.1.imageIndex = some item.2)).map entryDigits).sum) :=
    fun item member => imageXml_bares entriesPlaced item.2
      (imageSizes item.1 (List.mem_of_getElem? (List.mem_zipIdx_iff_getElem?.mp member)))
  have bareImages : (bareUnit plan).images.zipIdx.mapM
        (Writer.imageXml platform (bareUnit plan).metadata) =
      plan.images.zipIdx.mapM fun item =>
        Writer.imageXml platform (plan.metadata.map bareItem) (bareItem item.1, item.2) := by
    rw [bareUnit, List.zipIdx_map, List.mapM_map]
    rfl
  constructor
  · intro text made
    simp only [Writer.makeHeader, bind_eq_ok, bareImages] at made ⊢
    obtain ⟨creator, isCreator, images, areImages, entries, areEntries, same⟩ := made
    cases same
    obtain ⟨shortEntries, areShort, -, entriesLength⟩ :=
      entries_bare entriesPlaced (fun entry => entry.imageIndex.isNone) areEntries
    obtain ⟨shortImages, areShortImages, -, imagesLength⟩ := Bares.mapM each areImages
    refine ⟨_, ⟨creator, isCreator, shortImages, areShortImages, shortEntries, areShort, rfl⟩, ?_⟩
    have digits := headerDigits accepted placed
    simp only [List.length_append]
    omega
  · intro short made
    simp only [Writer.makeHeader, bind_eq_ok, bareImages] at made ⊢
    obtain ⟨creator, isCreator, images, areImages, entries, areEntries, -⟩ := made
    obtain ⟨allImages, areAll⟩ := Bares.mapM_made each areImages
    obtain ⟨all, areAllEntries⟩ :=
      entries_made entriesPlaced (fun entry => entry.imageIndex.isNone) areEntries
    exact ⟨_, creator, isCreator, allImages, areAll, all, areAllEntries, rfl⟩

end

end Mmxisf
