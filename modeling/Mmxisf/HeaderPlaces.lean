/-
# HeaderPlaces -- the blocks that a header names

A reader finds a block by the text of a `location` attribute.  In the events of a header
those that name an attachment are one for each image and one for each entry with a block
(`unit_places`), so a header names the blocks that were planned and no others
(`IsUnitOf.namesPlaces`).
-/
import Mmxisf.HeaderScanner
import Mmxisf.WrittenUnits

namespace Mmxisf

set_option autoImplicit false

open Writer (MetadataWriteEntry ImageWriteView PlannedBlock TagAttribute WriterOptions UnitPlan
  Codecs WriteCall SettledUnit IsUnitOf)
open Reader (AttachedRange)

/-! ## Named places -/

/-- The attachments that the attributes of a tag name. -/
def namedPlaces (attributes : List (Text × Text)) : List Text :=
  ((attributes.filter fun attribute' => attribute'.1 = lit "location").map Prod.snd).filter
    fun place => (lit "attachment:").isPrefixOf place

def eventPlaces : XmlEvent → List Text
  | .startElement _ attributes => namedPlaces attributes
  | _ => []

/-- The attachments that a header names, in its order. -/
def headerPlaces (header : Text) : List Text := (scanHeader header).flatMap eventPlaces

/-- The text that names a range. -/
def placeText (range : AttachedRange) : Text := Writer.attachmentLocation range.offset range.size

section

variable {attributes more : List TagAttribute} {item : MetadataWriteEntry × PlannedBlock}

theorem namedPlaces_append : namedPlaces (reportedTags (attributes ++ more)) =
    namedPlaces (reportedTags attributes) ++ namedPlaces (reportedTags more) := by
  unfold namedPlaces reportedTags reportedAttributes
  rw [List.map_append, List.map_append, List.filter_append, List.map_append, List.filter_append]

/-- Attributes with other names name no place. -/
theorem namedPlaces_none (others : ∀ tag ∈ attributes, lit tag.1 ≠ lit "location") :
    namedPlaces (reportedTags attributes) = [] := by
  have none : ((reportedTags attributes).filter fun attribute' =>
      attribute'.1 = lit "location") = [] := by
    rw [List.filter_eq_nil_iff]
    intro reported member
    unfold reportedTags reportedAttributes at member
    rw [List.map_map, List.mem_map] at member
    obtain ⟨tag, there, rfl⟩ := member
    rw [decide_eq_true_eq]
    exact others tag there
  rw [namedPlaces, none]
  rfl

theorem namedPlaces_optional {name : String} (value : Text) (other : lit name ≠ lit "location") :
    namedPlaces (reportedTags (Writer.optionalAttribute name value)) = [] :=
  namedPlaces_none fun tag member => by
    rw [mem_optionalAttribute member]
    exact other

theorem namedPlaces_prepared (prepared : Writer.PreparedBlock) :
    namedPlaces (reportedTags (preparedTags prepared)) = [] := by
  unfold preparedTags
  rw [namedPlaces_append, namedPlaces_append, namedPlaces_optional _ (by decide),
    namedPlaces_optional _ (by decide), namedPlaces_optional _ (by decide)]
  rfl

/-- The place of an attachment is named. -/
theorem namedPlaces_attachment (offset size : Nat) :
    namedPlaces (reportedTags [("location", Writer.attachmentLocation offset size)]) =
      [Writer.attachmentLocation offset size] := by
  have reported : reportedTags [("location", Writer.attachmentLocation offset size)] =
      [(lit "location", attributeText (Writer.attachmentLocation offset size))] := rfl
  have prefixed : (lit "attachment:").isPrefixOf (Writer.attachmentLocation offset size) =
      true := by
    rw [List.isPrefixOf_iff_prefix, Writer.attachmentLocation, List.append_assoc,
      List.append_assoc]
    exact List.prefix_append _ _
  rw [reported, (attachmentLocation_tidy offset size).attributeText]
  have one : namedPlaces [(lit "location", Writer.attachmentLocation offset size)] =
      [Writer.attachmentLocation offset size].filter fun place =>
        (lit "attachment:").isPrefixOf place := rfl
  rw [one, List.filter_cons_of_pos prefixed]
  rfl

theorem extents_noPlaces (entry : MetadataWriteEntry) :
    namedPlaces (reportedTags (Writer.extentsOf entry)) = [] :=
  namedPlaces_none fun tag member => by
    have names := extentsOf_names tag member
    have others : ∀ name ∈ ["length", "rows", "columns"], lit name ≠ lit "location" := by decide
    exact others _ names

theorem describing_noPlaces (entry : MetadataWriteEntry) (prepared : Writer.PreparedBlock) :
    namedPlaces (reportedTags (Writer.describingAttributes entry prepared)) = [] :=
  namedPlaces_none fun tag member => by
    have names := describingAttributes_names tag member
    have others : ∀ name ∈ ["byteOrder", "format", "compression", "subblocks", "checksum"],
        lit name ≠ lit "location" := by decide
    exact others _ names

/-- A data block that is not empty names its place, and an empty one no attachment. -/
theorem block_places (form : item.1.valueForm = .dataBlock) :
    namedPlaces (reportedTags (Writer.blockAttributes item.1 (headerBlock item))) =
      (entryRanges item).map placeText := by
  have block : headerBlock item = some (item.2.location, item.2.prepared) := if_pos form
  unfold Writer.blockAttributes entryRanges Writer.hasBlock
  rw [block, form]
  cases Writer.isEmptyPropertyContainer item.1 with
  | true =>
      have inline : namedPlaces (reportedTags [("location", lit "inline:base64")]) = [] := by
        decide
      rw [if_pos rfl, namedPlaces_append, extents_noPlaces, inline]
      rfl
  | false =>
      rw [if_neg (by decide)]
      dsimp only
      rw [namedPlaces_append, namedPlaces_append, extents_noPlaces, describing_noPlaces,
        namedPlaces_attachment]
      rfl

/-- A keyword has no block. -/
def PlainKeyword (entry : MetadataWriteEntry) : Prop :=
  entry.kind = .fitsKeyword → entry.valueForm = .direct

theorem entry_places (plain : PlainKeyword item.1) :
    (entryEvents item).flatMap eventPlaces = (entryRanges item).map placeText := by
  have start : (entryEvents item).flatMap eventPlaces =
      namedPlaces (reportedTags (Writer.metadataAttributes item.1 (headerBlock item))) := by
    have noText : (entryText item.1).flatMap eventPlaces = [] := by
      unfold entryText
      split <;> rfl
    unfold entryEvents
    rw [List.flatMap_cons, List.flatMap_append, noText]
    exact List.append_nil _
  have noBlock (direct : item.1.valueForm = .direct) : (entryRanges item).map placeText = [] := by
    unfold entryRanges Writer.hasBlock
    rw [direct]
    rfl
  rw [start]
  unfold Writer.metadataAttributes
  cases kind : item.1.kind with
  | fitsKeyword =>
      rw [noBlock (plain kind)]
      exact namedPlaces_none (by simp; decide)
  | property =>
      dsimp only
      rw [namedPlaces_append, namedPlaces_none (by simp; decide), List.nil_append]
      unfold Writer.valueAttributes
      cases form : item.1.valueForm with
      | dataBlock => exact block_places form
      | direct =>
          rw [noBlock form]
          dsimp only
          split
          · rfl
          · exact namedPlaces_none (by simp; decide)

theorem entries_places {items : List (MetadataWriteEntry × PlannedBlock)}
    (plain : ∀ item ∈ items, PlainKeyword item.1) :
    (items.flatMap entryEvents).flatMap eventPlaces =
      (items.flatMap entryRanges).map placeText := by
  rw [List.flatMap_assoc, List.map_flatMap]
  exact List.flatMap_congr fun item member => entry_places (plain item member)

/-- An image names its place, and its entries name theirs. -/
theorem image_places {platform : Platform} {metadata : List (MetadataWriteEntry × PlannedBlock)}
    (plain : ∀ item ∈ metadata, PlainKeyword item.1)
    (image : (ImageWriteView × PlannedBlock) × Nat) :
    (imageEvents platform metadata image).flatMap eventPlaces =
      (imageRanges metadata [image]).map placeText := by
  have bounds : namedPlaces (reportedTags (boundsTag platform image.1.1)) = [] := by
    unfold boundsTag
    split
    · exact namedPlaces_none (by simp; decide)
    · rfl
  have own : namedPlaces (reportedTags (imageAttributes platform image.1)) =
      [Writer.attachmentLocation image.1.2.location.offset image.1.2.location.size] := by
    unfold imageAttributes
    rw [namedPlaces_append, namedPlaces_append, namedPlaces_append, namedPlaces_append,
      namedPlaces_optional _ (by decide), bounds, namedPlaces_prepared, namedPlaces_attachment,
      namedPlaces_none (by simp; decide)]
    rfl
  have inside := @entries_places (entriesOf metadata image.2)
    fun item member => plain item (List.mem_of_mem_filter member)
  have here : imageRanges metadata [image] =
      ⟨image.1.2.location.offset, image.1.2.location.size⟩ ::
        (entriesOf metadata image.2).flatMap entryRanges := List.append_nil _
  unfold imageEvents
  rw [List.flatMap_cons, List.flatMap_append, here, List.map_cons, ← inside]
  show namedPlaces _ ++ (_ ++ []) = _
  rw [own, List.append_nil]
  rfl

theorem unit_places {platform : Platform} {options : WriterOptions} {plan : UnitPlan}
    (accepted : AcceptedUnit options (plan.images.map Prod.fst) (plan.metadata.map Prod.fst)) :
    (unitEvents platform options plan).flatMap eventPlaces =
      (unitRanges options plan).map placeText := by
  have plain : ∀ item ∈ plan.metadata, PlainKeyword item.1 := fun item member keyword =>
    ((accepted.entry _ (List.mem_map_of_mem member)).fitsKeyword keyword).1
  have images : (plan.images.zipIdx.flatMap (imageEvents platform plan.metadata)).flatMap
      eventPlaces = (imageRanges plan.metadata plan.images.zipIdx).map placeText := by
    unfold imageRanges
    rw [List.flatMap_assoc, List.map_flatMap]
    refine List.flatMap_congr fun image _ => ?_
    rw [image_places plain]
    exact congrArg (List.map placeText) (List.append_nil _)
  have added : ∀ item ∈ unitEntries options plan, PlainKeyword item.1 := by
    unfold unitEntries
    rw [List.forall_mem_cons, List.forall_mem_cons]
    exact ⟨nofun, nofun, fun item member => plain item (List.mem_of_mem_filter member)⟩
  unfold unitEvents unitRanges
  rw [List.flatMap_cons, List.flatMap_cons, List.flatMap_append, List.flatMap_cons,
    List.flatMap_append, images, entries_places added, List.map_append]
  show [] ++ ([] ++ (_ ++ ([] ++ (_ ++ [])))) = _
  simp only [List.nil_append, List.append_nil]

end

/-- The header names the planned blocks, and no other. -/
theorem Writer.IsUnitOf.namesPlaces {platform : Platform} {codecs : Codecs} {call : WriteCall}
    {settled : SettledUnit} {contents : List Bytes}
    (isUnit : IsUnitOf platform codecs call settled contents) (printed : PrintsTidy platform) :
    (headerPlaces settled.header).Perm (settled.plan.locations.map BlockLocation.raw) := by
  have texts := isUnit.laidOut.texts
  have ranges : settled.plan.locations.map BlockLocation.raw =
      (fileRanges settled.plan).map placeText := by
    unfold fileRanges
    rw [List.map_map]
    exact List.map_congr_left fun location member => texts location member
  unfold headerPlaces
  rw [scanHeader_renders (isUnit.renders printed), unit_places isUnit.accepted, ranges]
  exact (unitRanges_perm isUnit.accepted).map placeText

end Mmxisf
