/-
# EntrySteps -- an entry of a unit goes through the handlers

The handlers take the events of an entry that a writer accepted to one more listed
entry, in an Image or in Metadata, unless a limit stops them (`entry_takes`): its start
tag opens it, its text is appended piece by piece, and its end tag leaves it.
-/
import Mmxisf.UnitEntries

namespace Mmxisf

set_option autoImplicit false

open Writer (MetadataWriteEntry PlannedBlock WriterOptions)
open Reader (XmlBuilder ElementContext ReaderOptions Suffices Tighter AttachedRange)

/-- An element whose identifier, type and value are in order passes its checks. -/
theorem checkMetadata_passes {ω : Type} {need : ReaderOptions} {settings : ω → ReaderOptions}
    {state : XmlBuilder} {element : ElementContext} {identity : Text}
    (identified : IdentifiedAs state element identity)
    (value : (element.attributeOr "value").length ≤ need.maxMetadataValueBytes) :
    ∃ state', Suffices need settings
      (fun o => Reader.checkMetadata (settings o) state element identity) fun _ => state' := by
  have last : ∃ state', (if element.name = lit "Property" ∧ element.parent = lit "Metadata" then
      Reader.checkUnitProperty state element identity (element.attributeOr "type")
      else pure state) = .ok state' := by
    split
    · rename_i inUnit
      exact identified.unit inUnit.1 inUnit.2
    · exact ⟨state, rfl⟩
  obtain ⟨state', checked⟩ := last
  refine ⟨state', ?_⟩
  unfold Reader.checkMetadata
  refine .andThen (suffices_check ?_) (.andThen (suffices_check ?_) (.andThen (suffices_check ?_)
    (.andThen (suffices_atMost Tighter.maxMetadataValueBytes value) (.andThen (suffices_check ?_)
      (.of_eq fun _ => checked)))))
  · rintro (empty | ⟨property, untyped⟩ | ⟨keyword, absent⟩)
    · exact identified.nonempty empty
    · exact (identified.property property).1 untyped
    · obtain ⟨value, comment, -⟩ := identified.keyword keyword
      rw [Option.isNone_iff_eq_none, Option.isNone_iff_eq_none] at absent
      rcases absent with noValue | noComment
      · simp [noValue] at value
      · simp [noComment] at comment
  · rintro ⟨keyword, invalid⟩
    exact Bool.noConfusion (invalid.symm.trans (identified.keyword keyword).2.2)
  · rintro ⟨property, invalid⟩
    exact Bool.noConfusion (invalid.symm.trans (identified.property property).2.1)
  · rintro ⟨property, absent, described⟩
    exact Bool.noConfusion (described.symm.trans ((identified.property property).2.2 absent))

/-! ## Progress -/

section

variable (progress : UnitProgress) (item : MetadataWriteEntry × PlannedBlock)

/-- The two Properties that a unit must have are marked when they are seen. -/
def UnitProgress.mark (entry : MetadataWriteEntry) : UnitProgress :=
  { progress with
    sawCreationTime := progress.sawCreationTime || (entry.kind = .property &&
      entry.imageIndex.isNone && entry.name = lit "XISF:CreationTime")
    sawCreatorApplication := progress.sawCreatorApplication || (entry.kind = .property &&
      entry.imageIndex.isNone && entry.name = lit "XISF:CreatorApplication") }

/-- With one more entry. -/
def UnitProgress.list (entry : MetadataEntry) : UnitProgress :=
  { progress with entries := progress.entries ++ [entry] }

/-- With the text or the inline block of its last entry open. -/
def UnitProgress.attend (index : Nat) : UnitProgress :=
  { progress with
    openText := if listedForm item.1 = .characterData then some index else none
    openBlock := if (listedBlock item).kind = .inlineData then some index else none }

/-- In the element of an entry. -/
def UnitProgress.opened : UnitProgress :=
  ((((progress.enter (Writer.elementName item.1)).locate (entryRanges item)).mark item.1).list
    (startedEntry item)).attend item progress.entries.length

/-- After an entry. -/
def UnitProgress.gained : UnitProgress :=
  { ((progress.locate (entryRanges item)).mark item.1).list (listedEntry item) with
    nodes := progress.nodes + 1 }

/-- The entry belongs where the handlers are. -/
structure UnitProgress.Inside : Prop where
  parent : progress.path.headD [] = (entryElement item).parent
  image : progress.openImages.head? = item.1.imageIndex
  noText : progress.openText = none
  noBlock : progress.openBlock = none

end

section

variable {progress : UnitProgress} {item : MetadataWriteEntry × PlannedBlock}

theorem UnitProgress.mark_of_unitName (unit : item.1.kind = .property → UnitName item.1) :
    progress.mark item.1 = progress := by
  unfold UnitProgress.mark
  cases kind : item.1.kind with
  | fitsKeyword => simp
  | property =>
      cases image : item.1.imageIndex with
      | some index => simp
      | none =>
          obtain ⟨-, notTime, notCreator⟩ := unit kind image
          simp [notTime, notCreator]

theorem UnitProgress.list_builder (entry : MetadataEntry) : (progress.list entry).builder =
    { progress.builder with
      metadata := progress.builder.metadata ++ [entry]
      inlineMetadataBlocks := progress.builder.inlineMetadataBlocks ++ [[]]
      metadataBindingEvents := progress.builder.metadataBindingEvents ++
        [directEvent progress.entries.length entry] } := by
  unfold UnitProgress.builder UnitProgress.list
  rw [List.mapIdx_concat, List.map_append, List.map_singleton]

/-! ## The start tag -/

theorem openElement_entry {options : ReaderOptions} {platform : Platform} {state : XmlBuilder}
    {element : ElementContext} (isXisf : element.isXisf = true)
    (named : element.name = lit "Property" ∨ element.name = lit "FITSKeyword") :
    Reader.openElement options platform state element =
      Reader.startMetadataEntry options state element := by
  have others : ∀ name ∈ ["Property", "FITSKeyword"].map lit, name ∉ ["Table", "Structure", "Field",
      "Row", "Cell", "ICCProfile", "Thumbnail", "Data", "Image", "Metadata"].map lit ∧
      Reader.ancillaryKind name = none := by decide
  obtain ⟨other, notAncillary⟩ := others element.name (by simpa using named)
  simp only [List.map_cons, List.map_nil, List.mem_cons, List.not_mem_nil, or_false,
    not_or] at other
  obtain ⟨table, tableStructure, field, row, cell, profile, thumbnail, data, image, metadata⟩ :=
    other
  unfold Reader.openElement
  rw [isXisf, if_neg (by simp), if_neg table, if_neg tableStructure, if_neg field, if_neg row,
    if_neg cell, if_neg profile, notAncillary]
  dsimp only
  rw [if_neg thumbnail, if_neg data, if_neg image, if_neg metadata, if_pos named]

/-- The flags of the two mandatory Properties. -/
theorem marked (identity : Reader.entryName (entryElement item) = item.1.name) :
    { progress.builder with
      sawCreationTime := progress.builder.sawCreationTime ||
        (Reader.isUnitProperty (entryElement item) &&
          Reader.entryName (entryElement item) = lit "XISF:CreationTime")
      sawCreatorApplication := progress.builder.sawCreatorApplication ||
        (Reader.isUnitProperty (entryElement item) &&
          Reader.entryName (entryElement item) = lit "XISF:CreatorApplication") } =
      (progress.mark item.1).builder := by
  have unit : Reader.isUnitProperty (entryElement item) =
      (decide (item.1.kind = .property) && item.1.imageIndex.isNone) := by
    have parent : (entryElement item).parent =
        if item.1.imageIndex.isSome then lit "Image" else lit "Metadata" := rfl
    rw [Reader.isUnitProperty, parent, decide_eq_decide.mpr isProperty_iff]
    cases item.1.imageIndex with
    | none => rfl
    | some index =>
        have other : lit "Image" ≠ lit "Metadata" := by decide
        simp [other]
  rw [unit, identity]
  rfl

/-- Only an empty container is inline. -/
theorem inline_of_listed (placed : Writer.hasBlock item.1 = true → PlacedBlock item.2)
    (inside : (listedBlock item).kind = .inlineData) :
    listedBlock item = ⟨.inlineData, 0, 0, lit "inline:base64"⟩ := by
  unfold listedBlock at inside ⊢
  by_cases stored : Writer.hasBlock item.1 = true
  · rw [if_pos stored, (placed stored).location] at inside
    cases inside
  · rw [if_neg stored] at inside ⊢
    by_cases form : item.1.valueForm = .dataBlock
    · rw [if_pos form]
    · rw [if_neg form] at inside
      cases inside

theorem entry_text (declares : Declares (entryElement item) (startedEntry item))
    (placed : Writer.hasBlock item.1 = true → PlacedBlock item.2) (index : Nat)
    (noText : progress.openText = none) (noBlock : progress.openBlock = none) :
    Reader.openMetadataText progress.builder (entryElement item) index (startedEntry item)
      (Reader.entryLocation (entryElement item)) = .ok (progress.attend item index).builder := by
  have isForm : (startedEntry item).valueForm = listedForm item.1 := rfl
  have isBlock : (startedEntry item).block = listedBlock item := rfl
  have place := declares.place
  rw [isForm, isBlock] at place
  have still : { progress with openText := none, openBlock := none } = progress := by
    cases progress
    dsimp only at noText noBlock
    rw [noText, noBlock]
  unfold Reader.openMetadataText UnitProgress.attend
  rw [isBlock]
  cases location : Reader.entryLocation (entryElement item) with
  | none =>
      rw [location] at place
      simp only [Reader.metadataBlock, Except.ok.injEq, Prod.mk.injEq, Bool.and_eq_true,
        decide_eq_true_eq] at place
      obtain ⟨noPlace, form⟩ := place
      have outside : (listedBlock item).kind ≠ .inlineData := by
        rw [← noPlace]
        decide
      rw [if_neg outside]
      by_cases text : (entryElement item).name = lit "Property" ∧
          ((entryElement item).attr "value").isNone = true
      · rw [if_pos text] at form
        rw [if_pos ⟨text.1, text.2, rfl⟩, if_pos form.symm, ← noBlock]
        rfl
      · rw [if_neg text] at form
        have noForm : listedForm item.1 ≠ .characterData := by
          rw [← form]
          decide
        rw [if_neg fun all => text ⟨all.1, all.2.1⟩, if_neg fun both => outside both.2,
          if_neg noForm, still]
  | some text =>
      have property : (entryElement item).name = lit "Property" := by
        unfold Reader.entryLocation at location
        split at location
        · assumption
        · cases location
      rw [location] at place
      simp only [Reader.metadataBlock, bind_eq_ok, pure, Except.pure, Except.ok.injEq,
        Prod.mk.injEq] at place
      obtain ⟨_, -, -, form⟩ := place
      have noForm : listedForm item.1 ≠ .characterData := by
        rw [← form]
        decide
      rw [if_neg fun all => Bool.noConfusion all.2.2, if_neg noForm]
      by_cases inside : (listedBlock item).kind = .inlineData
      · rw [if_pos ⟨property, inside⟩, if_pos inside, inline_of_listed placed inside]
        have encoding : Reader.isInlineEncoding ⟨.inlineData, 0, 0, lit "inline:base64"⟩ =
            true := by
          decide
        simp only [reject, encoding, Bool.true_eq_false, if_false, bind, Except.bind, pure,
          Except.pure, decide_true]
        rw [← noText]
        rfl
      · rw [if_neg fun both => inside both.2, if_neg inside, still]

/-- The entry of the tag, wherever its image is open. -/
theorem started_made {state : XmlBuilder}
    (declares : Declares (entryElement item) (startedEntry item))
    (image : (startedEntry item).imageIndex = state.currentImage) :
    Reader.metadataEntry state (entryElement item) (Reader.entryName (entryElement item))
      (Reader.entryLocation (entryElement item)) = .ok (startedEntry item) := by
  refine declares.made image ?_
  have isScope : (startedEntry item).scope =
      if item.1.imageIndex.isSome then .image else .xisfUnit := rfl
  have isParent : (entryElement item).parent =
      if item.1.imageIndex.isSome then lit "Image" else lit "Metadata" := rfl
  have isImage : (startedEntry item).imageIndex = item.1.imageIndex := rfl
  rw [← image, isScope, isParent, isImage]
  cases item.1.imageIndex with
  | none => rfl
  | some index => rfl

/-- A state in which the image of an entry is open. -/
def stateOf (item : MetadataWriteEntry × PlannedBlock) : XmlBuilder :=
  { imageStack := item.1.imageIndex.toList }

theorem stateOf_image : (startedEntry item).imageIndex = (stateOf item).currentImage := by
  have current : (stateOf item).currentImage = item.1.imageIndex.toList.head? := rfl
  have own : (startedEntry item).imageIndex = item.1.imageIndex := rfl
  rw [current, own]
  cases item.1.imageIndex <;> rfl

/-- The limits let in one more entry. -/
structure UnitProgress.LetsEntry (need : ReaderOptions) (progress : UnitProgress)
    (item : MetadataWriteEntry × PlannedBlock) : Prop
    extends progress.LetsIn need (entryElement item).attributes.length where
  entries : progress.entries.length < need.maxMetadataEntries
  value : (listedValue item.1).length ≤ need.maxMetadataValueBytes

theorem entry_opens {ω : Type} {need : ReaderOptions} {settings : ω → ReaderOptions}
    {platform : Platform} (inside : progress.Inside item) (lets : progress.LetsEntry need item)
    (declares : Declares (entryElement item) (startedEntry item))
    (placed : Writer.hasBlock item.1 = true → PlacedBlock item.2)
    (parent : Reader.isMetadataParent (entryElement item) = true)
    (identified : IdentifiedAs
      ((progress.enter (Writer.elementName item.1)).locate (entryRanges item)).builder
      (entryElement item) (Reader.entryName (entryElement item)))
    (formed : (entryElement item).name = lit "Property" →
      Reader.checkPropertyForm (entryElement item) (startedEntry item)
        ((entryElement item).attr "value") (Reader.entryLocation (entryElement item)) = .ok ()) :
    Suffices need settings (fun o => Reader.openElement (settings o) platform
      ((progress.enter (Writer.elementName item.1)).locate (entryRanges item)).builder
      (entryElement item)) fun _ => (progress.opened item).builder := by
  have isXisf : (entryElement item).isXisf = true := by
    simp [ElementContext.isXisf, entryElement, reportedElement]
  have named : (entryElement item).name = lit "Property" ∨
      (entryElement item).name = lit "FITSKeyword" := by
    rw [entryElement_name, Writer.elementName]
    cases item.1.kind with
    | property => exact .inl rfl
    | fitsKeyword => exact .inr rfl
  simp only [openElement_entry isXisf named]
  generalize here : ((progress.enter (Writer.elementName item.1)).locate (entryRanges item)) =
    entered at identified ⊢
  have sameImages : entered.openImages = progress.openImages := by rw [← here]; rfl
  have sameEntries : entered.entries = progress.entries := by rw [← here]; rfl
  have noText : entered.openText = none := by rw [← here]; exact inside.noText
  have noBlock : entered.openBlock = none := by rw [← here]; exact inside.noBlock
  have image : (startedEntry item).imageIndex = (entered.mark item.1).builder.currentImage := by
    have current : (entered.mark item.1).builder.currentImage = entered.openImages.head? := rfl
    rw [current, sameImages, inside.image]
    rfl
  have bound : (startedEntry item).scope ≠ .standalone := by
    have isScope : (startedEntry item).scope =
        if item.1.imageIndex.isSome then .image else .xisfUnit := rfl
    rw [isScope]
    split <;> simp
  unfold Reader.startMetadataEntry
  simp only [decide_eq_true_eq]
  have value : ((entryElement item).attributeOr "value").length ≤ need.maxMetadataValueBytes := by
    have own : (startedEntry item).value =
        if listedForm item.1 = .characterData then [] else listedValue item.1 := rfl
    rw [declares.value, own]
    split
    · exact Nat.zero_le _
    · exact lets.value
  have few : entered.entries.length < need.maxMetadataEntries := sameEntries ▸ lets.entries
  have fewEvents : (entered.mark item.1).builder.metadataBindingEvents.length <
      need.maxMetadataEntries := by
    have events : (entered.mark item.1).builder.metadataBindingEvents =
        entered.entries.mapIdx directEvent := rfl
    rw [events, List.length_mapIdx]
    exact few
  obtain ⟨state', checked⟩ := @checkMetadata_passes _ need settings _ _ _ identified value
  refine .andThen (suffices_check (by simp [parent]))
    (.andThen (suffices_below Tighter.maxMetadataEntries few) ?_)
  refine .andThen (checked.of_ok fun _ other run => (Reader.checkMetadata_eq run).2.2) ?_
  rw [marked declares.identity]
  refine .andThen (a := fun _ => startedEntry item) (.of_eq fun _ => ?_) ?_
  · have made := started_made declares image
    unfold Reader.entryName Reader.entryLocation at made
    exact made
  refine .andThen (a := fun _ => ()) (.of_eq fun _ => ?_) ?_
  · split
    · rename_i property
      have form := formed property
      rw [Reader.entryLocation, if_pos property] at form
      exact form
    · rfl
  refine .andThen (a := fun _ => (entered.mark item.1).builder.metadataBindingEvents ++
    [directEvent (entered.mark item.1).builder.metadata.length (startedEntry item)]) ?_ ?_
  · unfold Reader.bindMetadata
    exact .ifTrue bound
      (.andThen (suffices_below Tighter.maxMetadataEntries fewEvents) suffices_ok)
  have text := @entry_text ((entered.mark item.1).list (startedEntry item)) item declares placed
    progress.entries.length noText noBlock
  rw [UnitProgress.list_builder] at text
  have opened : progress.opened item =
      ((entered.mark item.1).list (startedEntry item)).attend item progress.entries.length := by
    rw [← here]
    rfl
  refine .of_eq fun _ => ?_
  rw [opened, ← text, ← sameEntries]
  rfl

/-! ## Text -/

/-- The text of an entry so far. -/
def UnitProgress.written (progress : UnitProgress) (item : MetadataWriteEntry × PlannedBlock)
    (text : Text) : UnitProgress :=
  { progress.opened item with
    entries := progress.entries ++ [{ startedEntry item with value := text }] }

theorem modify_last {α : Type} (change : α → α) (last : α) :
    ∀ items : List α, (items ++ [last]).modify items.length change = items ++ [change last]
  | [] => rfl
  | first :: rest => by
      rw [List.cons_append, List.length_cons, List.modify_succ_cons, modify_last change last rest,
        List.cons_append]

theorem written_builder (text : Text) : (progress.written item text).builder =
    { (progress.opened item).builder with
      metadata := progress.entries ++ [{ startedEntry item with value := text }] } := by
  unfold UnitProgress.written UnitProgress.opened UnitProgress.attend UnitProgress.list
    UnitProgress.builder
  dsimp only
  have entries : (((progress.enter (Writer.elementName item.1)).locate (entryRanges item)).mark
    item.1).entries = progress.entries := rfl
  rw [entries, List.mapIdx_concat, List.mapIdx_concat, List.map_append, List.map_append]
  rfl

/-- Text in a Property goes to its value. -/
theorem characterData_property {options : ReaderOptions} {index : Nat} {outer : List Text}
    {text : Text} (some : text ≠ []) (path : progress.path = lit "Property" :: outer)
    (noBlock : progress.openBlock = none) (isText : progress.openText = .some index) :
    Reader.characterData options progress.builder text =
      Reader.propertyText options progress.builder index text := by
  have closed : Reader.isEncodedBlockOpen progress.builder = false := by
    unfold Reader.isEncodedBlockOpen UnitProgress.builder
    rw [noBlock]
    rfl
  have noCell : Reader.openCell progress.builder = none := rfl
  have noExtension : progress.builder.extensionStack.headD none = none := by
    have stack : progress.builder.extensionStack = progress.path.map fun _ => none := rfl
    rw [stack, path]
    rfl
  have innermost : Reader.innermostXisfName progress.builder = .some (lit "Property") := by
    have stack : progress.builder.qualifiedElementStack =
        progress.path.map fun name => ⟨Reader.kXisfNamespace, name⟩ := rfl
    unfold Reader.innermostXisfName
    rw [stack, path]
    rfl
  have place : progress.builder.textMetadataIndex = .some index := isText
  have notAncillary : Reader.ancillaryKind (lit "Property") = none := by decide
  have notProfile : lit "Property" ≠ lit "ICCProfile" := by decide
  unfold Reader.characterData
  rw [if_neg some, closed, if_neg (by simp), noCell]
  dsimp only
  rw [noExtension]
  dsimp only
  rw [innermost, place, reject, if_neg (by simp [notAncillary]), reject,
    if_neg (by simp [notProfile])]
  rfl

/-- A String Property. -/
theorem property_of_text (form : listedForm item.1 = .characterData) :
    item.1.kind = .property ∧ (listedBlock item).kind ≠ .inlineData := by
  have direct : item.1.valueForm = .direct := by
    cases valueForm : item.1.valueForm with
    | direct => rfl
    | dataBlock =>
        rw [listedForm, valueForm] at form
        cases form
  have stored : Writer.hasBlock item.1 = false := by
    simp [Writer.hasBlock, direct]
  refine ⟨?_, by simp [listedBlock, stored, direct, BlockLocation.empty]⟩
  simp only [listedForm, direct] at form
  split at form
  · rename_i both
    exact both.1
  · cases form

theorem text_piece {ω : Type} {need : ReaderOptions} {settings : ω → ReaderOptions}
    (form : listedForm item.1 = .characterData) (o : ω) (before text after : Text)
    (fits : (before ++ text ++ after).length ≤ need.maxMetadataValueBytes) :
    Library.Gates (Library.Short Reader.IsLimit (fun o => Tighter need (settings o)) o)
      (Reader.characterData (settings o) (progress.written item before).builder text)
      (.ok (progress.written item (before ++ text)).builder) := by
  obtain ⟨property, outside⟩ := property_of_text form
  by_cases empty : text = []
  · unfold Reader.characterData
    rw [if_pos empty, empty, List.append_nil]
    exact .refl _
  have path : (progress.written item before).path = lit "Property" :: progress.path := by
    have own : (progress.written item before).path =
      Writer.elementName item.1 :: progress.path := rfl
    rw [own, Writer.elementName, property]
  rw [characterData_property empty path (if_neg outside) (if_pos form), written_builder,
    written_builder]
  unfold Reader.propertyText
  dsimp only
  rw [List.getElem?_concat_length, modify_last]
  rw [Option.map_some, Option.getD_some]
  by_cases beyond : text.length > (settings o).maxMetadataValueBytes -
      min before.length (settings o).maxMetadataValueBytes
  · rw [reject, if_pos beyond]
    refine .inr ⟨_, rfl, .inl rfl, fun there => ?_⟩
    have room := fits.trans there.maxMetadataValueBytes
    simp only [List.length_append] at room
    omega
  · rw [reject, if_neg beyond]
    exact .refl _

/-! ## The end tag -/

/-- The end tag of an element that nothing is kept open for. -/
theorem closeElement_other {state : XmlBuilder} {name : Text} (other : name ∉ Reader.closedNames) :
    Reader.closeElement state true name = .ok state := by
  simp only [Reader.closedNames, List.map_cons, List.map_nil, List.mem_cons, List.not_mem_nil,
    or_false, not_or] at other
  obtain ⟨data, profile, property, cell, row, tableStructure, table, thumbnail, image⟩ := other
  unfold Reader.closeElement
  rw [if_neg (by simp), if_neg data, if_neg profile, if_neg property, if_neg cell,
    if_neg row, if_neg tableStructure, if_neg table, if_neg thumbnail, if_neg image]

/-- The end tag of an entry closes what it has open. -/
theorem closeElement_entry {name : Text} (named : name = lit "Property" ∨
      name = lit "FITSKeyword" ∧ progress.openText = none ∧ progress.openBlock = none) :
    Reader.closeElement progress.builder true name =
      .ok { progress with openText := none, openBlock := none }.builder := by
  rcases named with rfl | ⟨rfl, noText, noBlock⟩
  · have others : lit "Property" ≠ lit "Data" ∧ lit "Property" ≠ lit "ICCProfile" := by decide
    unfold Reader.closeElement
    rw [if_neg (by simp), if_neg others.1, if_neg others.2, if_pos rfl]
    unfold Reader.endProperty
    have index : progress.builder.inlineMetadataIndex = progress.openBlock := rfl
    rw [index]
    cases openBlock : progress.openBlock with
    | none =>
        rw [if_neg (by simp)]
        unfold UnitProgress.builder
        rw [openBlock]
    | some open_ =>
        have complete : Reader.isSequenceIncomplete progress.builder = false := by
          unfold Reader.isSequenceIncomplete UnitProgress.builder
          rw [openBlock]
          rfl
        rw [if_pos Option.isSome_some, complete]
        rfl
  · have still : { progress with openText := none, openBlock := none } = progress := by
      cases progress
      dsimp only at noText noBlock
      rw [noText, noBlock]
    rw [still]
    exact closeElement_other (by decide)

theorem leave_builder (deep : 1 < progress.path.length) :
    Reader.popElement progress.builder = { progress with path := progress.path.tail }.builder := by
  have notRoot : ¬ progress.builder.depth = 1 := by
    have depth : progress.builder.depth = progress.path.length := rfl
    omega
  unfold Reader.popElement
  rw [if_neg notRoot]
  unfold UnitProgress.builder
  rw [List.length_tail, List.map_tail, List.map_tail]

theorem endElement_entry (inside : progress.Inside item)
    (keyword : item.1.kind = .fitsKeyword → item.1.valueForm = .direct) :
    Reader.endElement (progress.written item (listedValue item.1)).builder
      (xisfName (Writer.elementName item.1)) = .ok (progress.gained item).builder := by
  have plain : ∀ name ∈ ["Property", "FITSKeyword"].map lit, Reader.separator ∉ name := by decide
  have known : Writer.elementName item.1 ∈ ["Property", "FITSKeyword"].map lit := by
    rw [Writer.elementName]
    cases item.1.kind with
    | property => decide
    | fitsKeyword => decide
  have named : Writer.elementName item.1 = lit "Property" ∨
      Writer.elementName item.1 = lit "FITSKeyword" ∧
        (progress.written item (listedValue item.1)).openText = none ∧
          (progress.written item (listedValue item.1)).openBlock = none := by
    cases kind : item.1.kind with
    | property => exact .inl (by rw [Writer.elementName, kind])
    | fitsKeyword =>
        have stored : Writer.hasBlock item.1 = false := by
          simp [Writer.hasBlock, keyword kind]
        refine .inr ⟨by rw [Writer.elementName, kind], if_neg fun text => ?_, if_neg ?_⟩
        · rw [(property_of_text text).1] at kind
          cases kind
        · simp [listedBlock, stored, keyword kind, BlockLocation.empty]
  have deep : 1 < (progress.written item (listedValue item.1)).path.length := by
    have length : 0 < progress.path.length := by
      rw [List.length_pos_iff]
      intro none
      have parent := inside.parent
      have isParent : (entryElement item).parent =
          if item.1.imageIndex.isSome then lit "Image" else lit "Metadata" := rfl
      rw [none, isParent] at parent
      split at parent <;> exact absurd parent (by decide)
    have path : (progress.written item (listedValue item.1)).path =
        Writer.elementName item.1 :: progress.path := rfl
    rw [path, List.length_cons]
    omega
  unfold Reader.endElement
  rw [localName_xisf (plain _ known), namespaceName_xisf (plain _ known),
    decide_eq_true (rfl : Reader.kXisfNamespace = Reader.kXisfNamespace)]
  dsimp only
  rw [closeElement_entry named]
  have left := @leave_builder { progress.written item (listedValue item.1) with
    openText := none
    openBlock := none } deep
  have gained : { progress.written item (listedValue item.1) with
      openText := none
      openBlock := none
      path := progress.path } = progress.gained item := by
    unfold UnitProgress.gained UnitProgress.list UnitProgress.mark UnitProgress.locate
    rw [inside.noText, inside.noBlock]
    rfl
  rw [← gained]
  exact congrArg Except.ok left

/-! ## The whole entry -/

/-- The element of an entry is one that the handlers take. -/
structure SoundEntry (item : MetadataWriteEntry × PlannedBlock) : Prop where
  reported : reportedTags (Writer.metadataAttributes item.1 (headerBlock item)) =
    (entryElement item).attributes
  declares : Declares (entryElement item) (startedEntry item)
  placed : Writer.hasBlock item.1 = true → PlacedBlock item.2
  keyword : item.1.kind = .fitsKeyword → item.1.valueForm = .direct
  parent : Reader.isMetadataParent (entryElement item) = true
  formed : (entryElement item).name = lit "Property" →
    Reader.checkPropertyForm (entryElement item) (startedEntry item)
      ((entryElement item).attr "value") (Reader.entryLocation (entryElement item)) = .ok ()
  located : Locates (entryElement item) (entryRanges item)

theorem SoundEntry.takes {ω : Type} {need : ReaderOptions} {settings : ω → ReaderOptions}
    {platform : Platform} (sound : SoundEntry item) (inside : progress.Inside item)
    (lets : progress.LetsEntry need item)
    (identified : IdentifiedAs
      ((progress.enter (Writer.elementName item.1)).locate (entryRanges item)).builder
      (entryElement item) (Reader.entryName (entryElement item))) :
    Takes need settings platform progress.builder (entryEvents item)
      (progress.gained item).builder := by
  have known : Writer.elementName item.1 ∈ unitElements := by
    rw [Writer.elementName]
    cases item.1.kind with
    | property => decide
    | fitsKeyword => decide
  have parents : progress.path.headD [] ∈ unitParents := by
    have isParent : (entryElement item).parent =
        if item.1.imageIndex.isSome then lit "Image" else lit "Metadata" := rfl
    rw [inside.parent, isParent]
    split <;> decide
  have isElement : progress.element (Writer.elementName item.1) (entryElement item).attributes =
      entryElement item := by
    unfold UnitProgress.element
    rw [inside.parent]
    rfl
  have started := @UnitProgress.start _ need settings platform progress
    (entryElement item).attributes (Writer.elementName item.1) (entryRanges item)
    (progress.opened item).builder known parents inside.noBlock lets.toLetsIn
    (isElement.symm ▸ sound.located) (isElement.symm ▸ sound.declares.noUid)
    (isElement.symm ▸ entry_opens inside lets sound.declares sound.placed sound.parent identified
      sound.formed)
  have finish := @Takes.finish _ need settings platform _ _ _
    (endElement_entry inside sound.keyword)
  unfold entryEvents
  rw [sound.reported]
  refine .start started ?_
  unfold entryText
  by_cases text : listedForm item.1 = .characterData
  · have empty : progress.opened item = progress.written item [] := by
      unfold UnitProgress.written
      have noValue : startedEntry item = { startedEntry item with value := [] } := by
        have value : (startedEntry item).value = [] := if_pos text
        rw [← value]
      rw [← noValue]
      rfl
    have value : listedValue item.1 = normalizeNewlines item.1.value := if_pos text
    have direct : item.1.valueForm = .direct ∧ item.1.type = lit "String" := by
      cases form : item.1.valueForm with
      | direct =>
          simp only [listedForm, form] at text
          split at text
          · rename_i both
            exact ⟨rfl, both.2⟩
          · cases text
      | dataBlock =>
          simp only [listedForm, form] at text
          cases text
    rw [empty]
    by_cases none : item.1.value = []
    · have noText : listedValue item.1 = [] := by
        rw [value, none]
        rfl
      rw [if_neg fun all => all.2.2.2 none, ← noText]
      exact finish
    · rw [if_pos ⟨(property_of_text text).1, direct.1, direct.2, none⟩, ← value]
      refine .append (@Takes.text _ need settings platform
        (fun t => (progress.written item t).builder) _ fun o before piece after whole => ?_) finish
      exact text_piece text o before piece after (whole ▸ lets.value)
  · have whole : progress.opened item = progress.written item (listedValue item.1) := by
      have value : (startedEntry item).value = listedValue item.1 := if_neg text
      unfold UnitProgress.written
      rw [← value]
      rfl
    have noText : ¬ (item.1.kind = .property ∧ item.1.valueForm = .direct ∧
        item.1.type = lit "String" ∧ item.1.value ≠ []) := by
      rintro ⟨kind, form, type, -⟩
      exact text (by simp [listedForm, kind, form, type])
    rw [if_neg noText, whole]
    exact finish

/-- A direct Property. -/
theorem sound_direct (kind : item.1.kind = .property) (form : item.1.valueForm = .direct)
    (undeclared : Writer.declaresBlock item.1 = false) (tidy : Tidy item.1.name)
    (value : DirectValue item.1.type item.1.value) (uncommented : item.1.comment = []) :
    SoundEntry item := by
  have stored : Writer.hasBlock item.1 = false := by
    simp [Writer.hasBlock, form]
  have unstored (other : Writer.hasBlock item.1 = true) : False := by
    rw [stored] at other
    cases other
  have declares := property_declares kind form undeclared tidy.dark value uncommented
  constructor
  case reported =>
    exact reported_entry tidy (classified_tidy value.classified) fun other => (unstored other).elim
  case declares => exact declares
  case placed => exact fun other => (unstored other).elim
  case keyword => exact fun _ => form
  case parent => exact parent_of_property kind
  case formed =>
    have made := started_made declares stateOf_image
    exact fun _ => @formed_direct (stateOf item) (delivered item.1) (headerBlock item)
      (startedEntry item) kind form value.newlines made
  case located =>
    rw [entryRanges, stored]
    exact .none (property_absent kind form "location" (by decide))

/-- The element of an accepted entry. -/
theorem EntryReady.sound {imageCount : Nat} (ready : EntryReady imageCount item) :
    SoundEntry item := by
  cases ready.accepted.valid with
  | fitsKeyword kind image name =>
      obtain ⟨form, untyped⟩ := ready.accepted.fitsKeyword kind
      have stored : Writer.hasBlock item.1 = false := by
        simp [Writer.hasBlock, form]
      constructor
      case reported =>
        exact reported_entry ready.accepted.valid.tidyName (ValidEntry.tidyType ready.accepted)
          ready.tidy
      case declares =>
        exact keyword_declares kind form untyped (ready.accepted.direct form)
          ready.accepted.valid.tidyName.dark
      case placed => exact ready.placed
      case keyword => exact fun _ => form
      case parent => exact @parent_of_image (delivered item.1) (headerBlock item) image
      case formed =>
        intro property
        rw [isProperty_iff, kind] at property
        cases property
      case located =>
        rw [entryRanges, stored]
        exact .none (keyword_absent kind "location" (by decide))
  | direct kind form name unit value =>
      exact sound_direct kind form (ready.accepted.direct form) ready.accepted.valid.tidyName value
        (ready.accepted.comment kind)
  | block kind form name unit extents =>
      have declares := block_declares kind form ready.accepted.valid.tidyName.dark
        extents.classified
        ready
      constructor
      case reported =>
        exact reported_entry ready.accepted.valid.tidyName (ValidEntry.tidyType ready.accepted)
          ready.tidy
      case declares => exact declares
      case placed => exact ready.placed
      case keyword =>
        intro isKeyword
        rw [kind] at isKeyword
        cases isKeyword
      case parent => exact parent_of_property kind
      case formed =>
        have made := started_made declares stateOf_image
        have located : Writer.isEmptyPropertyContainer (delivered item.1) = true ∨
            headerBlock item ≠ none := by
          right
          simp [headerBlock, form]
        have extentsDelivered : BlockExtents (delivered item.1) := by
          cases extents with
          | vector category length => exact .vector category length
          | matrix category length => exact .matrix category length
        exact fun _ => @formed_block (stateOf item) (delivered item.1) (headerBlock item)
          (startedEntry item) kind form extentsDelivered located made
      case located => exact (ready.described kind form).located

/-- A valid entry is identified by its name. -/
theorem ValidEntry.identified {entry : MetadataWriteEntry}
    {block : Option (BlockLocation × Writer.PreparedBlock)} {state : XmlBuilder}
    (valid : ValidEntry entry) (stored : entry.valueForm = .dataBlock → block ≠ none) :
    IdentifiedAs state (reportedElement entry block)
      (Reader.entryName (reportedElement entry block)) := by
  cases valid with
  | fitsKeyword kind image name =>
      obtain ⟨isName, value, comment⟩ := @attr_fitsKeyword entry block kind
      have keyword : (reportedElement entry block).name ≠ lit "Property" := by
        simp only [reportedElement, Writer.elementName, kind]
        decide
      have identity : Reader.entryName (reportedElement entry block) = entry.name := by
        unfold Reader.entryName ElementContext.attributeOr
        rw [if_neg keyword, isName, (dark_of_keywordName name).normalize]
        rfl
      rw [identity]
      refine ⟨?_, fun _ => ⟨value, comment, name⟩, fun property => absurd property keyword,
        fun property => absurd property keyword⟩
      rintro empty
      rw [empty] at name
      cases name
  | direct kind form name unit value =>
      refine identified_property kind name (unit.checked entry.type) value.classified fun _ => ?_
      have absent (wanted : String) (isName : wanted ∈ metadataNames)
          (later : wanted ≠ "id" ∧ wanted ≠ "type" ∧ wanted ≠ "value") :
          (reportedElement entry block).attr wanted = none := attr_direct kind form isName later
      unfold Reader.hasBlockAttributes
      rw [absent "byteOrder" (by decide) (by decide), absent "compression" (by decide) (by decide),
        absent "subblocks" (by decide) (by decide), absent "checksum" (by decide) (by decide)]
      rfl
  | block kind form name unit extents =>
      refine identified_property kind name (unit.checked entry.type) extents.classified
        fun none => ?_
      have place := (attr_block kind form (.inr (stored form))).2.1
      rw [Option.isNone_iff_eq_none.mp none] at place
      cases place

/-- The handlers take an accepted entry to one more listed entry. -/
theorem entry_takes {ω : Type} {need : ReaderOptions} {settings : ω → ReaderOptions}
    {platform : Platform} {imageCount : Nat} (ready : EntryReady imageCount item)
    (inside : progress.Inside item) (lets : progress.LetsEntry need item) :
    Takes need settings platform progress.builder (entryEvents item)
      (progress.gained item).builder := by
  refine ready.sound.takes inside lets (ready.accepted.valid.delivered.identified fun form => ?_)
  have isBlock : item.1.valueForm = .dataBlock := form
  simp [headerBlock, isBlock]

/-- A direct Property of the unit that the handlers know. -/
theorem unit_takes {ω : Type} {need : ReaderOptions} {settings : ω → ReaderOptions}
    {platform : Platform}
    (kind : item.1.kind = .property) (form : item.1.valueForm = .direct)
    (undeclared : Writer.declaresBlock item.1 = false) (tidy : Tidy item.1.name)
    (name : Writer.isValidPropertyIdentifier item.1.name = true)
    (value : DirectValue item.1.type item.1.value) (uncommented : item.1.comment = [])
    (inside : progress.Inside item) (lets : progress.LetsEntry need item)
    (unit : ∃ state', Reader.checkUnitProperty
      ((progress.enter (Writer.elementName item.1)).locate (entryRanges item)).builder
        (entryElement item) item.1.name item.1.type = .ok state') :
    Takes need settings platform progress.builder (entryEvents item)
      (progress.gained item).builder := by
  refine (sound_direct kind form undeclared tidy value uncommented).takes inside lets
    (identified_property kind name (fun _ => unit) value.classified fun _ => ?_)
  have absent (wanted : String) (member : wanted ∈ blockNames) :
      (entryElement item).attr wanted = none :=
    property_absent kind form wanted (List.mem_cons_of_mem _ member)
  have isElement : reportedElement (delivered item.1) (headerBlock item) = entryElement item := rfl
  unfold Reader.hasBlockAttributes
  rw [isElement, absent "byteOrder" (by decide), absent "compression" (by decide),
    absent "subblocks" (by decide), absent "checksum" (by decide)]
  rfl

section

variable {ω : Type} {need : ReaderOptions} {settings : ω → ReaderOptions} {platform : Platform}
  {writer : WriterOptions}

theorem creationTime_checked {state : XmlBuilder} {element : ElementContext}
    (fresh : state.sawCreationTime = false) : ∃ state', Reader.checkUnitProperty state element
      (lit "XISF:CreationTime") (lit "TimePoint") = .ok state' := by
  have namespaced : (lit "XISF:").isPrefixOf (lit "XISF:CreationTime") = true := by decide
  exact ⟨{ state with sawCreationTime := true }, by
    simp [Reader.checkUnitProperty, namespaced, fresh, reject, bind, Except.bind, pure,
      Except.pure]⟩

theorem creator_checked {state : XmlBuilder} {element : ElementContext}
    (fresh : state.sawCreatorApplication = false) : ∃ state', Reader.checkUnitProperty state element
      (lit "XISF:CreatorApplication") (lit "String") = .ok state' := by
  have namespaced : (lit "XISF:").isPrefixOf (lit "XISF:CreatorApplication") = true := by decide
  have other : lit "XISF:CreatorApplication" ≠ lit "XISF:CreationTime" := by decide
  exact ⟨{ state with sawCreatorApplication := true }, by
    simp [Reader.checkUnitProperty, namespaced, fresh, other, reject, bind, Except.bind, pure,
      Except.pure]⟩

/-- The two Properties that a writer adds, each for the first time. -/
theorem creationTime_takes (canonical : Writer.isCanonicalUtcTime writer.creationTime = true)
    (inside : progress.Inside (creationTimeEntry writer, {}))
    (lets : progress.LetsEntry need (creationTimeEntry writer, {}))
    (fresh : progress.sawCreationTime = false) :
    Takes need settings platform progress.builder (entryEvents (creationTimeEntry writer, {}))
      (progress.gained (creationTimeEntry writer, {})).builder := by
  have tidy : Tidy (lit "XISF:CreationTime") := by decide
  have name : Writer.isValidPropertyIdentifier (lit "XISF:CreationTime") = true := by decide
  exact unit_takes rfl rfl rfl tidy name (.timePoint canonical) rfl inside lets
    (creationTime_checked fresh)

theorem creator_takes (inside : progress.Inside (creatorEntry writer, {}))
    (lets : progress.LetsEntry need (creatorEntry writer, {}))
    (fresh : progress.sawCreatorApplication = false) :
    Takes need settings platform progress.builder (entryEvents (creatorEntry writer, {}))
      (progress.gained (creatorEntry writer, {})).builder := by
  have tidy : Tidy (lit "XISF:CreatorApplication") := by decide
  have name : Writer.isValidPropertyIdentifier (lit "XISF:CreatorApplication") = true := by decide
  exact unit_takes rfl rfl rfl tidy name (.string _) rfl inside lets (creator_checked fresh)

end

end

end Mmxisf
