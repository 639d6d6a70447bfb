/-
# Reader.Limits -- the limits of the reader are checks of their own

Every limit of `ReaderOptions` is read in one kind of place: a check that fails with
`resource_limit`, or for the header's length with `header_too_large`.  So of two runs
of a handler that differ in their limits, the one with the tighter limits is stopped by
such a check, or both come to the same end (`Gated`).
-/
import Mmxisf.Library.Gating
import Mmxisf.Reader.Header

namespace Mmxisf.Reader

set_option autoImplicit false

/-! ## Limits in order -/

/-- Every limit is at most the other. -/
structure Tighter (low high : ReaderOptions) : Prop where
  maxHeaderBytes : low.maxHeaderBytes ≤ high.maxHeaderBytes
  maxXmlDepth : low.maxXmlDepth ≤ high.maxXmlDepth
  maxXmlNodes : low.maxXmlNodes ≤ high.maxXmlNodes
  maxAttributesPerElement : low.maxAttributesPerElement ≤ high.maxAttributesPerElement
  maxImages : low.maxImages ≤ high.maxImages
  maxMetadataEntries : low.maxMetadataEntries ≤ high.maxMetadataEntries
  maxMetadataValueBytes : low.maxMetadataValueBytes ≤ high.maxMetadataValueBytes
  maxExtensionElements : low.maxExtensionElements ≤ high.maxExtensionElements
  maxExtensionAttributes : low.maxExtensionAttributes ≤ high.maxExtensionAttributes
  maxExtensionBytes : low.maxExtensionBytes ≤ high.maxExtensionBytes
  maxAncillaryObjects : low.maxAncillaryObjects ≤ high.maxAncillaryObjects
  maxAncillaryAttributes : low.maxAncillaryAttributes ≤ high.maxAncillaryAttributes
  maxAncillaryBindings : low.maxAncillaryBindings ≤ high.maxAncillaryBindings
  maxAncillaryBytes : low.maxAncillaryBytes ≤ high.maxAncillaryBytes
  maxIccProfiles : low.maxIccProfiles ≤ high.maxIccProfiles
  maxIccProfileBindings : low.maxIccProfileBindings ≤ high.maxIccProfileBindings
  maxSerializedIccProfileBytes : low.maxSerializedIccProfileBytes ≤
    high.maxSerializedIccProfileBytes
  maxDecodedIccProfileBytes : low.maxDecodedIccProfileBytes ≤ high.maxDecodedIccProfileBytes
  maxThumbnails : low.maxThumbnails ≤ high.maxThumbnails
  maxThumbnailBindings : low.maxThumbnailBindings ≤ high.maxThumbnailBindings
  maxThumbnailDimension : low.maxThumbnailDimension ≤ high.maxThumbnailDimension
  maxSerializedThumbnailBytes : low.maxSerializedThumbnailBytes ≤ high.maxSerializedThumbnailBytes
  maxDecodedThumbnailBytes : low.maxDecodedThumbnailBytes ≤ high.maxDecodedThumbnailBytes
  maxTableStructures : low.maxTableStructures ≤ high.maxTableStructures
  maxTables : low.maxTables ≤ high.maxTables
  maxTableFields : low.maxTableFields ≤ high.maxTableFields
  maxTableRows : low.maxTableRows ≤ high.maxTableRows
  maxTableCells : low.maxTableCells ≤ high.maxTableCells
  maxTableBindings : low.maxTableBindings ≤ high.maxTableBindings
  maxTableTextBytes : low.maxTableTextBytes ≤ high.maxTableTextBytes
  maxEncodedBlockBytes : low.maxEncodedBlockBytes ≤ high.maxEncodedBlockBytes
  maxSerializedImageBytes : low.maxSerializedImageBytes ≤ high.maxSerializedImageBytes
  maxSerializedPropertyBytes : low.maxSerializedPropertyBytes ≤ high.maxSerializedPropertyBytes
  maxDecodedPropertyBytes : low.maxDecodedPropertyBytes ≤ high.maxDecodedPropertyBytes
  maxUnusedSpaceBytes : low.maxUnusedSpaceBytes ≤ high.maxUnusedSpaceBytes
  maxCompressedSubblocks : low.maxCompressedSubblocks ≤ high.maxCompressedSubblocks
  maxDecompressionRatio : low.maxDecompressionRatio ≤ high.maxDecompressionRatio
  maxZstdWindowBytes : low.maxZstdWindowBytes ≤ high.maxZstdWindowBytes
  maxImageDimensions : low.maxImageDimensions ≤ high.maxImageDimensions
  maxInspectedChannels : low.maxInspectedChannels ≤ high.maxInspectedChannels
  maxDecodedChannels : low.maxDecodedChannels ≤ high.maxDecodedChannels
  maxSamplesPerImage : low.maxSamplesPerImage ≤ high.maxSamplesPerImage
  maxDecodedImageBytes : low.maxDecodedImageBytes ≤ high.maxDecodedImageBytes

/-- The errors of a limit. -/
def IsLimit (e : Error) : Prop := e.code = .resourceLimit ∨ e.code = .headerTooLarge

/-- The result with tight limits is the other, unless a limit stopped it. -/
abbrev Gated {α : Type} (tight loose : Result α) : Prop := Library.Gates IsLimit tight loose

section

variable {low high : ReaderOptions} {state : XmlBuilder} {element : ElementContext}

open Library (Gates)

/-! ## Checks -/

theorem gated_reject {bad bad' : Prop} [Decidable bad] [Decidable bad'] (also : bad' → bad)
    (message : String) (element attributeName : Text) :
    Gated (reject bad .resourceLimit message element attributeName)
      (reject bad' .resourceLimit message element attributeName) := by
  by_cases beyond : bad
  · rw [reject, if_pos beyond]
    exact .stopped (.inl rfl)
  · rw [reject, reject, if_neg beyond, if_neg (mt also beyond)]
    exact .refl _

/-- A count that must stay below its limit. -/
theorem gated_below {count limit limit' : Nat} (within : limit ≤ limit') (message : String)
    (element attributeName : Text) :
    Gated (reject (count ≥ limit) .resourceLimit message element attributeName)
      (reject (count ≥ limit') .resourceLimit message element attributeName) :=
  gated_reject (fun beyond => within.trans beyond) ..

/-- A size that must not exceed its limit. -/
theorem gated_atMost {size limit limit' : Nat} (within : limit ≤ limit') (message : String)
    (element attributeName : Text) :
    Gated (reject (size > limit) .resourceLimit message element attributeName)
      (reject (size > limit') .resourceLimit message element attributeName) :=
  gated_reject (fun beyond => Nat.lt_of_le_of_lt within beyond) ..

/-- A size that must not exceed what a limit leaves. -/
theorem gated_available {size used limit limit' : Nat} (within : limit ≤ limit')
    (message : String) (element attributeName : Text) :
    Gated (reject (size > limit - min used limit) .resourceLimit message element attributeName)
      (reject (size > limit' - min used limit') .resourceLimit message element attributeName) := by
  refine gated_reject ?_ ..
  omega

theorem gated_consumeBytes {limit limit' : Nat} (within : limit ≤ limit') (used count : Nat)
    (message : String) (name : Text) :
    Gated (consumeBytes limit used count message name)
      (consumeBytes limit' used count message name) := by
  unfold consumeBytes
  by_cases beyond : count > limit - min used limit
  · rw [if_pos beyond]
    exact .stopped (.inl rfl)
  · rw [if_neg beyond, if_neg (by omega)]
    exact .refl _

theorem Tighter.consumeExtensionBytes (tighter : Tighter low high) (count : Nat) (name : Text) :
    Gated (consumeExtensionBytes low state count name)
      (consumeExtensionBytes high state count name) :=
  .bind (gated_consumeBytes tighter.maxExtensionBytes ..) fun _ => .refl _

theorem Tighter.consumeAncillaryBytes (tighter : Tighter low high) (count : Nat) (name : Text) :
    Gated (consumeAncillaryBytes low state count name)
      (consumeAncillaryBytes high state count name) :=
  .bind (gated_consumeBytes tighter.maxAncillaryBytes ..) fun _ => .refl _

theorem Tighter.consumeTableTextBytes (tighter : Tighter low high) (count : Nat) (name : Text) :
    Gated (consumeTableTextBytes low state count name)
      (consumeTableTextBytes high state count name) :=
  .bind (gated_consumeBytes tighter.maxTableTextBytes ..) fun _ => .refl _

theorem gated_bindToImage {limit limit' : Nat} (within : limit ≤ limit') (message : String)
    (events : List ObjectBindingEvent) (index : Nat) (image : Option Nat) :
    Gated (bindToImage limit message events index image element)
      (bindToImage limit' message events index image element) := by
  unfold bindToImage
  cases image with
  | none => exact .refl _
  | some image => exact .bind (gated_below within ..) fun _ => .refl _

/-! ## Start tags -/

namespace Tighter

theorem recordExtension (tighter : Tighter low high) :
    Gated (recordExtension low state element) (recordExtension high state element) := by
  unfold Reader.recordExtension
  refine .ite (fun _ => ?_) fun _ => .refl _
  refine .after (fun _ => ?_) _
  refine .bind (gated_below tighter.maxExtensionElements ..) fun _ => ?_
  refine .bind (gated_available tighter.maxExtensionAttributes ..) fun _ => ?_
  refine .after (fun _ => ?_) _
  exact .bind (tighter.consumeExtensionBytes ..) fun _ => .refl _

theorem startTable (tighter : Tighter low high) :
    Gated (startTable low state element) (startTable high state element) := by
  unfold Reader.startTable
  refine .after (fun _ => ?_) _
  refine .bind (gated_below tighter.maxTables ..) fun _ => ?_
  refine .after (fun _ => .after (fun _ => .after (fun _ => ?_) _) _) _
  refine .bind (tighter.consumeTableTextBytes ..) fun _ => ?_
  exact .bind (gated_bindToImage tighter.maxTableBindings ..) fun _ => .refl _

theorem recordTableReference (tighter : Tighter low high) (reference : Text) :
    Gated (recordTableReference low state element reference)
      (recordTableReference high state element reference) := by
  unfold Reader.recordTableReference
  refine .ite (fun _ => ?_) fun _ => .refl _
  refine .after (fun _ => ?_) _
  exact .bind (gated_below tighter.maxTables ..) fun _ => .refl _

theorem recordReferenceBinding (tighter : Tighter low high) (reference : Text) :
    Gated (recordReferenceBinding low state element reference)
      (recordReferenceBinding high state element reference) := by
  unfold Reader.recordReferenceBinding
  refine .ite (fun _ => ?_) fun _ => .refl _
  exact .bind (gated_below tighter.maxMetadataEntries ..) fun _ => .refl _

theorem recordIdentity (tighter : Tighter low high) :
    Gated (recordIdentity low state element) (recordIdentity high state element) := by
  unfold Reader.recordIdentity
  refine .ite (fun _ => .ite (fun _ => ?_) fun _ => .refl _) fun _ => .refl _
  unfold recordReference
  refine .after (fun _ => ?_) _
  exact .bind (tighter.recordTableReference _) fun _ => tighter.recordReferenceBinding _

theorem startStructure (tighter : Tighter low high) :
    Gated (startStructure low state element) (startStructure high state element) := by
  unfold Reader.startStructure
  refine .after (fun _ => ?_) _
  refine .bind (gated_below tighter.maxTableStructures ..) fun _ => ?_
  refine .after (fun _ => .after (fun _ => ?_) _) _
  exact .bind (tighter.consumeTableTextBytes ..) fun _ => .refl _

theorem startField (tighter : Tighter low high) :
    Gated (startField low state element) (startField high state element) := by
  unfold Reader.startField
  refine .after (fun _ => ?_) _
  refine .bind (gated_below tighter.maxTableFields ..) fun _ => ?_
  refine .after (fun _ => ?_) _
  exact .bind (tighter.consumeTableTextBytes ..) fun _ => .refl _

theorem startRow (tighter : Tighter low high) :
    Gated (startRow low state element) (startRow high state element) := by
  unfold Reader.startRow
  refine .after (fun _ => ?_) _
  exact .bind (gated_below tighter.maxTableRows ..) fun _ => .refl _

theorem startCell (tighter : Tighter low high) :
    Gated (startCell low state element) (startCell high state element) := by
  unfold Reader.startCell
  refine .after (fun _ => ?_) _
  refine .bind (gated_below tighter.maxTableCells ..) fun _ => ?_
  refine .after (fun _ => .after (fun _ => .after (fun _ => ?_) _) _) _
  refine .bind (tighter.consumeTableTextBytes ..) fun _ => ?_
  refine .after (fun block => ?_) _
  obtain ⟨block, valueForm⟩ := block
  refine .after (fun _ => ?_) _
  -- the four attributes of a data block are charged one by one
  refine .bind (tighter.consumeTableTextBytes ..) fun _ => ?_
  refine .bind (tighter.consumeTableTextBytes ..) fun _ => ?_
  refine .bind (tighter.consumeTableTextBytes ..) fun _ => ?_
  exact .bind (tighter.consumeTableTextBytes ..) fun _ => .refl _

theorem startIccProfile (tighter : Tighter low high) :
    Gated (startIccProfile low state element) (startIccProfile high state element) := by
  unfold Reader.startIccProfile
  refine .after (fun _ => ?_) _
  refine .bind (gated_below tighter.maxIccProfiles ..) fun _ => ?_
  refine .after (fun _ => .after (fun _ => .after (fun _ => .after (fun _ => ?_) _) _) _) _
  exact .bind (gated_bindToImage tighter.maxIccProfileBindings ..) fun _ => .refl _

theorem startAncillary (tighter : Tighter low high) (platform : Platform) (kind : AncillaryKind) :
    Gated (startAncillary low platform state kind element)
      (startAncillary high platform state kind element) := by
  unfold Reader.startAncillary
  refine .after (fun _ => ?_) _
  refine .bind (gated_below tighter.maxAncillaryObjects ..) fun _ => ?_
  refine .bind (gated_available tighter.maxAncillaryAttributes ..) fun _ => ?_
  refine .after (fun _ => .after (fun _ => ?_) _) _
  refine .bind (tighter.consumeAncillaryBytes ..) fun _ => ?_
  exact .bind (gated_bindToImage tighter.maxAncillaryBindings ..) fun _ => .refl _

theorem thumbnailGeometry (tighter : Tighter low high) (geometry : Text) :
    Gated (thumbnailGeometry low element geometry) (thumbnailGeometry high element geometry) := by
  unfold Reader.thumbnailGeometry
  split
  · refine .bind (gated_reject ?_ ..) fun _ => .refl _
    have within := tighter.maxThumbnailDimension
    omega
  · exact .refl _

theorem startThumbnail (tighter : Tighter low high) :
    Gated (startThumbnail low state element) (startThumbnail high state element) := by
  unfold Reader.startThumbnail
  refine .after (fun _ => ?_) _
  refine .bind (gated_below tighter.maxThumbnails ..) fun _ => ?_
  refine .after (fun _ => .after (fun _ => .after (fun _ => .after (fun _ => ?_) _) _) _) _
  refine .bind (tighter.thumbnailGeometry _) fun geometry => ?_
  obtain ⟨width, height, channels⟩ := geometry
  refine .after (fun _ => .after (fun _ => .after (fun _ => ?_) _) _) _
  refine .after (fun _ => .after (fun _ => .after (fun _ => ?_) _) _) _
  exact .bind (gated_bindToImage tighter.maxThumbnailBindings ..) fun _ => .refl _

theorem startImage (tighter : Tighter low high) (platform : Platform) :
    Gated (startImage low platform state element) (startImage high platform state element) := by
  unfold Reader.startImage
  refine .after (fun _ => ?_) _
  refine .bind (gated_below tighter.maxImages ..) fun _ => ?_
  refine .after (fun _ => .after (fun _ => .after (fun _ => .after (fun _ => ?_) _) _) _) _
  refine .bind (gated_atMost tighter.maxImageDimensions ..) fun _ => ?_
  exact .bind (gated_atMost tighter.maxInspectedChannels ..) fun _ => .refl _

theorem checkMetadata (tighter : Tighter low high) (identity : Text) :
    Gated (checkMetadata low state element identity)
      (checkMetadata high state element identity) := by
  unfold Reader.checkMetadata
  refine .after (fun _ => .after (fun _ => .after (fun _ => ?_) _) _) _
  exact .bind (gated_atMost tighter.maxMetadataValueBytes ..) fun _ => .refl _

theorem bindMetadata (tighter : Tighter low high) (index : Nat) (entry : MetadataEntry) :
    Gated (bindMetadata low state element index entry)
      (bindMetadata high state element index entry) := by
  unfold Reader.bindMetadata
  refine .ite (fun _ => ?_) fun _ => .refl _
  exact .bind (gated_below tighter.maxMetadataEntries ..) fun _ => .refl _

theorem startMetadataEntry (tighter : Tighter low high) :
    Gated (startMetadataEntry low state element) (startMetadataEntry high state element) := by
  unfold Reader.startMetadataEntry
  refine .after (fun _ => ?_) _
  refine .bind (gated_below tighter.maxMetadataEntries ..) fun _ => ?_
  refine .bind (tighter.checkMetadata _) fun _ => ?_
  refine .after (fun _ => .after (fun _ => ?_) _) _
  exact .bind (tighter.bindMetadata ..) fun _ => .refl _

theorem openElement (tighter : Tighter low high) (platform : Platform) :
    Gated (openElement low platform state element) (openElement high platform state element) := by
  unfold Reader.openElement
  refine .ite (fun _ => .refl _) fun _ => ?_
  refine .ite (fun _ => tighter.startTable) fun _ => ?_
  refine .ite (fun _ => tighter.startStructure) fun _ => ?_
  refine .ite (fun _ => tighter.startField) fun _ => ?_
  refine .ite (fun _ => tighter.startRow) fun _ => ?_
  refine .ite (fun _ => tighter.startCell) fun _ => ?_
  refine .ite (fun _ => tighter.startIccProfile) fun _ => ?_
  cases ancillaryKind element.name with
  | some kind => exact tighter.startAncillary platform kind
  | none =>
      refine .ite (fun _ => tighter.startThumbnail) fun _ => ?_
      refine .ite (fun _ => .refl _) fun _ => ?_
      refine .ite (fun _ => tighter.startImage platform) fun _ => ?_
      refine .ite (fun _ => .refl _) fun _ => ?_
      exact .ite (fun _ => tighter.startMetadataEntry) fun _ => .refl _

theorem enterElement (tighter : Tighter low high) :
    Gated (enterElement low state element) (enterElement high state element) := by
  unfold Reader.enterElement
  refine .bind (gated_atMost tighter.maxXmlDepth ..) fun _ => ?_
  refine .bind (gated_atMost tighter.maxXmlNodes ..) fun _ => ?_
  exact .bind (gated_atMost tighter.maxAttributesPerElement ..) fun _ => .refl _

theorem startElement (tighter : Tighter low high) (platform : Platform) (name : Text)
    (attributes : List (Text × Text)) :
    Gated (startElement low platform state name attributes)
      (startElement high platform state name attributes) := by
  unfold Reader.startElement
  refine .bind tighter.enterElement fun _ => ?_
  refine .bind tighter.recordExtension fun recorded => ?_
  obtain ⟨recorded, extensionIndex⟩ := recorded
  refine .after (fun _ => .after (fun _ => .after (fun _ => ?_) _) _) _
  refine .ite (fun _ => .refl _) fun _ => ?_
  exact .bind tighter.recordIdentity fun _ => tighter.openElement platform

/-! ## Text -/

theorem appendInlineByte (tighter : Tighter low high) (value : Nat) :
    Gated (appendInlineByte low state value) (appendInlineByte high state value) := by
  unfold Reader.appendInlineByte
  split
  · exact .bind (gated_below tighter.maxSerializedPropertyBytes ..) fun _ => .refl _
  · exact .bind (gated_below tighter.maxSerializedIccProfileBytes ..) fun _ => .refl _
  · exact .bind (gated_below tighter.maxSerializedThumbnailBytes ..) fun _ => .refl _
  · exact .bind (gated_below tighter.maxDecodedImageBytes ..) fun _ => .refl _

theorem decodeBase64Quartet (tighter : Tighter low high) (q0 q1 q2 q3 : Nat) :
    Gated (decodeBase64Quartet low state q0 q1 q2 q3)
      (decodeBase64Quartet high state q0 q1 q2 q3) := by
  unfold Reader.decodeBase64Quartet
  refine .after (fun _ => .bind (tighter.appendInlineByte _) fun _ => ?_) _
  refine .ite (fun _ => .refl _) fun _ => .bind (tighter.appendInlineByte _) fun _ => ?_
  exact .ite (fun _ => .refl _) fun _ => tighter.appendInlineByte _

theorem decodeHexCharacter (tighter : Tighter low high) (c : Byte) :
    Gated (decodeHexCharacter low state c) (decodeHexCharacter high state c) := by
  unfold Reader.decodeHexCharacter
  refine .after (fun _ => ?_) _
  cases state.hexHighNibble with
  | none => exact .refl _
  | some value => exact .bind (tighter.appendInlineByte _) fun _ => .refl _

theorem decodeBase64Character (tighter : Tighter low high) (c : Byte) :
    Gated (decodeBase64Character low state c) (decodeBase64Character high state c) := by
  unfold Reader.decodeBase64Character
  refine .after (fun _ => .after (fun _ => ?_) _) _
  split
  · exact .bind (tighter.decodeBase64Quartet ..) fun _ => .refl _
  · exact .refl _

theorem decodeEmbeddedText (tighter : Tighter low high) (text : Text) :
    Gated (decodeEmbeddedText low state text) (decodeEmbeddedText high state text) := by
  induction text generalizing state with
  | nil => exact .refl _
  | cons c rest ih =>
      rw [Reader.decodeEmbeddedText, Reader.decodeEmbeddedText]
      refine .ite (fun _ => ih) fun _ => ?_
      refine .bind (gated_below tighter.maxEncodedBlockBytes ..) fun _ => ?_
      refine .bind ?_ fun _ => ih
      exact .ite (fun _ => tighter.decodeHexCharacter c) fun _ => tighter.decodeBase64Character c

theorem cellText (tighter : Tighter low high) (place : Nat × Nat × Nat) (text : Text) :
    Gated (cellText low state place text) (cellText high state place text) := by
  unfold Reader.cellText
  obtain ⟨table, row, cell⟩ := place
  refine .ite (fun _ => ?_) fun _ => .refl _
  exact .bind (tighter.consumeTableTextBytes ..) fun _ => .refl _

theorem extensionText (tighter : Tighter low high) (index : Nat) (text : Text) :
    Gated (extensionText low state index text) (extensionText high state index text) := by
  unfold Reader.extensionText
  exact .bind (tighter.consumeExtensionBytes ..) fun _ => .refl _

theorem propertyText (tighter : Tighter low high) (index : Nat) (text : Text) :
    Gated (propertyText low state index text) (propertyText high state index text) := by
  unfold Reader.propertyText
  exact .bind (gated_available tighter.maxMetadataValueBytes ..) fun _ => .refl _

theorem characterData (tighter : Tighter low high) (text : Text) :
    Gated (characterData low state text) (characterData high state text) := by
  unfold Reader.characterData
  refine .ite (fun _ => .refl _) fun _ => ?_
  refine .ite (fun _ => tighter.decodeEmbeddedText text) fun _ => ?_
  cases openCell state with
  | some place => exact tighter.cellText place text
  | none =>
      cases state.extensionStack.headD none with
      | some index => exact tighter.extensionText index text
      | none =>
          refine .after (fun _ => .after (fun _ => ?_) _) _
          cases state.textMetadataIndex with
          | none => exact .refl _
          | some index => exact tighter.propertyText index text

/-! ## The header -/

theorem handleEvents (tighter : Tighter low high) (platform : Platform) (events : List XmlEvent) :
    Gated (handleEvents low platform state events) (handleEvents high platform state events) := by
  induction events generalizing state with
  | nil => exact .refl _
  | cons event rest ih =>
      rw [Reader.handleEvents, Reader.handleEvents]
      refine .bind ?_ fun _ => ih
      cases event with
      | declaration version encoding standalone => exact .refl _
      | doctype => exact .refl _
      | startElement name attributes => exact tighter.startElement platform name attributes
      | endElement name => exact .refl _
      | characterData text => exact tighter.characterData text

theorem parseXmlHeader (tighter : Tighter low high) (platform : Platform) (xml : Text) :
    Gated (parseXmlHeader low platform xml) (parseXmlHeader high platform xml) := by
  unfold Reader.parseXmlHeader
  refine .after (fun _ => ?_) _
  exact .bind (tighter.handleEvents platform _) fun _ => .refl _

theorem referencedBindings {limit limit' : Nat} (within : limit ≤ limit')
    (uids : List (Text × Nat)) (message : String) (events : List MetadataBindingEvent)
    (bindings : List ObjectBinding) :
    Gated (referencedBindings uids limit message events bindings)
      (referencedBindings uids limit' message events bindings) := by
  induction events generalizing bindings with
  | nil => exact .refl _
  | cons event rest ih =>
      unfold Reader.referencedBindings
      split
      · exact .bind (gated_below within ..) fun _ => ih _
      · exact ih _

theorem referencedTables {limit limit' : Nat} (within : limit ≤ limit')
    (uids : List (Text × Nat)) (events : List MetadataBindingEvent)
    (bindings : List ObjectBinding) :
    Gated (referencedTables uids limit events bindings)
      (referencedTables uids limit' events bindings) := by
  induction events generalizing bindings with
  | nil => exact .refl _
  | cons event rest ih =>
      unfold Reader.referencedTables
      split
      · split
        · exact .bind (gated_below within ..) fun _ => ih _
        · exact .refl _
      · exact ih _

theorem parseHeader (tighter : Tighter low high) (platform : Platform) (xml : Text)
    (fileSize headerLength : Nat) :
    Gated (parseHeader platform xml low fileSize headerLength)
      (parseHeader platform xml high fileSize headerLength) := by
  unfold Reader.parseHeader
  refine .bind (tighter.parseXmlHeader platform xml) fun _ => ?_
  refine .after (fun _ => .after (fun _ => .after (fun _ => .after (fun _ => ?_) _) _) _) _
  refine .after (fun _ => .bind (referencedBindings tighter.maxAncillaryBindings ..) fun _ => ?_) _
  refine .after (fun _ => .bind (referencedBindings tighter.maxIccProfileBindings ..) fun _ => ?_) _
  refine .after (fun _ => .bind (referencedBindings tighter.maxThumbnailBindings ..) fun _ => ?_) _
  refine .after (fun _ => .bind (referencedTables tighter.maxTableBindings ..) fun _ => ?_) _
  exact .refl _

end Tighter

end

end Mmxisf.Reader
