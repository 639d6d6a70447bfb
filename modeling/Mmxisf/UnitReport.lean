/-
# UnitReport -- the events of the header of a unit

The header that `make_header` builds is XML, and what a parser calls the handlers with
is determined by it (`Renders`): names in their namespace, attribute values unescaped
and normalised, text unescaped with its line ends normalised.  `unitEvents` is the
list of these calls for a unit, and the header renders it (`header_renders`).
-/
import Mmxisf.AcceptedUnits
import Mmxisf.TidyTexts

namespace Mmxisf

set_option autoImplicit false

open Writer (MetadataWriteEntry ImageWriteView PreparedBlock PlannedBlock TagAttribute WriterOptions
  UnitPlan renderTag renderAttribute escapeCharacter decimal)

/-! ## What a parser reports -/

/-- A name in the XISF namespace, as `XML_ParserCreateNS` reports it. -/
def xisfName (name : Text) : Text := Reader.kXisfNamespace ++ Reader.separator :: name

/-- The line ends of a tag are normalised before its attributes are. -/
def deliveredTag (tag : TagAttribute) : TagAttribute := (tag.1, normalizeNewlines tag.2)

/-- The attributes that are reported for a tag in a header. -/
def reportedTags (attributes : List TagAttribute) : List (Text × Text) :=
  reportedAttributes (attributes.map deliveredTag)

/-- A name of letters. -/
def IsName (name : Text) : Prop := name ≠ [] ∧ name.all isAsciiLetter = true

instance instDecidableIsName (name : Text) : Decidable (IsName name) :=
  inferInstanceAs (Decidable (_ ∧ _))

/-- The name of an attribute that declares no namespace. -/
def IsAttributeName (name : String) : Prop := IsName (lit name) ∧ lit name ≠ lit "xmlns"

instance instDecidableIsAttributeName (name : String) : Decidable (IsAttributeName name) :=
  inferInstanceAs (Decidable (_ ∧ _))

/-- All names are names of attributes, and all values are XML characters. -/
def LegalTags (attributes : List TagAttribute) : Prop :=
  ∀ tag ∈ attributes, IsAttributeName tag.1 ∧ Writer.isValidXmlUtf8 tag.2 = true

/-- A part of a document that is made of tags and escaped texts, and the events that
XML 1.0 with namespaces gives it.  Markup follows a text, so no two texts are one. -/
inductive Renders : Text → List XmlEvent → Prop
  | nil : Renders [] []
  | declaration {rest : Text} {events : List XmlEvent} (later : Renders rest events) :
      Renders (lit "<?xml version=\"1.0\" encoding=\"UTF-8\"?>" ++ rest)
        (.declaration (some (lit "1.0")) (some (lit "UTF-8")) (-1) :: events)
  | root {rest : Text} {events : List XmlEvent} (later : Renders rest events) :
      Renders (lit "<xisf xmlns=\"http://www.pixinsight.com/xisf\" version=\"1.0\">" ++ rest)
        (.startElement (xisfName (lit "xisf")) [(lit "version", lit "1.0")] :: events)
  | opening {name : Text} {attributes : List TagAttribute} {rest : Text} {events : List XmlEvent}
      (named : IsName name) (legal : LegalTags attributes) (later : Renders rest events) :
      Renders (renderTag name attributes ++ lit ">" ++ rest)
        (.startElement (xisfName name) (reportedTags attributes) :: events)
  | empty {name : Text} {attributes : List TagAttribute} {rest : Text} {events : List XmlEvent}
      (named : IsName name) (legal : LegalTags attributes) (later : Renders rest events) :
      Renders (renderTag name attributes ++ lit "/>" ++ rest)
        (.startElement (xisfName name) (reportedTags attributes) :: .endElement (xisfName name) ::
          events)
  | closing {name : Text} {rest : Text} {events : List XmlEvent} (named : IsName name)
      (later : Renders rest events) :
      Renders (lit "</" ++ name ++ lit ">" ++ rest) (.endElement (xisfName name) :: events)
  | text {value : Text} {rest : Text} {events : List XmlEvent} (some : value ≠ [])
      (legal : Writer.isValidXmlUtf8 value = true) (later : Renders (lit "<" ++ rest) events) :
      Renders (value.flatMap (escapeCharacter false) ++ (lit "<" ++ rest))
        (.characterData (normalizeNewlines value) :: events)

namespace Renders

variable {text more name : Text} {events moreEvents : List XmlEvent}
  {attributes : List TagAttribute}

theorem append (first : Renders text events) (second : Renders more moreEvents) :
    Renders (text ++ more) (events ++ moreEvents) := by
  induction first with
  | nil => exact second
  | declaration _ ih =>
      rw [List.append_assoc]
      exact .declaration ih
  | root _ ih =>
      rw [List.append_assoc]
      exact .root ih
  | opening named legal _ ih =>
      rw [List.append_assoc]
      exact .opening named legal ih
  | empty named legal _ ih =>
      rw [List.append_assoc]
      exact .empty named legal ih
  | closing named _ ih =>
      rw [List.append_assoc]
      exact .closing named ih
  | text some legal _ ih =>
      rw [List.append_assoc] at ih
      rw [List.append_assoc, List.append_assoc]
      exact .text some legal ih

/-- The end of an element. -/
theorem ending (named : IsName name) :
    Renders (lit "</" ++ name ++ lit ">") [.endElement (xisfName name)] := by
  have close := Renders.closing named Renders.nil
  rwa [List.append_nil] at close

/-- An element around a part. -/
theorem element (named : IsName name) (legal : LegalTags attributes)
    (content : Renders text events) :
    Renders (renderTag name attributes ++ lit ">" ++ text ++ (lit "</" ++ name ++ lit ">"))
      (.startElement (xisfName name) (reportedTags attributes) :: (events ++
        [.endElement (xisfName name)])) := by
  rw [List.append_assoc]
  exact .opening named legal (content.append (ending named))

/-- An element around a text. -/
theorem textElement {value : Text} (named : IsName name) (legal : LegalTags attributes)
    (some : value ≠ []) (valid : Writer.isValidXmlUtf8 value = true) :
    Renders (renderTag name attributes ++ lit ">" ++ value.flatMap (escapeCharacter false) ++
        (lit "</" ++ name ++ lit ">"))
      (.startElement (xisfName name) (reportedTags attributes) ::
        ([.characterData (normalizeNewlines value)] ++ [.endElement (xisfName name)])) := by
  have opens : lit "</" ++ name ++ lit ">" = lit "<" ++ (lit "/" ++ name ++ lit ">") := rfl
  have close := ending named
  rw [opens] at close
  rw [List.append_assoc, opens]
  exact .opening named legal (.text some valid close)

theorem leaf (named : IsName name) (legal : LegalTags attributes) :
    Renders (renderTag name attributes ++ lit "/>")
      [.startElement (xisfName name) (reportedTags attributes), .endElement (xisfName name)] := by
  have tag := Renders.empty named legal Renders.nil
  rwa [List.append_nil] at tag

/-- The texts of several parts, one after another. -/
theorem mapM {α : Type} {textOf : α → Result Text} {eventsOf : α → List XmlEvent} :
    ∀ {items : List α} {texts : List Text},
      (∀ item ∈ items, ∀ text, textOf item = .ok text → Renders text (eventsOf item)) →
        items.mapM textOf = .ok texts → Renders texts.flatten (items.flatMap eventsOf)
  | [], texts, _, made => by
      cases made
      exact .nil
  | item :: rest, texts, each, made => by
      simp only [List.mapM_cons, bind_eq_ok] at made
      obtain ⟨text, first, later, made, same⟩ := made
      cases same
      rw [List.forall_mem_cons] at each
      rw [List.flatten_cons, List.flatMap_cons]
      exact (each.1 text first).append (mapM each.2 made)

end Renders

/-! ## The events of a unit -/

section

variable (platform : Platform)

/-- The block of an entry, as `make_header` hands it to `make_metadata_xml`. -/
def headerBlock (item : MetadataWriteEntry × PlannedBlock) :
    Option (BlockLocation × PreparedBlock) :=
  if item.1.valueForm = .dataBlock then some (item.2.location, item.2.prepared) else none

/-- The text of a String Property that is its value. -/
def entryText (entry : MetadataWriteEntry) : List XmlEvent :=
  if entry.kind = .property ∧ entry.valueForm = .direct ∧ entry.type = lit "String" ∧
      entry.value ≠ [] then [.characterData (normalizeNewlines entry.value)]
  else []

def entryEvents (item : MetadataWriteEntry × PlannedBlock) : List XmlEvent :=
  .startElement (xisfName (Writer.elementName item.1))
      (reportedTags (Writer.metadataAttributes item.1 (headerBlock item))) ::
    (entryText item.1 ++ [.endElement (xisfName (Writer.elementName item.1))])

/-- The bounds of an image, if it has both. -/
def boundsTag (image : ImageWriteView) : List TagAttribute :=
  match image.lowerBound, image.upperBound with
  | some lower, some upper =>
      [("bounds", platform.toCharsScientific lower ++ lit ":" ++ platform.toCharsScientific upper)]
  | _, _ => []

def preparedTags (prepared : PreparedBlock) : List TagAttribute :=
  Writer.optionalAttribute "compression" prepared.compression ++
    Writer.optionalAttribute "subblocks" prepared.subblocks ++
    Writer.optionalAttribute "checksum" prepared.checksum

/-- The attributes of the start tag of an image. -/
def imageAttributes (item : ImageWriteView × PlannedBlock) : List TagAttribute :=
  Writer.optionalAttribute "id" item.1.id ++
    [("geometry", decimal item.1.width ++ lit ":" ++ decimal item.1.height ++ lit ":" ++
        decimal item.1.channels),
      ("sampleFormat", (Writer.sampleFormatDescription item.1.sampleFormat).1),
      ("colorSpace", item.1.colorSpace), ("pixelStorage", lit "Planar"),
      ("byteOrder", lit "little")] ++
    boundsTag platform item.1 ++ preparedTags item.2.prepared ++
    [("location", Writer.attachmentLocation item.2.location.offset item.2.location.size)]

/-- An image with its metadata inside. -/
def imageEvents (metadata : List (MetadataWriteEntry × PlannedBlock))
    (image : (ImageWriteView × PlannedBlock) × Nat) : List XmlEvent :=
  .startElement (xisfName (lit "Image")) (reportedTags (imageAttributes platform image.1)) ::
    ((metadata.filter fun entry => entry.1.imageIndex = some image.2).flatMap entryEvents ++
      [.endElement (xisfName (lit "Image"))])

/-- The two Properties that the writer adds. -/
def creationTimeEntry (options : WriterOptions) : MetadataWriteEntry where
  name := lit "XISF:CreationTime"
  type := lit "TimePoint"
  value := options.creationTime

def creatorEntry (options : WriterOptions) : MetadataWriteEntry where
  name := lit "XISF:CreatorApplication"
  type := lit "String"
  value := options.creatorApplication

/-- The Properties of the unit: these two, and the caller's. -/
def unitEntries (options : WriterOptions) (plan : UnitPlan) :
    List (MetadataWriteEntry × PlannedBlock) :=
  (creationTimeEntry options, {}) :: (creatorEntry options, {}) ::
    plan.metadata.filter fun entry => entry.1.imageIndex.isNone

def unitEvents (options : WriterOptions) (plan : UnitPlan) : List XmlEvent :=
  .declaration (some (lit "1.0")) (some (lit "UTF-8")) (-1) ::
    .startElement (xisfName (lit "xisf")) [(lit "version", lit "1.0")] ::
    (plan.images.zipIdx.flatMap (imageEvents platform plan.metadata) ++
      (.startElement (xisfName (lit "Metadata")) [] ::
        ((unitEntries options plan).flatMap entryEvents ++
          [.endElement (xisfName (lit "Metadata")), .endElement (xisfName (lit "xisf"))])))

end

/-- What is documented of `std::to_chars` with seventeen significant digits and of
the extraction of a number: visible characters without a colon or a leading plus, that
are read back as the number.  Subnormal numbers are too, which is not so of a library that
reports them as out of range. -/
structure NumberLaws (platform : Platform) : Prop where
  tidy : ∀ d : Double, d.isFinite = true → Tidy (platform.toCharsScientific d)
  colonFree : ∀ d : Double, d.isFinite = true → ch ':' ∉ platform.toCharsScientific d
  unsigned : ∀ d : Double, d.isFinite = true → platform.toCharsScientific d ≠ [] ∧
    (platform.toCharsScientific d).head? ≠ some (ch '+')
  extracted : ∀ d : Double, d.isFinite = true →
    platform.extractDouble (platform.toCharsScientific d) = some d

/-- A finite number is printed as visible characters. -/
def PrintsTidy (platform : Platform) : Prop :=
  ∀ d : Double, d.isFinite = true → Tidy (platform.toCharsScientific d)

/-! ## The header renders them -/

theorem legal_optional {name : String} {value : Text} (legal : Writer.isValidXmlUtf8 value = true)
    (named : IsAttributeName name := by decide) :
    LegalTags (Writer.optionalAttribute name value) := by
  intro tag member
  rw [mem_optionalAttribute member]
  exact ⟨named, legal⟩

theorem LegalTags.append {attributes more : List TagAttribute} (legal : LegalTags attributes)
    (legalMore : LegalTags more) : LegalTags (attributes ++ more) :=
  List.forall_mem_append.mpr ⟨legal, legalMore⟩

theorem LegalTags.one {name : String} {value : Text} (legal : Writer.isValidXmlUtf8 value = true)
    (named : IsAttributeName name := by decide) : LegalTags [(name, value)] := by
  intro tag member
  rw [List.mem_singleton.mp member]
  exact ⟨named, legal⟩

theorem escapeXml_legal {input escaped : Text} {inAttribute : Bool}
    (run : Writer.escapeXml input inAttribute = .ok escaped) :
    Writer.isValidXmlUtf8 input = true := by
  simp only [Writer.escapeXml, bind_eq_ok, reject_eq_ok, Bool.not_eq_false] at run
  exact run.choose_spec.1

theorem preparedTags_legal {prepared : PreparedBlock} (tidy : TidyBlock prepared) :
    LegalTags (preparedTags prepared) :=
  ((legal_optional tidy.compression.legal).append (legal_optional tidy.subblocks.legal)).append
    (legal_optional tidy.checksum.legal)

section

variable {entry : MetadataWriteEntry} {imageCount : Nat}

theorem ValidEntry.tidyType (accepted : AcceptedEntry imageCount entry) : Tidy entry.type := by
  cases accepted.valid with
  | fitsKeyword kind => exact (accepted.fitsKeyword kind).2 ▸ Tidy.nil
  | direct _ _ _ _ value => exact classified_tidy value.classified
  | block _ _ _ _ extents => exact classified_tidy extents.classified

theorem ValidEntry.tidyName (valid : ValidEntry entry) : Tidy entry.name := by
  cases valid with
  | fitsKeyword _ _ name => exact keywordName_tidy name
  | direct _ _ name => exact identifier_tidy name
  | block _ _ name => exact identifier_tidy name

/-- Only a vector has a length. -/
theorem AcceptedEntry.single (accepted : AcceptedEntry imageCount entry)
    (declared : entry.length.isSome = true) : classifyPropertyType entry.type = .vector := by
  cases form : entry.valueForm with
  | direct =>
      have plain := accepted.direct form
      simp [Writer.declaresBlock, declared] at plain
  | dataBlock =>
      cases accepted.valid with
      | fitsKeyword kind =>
          rw [(accepted.fitsKeyword kind).1] at form
          cases form
      | direct _ direct =>
          rw [direct] at form
          cases form
      | block _ _ _ _ extents =>
          cases extents with
          | vector category => exact category
          | matrix _ none =>
              rw [none] at declared
              cases declared

theorem extentsOf_legal : LegalTags (Writer.extentsOf entry) := by
  unfold Writer.extentsOf
  split
  · exact .one (decimal_tidy _).legal
  · exact LegalTags.append (.one (decimal_tidy _).legal) (.one (decimal_tidy _).legal)

theorem metadataAttributes_legal {item : MetadataWriteEntry × PlannedBlock} {xml : Text}
    (accepted : AcceptedEntry imageCount item.1)
    (tidy : Writer.hasBlock item.1 = true → TidyBlock item.2.prepared)
    (made : Writer.entryXml item = .ok xml) :
    LegalTags (Writer.metadataAttributes item.1 (headerBlock item)) := by
  have block : headerBlock item = if item.1.valueForm = .dataBlock then
      some (item.2.location, item.2.prepared) else none := rfl
  simp only [Writer.entryXml, Writer.makeMetadataXml, ← block, bind_eq_ok] at made
  obtain ⟨_, name, _, value, made⟩ := made
  have isName := escapeXml_legal name
  have isValue := escapeXml_legal value
  unfold Writer.metadataAttributes
  cases kind : item.1.kind with
  | fitsKeyword =>
      simp only [kind, if_true, bind_eq_ok] at made
      obtain ⟨_, comment, -⟩ := made
      exact LegalTags.append (.one isName) (LegalTags.append (.one isValue)
        (.one (escapeXml_legal comment)))
  | property =>
      refine LegalTags.append (LegalTags.append (.one isName)
        (.one (ValidEntry.tidyType accepted).legal)) ?_
      simp only [kind, reduceCtorEq, if_false] at made
      unfold Writer.valueAttributes
      cases form : item.1.valueForm with
      | direct =>
          simp only
          split
          · exact fun _ member => absurd member List.not_mem_nil
          · exact .one isValue
      | dataBlock =>
          rw [if_pos form] at block
          simp only [form, if_true, block] at made ⊢
          unfold Writer.blockAttributes
          split
          · exact LegalTags.append extentsOf_legal (.one (by decide))
          · rename_i attached
            have hasBlock : Writer.hasBlock item.1 = true := by
              simpa [Writer.hasBlock, form] using attached
            rw [if_neg attached, bind_eq_ok] at made
            obtain ⟨_, format, -⟩ := made
            refine (LegalTags.append extentsOf_legal ?_).append
              (.one (attachmentLocation_tidy _ _).legal)
            have order : LegalTags (if item.1.byteOrder = .big then
                [("byteOrder", lit "big")] else []) := by
              split
              · exact .one (by decide)
              · exact fun _ member => absurd member List.not_mem_nil
            have formats : LegalTags (Writer.optionalAttribute "format" item.1.format) :=
              legal_optional (escapeXml_legal format)
            have rest := (order.append formats).append
              (preparedTags_legal (tidy hasBlock))
            unfold preparedTags at rest
            simpa only [Writer.describingAttributes, List.append_assoc] using rest

theorem entry_renders {item : MetadataWriteEntry × PlannedBlock} {xml : Text}
    (accepted : AcceptedEntry imageCount item.1)
    (tidy : Writer.hasBlock item.1 = true → TidyBlock item.2.prepared)
    (made : Writer.entryXml item = .ok xml) : Renders xml (entryEvents item) := by
  have legal := metadataAttributes_legal accepted tidy made
  have plain : Writer.isEmptyPropertyContainer item.1 = false → ∀ location prepared,
      headerBlock item = some (location, prepared) → prepared.Plain := by
    intro notEmpty location prepared there
    unfold headerBlock at there
    split at there
    · rename_i form
      cases there
      exact (tidy (by simp [Writer.hasBlock, form, notEmpty])).plain
    · cases there
  have isText : xml = _ := Writer.makeMetadataXml_text (ValidEntry.tidyType accepted).plain
    accepted.single plain made
  have isName : IsName (Writer.elementName item.1) := by
    unfold Writer.elementName
    split <;> decide
  have leaf := Renders.leaf isName legal
  have close : lit "</" ++ lit "Property" ++ lit ">" = lit "</Property>" := rfl
  have nothing := Renders.element isName legal .nil
  rw [isText]
  unfold entryEvents Writer.entryEnding entryText
  cases kind : item.1.kind with
  | fitsKeyword => simpa using leaf
  | property =>
      have named : Writer.elementName item.1 = lit "Property" := by
        simp [Writer.elementName, kind]
      cases form : item.1.valueForm with
      | dataBlock =>
          simp only [reduceCtorEq, false_and, and_false, if_false, List.nil_append]
          split
          · rw [named, close, List.append_nil, List.append_assoc] at nothing
            rw [named]
            exact nothing
          · exact leaf
      | direct =>
          simp only [true_and]
          by_cases isString : item.1.type = lit "String"
          · rw [if_pos isString]
            by_cases empty : item.1.value = []
            · rw [named, close, List.append_nil] at nothing
              rw [named, if_neg fun both => both.2 empty, empty, List.flatMap_nil, List.append_nil]
              simpa only [List.append_assoc, List.nil_append] using nothing
            · have valid : Writer.isValidXmlUtf8 item.1.value = true := by
                simp only [Writer.entryXml, Writer.makeMetadataXml, bind_eq_ok] at made
                obtain ⟨_, -, _, value, -⟩ := made
                exact escapeXml_legal value
              have inside := Renders.textElement isName legal empty valid
              rw [named, close] at inside
              rw [named, if_pos ⟨isString, empty⟩]
              simpa only [List.append_assoc] using inside
          · simpa [isString] using leaf

end

/-- Without both bounds there is no attribute. -/
theorem boundsTag_absent {platform : Platform} {image : ImageWriteView}
    (absent : image.lowerBound = none ∨ image.upperBound = none) :
    boundsTag platform image = [] ∧ Writer.boundsAttribute platform image = .ok [] := by
  unfold boundsTag Writer.boundsAttribute
  rcases absent with lower | upper
  · rw [lower]
    exact ⟨rfl, rfl⟩
  · rw [upper]
    cases image.lowerBound with
    | none => exact ⟨rfl, rfl⟩
    | some _ => exact ⟨rfl, rfl⟩

theorem boundsAttribute_renders {platform : Platform} {image : ImageWriteView} {bounds : Text}
    (printed : PrintsTidy platform) (made : Writer.boundsAttribute platform image = .ok bounds) :
    bounds = (boundsTag platform image).flatMap renderAttribute ∧
      LegalTags (boundsTag platform image) := by
  have absent (none : image.lowerBound = none ∨ image.upperBound = none) :
      bounds = (boundsTag platform image).flatMap renderAttribute ∧
        LegalTags (boundsTag platform image) := by
    obtain ⟨noTag, noText⟩ := @boundsTag_absent platform image none
    rw [noText] at made
    cases made
    rw [noTag]
    exact ⟨rfl, fun _ member => absurd member List.not_mem_nil⟩
  cases isLower : image.lowerBound with
  | none => exact absent (.inl isLower)
  | some lower =>
      cases isUpper : image.upperBound with
      | none => exact absent (.inr isUpper)
      | some upper =>
          have colon : Tidy (lit ":") := by decide
          unfold Writer.boundsAttribute at made
          rw [isLower, isUpper] at made
          simp only [Writer.formatBound, bind_eq_ok, reject_eq_ok, Bool.not_eq_false] at made
          obtain ⟨_, ⟨_, lowerFinite, same⟩, made⟩ := made
          cases same
          obtain ⟨_, ⟨_, upperFinite, same⟩, made⟩ := made
          cases same
          cases made
          have tidy := ((printed lower lowerFinite).append colon).append
            (printed upper upperFinite)
          have tag : boundsTag platform image = [("bounds", platform.toCharsScientific lower ++
              lit ":" ++ platform.toCharsScientific upper)] := by
            unfold boundsTag
            rw [isLower, isUpper]
          rw [tag]
          refine ⟨?_, .one tidy.legal⟩
          rw [List.flatMap_singleton, Writer.renderAttribute_plain tidy.plain]

/-- What is known of the entries of a plan when its header is made. -/
def EntriesReady (imageCount : Nat) (entries : List (MetadataWriteEntry × PlannedBlock)) : Prop :=
  ∀ item ∈ entries, AcceptedEntry imageCount item.1 ∧
    (Writer.hasBlock item.1 = true → TidyBlock item.2.prepared)

theorem entries_render {imageCount : Nat} {entries : List (MetadataWriteEntry × PlannedBlock)}
    {texts : List Text} (ready : EntriesReady imageCount entries)
    (made : entries.mapM Writer.entryXml = .ok texts) :
    Renders texts.flatten (entries.flatMap entryEvents) := by
  refine Renders.mapM (fun item member text one => ?_) made
  obtain ⟨accepted, tidy⟩ := ready item member
  exact entry_renders accepted tidy one

section

variable {platform : Platform} {imageCount : Nat}
  {metadata : List (MetadataWriteEntry × PlannedBlock)}

theorem sampleFormat_tidy (format : SampleFormat) :
    Tidy (Writer.sampleFormatDescription format).1 := by
  cases format <;> decide

theorem AcceptedImage.tidySpace {image : ImageWriteView} (accepted : AcceptedImage image) :
    Tidy image.colorSpace := by
  rcases accepted.colorSpace with gray | rgb
  · rw [gray]
    decide
  · rw [rgb]
    decide

theorem geometry_tidy (width height channels : Nat) :
    Tidy (decimal width ++ lit ":" ++ decimal height ++ lit ":" ++ decimal channels) := by
  have colon : Tidy (lit ":") := by decide
  exact ((((decimal_tidy _).append colon).append (decimal_tidy _)).append colon).append
    (decimal_tidy _)

theorem image_renders {image : (ImageWriteView × PlannedBlock) × Nat} {xml : Text}
    (printed : PrintsTidy platform) (accepted : AcceptedImage image.1.1)
    (named : image.1.1.id ≠ [] → Writer.isValidImageIdentifier image.1.1.id = true)
    (tidy : TidyBlock image.1.2.prepared) (ready : EntriesReady imageCount metadata)
    (made : Writer.imageXml platform metadata image = .ok xml) :
    Renders xml (imageEvents platform metadata image) := by
  obtain ⟨⟨view, block⟩, index⟩ := image
  dsimp only at accepted named tidy
  simp only [Writer.imageXml, bind_eq_ok] at made
  obtain ⟨escapedId, id, bounds, hasBounds, texts, entries, same⟩ := made
  cases same
  have rendered := entries_render
    (fun item member => ready item (List.mem_of_mem_filter member)) entries
  obtain ⟨isBounds, boundsLegal⟩ := boundsAttribute_renders printed hasBounds
  have geometry := geometry_tidy view.width view.height view.channels
  have format := sampleFormat_tidy view.sampleFormat
  have place := attachmentLocation_tidy block.location.offset block.location.size
  have legal : LegalTags (imageAttributes platform (view, block)) := by
    have idLegal : LegalTags (Writer.optionalAttribute "id" view.id) :=
      legal_optional (escapeXml_legal id)
    refine (((idLegal.append ?_).append boundsLegal).append (preparedTags_legal tidy)).append
      (.one place.legal)
    exact (LegalTags.one geometry.legal).append ((LegalTags.one format.legal).append
      ((LegalTags.one accepted.tidySpace.legal).append
        ((LegalTags.one (by decide)).append (LegalTags.one (by decide)))))
  have isId : escapedId = view.id := by
    rw [Writer.escapeXml_eq id]
    by_cases none : view.id = []
    · rw [none]
      rfl
    · exact (imageIdentifier_tidy (named none)).plain
  have start : lit "<Image" = lit "<" ++ lit "Image" := rfl
  have idText : (Writer.optionalAttribute "id" view.id).flatMap renderAttribute =
      if view.id ≠ [] then Writer.xmlAttribute "id" escapedId else [] := by
    rw [Writer.render_optionalAttribute, isId]
    split
    · rename_i some
      exact Writer.renderAttribute_plain (imageIdentifier_tidy (named some)).plain
    · rfl
  have isTag : renderTag (lit "Image") (imageAttributes platform (view, block)) =
      lit "<Image" ++ (if view.id ≠ [] then Writer.xmlAttribute "id" escapedId else []) ++
        Writer.xmlAttribute "geometry" (decimal view.width ++ lit ":" ++ decimal view.height ++
          lit ":" ++ decimal view.channels) ++
        Writer.xmlAttribute "sampleFormat" (Writer.sampleFormatDescription view.sampleFormat).1 ++
        Writer.xmlAttribute "colorSpace" view.colorSpace ++
        Writer.xmlAttribute "pixelStorage" (lit "Planar") ++
        Writer.xmlAttribute "byteOrder" (lit "little") ++ bounds ++
        Writer.preparedAttributes block.prepared ++ Writer.xmlAttribute "location"
          (Writer.attachmentLocation block.location.offset block.location.size) := by
    have prepared := Writer.render_prepared tidy.plain
    have planar : Writer.Plain (lit "Planar") := by decide
    have little : Writer.Plain (lit "little") := by decide
    unfold renderTag imageAttributes
    rw [start, isBounds]
    generalize decimal view.width ++ lit ":" ++ decimal view.height ++ lit ":" ++
      decimal view.channels = geometryText at geometry ⊢
    simp only [List.flatMap_append, List.flatMap_cons, List.flatMap_nil, idText, preparedTags,
      ← prepared, Writer.renderAttribute_plain geometry.plain,
      Writer.renderAttribute_plain format.plain, Writer.renderAttribute_plain
        accepted.tidySpace.plain,
      Writer.renderAttribute_plain planar, Writer.renderAttribute_plain little,
      Writer.renderAttribute_plain place.plain, List.append_assoc, List.append_nil]
  have isName : IsName (lit "Image") := by decide
  have close : lit "</" ++ lit "Image" ++ lit ">" = lit "</Image>" := rfl
  rw [← isTag]
  unfold imageEvents
  split
  · rename_i none
    rw [none] at rendered
    have nothing : (metadata.filter fun entry => entry.1.imageIndex = some index) = [] := by
      cases found : metadata.filter fun entry => entry.1.imageIndex = some index with
      | nil => rfl
      | cons first rest =>
          rw [found, none] at entries
          simp only [List.mapM_cons, bind_eq_ok] at entries
          obtain ⟨_, -, _, -, same⟩ := entries
          cases same
    simp only [nothing, List.flatMap_nil, List.nil_append]
    exact Renders.leaf isName legal
  · have inside := Renders.element isName legal rendered
    rw [close] at inside
    simpa only [List.append_assoc] using inside

/-- What is known of a plan when its header is made. -/
structure PlanReady (options : WriterOptions) (plan : UnitPlan) : Prop where
  accepted : AcceptedUnit options (plan.images.map Prod.fst) (plan.metadata.map Prod.fst)
  images : ∀ item ∈ plan.images, TidyBlock item.2.prepared
  metadata : ∀ item ∈ plan.metadata, Writer.hasBlock item.1 = true → TidyBlock item.2.prepared

theorem PlanReady.entries {options : WriterOptions} {plan : UnitPlan}
    (ready : PlanReady options plan) : EntriesReady plan.images.length plan.metadata := by
  intro item member
  have accepted := ready.accepted.entry _ (List.mem_map_of_mem member)
  rw [List.length_map] at accepted
  exact ⟨accepted, ready.metadata item member⟩

theorem creationTime_renders {options : WriterOptions}
    (time : Writer.isCanonicalUtcTime options.creationTime = true) :
    Renders (lit "<Property id=\"XISF:CreationTime\" type=\"TimePoint\" value=\"" ++
        options.creationTime ++ lit "\"/>") (entryEvents (creationTimeEntry options, {})) := by
  have tidy := canonical_tidy time
  have legal : LegalTags [("id", lit "XISF:CreationTime"), ("type", lit "TimePoint"),
      ("value", options.creationTime)] :=
    (LegalTags.one (by decide)).append ((LegalTags.one (by decide)).append (.one tidy.legal))
  have isTag : renderTag (lit "Property") [("id", lit "XISF:CreationTime"),
      ("type", lit "TimePoint"), ("value", options.creationTime)] =
      lit "<Property id=\"XISF:CreationTime\" type=\"TimePoint\" value=\"" ++
        options.creationTime ++ lit "\"" := by
    unfold renderTag
    rw [List.flatMap_cons, List.flatMap_cons, List.flatMap_singleton,
      Writer.renderAttribute_plain tidy.plain, Writer.xmlAttribute]
    simp only [← List.append_assoc]
    rfl
  have named : IsName (lit "Property") := by decide
  have leaf := Renders.leaf named legal
  rw [isTag, List.append_assoc] at leaf
  exact leaf

theorem creator_renders {options : WriterOptions} {creator : Text}
    (some : options.creatorApplication ≠ [])
    (escaped : Writer.escapeXml options.creatorApplication false = .ok creator) :
    Renders (lit "<Property id=\"XISF:CreatorApplication\" type=\"String\">" ++ creator ++
        lit "</Property>") (entryEvents (creatorEntry options, {})) := by
  have legal : LegalTags [("id", lit "XISF:CreatorApplication"), ("type", lit "String")] :=
    (LegalTags.one (by decide)).append (.one (by decide))
  have named : IsName (lit "Property") := by decide
  have inside := Renders.textElement named legal some (escapeXml_legal escaped)
  rw [← Writer.escapeXml_eq escaped] at inside
  have inText : entryText (creatorEntry options) =
      [.characterData (normalizeNewlines options.creatorApplication)] :=
    if_pos ⟨rfl, rfl, rfl, some⟩
  rw [entryEvents, inText]
  exact inside

/-- The header of a unit renders its events. -/
theorem header_renders {options : WriterOptions} {plan : UnitPlan} {header : Text}
    (printed : PrintsTidy platform) (ready : PlanReady options plan)
    (made : Writer.makeHeader platform options plan = .ok header) :
    Renders header (unitEvents platform options plan) := by
  simp only [Writer.makeHeader, bind_eq_ok] at made
  obtain ⟨creator, escaped, images, hasImages, entries, hasEntries, same⟩ := made
  cases same
  have parts : Renders images.flatten (plan.images.zipIdx.flatMap
      (imageEvents platform plan.metadata)) := by
    refine Renders.mapM (fun image member text one => ?_) hasImages
    have there := List.fst_mem_of_mem_zipIdx member
    have own := List.mem_map_of_mem (f := Prod.fst) there
    exact image_renders printed (ready.accepted.image _ own) (ready.accepted.imageId _ own)
      (ready.images _ there) ready.entries one
  have others := entries_render
    (fun item member => ready.entries item (List.mem_of_mem_filter member)) hasEntries
  have added := (creationTime_renders ready.accepted.creationTime).append
    ((creator_renders ready.accepted.creatorApplication escaped).append others)
  have metadata : IsName (lit "Metadata") := by decide
  have xisf : IsName (lit "xisf") := by decide
  have ending := Renders.closing metadata (.closing xisf .nil)
  have closing : lit "</" ++ lit "Metadata" ++ lit ">" ++
      (lit "</" ++ lit "xisf" ++ lit ">" ++ []) =
    lit "</Metadata></xisf>" := rfl
  rw [closing] at ending
  have none : LegalTags [] := fun _ member => absurd member List.not_mem_nil
  have inner := Renders.opening metadata none (added.append ending)
  have whole := Renders.declaration (.root (parts.append inner))
  have opening : renderTag (lit "Metadata") [] ++ lit ">" = lit "<Metadata>" := rfl
  have first : lit "<Metadata><Property id=\"XISF:CreationTime\" type=\"TimePoint\" value=\"" =
    lit "<Metadata>" ++ lit "<Property id=\"XISF:CreationTime\" type=\"TimePoint\" value=\"" := rfl
  have noTags : reportedTags [] = [] := rfl
  rw [opening, noTags] at whole
  rw [first]
  unfold unitEvents unitEntries
  rw [List.flatMap_cons, List.flatMap_cons]
  simpa only [List.append_assoc] using whole

end

end Mmxisf
