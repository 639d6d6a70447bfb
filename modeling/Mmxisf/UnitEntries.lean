/-
# UnitEntries -- the metadata of a unit, as its tags declare it

What a reader says of an entry that a writer accepted is determined by the entry and
the place of its block (`listedEntry`): the identifier, the type and the extents are
the same, a value has its blanks normalised as XML asks, a String has its line ends
normalised.  The start tag of the entry, as a parser reports it, declares this listing
except for the text of a String (`Declares`).
-/
import Mmxisf.UnitProgress

namespace Mmxisf

set_option autoImplicit false

open Writer (MetadataWriteEntry PreparedBlock PlannedBlock TagAttribute decimal)
open Reader (XmlBuilder ElementContext ReaderOptions Gated AttachedRange)

/-! ## The listing -/

section

variable (item : MetadataWriteEntry × PlannedBlock)

/-- A direct value as an attribute, or as the text of a String. -/
def listedForm (entry : MetadataWriteEntry) : ValueForm :=
  match entry.valueForm with
  | .dataBlock => .dataBlock
  | .direct =>
      if entry.kind = .property ∧ entry.type = lit "String" then .characterData else .attribute

def listedValue (entry : MetadataWriteEntry) : Text :=
  if listedForm entry = .characterData then normalizeNewlines entry.value
  else attributeText entry.value

/-- Where the bytes of an entry are; an empty vector or matrix has an empty inline
block. -/
def listedBlock : BlockLocation :=
  if Writer.hasBlock item.1 then item.2.location
  else if item.1.valueForm = .dataBlock then ⟨.inlineData, 0, 0, lit "inline:base64"⟩
  else .empty

def listedPrepared : PreparedBlock := if Writer.hasBlock item.1 then item.2.prepared else {}

/-- What a reader lists for an entry. -/
def listedEntry : MetadataEntry where
  kind := item.1.kind
  scope := if item.1.imageIndex.isSome then .image else .xisfUnit
  valueForm := listedForm item.1
  imageIndex := item.1.imageIndex
  uid := []
  name := item.1.name
  type := item.1.type
  value := listedValue item.1
  comment := attributeText item.1.comment
  format := attributeText item.1.format
  block := listedBlock item
  byteOrder := if item.1.valueForm = .dataBlock then item.1.byteOrder else .little
  compression := (listedPrepared item).compression
  subblocks := (listedPrepared item).subblocks
  checksum := (listedPrepared item).checksum
  length := item.1.length
  rows := item.1.rows
  columns := item.1.columns

/-- The attached range of an entry, if it has one. -/
def entryRanges : List AttachedRange :=
  if Writer.hasBlock item.1 then [⟨item.2.location.offset, item.2.location.size⟩] else []

end

/-- A block with a place that its text described. -/
structure PlacedBlock (block : PlannedBlock) : Prop where
  location : block.location = ⟨.attachment, block.location.offset, block.location.size,
    Writer.attachmentLocation block.location.offset block.location.size⟩
  offset : block.location.offset ≤ u64Max
  size : block.location.size ≤ u64Max

/-- The extents of an entry are numbers of 64 bits. -/
structure ExtentsFit (entry : MetadataWriteEntry) : Prop where
  length : ∀ n, entry.length = some n → n ≤ u64Max
  rows : ∀ n, entry.rows = some n → n ≤ u64Max
  columns : ∀ n, entry.columns = some n → n ≤ u64Max

/-- What is known of an entry and its block when a header is read. -/
structure EntryReady (imageCount : Nat) (item : MetadataWriteEntry × PlannedBlock) : Prop where
  accepted : AcceptedEntry imageCount item.1
  extents : ExtentsFit item.1
  tidy : Writer.hasBlock item.1 = true → TidyBlock item.2.prepared
  placed : Writer.hasBlock item.1 = true → PlacedBlock item.2

/-! ## What the parser delivers -/

theorem normalizeNewlines_eq_nil {text : Text} : normalizeNewlines text = [] ↔ text = [] := by
  constructor
  · intro none
    cases text with
    | nil => rfl
    | cons c rest =>
        unfold normalizeNewlines newlinesFrom at none
        rw [if_neg (fun both : c = ch '\n' ∧ false = true => Bool.noConfusion both.2)] at none
        split at none <;> cases none
  · rintro rfl
    rfl

theorem delivered_tidy {name : String} {text : Text} (tidy : Tidy text) :
    deliveredTag (name, text) = (name, text) :=
  Prod.ext rfl tidy.dark.newlines

theorem delivered_optional (name : String) (text : Text) :
    (Writer.optionalAttribute name text).map deliveredTag =
      Writer.optionalAttribute name (normalizeNewlines text) := by
  unfold Writer.optionalAttribute
  by_cases none : text = []
  · rw [none]
    rfl
  · have some : normalizeNewlines text ≠ [] := fun empty => none (normalizeNewlines_eq_nil.mp empty)
    rw [if_pos none, if_pos some]
    rfl

section

variable {item : MetadataWriteEntry × PlannedBlock}

theorem delivered_extents (entry : MetadataWriteEntry) :
    (Writer.extentsOf entry).map deliveredTag = Writer.extentsOf entry := by
  unfold Writer.extentsOf
  split
  · rw [List.map_singleton, delivered_tidy (decimal_tidy _)]
  · rw [List.map_cons, List.map_singleton, delivered_tidy (decimal_tidy _),
      delivered_tidy (decimal_tidy _)]

/-- The attributes that a parser delivers are those of the delivered entry. -/
theorem delivered_attributes (tidyName : Tidy item.1.name) (tidyType : Tidy item.1.type)
    (tidyBlock : Writer.hasBlock item.1 = true → TidyBlock item.2.prepared) :
    (Writer.metadataAttributes item.1 (headerBlock item)).map deliveredTag =
      Writer.metadataAttributes (delivered item.1) (headerBlock item) := by
  have name := @delivered_tidy "name" _ tidyName
  have id := @delivered_tidy "id" _ tidyName
  have type := @delivered_tidy "type" _ tidyType
  unfold Writer.metadataAttributes
  have sameKind : (delivered item.1).kind = item.1.kind := rfl
  rw [sameKind]
  cases kind : item.1.kind with
  | fitsKeyword =>
      simp only [List.map_cons, List.map_nil, name]
      rfl
  | property =>
      simp only [List.map_append, List.map_cons, List.map_nil, id, type]
      congr 1
      unfold Writer.valueAttributes
      have sameForm : (delivered item.1).valueForm = item.1.valueForm := rfl
      rw [sameForm]
      cases form : item.1.valueForm with
      | direct =>
          have sameType : (delivered item.1).type = item.1.type := rfl
          simp only [sameType]
          split <;> rfl
      | dataBlock =>
          unfold Writer.blockAttributes
          have sameEmpty : Writer.isEmptyPropertyContainer (delivered item.1) =
              Writer.isEmptyPropertyContainer item.1 := rfl
          have sameExtents : Writer.extentsOf (delivered item.1) = Writer.extentsOf item.1 := rfl
          rw [sameEmpty, sameExtents]
          cases empty : Writer.isEmptyPropertyContainer item.1 with
          | true =>
              simp only [if_true, List.map_append, delivered_extents, List.map_singleton,
                @delivered_tidy "location" (lit "inline:base64") (by decide)]
          | false =>
              have attached : Writer.hasBlock item.1 = true := by
                simp [Writer.hasBlock, form, empty]
              have tidy := tidyBlock attached
              have place := @delivered_tidy "location" _
                (attachmentLocation_tidy item.2.location.offset item.2.location.size)
              have order : (if item.1.byteOrder = .big then
                  [("byteOrder", lit "big")] else []).map deliveredTag =
                  if item.1.byteOrder = .big then [("byteOrder", lit "big")] else [] := by
                split <;> rfl
              simp only [headerBlock, form, if_true, Bool.false_eq_true, if_false,
                Writer.describingAttributes, List.map_append, delivered_extents, delivered_optional,
                order, List.map_singleton, place, tidy.compression.dark.newlines,
                tidy.subblocks.dark.newlines, tidy.checksum.dark.newlines]
              rfl

theorem reported_entry (tidyName : Tidy item.1.name) (tidyType : Tidy item.1.type)
    (tidyBlock : Writer.hasBlock item.1 = true → TidyBlock item.2.prepared) :
    reportedTags (Writer.metadataAttributes item.1 (headerBlock item)) =
      (reportedElement (delivered item.1) (headerBlock item)).attributes := by
  unfold reportedTags
  rw [delivered_attributes tidyName tidyType tidyBlock]
  rfl

end

/-! ## What the element says -/

theorem tagValue_optional (name wanted : String) (value : Text) :
    tagValue (Writer.optionalAttribute name value) wanted =
      if name = wanted ∧ value ≠ [] then some value else none := by
  unfold tagValue Writer.optionalAttribute
  by_cases some : value ≠ []
  · by_cases same : name = wanted
    · simp [some, same]
    · simp [some, same]
  · simp [some]

/-- An attribute that is left out when it is empty is read as its value. -/
theorem normalize_optional (name : String) (value : Text) :
    ((tagValue (Writer.optionalAttribute name value) name).map normalizeValue).getD [] =
      normalizeValue value := by
  rw [tagValue_optional]
  by_cases some : value ≠ []
  · rw [if_pos ⟨rfl, some⟩]
    rfl
  · rw [if_neg fun both => some both.2, not_not.mp some]
    rfl

/-- The entry that a start tag declares. -/
structure Declares (element : ElementContext) (entry : MetadataEntry) : Prop where
  kind : entry.kind = if element.name = lit "Property" then .property else .fitsKeyword
  noUid : element.attr "uid" = none
  unnamed : entry.uid = []
  identity : Reader.entryName element = entry.name
  type : element.attributeOr "type" = entry.type
  value : element.attributeOr "value" = entry.value
  comment : element.attributeOr "comment" = entry.comment
  format : element.attributeOr "format" = entry.format
  compression : element.attributeOr "compression" = entry.compression
  subblocks : element.attributeOr "subblocks" = entry.subblocks
  checksum : element.attributeOr "checksum" = entry.checksum
  order : Reader.parseByteOrder element "Invalid Property byteOrder value" = .ok entry.byteOrder
  place : Reader.metadataBlock element (element.name = lit "Property")
    (Reader.entryLocation element) = .ok (entry.block, entry.valueForm)
  length : Reader.parseExtent element "length" "Property extent must be an unsigned integer" =
    .ok entry.length
  rows : Reader.parseExtent element "rows" "Property extent must be an unsigned integer" =
    .ok entry.rows
  columns : Reader.parseExtent element "columns" "Property extent must be an unsigned integer" =
    .ok entry.columns

theorem Declares.made {element : ElementContext} {entry : MetadataEntry} {state : XmlBuilder}
    (declares : Declares element entry) (image : entry.imageIndex = state.currentImage)
    (scope : entry.scope = if state.currentImage.isSome then .image
      else if element.parent = lit "Metadata" then .xisfUnit else .standalone) :
    Reader.metadataEntry state element (Reader.entryName element) (Reader.entryLocation element) =
      .ok entry := by
  have noUid : element.attributeOr "uid" = [] := by
    rw [ElementContext.attributeOr, declares.noUid]
    rfl
  rw [← image] at scope
  simp only [Reader.metadataEntry, declares.order, declares.place, declares.length, declares.rows,
    declares.columns, bind, Except.bind, pure, Except.pure]
  rw [declares.identity, declares.type, declares.value, declares.comment, declares.format,
    declares.compression, declares.subblocks, declares.checksum, ← image, ← scope, noUid,
    ← declares.unnamed]
  simp only [decide_eq_true_eq, ← declares.kind]

theorem order_absent {element : ElementContext} (absent : element.attr "byteOrder" = none)
    (message : String) : Reader.parseByteOrder element message = .ok .little := by
  unfold Reader.parseByteOrder ElementContext.attributeOr
  rw [absent]
  rfl

theorem parseExtent_absent {element : ElementContext} {wanted : String}
    (absent : element.attr wanted = none) (message : String) :
    Reader.parseExtent element wanted message = .ok none := by
  unfold Reader.parseExtent
  rw [absent]

theorem attributeOr_absent {element : ElementContext} {wanted : String}
    (absent : element.attr wanted = none) : element.attributeOr wanted = [] := by
  unfold ElementContext.attributeOr
  rw [absent]
  rfl

theorem attributeOr_found {element : ElementContext} {wanted : String} {value : Text}
    (found : element.attr wanted = some value) : element.attributeOr wanted = value := by
  unfold ElementContext.attributeOr
  rw [found]
  rfl

/-- The fields of a block are unset. -/
structure Blockless (entry : MetadataWriteEntry) : Prop where
  length : entry.length = none
  rows : entry.rows = none
  columns : entry.columns = none
  format : entry.format = []
  unstored : Writer.hasBlock entry = false

theorem blockless_of {entry : MetadataWriteEntry} (form : entry.valueForm = .direct)
    (undeclared : Writer.declaresBlock entry = false) : Blockless entry := by
  simp only [Writer.declaresBlock, Bool.or_eq_false_iff, Option.isSome_eq_false_iff,
    Option.isNone_iff_eq_none, decide_eq_false_iff_not, not_not] at undeclared
  obtain ⟨⟨⟨⟨⟨⟨⟨length, rows⟩, columns⟩, format⟩, -⟩, -⟩, -⟩, -⟩ := undeclared
  exact ⟨length, rows, columns, format, by simp [Writer.hasBlock, form]⟩

/-- What a reader lists for an entry while its text is not read. -/
def startedEntry (item : MetadataWriteEntry × PlannedBlock) : MetadataEntry :=
  { listedEntry item with
    value := if listedForm item.1 = .characterData then [] else listedValue item.1 }

/-- The element of an entry, as the parser reports it. -/
def entryElement (item : MetadataWriteEntry × PlannedBlock) : ElementContext :=
  reportedElement (delivered item.1) (headerBlock item)

/-- The names that only a block has. -/
def blockNames : List String :=
  ["location", "byteOrder", "format", "compression", "subblocks", "checksum", "length", "rows",
    "columns"]

section

variable {item : MetadataWriteEntry × PlannedBlock}

theorem entryElement_name : (entryElement item).name = Writer.elementName item.1 := rfl

theorem isProperty_iff : (entryElement item).name = lit "Property" ↔ item.1.kind = .property := by
  rw [entryElement_name, Writer.elementName]
  cases item.1.kind with
  | property => exact iff_of_true rfl rfl
  | fitsKeyword => exact iff_of_false (by decide) (by rintro ⟨⟩)

theorem entry_noUid : (entryElement item).attr "uid" = none := by
  cases kind : item.1.kind with
  | fitsKeyword =>
      unfold entryElement
      rw [attr_reported (by decide)]
      have isKeyword : (delivered item.1).kind = .fitsKeyword := kind
      simp [Writer.metadataAttributes, isKeyword, tagValue]
  | property =>
      unfold entryElement
      have isProperty : (delivered item.1).kind = .property := kind
      rw [attr_rest isProperty (by decide) (by decide)]
      cases form : item.1.valueForm with
      | direct =>
          have isDirect : (delivered item.1).valueForm = .direct := form
          simp only [Writer.valueAttributes, isDirect]
          split
          · rfl
          · simp [tagValue]
      | dataBlock =>
          have isBlock : (delivered item.1).valueForm = .dataBlock := form
          simp only [Writer.valueAttributes, isBlock]
          rw [tagValue_none blockAttributes_names (by decide)]
          rfl

/-- An entry without a block. -/
theorem direct_declares (form : item.1.valueForm = .direct)
    (undeclared : Writer.declaresBlock item.1 = false)
    (absent : ∀ wanted ∈ blockNames, (entryElement item).attr wanted = none)
    (identity : Reader.entryName (entryElement item) = item.1.name)
    (type : (entryElement item).attributeOr "type" = item.1.type)
    (value : (entryElement item).attr "value" =
      if listedForm item.1 = .characterData then none else some (attributeText item.1.value))
    (comment : (entryElement item).attributeOr "comment" = attributeText item.1.comment) :
    Declares (entryElement item) (startedEntry item) := by
  have plain := blockless_of form undeclared
  have noPrepared : listedPrepared item = {} := by
    rw [listedPrepared, plain.unstored]
    rfl
  have noBlock : listedBlock item = .empty := by
    simp [listedBlock, plain.unstored, form]
  constructor
  case kind =>
    cases kind : item.1.kind with
    | property => simp [isProperty_iff, startedEntry, listedEntry, kind]
    | fitsKeyword => simp [isProperty_iff, startedEntry, listedEntry, kind]
  case noUid => exact entry_noUid
  case unnamed => rfl
  case identity => exact identity
  case type => exact type
  case value =>
    rw [ElementContext.attributeOr, value]
    by_cases text : listedForm item.1 = .characterData
    · simp [startedEntry, text, lit]
    · simp [startedEntry, listedValue, text]
  case comment => exact comment
  case format =>
    rw [attributeOr_absent (absent "format" (by decide))]
    simp [startedEntry, listedEntry, plain.format, attributeText, normalizeNewlines, newlinesFrom,
      normalizeValue]
  case compression =>
    rw [attributeOr_absent (absent "compression" (by decide))]
    simp [startedEntry, listedEntry, noPrepared]
  case subblocks =>
    rw [attributeOr_absent (absent "subblocks" (by decide))]
    simp [startedEntry, listedEntry, noPrepared]
  case checksum =>
    rw [attributeOr_absent (absent "checksum" (by decide))]
    simp [startedEntry, listedEntry, noPrepared]
  case order =>
    rw [order_absent (absent "byteOrder" (by decide))]
    simp [startedEntry, listedEntry, form]
  case place =>
    have noLocation : Reader.entryLocation (entryElement item) = none := by
      rw [Reader.entryLocation, absent "location" (by decide), ite_self]
    have textual : (decide ((entryElement item).name = lit "Property") &&
        ((entryElement item).attr "value").isNone) =
        decide (listedForm item.1 = .characterData) := by
      rw [value]
      by_cases text : listedForm item.1 = .characterData
      · have property : item.1.kind = .property := by
          simp only [listedForm, form] at text
          split at text
          · rename_i both
            exact both.1
          · cases text
        simp [text, isProperty_iff, property]
      · simp [text]
    have isForm : (if listedForm item.1 = .characterData then ValueForm.characterData
        else .attribute) = listedForm item.1 := by
      simp only [listedForm, form]
      split <;> rfl
    rw [noLocation, Reader.metadataBlock, textual]
    simp only [decide_eq_true_eq, isForm]
    simp [startedEntry, listedEntry, noBlock]
  case length =>
    rw [parseExtent_absent (absent "length" (by decide))]
    simp [startedEntry, listedEntry, plain.length]
  case rows =>
    rw [parseExtent_absent (absent "rows" (by decide))]
    simp [startedEntry, listedEntry, plain.rows]
  case columns =>
    rw [parseExtent_absent (absent "columns" (by decide))]
    simp [startedEntry, listedEntry, plain.columns]

/-- The names that a FITS keyword does not have. -/
theorem keyword_absent (kind : item.1.kind = .fitsKeyword) :
    ∀ wanted ∈ "type" :: blockNames, (entryElement item).attr wanted = none := by
  have others : ∀ wanted ∈ "type" :: blockNames, wanted ∈ metadataNames ∧
      wanted ∉ ["name", "value", "comment"] := by decide
  intro wanted member
  obtain ⟨isName, other⟩ := others wanted member
  have isKeyword : (delivered item.1).kind = .fitsKeyword := kind
  unfold entryElement
  rw [attr_reported isName, @tagValue_none _ _ ["name", "value", "comment"] ?_ other]
  · rfl
  · simp [Writer.metadataAttributes, isKeyword]

/-- The names that a direct Property does not have. -/
theorem property_absent (kind : item.1.kind = .property) (form : item.1.valueForm = .direct) :
    ∀ wanted ∈ "comment" :: blockNames, (entryElement item).attr wanted = none := by
  have others : ∀ wanted ∈ "comment" :: blockNames, wanted ∈ metadataNames ∧
      wanted ≠ "id" ∧ wanted ≠ "type" ∧ wanted ≠ "value" := by decide
  intro wanted member
  obtain ⟨isName, other⟩ := others wanted member
  exact @attr_direct (delivered item.1) (headerBlock item) kind form wanted isName other

theorem keyword_declares (kind : item.1.kind = .fitsKeyword) (form : item.1.valueForm = .direct)
    (untyped : item.1.type = []) (undeclared : Writer.declaresBlock item.1 = false)
    (dark : Dark item.1.name) : Declares (entryElement item) (startedEntry item) := by
  have attributes : Writer.metadataAttributes (delivered item.1) (headerBlock item) =
      [("name", item.1.name), ("value", normalizeNewlines item.1.value),
        ("comment", normalizeNewlines item.1.comment)] := by
    unfold Writer.metadataAttributes
    have sameKind : (delivered item.1).kind = item.1.kind := rfl
    rw [sameKind, kind]
    rfl
  have keyword : ¬ (entryElement item).name = lit "Property" := by
    rw [isProperty_iff, kind]
    rintro ⟨⟩
  have found (wanted : String) (isName : wanted ∈ metadataNames) :
      (entryElement item).attr wanted = (tagValue [("name", item.1.name),
        ("value", normalizeNewlines item.1.value), ("comment", normalizeNewlines item.1.comment)]
        wanted).map normalizeValue := by
    rw [← attributes]
    exact attr_reported isName
  have absent := keyword_absent kind
  have notText : listedForm item.1 ≠ .characterData := by
    simp [listedForm, form, kind]
  refine direct_declares form undeclared (fun wanted member =>
    absent wanted (List.mem_cons_of_mem _ member)) ?_ ?_ ?_ ?_
  · rw [Reader.entryName, if_neg keyword, attributeOr_found (found "name" (by decide))]
    exact dark.normalize
  · rw [attributeOr_absent (absent "type" List.mem_cons_self), untyped]
  · rw [if_neg notText, found "value" (by decide)]
    rfl
  · exact attributeOr_found (found "comment" (by decide))

theorem property_declares (kind : item.1.kind = .property) (form : item.1.valueForm = .direct)
    (undeclared : Writer.declaresBlock item.1 = false) (dark : Dark item.1.name)
    (value : DirectValue item.1.type item.1.value) (uncommented : item.1.comment = []) :
    Declares (entryElement item) (startedEntry item) := by
  have absent := property_absent kind form
  have isText : listedForm item.1 = .characterData ↔ item.1.type = lit "String" := by
    simp [listedForm, form, kind]
  refine direct_declares form undeclared (fun wanted member =>
    absent wanted (List.mem_cons_of_mem _ member)) (reported_identity kind dark)
    (reported_type kind value.classified) ?_ ?_
  · have found := @attr_value_direct (delivered item.1) (headerBlock item) kind form
    have sameType : (delivered item.1).type = item.1.type := rfl
    rw [sameType] at found
    simp only [isText]
    exact found
  · rw [attributeOr_absent (absent "comment" List.mem_cons_self), uncommented]
    rfl

/-- A block has a length, or rows and columns. -/
theorem BlockChecked.extents {entry : MetadataWriteEntry} {layout : PropertyElementLayout}
    {count : Nat} (checked : BlockChecked entry layout count) :
    (∃ length, entry.length = some length ∧ entry.rows = none ∧ entry.columns = none) ∨
      ∃ rows columns, entry.length = none ∧ entry.rows = some rows ∧
      entry.columns = some columns := by
  have counted := checked.counted
  unfold Writer.elementCount at counted
  split at counted
  · simp only [bind_eq_ok, reject_eq_ok, not_or, Option.isNone_iff_eq_none, Bool.not_eq_true,
      Option.isSome_eq_false_iff] at counted
    obtain ⟨_, ⟨length, rows, columns⟩, -⟩ := counted
    obtain ⟨length, isLength⟩ := Option.ne_none_iff_exists'.mp length
    exact .inl ⟨length, isLength, rows, columns⟩
  · simp only [bind_eq_ok, reject_eq_ok, not_or, Option.isNone_iff_eq_none, Bool.not_eq_true,
      Option.isSome_eq_false_iff] at counted
    obtain ⟨_, ⟨length, rows, columns⟩, -⟩ := counted
    obtain ⟨rows, isRows⟩ := Option.ne_none_iff_exists'.mp rows
    obtain ⟨columns, isColumns⟩ := Option.ne_none_iff_exists'.mp columns
    exact .inr ⟨rows, columns, length, isRows, isColumns⟩
  · cases counted

/-- The tags of the extents are the extents. -/
theorem tagValue_extents {entry : MetadataWriteEntry} {layout : PropertyElementLayout} {count : Nat}
    (checked : BlockChecked entry layout count) :
    tagValue (Writer.extentsOf entry) "length" = entry.length.map decimal ∧
      tagValue (Writer.extentsOf entry) "rows" = entry.rows.map decimal ∧
      tagValue (Writer.extentsOf entry) "columns" = entry.columns.map decimal := by
  rcases checked.extents with ⟨length, isLength, rows, columns⟩ |
    ⟨rows, columns, length, isRows, isColumns⟩
  · simp [Writer.extentsOf, isLength, rows, columns, tagValue]
  · simp [Writer.extentsOf, length, isRows, isColumns, tagValue]

theorem parseExtent_decimal {element : ElementContext} {wanted message : String}
    {extent : Option Nat} (fits : ∀ n, extent = some n → n ≤ u64Max)
    (found : element.attr wanted = (extent.map decimal).map normalizeValue) :
    Reader.parseExtent element wanted message = .ok extent := by
  cases extent with
  | none => exact parseExtent_absent found message
  | some n =>
      have same : element.attr wanted = some (decimal n) := by
        rw [found, Option.map_some, Option.map_some, (decimal_tidy n).dark.normalize]
      unfold Reader.parseExtent
      simp only [same, parseUnsigned_decimal (fits n rfl)]

/-- The tags of a block after its extents. -/
def afterTags (item : MetadataWriteEntry × PlannedBlock) : List TagAttribute :=
  if Writer.isEmptyPropertyContainer item.1 then [("location", lit "inline:base64")]
  else Writer.describingAttributes (delivered item.1) item.2.prepared ++
    [("location", Writer.attachmentLocation item.2.location.offset item.2.location.size)]

theorem block_tags (form : item.1.valueForm = .dataBlock) :
    Writer.valueAttributes (delivered item.1) (headerBlock item) =
      Writer.extentsOf item.1 ++ afterTags item := by
  have isBlock : (delivered item.1).valueForm = .dataBlock := form
  have sameEmpty : Writer.isEmptyPropertyContainer (delivered item.1) =
      Writer.isEmptyPropertyContainer item.1 := rfl
  have sameExtents : Writer.extentsOf (delivered item.1) = Writer.extentsOf item.1 := rfl
  simp only [Writer.valueAttributes, isBlock, Writer.blockAttributes, sameEmpty, sameExtents,
    afterTags, headerBlock, form, if_true]
  split
  · rfl
  · exact List.append_assoc _ _ _

theorem attr_after (kind : item.1.kind = .property) (form : item.1.valueForm = .dataBlock)
    {wanted : String} (isName : wanted ∈ metadataNames)
    (later : wanted ≠ "id" ∧ wanted ≠ "type")
    (notExtent : wanted ∉ ["length", "rows", "columns"]) :
    (entryElement item).attr wanted = (tagValue (afterTags item) wanted).map normalizeValue := by
  have isProperty : (delivered item.1).kind = .property := kind
  unfold entryElement
  rw [attr_rest isProperty isName later, block_tags form, tagValue_append,
    tagValue_none extentsOf_names notExtent, Option.none_or]

/-- What a block says of itself after its extents. -/
structure DescribesBlock (item : MetadataWriteEntry × PlannedBlock) : Prop where
  format : (entryElement item).attributeOr "format" = attributeText item.1.format
  compression : (entryElement item).attributeOr "compression" = (listedPrepared item).compression
  subblocks : (entryElement item).attributeOr "subblocks" = (listedPrepared item).subblocks
  checksum : (entryElement item).attributeOr "checksum" = (listedPrepared item).checksum
  order : Reader.parseByteOrder (entryElement item) "Invalid Property byteOrder value" =
    .ok item.1.byteOrder
  location : ∃ text, (entryElement item).attr "location" = some text ∧
    Reader.parseLocation text = listedBlock item
  placed : (listedBlock item).kind = .attachment ∨ (listedBlock item).kind = .inlineData
  located : Locates (entryElement item) (entryRanges item)

theorem describes_empty (kind : item.1.kind = .property) (form : item.1.valueForm = .dataBlock)
    (empty : Writer.isEmptyPropertyContainer item.1 = true)
    (unset : item.1.byteOrder = .little ∧ item.1.format = []) : DescribesBlock item := by
  have tags : afterTags item = [("location", lit "inline:base64")] := by
    rw [afterTags, if_pos empty]
  have unstored : Writer.hasBlock item.1 = false := by
    simp [Writer.hasBlock, empty]
  have noPrepared : listedPrepared item = {} := by
    rw [listedPrepared, unstored]
    rfl
  have isBlock : listedBlock item = ⟨.inlineData, 0, 0, lit "inline:base64"⟩ := by
    simp [listedBlock, unstored, form]
  have others : ∀ wanted ∈ ["format", "compression", "subblocks", "checksum", "byteOrder"],
      wanted ∈ metadataNames ∧ (wanted ≠ "id" ∧ wanted ≠ "type") ∧
        wanted ∉ ["length", "rows", "columns"] ∧ wanted ∉ ["location"] := by decide
  have absent : ∀ wanted ∈ ["format", "compression", "subblocks", "checksum", "byteOrder"],
      (entryElement item).attr wanted = none := by
    intro wanted member
    obtain ⟨isName, later, notExtent, notPlace⟩ := others wanted member
    rw [attr_after kind form isName later notExtent, tags, @tagValue_none _ _ ["location"]
      (by simp) notPlace]
    rfl
  have place : (entryElement item).attr "location" = some (lit "inline:base64") := by
    rw [attr_after kind form (by decide) (by decide) (by decide), tags]
    decide
  constructor
  case format =>
    rw [attributeOr_absent (absent "format" (by decide)), unset.2]
    rfl
  case compression => rw [attributeOr_absent (absent "compression" (by decide)), noPrepared]
  case subblocks => rw [attributeOr_absent (absent "subblocks" (by decide)), noPrepared]
  case checksum => rw [attributeOr_absent (absent "checksum" (by decide)), noPrepared]
  case order => rw [order_absent (absent "byteOrder" (by decide)), unset.1]
  case location =>
    refine ⟨lit "inline:base64", place, ?_⟩
    rw [isBlock]
    decide
  case placed =>
    rw [isBlock]
    exact .inr rfl
  case located =>
    rw [entryRanges, unstored]
    exact .inline place

theorem describes_attached (kind : item.1.kind = .property) (form : item.1.valueForm = .dataBlock)
    (full : Writer.isEmptyPropertyContainer item.1 = false) (tidy : TidyBlock item.2.prepared)
    (placed : PlacedBlock item.2) : DescribesBlock item := by
  have tags : afterTags item =
      (if item.1.byteOrder = .big then [("byteOrder", lit "big")] else []) ++
      Writer.optionalAttribute "format" (normalizeNewlines item.1.format) ++
      Writer.optionalAttribute "compression" item.2.prepared.compression ++
      Writer.optionalAttribute "subblocks" item.2.prepared.subblocks ++
      Writer.optionalAttribute "checksum" item.2.prepared.checksum ++
      [("location", Writer.attachmentLocation item.2.location.offset item.2.location.size)] := by
    rw [afterTags, full]
    rfl
  have stored : Writer.hasBlock item.1 = true := by
    simp [Writer.hasBlock, form, full]
  have isPrepared : listedPrepared item = item.2.prepared := by
    rw [listedPrepared, if_pos stored]
  have isBlock : listedBlock item = item.2.location := by
    rw [listedBlock, if_pos stored]
  have order (wanted : String) : tagValue (if item.1.byteOrder = .big then
      [("byteOrder", lit "big")] else []) wanted =
      if item.1.byteOrder = .big ∧ "byteOrder" = wanted then some (lit "big") else none := by
    by_cases big : item.1.byteOrder = .big
    · by_cases same : "byteOrder" = wanted
      · simp [tagValue, big, same]
      · simp [tagValue, big, same]
    · simp [tagValue, big]
  have place (wanted : String) : tagValue [("location",
      Writer.attachmentLocation item.2.location.offset item.2.location.size)] wanted =
      if "location" = wanted then
        some (Writer.attachmentLocation item.2.location.offset item.2.location.size)
      else none := by
    by_cases same : "location" = wanted
    · simp [tagValue, same]
    · simp [tagValue, same]
  have optional (name : String) (isName : name ∈ ["format", "compression", "subblocks", "checksum"])
      (value : Text) (own : tagValue (afterTags item) name =
        tagValue (Writer.optionalAttribute name value) name) :
      (entryElement item).attributeOr name = normalizeValue value := by
    have known : ∀ name ∈ ["format", "compression", "subblocks", "checksum"],
        name ∈ metadataNames ∧ (name ≠ "id" ∧ name ≠ "type") ∧
          name ∉ ["length", "rows", "columns"] := by decide
    obtain ⟨isKnown, later, notExtent⟩ := known name isName
    rw [ElementContext.attributeOr, attr_after kind form isKnown later notExtent, own]
    exact normalize_optional name value
  have attached : (entryElement item).attr "location" =
      some (Writer.attachmentLocation item.2.location.offset item.2.location.size) := by
    rw [attr_after kind form (by decide) (by decide) (by decide), tags]
    simp [tagValue_append, tagValue_optional, order, place,
      (attachmentLocation_tidy item.2.location.offset item.2.location.size).dark.normalize]
  constructor
  case format =>
    refine optional "format" (by decide) _ ?_
    rw [tags]
    simp [tagValue_append, tagValue_optional, order, place]
  case compression =>
    rw [isPrepared, ← tidy.compression.dark.normalize]
    refine optional "compression" (by decide) _ ?_
    rw [tags]
    simp [tagValue_append, tagValue_optional, order, place]
  case subblocks =>
    rw [isPrepared, ← tidy.subblocks.dark.normalize]
    refine optional "subblocks" (by decide) _ ?_
    rw [tags]
    simp [tagValue_append, tagValue_optional, order, place]
  case checksum =>
    rw [isPrepared, ← tidy.checksum.dark.normalize]
    refine optional "checksum" (by decide) _ ?_
    rw [tags]
    simp [tagValue_append, tagValue_optional, order, place]
  case order =>
    have found : (entryElement item).attr "byteOrder" =
        if item.1.byteOrder = .big then some (lit "big") else none := by
      rw [attr_after kind form (by decide) (by decide) (by decide), tags]
      have isBig : normalizeValue (lit "big") = lit "big" := by decide
      simp only [tagValue_append, tagValue_optional, order, place]
      by_cases big : item.1.byteOrder = .big
      · simp [big, isBig]
      · simp [big]
    unfold Reader.parseByteOrder ElementContext.attributeOr
    rw [found]
    cases item.1.byteOrder with
    | little => rfl
    | big => rfl
  case location =>
    refine ⟨_, attached, ?_⟩
    rw [isBlock, parseLocation_attachment placed.offset placed.size]
    exact placed.location.symm
  case placed =>
    rw [isBlock, placed.location]
    exact .inl rfl
  case located =>
    rw [entryRanges, if_pos stored]
    exact .attached placed.offset placed.size attached

theorem EntryReady.described {imageCount : Nat} (ready : EntryReady imageCount item)
    (kind : item.1.kind = .property) (form : item.1.valueForm = .dataBlock) :
    DescribesBlock item := by
  obtain ⟨layout, count, checked⟩ := ready.accepted.block form
  cases empty : Writer.isEmptyPropertyContainer item.1 with
  | true =>
      obtain ⟨order, format, -⟩ := checked.container empty
      exact describes_empty kind form empty ⟨order, format⟩
  | false =>
      have stored : Writer.hasBlock item.1 = true := by
        simp [Writer.hasBlock, form, empty]
      exact describes_attached kind form empty (ready.tidy stored) (ready.placed stored)

theorem block_declares {imageCount : Nat} (kind : item.1.kind = .property)
    (form : item.1.valueForm = .dataBlock) (dark : Dark item.1.name)
    (classified : classifyPropertyType item.1.type ≠ .unknown)
    (ready : EntryReady imageCount item) :
    Declares (entryElement item) (startedEntry item) := by
  obtain ⟨layout, count, checked⟩ := ready.accepted.block form
  have described := ready.described kind form
  have property : (entryElement item).name = lit "Property" := isProperty_iff.mpr kind
  have isForm : listedForm item.1 = .dataBlock := by
    simp only [listedForm, form]
  have located : Writer.isEmptyPropertyContainer (delivered item.1) = true ∨
      headerBlock item ≠ none := by
    right
    simp [headerBlock, form]
  obtain ⟨noValue, -, extent⟩ := @attr_block (delivered item.1) (headerBlock item) kind form located
  have sameExtents : Writer.extentsOf (delivered item.1) = Writer.extentsOf item.1 := rfl
  rw [sameExtents] at extent
  obtain ⟨length, rows, columns⟩ := tagValue_extents checked
  obtain ⟨text, location, parsed⟩ := described.location
  constructor
  case kind => simp [isProperty_iff, startedEntry, listedEntry, kind]
  case noUid => exact entry_noUid
  case unnamed => rfl
  case identity => exact reported_identity kind dark
  case type => exact reported_type kind classified
  case value =>
    have absent : (entryElement item).attr "value" = none := noValue
    rw [attributeOr_absent absent]
    simp [startedEntry, isForm, listedValue, checked.noValue, attributeText, normalizeNewlines,
      newlinesFrom]
  case comment =>
    have tags : tagValue (afterTags item) "comment" = none := by
      have names : ∀ tag ∈ afterTags item, tag.1 ∈
          ["byteOrder", "format", "compression", "subblocks", "checksum"] ++ ["location"] := by
        intro tag member
        unfold afterTags at member
        split at member
        · rw [List.mem_singleton.mp member]
          decide
        · rcases List.mem_append.mp member with own | place
          · exact List.mem_append_left _ (describingAttributes_names tag own)
          · rw [List.mem_singleton.mp place]
            exact List.mem_append_right _ List.mem_cons_self
      exact tagValue_none names (by decide)
    have absent : (entryElement item).attr "comment" = none := by
      rw [attr_after kind form (by decide) (by decide) (by decide), tags]
      rfl
    rw [attributeOr_absent absent]
    simp [startedEntry, listedEntry, ready.accepted.comment kind, attributeText, normalizeNewlines,
      newlinesFrom]
  case format => exact described.format
  case compression => exact described.compression
  case subblocks => exact described.subblocks
  case checksum => exact described.checksum
  case order =>
    rw [described.order]
    simp [startedEntry, listedEntry, form]
  case place =>
    have notBad : ¬ ((listedBlock item).kind = .unknown ∨ (listedBlock item).kind = .embedded) := by
      rcases described.placed with attached | inside
      · simp [attached]
      · simp [inside]
    rw [Reader.entryLocation, if_pos property, location]
    simp only [Reader.metadataBlock, parsed, reject, if_neg notBad, bind, Except.bind, pure,
      Except.pure]
    simp [startedEntry, listedEntry, isForm]
  case length =>
    exact parseExtent_decimal ready.extents.length (length ▸ extent "length" (by decide))
  case rows => exact parseExtent_decimal ready.extents.rows (rows ▸ extent "rows" (by decide))
  case columns =>
    exact parseExtent_decimal ready.extents.columns (columns ▸ extent "columns" (by decide))

end

end Mmxisf
