/-
# MetadataAgreement -- the metadata a writer emits is valid for the reader

The start tag of an entry that `write_impl` accepted (`Writer.metadataAttributes`)
reaches the reader's handler with its values normalised (`reportedElement`).  For
every such element the handler finds nothing wrong with the identifier, the type
or the value: `startMetadataEntry` succeeds, exceeds a limit, or objects to what a
block Property says about its block.
-/
import Mmxisf.ValueAgreement

namespace Mmxisf

set_option autoImplicit false

open Writer (MetadataWriteEntry MetadataCheck PreparedBlock TagAttribute WriterOptions)
open Reader (XmlBuilder ElementContext ReaderOptions)

/-! ## What the handler is called with -/

/-- The attributes that a parser reports for a start tag. -/
def reportedAttributes (attributes : List TagAttribute) : List (Text × Text) :=
  attributes.map fun tag => (lit tag.1, normalizeValue tag.2)

/-- The element of an entry: inside the Image it belongs to, or in Metadata. -/
def reportedElement (entry : MetadataWriteEntry)
    (block : Option (BlockLocation × PreparedBlock)) : ElementContext where
  name := Writer.elementName entry
  namespaceUri := Reader.kXisfNamespace
  parent := if entry.imageIndex.isSome then lit "Image" else lit "Metadata"
  attributes := reportedAttributes (Writer.metadataAttributes entry block)

/-- The names that tags of metadata use, and the one they never do. -/
def metadataNames : List String :=
  ["id", "name", "type", "value", "comment", "length", "rows", "columns", "byteOrder", "format",
    "compression", "subblocks", "checksum", "location", "uid"]

/-- The value of a tag's attribute. -/
def tagValue (attributes : List TagAttribute) (wanted : String) : Option Text :=
  (attributes.find? fun tag => tag.1 = wanted).map Prod.snd

theorem attributeValue_reported {attributes : List TagAttribute}
    (known : ∀ tag ∈ attributes, tag.1 ∈ metadataNames) {wanted : String}
    (isName : wanted ∈ metadataNames) :
    Reader.attributeValue (reportedAttributes attributes) (lit wanted) =
      (tagValue attributes wanted).map normalizeValue := by
  have plain : ∀ name ∈ metadataNames, Reader.namespaceName (lit name) = [] ∧
      ∀ other ∈ metadataNames, Reader.localName (lit name) = lit other ↔ name = other := by decide
  unfold Reader.attributeValue reportedAttributes tagValue
  induction attributes with
  | nil => rfl
  | cons tag rest ih =>
      obtain ⟨noNamespace, isLocal⟩ := plain tag.1 (known tag List.mem_cons_self)
      have later := ih fun other member => known other (List.mem_cons_of_mem _ member)
      rw [List.map_cons, List.find?_cons, List.find?_cons]
      have same : (decide (Reader.namespaceName (lit tag.1) = []) &&
          decide (Reader.localName (lit tag.1) = lit wanted)) = decide (tag.1 = wanted) := by
        rw [← Bool.decide_and, decide_eq_decide, isLocal wanted isName]
        exact and_iff_right noNamespace
      dsimp only
      rw [same]
      by_cases here : tag.1 = wanted
      · simp [here]
      · simp only [here, decide_false]
        exact later

/-! ## The attributes of an entry -/

section

variable {entry : MetadataWriteEntry} {block : Option (BlockLocation × PreparedBlock)}

theorem mem_optionalAttribute {name : String} {value : Text} {tag : TagAttribute}
    (member : tag ∈ Writer.optionalAttribute name value) : tag = (name, value) := by
  unfold Writer.optionalAttribute at member
  split at member
  · exact List.mem_singleton.mp member
  · cases member

/-- The attributes of a block after its extents. -/
def afterExtents : List String :=
  ["byteOrder", "format", "compression", "subblocks", "checksum", "location"]

theorem extentsOf_names (tag : TagAttribute) (member : tag ∈ Writer.extentsOf entry) :
    tag.1 ∈ ["length", "rows", "columns"] := by
  unfold Writer.extentsOf at member
  split at member
  · obtain rfl := List.mem_singleton.mp member
    simp
  · simp only [List.mem_cons, List.not_mem_nil, or_false] at member
    rcases member with rfl | rfl <;> simp

theorem describingAttributes_names {prepared : PreparedBlock} (tag : TagAttribute)
    (member : tag ∈ Writer.describingAttributes entry prepared) :
    tag.1 ∈ ["byteOrder", "format", "compression", "subblocks", "checksum"] := by
  unfold Writer.describingAttributes at member
  simp only [List.mem_append] at member
  rcases member with (((order | format) | compression) | subblocks) | checksum
  · split at order
    · rw [List.mem_singleton.mp order]
      simp
    · cases order
  · rw [mem_optionalAttribute format]
    simp
  · rw [mem_optionalAttribute compression]
    simp
  · rw [mem_optionalAttribute subblocks]
    simp
  · rw [mem_optionalAttribute checksum]
    simp

/-- The attributes of a block: its extents, then what describes it, then its
location.  There are none only where the writer makes no text. -/
theorem blockAttributes_eq :
    Writer.blockAttributes entry block = [] ∧
        Writer.isEmptyPropertyContainer entry = false ∧ block = none ∨
      ∃ others place, Writer.blockAttributes entry block =
          Writer.extentsOf entry ++ (others ++ [("location", place)]) ∧
        ∀ tag ∈ others, tag.1 ∈ ["byteOrder", "format", "compression", "subblocks",
          "checksum"] := by
  unfold Writer.blockAttributes
  cases Writer.isEmptyPropertyContainer entry with
  | true => exact .inr ⟨[], _, rfl, by simp⟩
  | false =>
      cases block with
      | none => exact .inl ⟨rfl, rfl, rfl⟩
      | some located =>
          obtain ⟨location, prepared⟩ := located
          exact .inr ⟨Writer.describingAttributes entry prepared, _, List.append_assoc _ _ _,
            describingAttributes_names⟩

theorem blockAttributes_names (tag : TagAttribute)
    (member : tag ∈ Writer.blockAttributes entry block) :
    tag.1 ∈ ["length", "rows", "columns"] ++ afterExtents := by
  rcases @blockAttributes_eq entry block with ⟨none, -, -⟩ | ⟨others, place, same, names⟩
  · rw [none] at member
    cases member
  · rw [same, List.mem_append, List.mem_append, List.mem_singleton] at member
    rcases member with own | other | rfl
    · exact List.mem_append_left _ (extentsOf_names tag own)
    · have known : ∀ name ∈ ["byteOrder", "format", "compression", "subblocks", "checksum"],
          name ∈ ["length", "rows", "columns"] ++ afterExtents := by decide
      exact known _ (names tag other)
    · simp [afterExtents]

theorem metadataAttributes_names (tag : TagAttribute)
    (member : tag ∈ Writer.metadataAttributes entry block) : tag.1 ∈ metadataNames := by
  unfold Writer.metadataAttributes at member
  split at member
  · simp only [List.mem_cons, List.not_mem_nil, or_false] at member
    rcases member with rfl | rfl | rfl <;> simp [metadataNames]
  · rcases List.mem_append.mp member with own | added
    · simp only [List.mem_cons, List.not_mem_nil, or_false] at own
      rcases own with rfl | rfl <;> simp [metadataNames]
    · unfold Writer.valueAttributes at added
      split at added
      · have blockName := blockAttributes_names tag added
        have known : ∀ name ∈ ["length", "rows", "columns"] ++ afterExtents,
            name ∈ metadataNames := by decide
        exact known _ blockName
      · split at added
        · cases added
        · obtain rfl := List.mem_singleton.mp added
          simp [metadataNames]

theorem attr_reported {wanted : String} (isName : wanted ∈ metadataNames) :
    (reportedElement entry block).attr wanted =
      (tagValue (Writer.metadataAttributes entry block) wanted).map normalizeValue :=
  attributeValue_reported metadataAttributes_names isName

/-- An attribute whose name no tag of the list has. -/
theorem tagValue_none {attributes : List TagAttribute} {wanted : String} {names : List String}
    (all : ∀ tag ∈ attributes, tag.1 ∈ names) (other : wanted ∉ names) :
    tagValue attributes wanted = none := by
  unfold tagValue
  rw [Option.map_eq_none_iff, List.find?_eq_none]
  intro tag member same
  rw [decide_eq_true_eq] at same
  exact other (same ▸ all tag member)

end

/-! ## What the writer accepts -/

/-- A direct Property value with its type. -/
inductive DirectValue : Text → Text → Prop
  | string (value : Text) : DirectValue (lit "String") value
  | timePoint {value : Text} (canonical : Writer.isCanonicalUtcTime value = true) :
      DirectValue (lit "TimePoint") value
  | scalar {type value : Text} (category : classifyPropertyType type = .scalarOrComplex)
      (valid : Writer.isValidScalarProperty type value = true) : DirectValue type value

/-- The extents of a block Property, as its type asks for them. -/
inductive BlockExtents (entry : MetadataWriteEntry) : Prop
  | vector (category : classifyPropertyType entry.type = .vector)
      (length : entry.length.isSome = true)
  | matrix (category : classifyPropertyType entry.type = .matrix) (length : entry.length = none)

/-- A Property of the unit is in the `XISF:` namespace and is not one of the two
that the writer adds itself. -/
def UnitName (entry : MetadataWriteEntry) : Prop :=
  entry.imageIndex = none → (lit "XISF:").isPrefixOf entry.name = true ∧
    entry.name ≠ lit "XISF:CreationTime" ∧ entry.name ≠ lit "XISF:CreatorApplication"

/-- What the metadata checks of a write leave of an entry. -/
inductive ValidEntry (entry : MetadataWriteEntry) : Prop
  | fitsKeyword (kind : entry.kind = .fitsKeyword) (image : entry.imageIndex.isSome = true)
      (name : Writer.isValidFitsKeywordName entry.name = true)
  | direct (kind : entry.kind = .property) (form : entry.valueForm = .direct)
      (name : Writer.isValidPropertyIdentifier entry.name = true) (unit : UnitName entry)
      (value : DirectValue entry.type entry.value)
  | block (kind : entry.kind = .property) (form : entry.valueForm = .dataBlock)
      (name : Writer.isValidPropertyIdentifier entry.name = true) (unit : UnitName entry)
      (extents : BlockExtents entry)

section

variable {options : WriterOptions} {imageCount : Nat} {check check' : MetadataCheck}
  {entry : MetadataWriteEntry}

theorem checkFitsKeyword_eq (run : Writer.checkFitsKeyword entry = .ok ()) :
    entry.imageIndex.isSome = true ∧ Writer.isValidFitsKeywordName entry.name = true := by
  simp only [Writer.checkFitsKeyword, bind_eq_ok, reject_eq_ok, Option.isNone_iff_eq_none,
    Bool.not_eq_false] at run
  obtain ⟨_, -, _, image, _, -, name⟩ := run
  exact ⟨Option.isSome_iff_ne_none.mpr image, name⟩

theorem checkDirectProperty_eq (run : Writer.checkDirectProperty entry = .ok ()) :
    DirectValue entry.type entry.value := by
  simp only [Writer.checkDirectProperty, bind_eq_ok, reject_eq_ok] at run
  obtain ⟨_, -, _, supported, _, timePoint, scalar⟩ := run
  by_cases isString : entry.type = lit "String"
  · rw [isString]
    exact .string _
  by_cases isTime : entry.type = lit "TimePoint"
  · rw [isTime]
    rw [isTime] at timePoint
    exact .timePoint (by simpa using timePoint)
  have isSupported : Writer.isSupportedScalarPropertyType entry.type = true := by
    simpa [isString, isTime] using supported
  exact .scalar ((supportedType_iff _).mp isSupported) (by simpa [isSupported] using scalar)

theorem elementCount_eq {count : Nat} (run : Writer.elementCount entry = .ok count) :
    BlockExtents entry := by
  unfold Writer.elementCount at run
  split at run
  · rename_i category
    simp only [bind_eq_ok, reject_eq_ok, not_or] at run
    obtain ⟨_, ⟨length, -, -⟩, -⟩ := run
    exact .vector category (by simpa [Option.isSome_iff_ne_none] using length)
  · rename_i category
    simp only [bind_eq_ok, reject_eq_ok, not_or] at run
    obtain ⟨_, ⟨length, -, -⟩, -⟩ := run
    exact .matrix category (by simpa using length)
  · cases run

theorem checkBlockProperty_eq {cumulative cumulative' : Nat}
    (run : Writer.checkBlockProperty options cumulative entry = .ok cumulative') :
    BlockExtents entry := by
  simp only [Writer.checkBlockProperty, bind_eq_ok] at run
  obtain ⟨_, -, _, -, _, counted, -⟩ := run
  exact elementCount_eq counted

/-- The writer's own two Properties are among the identifiers that were used. -/
def Reserved (check : MetadataCheck) : Prop :=
  lit "XISF:CreationTime" ∈ check.unitPropertyIds ∧
    lit "XISF:CreatorApplication" ∈ check.unitPropertyIds

theorem reserved_start : Reserved (MetadataCheck.start imageCount) := by
  simp [Reserved, MetadataCheck.start]

theorem checkProperty_eq (reserved : Reserved check) (kind : entry.kind = .property)
    (run : Writer.checkProperty options check entry = .ok check') :
    ValidEntry entry ∧ Reserved check' := by
  simp only [Writer.checkProperty, bind_eq_ok, reject_eq_ok, Bool.not_eq_false] at run
  obtain ⟨_, name, _, -, cumulative, checked, _, namespaced, _, fresh, same⟩ := run
  cases same
  have unit : UnitName entry := by
    intro none
    have unused : entry.name ∉ check.unitPropertyIds := by
      simpa [MetadataCheck.propertyIds, none] using fresh
    refine ⟨by simpa [none] using namespaced, ?_, ?_⟩
    · intro same
      exact unused (same ▸ reserved.1)
    · intro same
      exact unused (same ▸ reserved.2)
  have kept : Reserved { check.addPropertyId entry.imageIndex entry.name with
      cumulativePropertyBytes := cumulative } := by
    unfold Reserved MetadataCheck.addPropertyId
    cases entry.imageIndex with
    | some index => exact reserved
    | none => exact ⟨List.mem_append_left _ reserved.1, List.mem_append_left _ reserved.2⟩
  refine ⟨?_, kept⟩
  cases form : entry.valueForm with
  | direct =>
      simp only [form, bind_eq_ok] at checked
      obtain ⟨_, value, -⟩ := checked
      exact .direct kind form name unit (checkDirectProperty_eq value)
  | dataBlock =>
      simp only [form] at checked
      exact .block kind form name unit (checkBlockProperty_eq checked)

theorem checkMetadataEntry_eq (reserved : Reserved check)
    (run : Writer.checkMetadataEntry options imageCount check entry = .ok check') :
    ValidEntry entry ∧ Reserved check' := by
  simp only [Writer.checkMetadataEntry, bind_eq_ok] at run
  obtain ⟨_, -, _, -, checked, form, run⟩ := run
  have same : checked = check' := by
    obtain ⟨-, run⟩ | ⟨-, run⟩ := ite_eq_ok run
    · simp only [bind_eq_ok] at run
      obtain ⟨-, -, same⟩ := run
      cases same
      rfl
    · cases run
      rfl
  subst same
  cases kind : entry.kind with
  | fitsKeyword =>
      simp only [kind, bind_eq_ok] at form
      obtain ⟨_, valid, same⟩ := form
      cases same
      obtain ⟨image, name⟩ := checkFitsKeyword_eq valid
      exact ⟨.fitsKeyword kind image name, reserved⟩
  | property =>
      simp only [kind] at form
      exact checkProperty_eq reserved kind form

/-- Every entry that passed the metadata loop is valid. -/
theorem validEntry_of_accepted {metadata : List MetadataWriteEntry} (reserved : Reserved check)
    (run : metadata.foldlM (Writer.checkMetadataEntry options imageCount) check = .ok check') :
    ∀ entry ∈ metadata, ValidEntry entry := by
  induction metadata generalizing check with
  | nil => exact fun _ member => absurd member List.not_mem_nil
  | cons first rest ih =>
      rw [List.foldlM_cons, bind_eq_ok] at run
      obtain ⟨checked, one, run⟩ := run
      obtain ⟨valid, reserved'⟩ := checkMetadataEntry_eq reserved one
      exact List.forall_mem_cons.mpr ⟨valid, ih reserved' run⟩

end

/-! ## What the reader finds -/

/-- The attributes by which a block Property describes its block. -/
def blockDescription : List Text :=
  ["location", "byteOrder", "length", "rows", "columns"].map lit

/-- A limit was exceeded, or the description of a block was refused. -/
def OutsideValue (e : Error) : Prop := e.code = .resourceLimit ∨ e.attributeName ∈ blockDescription

section

variable {options : ReaderOptions} {state : XmlBuilder} {element : ElementContext}
  {entry : MetadataWriteEntry} {block : Option (BlockLocation × PreparedBlock)}

theorem parseExtent_error {wanted message : String} {e : Error}
    (run : Reader.parseExtent element wanted message = .error e) :
    e.attributeName = lit wanted := by
  unfold Reader.parseExtent at run
  split at run
  · cases run
  · split at run
    · cases run
    · cases run
      rfl

theorem parseExtent_none {wanted message : String} {extent : Option Nat}
    (none : element.attr wanted = none)
    (run : Reader.parseExtent element wanted message = .ok extent) : extent = .none := by
  unfold Reader.parseExtent at run
  rw [none] at run
  exact (Except.ok.inj run).symm

theorem parseExtent_some {wanted message : String} {extent : Option Nat}
    (some : (element.attr wanted).isSome = true)
    (run : Reader.parseExtent element wanted message = .ok extent) : extent.isSome = true := by
  obtain ⟨text, there⟩ := Option.isSome_iff_exists.mp some
  unfold Reader.parseExtent at run
  rw [there] at run
  dsimp only at run
  split at run
  · cases run
    rfl
  · cases run

theorem metadataEntry_error {identity : Text} {location : Option Text} {e : Error}
    (run : Reader.metadataEntry state element identity location = .error e) :
    e.attributeName ∈ blockDescription := by
  simp only [Reader.metadataEntry, bind_eq_error] at run
  rcases run with order | ⟨_, -,
    place | ⟨_, -, length | ⟨_, -, rows | ⟨_, -, columns | ⟨_, -, impossible⟩⟩⟩⟩⟩
  · simp only [Reader.parseByteOrder, bind_eq_error, reject_eq_error] at order
    rcases order with ⟨-, rfl⟩ | ⟨_, -, impossible⟩
    · simp [blockDescription]
    · cases impossible
  · unfold Reader.metadataBlock at place
    split at place
    · cases place
    · simp only [bind_eq_error, reject_eq_error] at place
      rcases place with ⟨-, rfl⟩ | ⟨_, -, impossible⟩
      · simp [blockDescription]
      · cases impossible
  · rw [parseExtent_error length]
    simp [blockDescription]
  · rw [parseExtent_error rows]
    simp [blockDescription]
  · rw [parseExtent_error columns]
    simp [blockDescription]
  · cases impossible

theorem bindMetadata_error {index : Nat} {info : MetadataEntry} {e : Error}
    (run : Reader.bindMetadata options state element index info = .error e) :
    e.code = .resourceLimit := by
  unfold Reader.bindMetadata at run
  split at run
  · simp only [bind_eq_error, reject_eq_error] at run
    rcases run with ⟨-, rfl⟩ | ⟨_, -, impossible⟩
    · rfl
    · cases impossible
  · cases run

theorem openMetadataText_error {index : Nat} {info : MetadataEntry} {location : Option Text}
    {e : Error} (run : Reader.openMetadataText state element index info location = .error e) :
    e.attributeName = lit "location" := by
  unfold Reader.openMetadataText at run
  split at run
  · cases run
  · split at run
    · simp only [bind_eq_error, reject_eq_error] at run
      rcases run with ⟨-, rfl⟩ | ⟨_, -, impossible⟩
      · rfl
      · cases impossible
    · cases run

/-- What the handler asks of the identifier, the type and the value of an element,
apart from the limit on the value's size. -/
structure IdentifiedAs (state : XmlBuilder) (element : ElementContext) (identity : Text) :
    Prop where
  nonempty : identity ≠ []
  keyword : element.name ≠ lit "Property" →
    (element.attr "value").isSome = true ∧ (element.attr "comment").isSome = true ∧
      isValidFitsKeywordName identity = true
  property : element.name = lit "Property" →
    element.attributeOr "type" ≠ [] ∧ isValidPropertyIdentifier identity = true ∧
      ((element.attr "location").isNone = true → Reader.hasBlockAttributes element = false)
  unit : element.name = lit "Property" → element.parent = lit "Metadata" →
    ∃ state', Reader.checkUnitProperty state element identity (element.attributeOr "type") =
      .ok state'

theorem checkMetadata_error {identity : Text} {e : Error}
    (identified : IdentifiedAs state element identity)
    (run : Reader.checkMetadata options state element identity = .error e) :
    e.code = .resourceLimit := by
  simp only [Reader.checkMetadata, bind_eq_error, reject_eq_error] at run
  rcases run with ⟨missing, -⟩ | ⟨_, -, ⟨⟨keyword, invalid⟩, -⟩ | ⟨_, -, ⟨⟨property, invalid⟩, -⟩ |
    ⟨_, -, ⟨-, rfl⟩ | ⟨_, -, ⟨⟨property, none, described⟩, -⟩ | ⟨_, -, run⟩⟩⟩⟩⟩
  · rcases missing with empty | ⟨property, untyped⟩ | ⟨keyword, absent⟩
    · exact absurd empty identified.nonempty
    · exact absurd untyped (identified.property property).1
    · obtain ⟨value, comment, -⟩ := identified.keyword keyword
      rw [Option.isNone_iff_eq_none, Option.isNone_iff_eq_none] at absent
      rcases absent with noValue | noComment
      · simp [noValue] at value
      · simp [noComment] at comment
  · rw [(identified.keyword keyword).2.2] at invalid
    cases invalid
  · rw [(identified.property property).2.1] at invalid
    cases invalid
  · rfl
  · rw [(identified.property property).2.2 none] at described
    cases described
  · split at run
    · rename_i inUnit
      obtain ⟨state', checked⟩ := identified.unit inUnit.1 inUnit.2
      rw [checked] at run
      cases run
    · cases run

/-- The handler, on an element whose identifier, type and value are in order. -/
theorem startMetadataEntry_error {e : Error}
    (identified : IdentifiedAs state element (Reader.entryName element))
    (parent : Reader.isMetadataParent element = true)
    (formed : element.name = lit "Property" → ∀ entered info,
      Reader.metadataEntry entered element (Reader.entryName element)
        (Reader.entryLocation element) = .ok info →
      Reader.checkPropertyForm element info (element.attr "value") (Reader.entryLocation element) =
        .ok ())
    (run : Reader.startMetadataEntry options state element = .error e) : OutsideValue e := by
  have location : (if element.name = lit "Property" then element.attr "location" else none) =
      Reader.entryLocation element := rfl
  have identity : element.attributeOr (if element.name = lit "Property" then "id" else "name") =
      Reader.entryName element := rfl
  simp only [Reader.startMetadataEntry, bind_eq_error, reject_eq_error, decide_eq_true_eq, location,
    identity, parent, Bool.true_eq_false, false_and, false_or] at run
  obtain ⟨_, -, ⟨-, rfl⟩ | ⟨_, -, check | ⟨entered, -, entry | ⟨info, made, form | ⟨_, -, bound |
    ⟨_, -, opened⟩⟩⟩⟩⟩⟩ := run
  · exact .inl rfl
  · exact .inl (checkMetadata_error identified check)
  · exact .inr (metadataEntry_error entry)
  · split at form
    · rename_i property
      rw [formed property entered info made] at form
      cases form
    · cases form
  · exact .inl (bindMetadata_error bound)
  · refine .inr ?_
    rw [openMetadataText_error opened]
    simp [blockDescription]

/-! ## The attributes that the handler looks up -/

theorem attr_fitsKeyword (kind : entry.kind = .fitsKeyword) :
    (reportedElement entry block).attr "name" = some (normalizeValue entry.name) ∧
      ((reportedElement entry block).attr "value").isSome = true ∧
      ((reportedElement entry block).attr "comment").isSome = true := by
  refine ⟨?_, ?_, ?_⟩
  · rw [attr_reported (by simp [metadataNames])]
    simp [Writer.metadataAttributes, kind, tagValue]
  · rw [attr_reported (by simp [metadataNames])]
    simp [Writer.metadataAttributes, kind, tagValue]
  · rw [attr_reported (by simp [metadataNames])]
    simp [Writer.metadataAttributes, kind, tagValue]

theorem attr_property (kind : entry.kind = .property) :
    (reportedElement entry block).attr "id" = some (normalizeValue entry.name) ∧
      (reportedElement entry block).attr "type" = some (normalizeValue entry.type) := by
  constructor
  · rw [attr_reported (by simp [metadataNames])]
    simp [Writer.metadataAttributes, kind, tagValue]
  · rw [attr_reported (by simp [metadataNames])]
    simp [Writer.metadataAttributes, kind, tagValue]

/-- An attribute of a Property after its identifier and type. -/
theorem attr_rest (kind : entry.kind = .property) {wanted : String}
    (isName : wanted ∈ metadataNames) (later : wanted ≠ "id" ∧ wanted ≠ "type") :
    (reportedElement entry block).attr wanted =
      (tagValue (Writer.valueAttributes entry block) wanted).map normalizeValue := by
  rw [attr_reported isName]
  simp [Writer.metadataAttributes, kind, tagValue, later.1.symm, later.2.symm]

theorem attr_direct (kind : entry.kind = .property) (form : entry.valueForm = .direct)
    {wanted : String} (isName : wanted ∈ metadataNames)
    (later : wanted ≠ "id" ∧ wanted ≠ "type" ∧ wanted ≠ "value") :
    (reportedElement entry block).attr wanted = none := by
  rw [attr_rest kind isName ⟨later.1, later.2.1⟩, Option.map_eq_none_iff]
  have onlyValue : ∀ tag ∈ Writer.valueAttributes entry block, tag.1 ∈ ["value"] := by
    intro tag member
    simp only [Writer.valueAttributes, form] at member
    split at member
    · cases member
    · rw [List.mem_singleton.mp member]
      simp
  exact tagValue_none onlyValue (by simpa using later.2.2)

theorem attr_value_direct (kind : entry.kind = .property) (form : entry.valueForm = .direct) :
    (reportedElement entry block).attr "value" =
      if entry.type = lit "String" then none else some (normalizeValue entry.value) := by
  rw [attr_rest kind (by simp [metadataNames]) (by decide)]
  simp only [Writer.valueAttributes, form]
  split
  · rfl
  · simp [tagValue]

theorem tagValue_append (attributes more : List TagAttribute) (wanted : String) :
    tagValue (attributes ++ more) wanted =
    (tagValue attributes wanted).or (tagValue more wanted) := by
  unfold tagValue
  rw [List.find?_append]
  cases attributes.find? fun tag => decide (tag.1 = wanted) with
  | none => rfl
  | some tag => rfl

/-- The extents and the location of a block Property, and no value. -/
theorem attr_block (kind : entry.kind = .property) (form : entry.valueForm = .dataBlock)
    (located : Writer.isEmptyPropertyContainer entry = true ∨ block ≠ none) :
    (reportedElement entry block).attr "value" = none ∧
      ((reportedElement entry block).attr "location").isSome = true ∧
      ∀ wanted ∈ ["length", "rows", "columns"], (reportedElement entry block).attr wanted =
        (tagValue (Writer.extentsOf entry) wanted).map normalizeValue := by
  have known : ∀ wanted ∈ ["length", "rows", "columns"], wanted ∈ metadataNames ∧
      wanted ≠ "id" ∧ wanted ≠ "type" ∧
      wanted ∉ ["byteOrder", "format", "compression", "subblocks", "checksum"] ∧
      wanted ≠ "location" := by decide
  have same : Writer.valueAttributes entry block = Writer.blockAttributes entry block := by
    simp only [Writer.valueAttributes, form]
  rcases @blockAttributes_eq entry block with ⟨-, notEmpty, none⟩ | ⟨others, place, parts, names⟩
  · rcases located with empty | there
    · rw [empty] at notEmpty
      cases notEmpty
    · exact absurd none there
  · refine ⟨?_, ?_, fun wanted isExtent => ?_⟩
    · rw [attr_rest kind (by decide) (by decide), same,
        tagValue_none blockAttributes_names (by decide)]
      rfl
    · rw [attr_rest kind (by decide) (by decide), same, parts, tagValue_append, tagValue_append,
        tagValue_none extentsOf_names (by decide), tagValue_none names (by decide)]
      rfl
    · obtain ⟨isName, notId, notType, notOther, notPlace⟩ := known wanted isExtent
      have none : tagValue [("location", place)] wanted = none := by
        simp [tagValue, notPlace.symm]
      rw [attr_rest kind isName ⟨notId, notType⟩, same, parts, tagValue_append, tagValue_append,
        tagValue_none names notOther, none, Option.or_none, Option.or_none]

/-! ## Valid entries -/

theorem metadataEntry_fields {identity : Text} {location : Option Text} {info : MetadataEntry}
    (run : Reader.metadataEntry state element identity location = .ok info) :
    info.type = element.attributeOr "type" ∧ info.format = element.attributeOr "format" ∧
      Reader.parseExtent element "length" "Property extent must be an unsigned integer" =
        .ok info.length ∧
      Reader.parseExtent element "rows" "Property extent must be an unsigned integer" =
        .ok info.rows ∧
      Reader.parseExtent element "columns" "Property extent must be an unsigned integer" =
        .ok info.columns := by
  simp only [Reader.metadataEntry, bind_eq_ok] at run
  obtain ⟨_, -, _, -, length, hasLength, rows, hasRows, columns, hasColumns, same⟩ := run
  cases same
  exact ⟨rfl, rfl, hasLength, hasRows, hasColumns⟩

theorem dark_of_keywordName {name : Text} (valid : Writer.isValidFitsKeywordName name = true) :
    Dark name := by
  simp only [Writer.isValidFitsKeywordName, Bool.and_eq_true] at valid
  exact dark_of_all (by decide) valid.2

theorem dark_of_identifierFrom {name : Text} {expectStart : Bool}
    (valid : propertyIdentifierFrom expectStart name = true) : Dark name := by
  induction name generalizing expectStart with
  | nil => exact Dark.nil
  | cons c rest ih =>
      unfold propertyIdentifierFrom at valid
      split at valid
      · rename_i colon
        split at valid
        · cases valid
        · exact Dark.cons (not_whitespace_of_eq colon (by decide)) (ih valid)
      · have member (allowed : (decide (c = ch '_') || isAsciiLetter c || isAsciiDigit c) = true) :
            isXmlWhitespace c = false :=
          @not_whitespace_of (fun c => decide (c = ch '_') || isAsciiLetter c || isAsciiDigit c)
            (by decide) c allowed
        dsimp only at valid
        split at valid
        · split at valid
          · rename_i start
            exact Dark.cons (member (by rw [start]; rfl)) (ih valid)
          · cases valid
        · split at valid
          · rename_i continues
            exact Dark.cons (member continues) (ih valid)
          · cases valid

theorem dark_of_identifier {name : Text} (valid : isValidPropertyIdentifier name = true) :
    Dark name ∧ name ≠ [] := by
  unfold isValidPropertyIdentifier at valid
  split at valid
  · cases valid
  · rename_i nonempty
    exact ⟨dark_of_identifierFrom valid, nonempty⟩

/-- A type that is classified is one of the names of the standard. -/
theorem dark_of_classified {type : Text} (classified : classifyPropertyType type ≠ .unknown) :
    Dark type ∧ type ≠ [] := by
  have scalar : ∀ type ∈ scalarAndComplexTypes, Dark type := by decide
  have vector : ∀ type ∈ vectorTypes, Dark type := by decide
  have matrix : ∀ type ∈ matrixTypes, Dark type := by decide
  constructor
  · unfold classifyPropertyType at classified
    by_cases isScalar : type ∈ scalarAndComplexTypes
    · exact scalar type isScalar
    by_cases isString : type = lit "String"
    · rw [isString]
      decide
    by_cases isTime : type = lit "TimePoint"
    · rw [isTime]
      decide
    by_cases isVector : type ∈ vectorTypes
    · exact vector type isVector
    by_cases isMatrix : type ∈ matrixTypes
    · exact matrix type isMatrix
    · simp [isScalar, isString, isTime, isVector, isMatrix] at classified
  · rintro rfl
    exact classified (by decide)

theorem DirectValue.classified {type value : Text} (valid : DirectValue type value) :
    classifyPropertyType type ≠ .unknown := by
  cases valid with
  | string => decide
  | timePoint => decide
  | scalar category => simp [category]

theorem BlockExtents.classified (extents : BlockExtents entry) :
    classifyPropertyType entry.type ≠ .unknown := by
  cases extents with
  | vector category => simp [category]
  | matrix category => simp [category]

theorem reported_type (kind : entry.kind = .property)
    (classified : classifyPropertyType entry.type ≠ .unknown) :
    (reportedElement entry block).attributeOr "type" = entry.type := by
  unfold ElementContext.attributeOr
  rw [(attr_property kind).2, (dark_of_classified classified).1.normalize]
  rfl

theorem reported_identity (kind : entry.kind = .property) (dark : Dark entry.name) :
    Reader.entryName (reportedElement entry block) = entry.name := by
  have property : (reportedElement entry block).name = lit "Property" := by
    simp [reportedElement, Writer.elementName, kind]
  unfold Reader.entryName ElementContext.attributeOr
  rw [if_pos property, (attr_property kind).1, dark.normalize]
  rfl

/-- A Property of the unit that is not one of the two mandatory ones. -/
theorem UnitName.checked (unit : UnitName entry) (type : Text) :
    (reportedElement entry block).parent = lit "Metadata" →
      ∃ state', Reader.checkUnitProperty state (reportedElement entry block) entry.name type =
        .ok state' := by
  intro parent
  have none : entry.imageIndex = none := by
    cases image : entry.imageIndex with
    | none => rfl
    | some index =>
        simp only [reportedElement, image, Option.isSome_some, if_true] at parent
        exact absurd parent (by decide)
  obtain ⟨namespaced, notTime, notCreator⟩ := unit none
  exact ⟨state, by simp [Reader.checkUnitProperty, namespaced, notTime, notCreator, reject, bind,
    Except.bind, pure, Except.pure]⟩

/-- The identifier of a Property, in an Image or in Metadata. -/
theorem identified_property (kind : entry.kind = .property)
    (name : Writer.isValidPropertyIdentifier entry.name = true)
    (unit : (reportedElement entry block).parent = lit "Metadata" →
      ∃ state', Reader.checkUnitProperty state (reportedElement entry block) entry.name entry.type =
        .ok state')
    (classified : classifyPropertyType entry.type ≠ .unknown)
    (described : ((reportedElement entry block).attr "location").isNone = true →
      Reader.hasBlockAttributes (reportedElement entry block) = false) :
    IdentifiedAs state (reportedElement entry block)
      (Reader.entryName (reportedElement entry block)) := by
  have property : (reportedElement entry block).name = lit "Property" := by
    simp [reportedElement, Writer.elementName, kind]
  rw [propertyIdentifier_agrees] at name
  obtain ⟨dark, nonempty⟩ := dark_of_identifier name
  rw [reported_identity kind dark]
  refine ⟨nonempty, fun other => absurd property other, fun _ => ⟨?_, name, described⟩, ?_⟩
  · rw [reported_type kind classified]
    exact (dark_of_classified classified).2
  · rw [reported_type kind classified]
    exact fun _ => unit

theorem parent_of_image (image : entry.imageIndex.isSome = true) :
    Reader.isMetadataParent (reportedElement entry block) = true := by
  simp [Reader.isMetadataParent, reportedElement, image]

theorem parent_of_property (kind : entry.kind = .property) :
    Reader.isMetadataParent (reportedElement entry block) = true := by
  have named : Writer.elementName entry = lit "Property" := by
    simp [Writer.elementName, kind]
  cases inImage : entry.imageIndex with
  | some index => exact parent_of_image (by rw [inImage]; rfl)
  | none => simp [Reader.isMetadataParent, named, reportedElement, inImage]

/-- The form of a direct Property is what its type asks for. -/
theorem formed_direct {info : MetadataEntry} (kind : entry.kind = .property)
    (form : entry.valueForm = .direct) (value : DirectValue entry.type entry.value)
    (made : Reader.metadataEntry state (reportedElement entry block)
      (Reader.entryName (reportedElement entry block))
      (Reader.entryLocation (reportedElement entry block)) = .ok info) :
    Reader.checkPropertyForm (reportedElement entry block) info
      ((reportedElement entry block).attr "value")
      (Reader.entryLocation (reportedElement entry block)) = .ok () := by
  have property : (reportedElement entry block).name = lit "Property" := by
    simp [reportedElement, Writer.elementName, kind]
  have none (wanted : String) (isName : wanted ∈ metadataNames)
      (later : wanted ≠ "id" ∧ wanted ≠ "type" ∧ wanted ≠ "value") :
      (reportedElement entry block).attr wanted = none := attr_direct kind form isName later
  have noLocation : Reader.entryLocation (reportedElement entry block) = .none := by
    unfold Reader.entryLocation
    rw [if_pos property, none "location" (by decide) (by decide)]
  obtain ⟨type, format, length, rows, columns⟩ := metadataEntry_fields made
  rw [reported_type kind value.classified] at type
  have noFormat : info.format = [] := by
    rw [format, ElementContext.attributeOr, none "format" (by decide) (by decide)]
    rfl
  have noLength := parseExtent_none (none "length" (by decide) (by decide)) length
  have noRows := parseExtent_none (none "rows" (by decide) (by decide)) rows
  have noColumns := parseExtent_none (none "columns" (by decide) (by decide)) columns
  rw [attr_value_direct kind form, noLocation]
  unfold Reader.checkPropertyForm
  rw [type, noLength, noRows, noColumns, noFormat]
  generalize entry.type = type', entry.value = value' at value
  cases value with
  | string =>
      have category : classifyPropertyType (lit "String") = .string := by decide
      simp [category, reject]
  | timePoint canonical =>
      have category : classifyPropertyType (lit "TimePoint") = .timePoint := by decide
      have valid := timePoint_of_canonical canonical
      rw [← timePoint_tight.normalize] at valid
      have other : lit "TimePoint" ≠ lit "String" := by decide
      simp [category, reject, other, valid, bind, Except.bind]
  | scalar category valid =>
      rw [scalar_agrees] at valid
      rw [← scalar_normalize] at valid
      have other : type' ≠ lit "String" := by
        rintro rfl
        exact absurd category (by decide)
      simp [category, reject, other, valid, bind, Except.bind]

/-- The form of a block Property is what its type asks for. -/
theorem formed_block {info : MetadataEntry} (kind : entry.kind = .property)
    (form : entry.valueForm = .dataBlock) (extents : BlockExtents entry)
    (located : Writer.isEmptyPropertyContainer entry = true ∨ block ≠ none)
    (made : Reader.metadataEntry state (reportedElement entry block)
      (Reader.entryName (reportedElement entry block))
      (Reader.entryLocation (reportedElement entry block)) = .ok info) :
    Reader.checkPropertyForm (reportedElement entry block) info
      ((reportedElement entry block).attr "value")
      (Reader.entryLocation (reportedElement entry block)) = .ok () := by
  have property : (reportedElement entry block).name = lit "Property" := by
    simp [reportedElement, Writer.elementName, kind]
  have place : Reader.entryLocation (reportedElement entry block) =
      (reportedElement entry block).attr "location" := by
    unfold Reader.entryLocation
    rw [if_pos property]
  obtain ⟨noValue, hasLocation, extent⟩ := attr_block kind form located
  obtain ⟨type, -, length, rows, columns⟩ := metadataEntry_fields made
  rw [reported_type kind extents.classified] at type
  have isLength := extent "length" (by decide)
  have isRows := extent "rows" (by decide)
  have isColumns := extent "columns" (by decide)
  rw [noValue, place]
  unfold Reader.checkPropertyForm
  rw [type]
  cases extents with
  | vector category declared =>
      obtain ⟨count, isCount⟩ := Option.isSome_iff_exists.mp declared
      simp only [Writer.extentsOf, isCount, tagValue] at isLength isRows isColumns
      have someLength := parseExtent_some (by simp [isLength]) length
      have noRows := parseExtent_none (by simp [isRows]) rows
      have noColumns := parseExtent_none (by simp [isColumns]) columns
      simp [category, reject, Option.ne_none_iff_isSome.mpr hasLocation,
        Option.ne_none_iff_isSome.mpr someLength, noRows, noColumns]
  | matrix category none =>
      simp only [Writer.extentsOf, none, tagValue] at isLength isRows isColumns
      have noLength := parseExtent_none (by simp [isLength]) length
      have someRows := parseExtent_some (by simp [isRows]) rows
      have someColumns := parseExtent_some (by simp [isColumns]) columns
      simp [category, reject, Option.ne_none_iff_isSome.mpr hasLocation, noLength,
        Option.ne_none_iff_isSome.mpr someRows, Option.ne_none_iff_isSome.mpr someColumns]

/-- A text was made, so a block that has elements has a place. -/
theorem located_of_made {xml : Text} (kind : entry.kind = .property)
    (form : entry.valueForm = .dataBlock) (made : Writer.makeMetadataXml entry block = .ok xml) :
    Writer.isEmptyPropertyContainer entry = true ∨ block ≠ none := by
  by_contra neither
  simp only [not_or, Bool.not_eq_true, not_not] at neither
  obtain ⟨empty, none⟩ := neither
  simp only [Writer.makeMetadataXml, bind_eq_ok, kind, form, empty, none, reduceCtorEq, if_false,
    if_true, Bool.false_eq_true] at made
  obtain ⟨_, -, _, -, impossible⟩ := made
  cases impossible

theorem direct_start_error {e : Error} (kind : entry.kind = .property)
    (form : entry.valueForm = .direct)
    (name : Writer.isValidPropertyIdentifier entry.name = true)
    (unit : (reportedElement entry block).parent = lit "Metadata" →
      ∃ state', Reader.checkUnitProperty state (reportedElement entry block) entry.name entry.type =
        .ok state')
    (value : DirectValue entry.type entry.value)
    (run : Reader.startMetadataEntry options state (reportedElement entry block) = .error e) :
    OutsideValue e := by
  refine startMetadataEntry_error ?_ (parent_of_property kind)
    (fun _ _ _ made => formed_direct kind form value made) run
  refine identified_property kind name unit value.classified fun _ => ?_
  have none (wanted : String) (isName : wanted ∈ metadataNames)
      (later : wanted ≠ "id" ∧ wanted ≠ "type" ∧ wanted ≠ "value") :
      (reportedElement entry block).attr wanted = none := attr_direct kind form isName later
  unfold Reader.hasBlockAttributes
  rw [none "byteOrder" (by decide) (by decide), none "compression" (by decide) (by decide),
    none "subblocks" (by decide) (by decide), none "checksum" (by decide) (by decide)]
  rfl

/-- The handler has no objection to the identifier, the type or the value of a
valid entry. -/
theorem ValidEntry.start_error {xml : Text} {e : Error} (valid : ValidEntry entry)
    (made : Writer.makeMetadataXml entry block = .ok xml)
    (run : Reader.startMetadataEntry options state (reportedElement entry block) = .error e) :
    OutsideValue e := by
  cases valid with
  | fitsKeyword kind image name =>
      obtain ⟨isName, value, comment⟩ := @attr_fitsKeyword entry block kind
      have keyword : (reportedElement entry block).name ≠ lit "Property" := by
        simp only [reportedElement, Writer.elementName, kind]
        decide
      have identity : Reader.entryName (reportedElement entry block) = entry.name := by
        unfold Reader.entryName ElementContext.attributeOr
        rw [if_neg keyword, isName, (dark_of_keywordName name).normalize]
        rfl
      apply startMetadataEntry_error _ (parent_of_image image)
        (fun property => absurd property keyword) run
      rw [identity]
      refine ⟨?_, fun _ => ⟨value, comment, name⟩, fun property => absurd property keyword,
        fun property => absurd property keyword⟩
      rintro empty
      rw [empty] at name
      cases name
  | direct kind form name unit value =>
      exact direct_start_error kind form name (unit.checked entry.type) value run
  | block kind form name unit extents =>
      have located := located_of_made kind form made
      refine startMetadataEntry_error ?_ (parent_of_property kind)
        (fun _ _ _ made => formed_block kind form extents located made) run
      refine identified_property kind name (unit.checked entry.type) extents.classified
        fun none => ?_
      have place := (attr_block kind form located).2.1
      rw [Option.isNone_iff_eq_none.mp none] at place
      cases place

/-- The two Properties that every header has, as entries. -/
def mandatoryEntries (options : WriterOptions) : List MetadataWriteEntry :=
  [{ name := lit "XISF:CreationTime", type := lit "TimePoint", value := options.creationTime },
    { name := lit "XISF:CreatorApplication", type := lit "String",
      value := options.creatorApplication }]

theorem mandatory_start_error {writer : WriterOptions} {e : Error}
    (canonical : Writer.isCanonicalUtcTime writer.creationTime = true)
    (member : entry ∈ mandatoryEntries writer)
    (fresh : state.sawCreationTime = false ∧ state.sawCreatorApplication = false)
    (run : Reader.startMetadataEntry options state (reportedElement entry block) = .error e) :
    OutsideValue e := by
  simp only [mandatoryEntries, List.mem_cons, List.not_mem_nil, or_false] at member
  rcases member with rfl | rfl
  · have named : Writer.isValidPropertyIdentifier (lit "XISF:CreationTime") = true := by decide
    have namespaced : (lit "XISF:").isPrefixOf (lit "XISF:CreationTime") = true := by decide
    refine direct_start_error rfl rfl named (fun _ => ?_) (.timePoint canonical) run
    exact ⟨{ state with sawCreationTime := true }, by
      simp [Reader.checkUnitProperty, namespaced, fresh.1, reject, bind, Except.bind, pure,
        Except.pure]⟩
  · have named : Writer.isValidPropertyIdentifier (lit "XISF:CreatorApplication") = true := by
      decide
    have namespaced : (lit "XISF:").isPrefixOf (lit "XISF:CreatorApplication") = true := by decide
    have other : lit "XISF:CreatorApplication" ≠ lit "XISF:CreationTime" := by decide
    refine direct_start_error rfl rfl named (fun _ => ?_) (.string _) run
    exact ⟨{ state with sawCreatorApplication := true }, by
      simp [Reader.checkUnitProperty, namespaced, fresh.2, other, reject, bind, Except.bind, pure,
        Except.pure]⟩

end

/-! ## The theorem -/

/-- The validators of the writer agree with those of the reader. -/
structure ValidatorsAgree : Prop where
  scalarProperty : ∀ type value,
    Writer.isValidScalarProperty type value = Reader.isValidScalarOrComplexValue type value
  propertyIdentifier : ∀ value,
    Writer.isValidPropertyIdentifier value = isValidPropertyIdentifier value
  fitsKeywordName : ∀ value, Writer.isValidFitsKeywordName value = isValidFitsKeywordName value
  imageIdentifier : ∀ value, Writer.isValidImageIdentifier value = isValidUniqueId value
  utcTime : ∀ value, Writer.isCanonicalUtcTime value = true →
    Reader.isValidTimePointValue value = true
  supportedType : ∀ type, Writer.isSupportedScalarPropertyType type = true ↔
    classifyPropertyType type = .scalarOrComplex
  /-- No verdict on a value depends on which blank it has where. -/
  normalized : ∀ type value,
    Writer.isValidScalarProperty type (normalizeValue value) =
        Writer.isValidScalarProperty type value ∧
      Reader.isValidScalarOrComplexValue type (normalizeValue value) =
        Reader.isValidScalarOrComplexValue type value ∧
      Writer.isCanonicalUtcTime (normalizeValue value) = Writer.isCanonicalUtcTime value ∧
      Reader.isValidTimePointValue (normalizeValue value) = Reader.isValidTimePointValue value
  /-- The reader's handler, called with the tag of an entry that a write accepted. -/
  emitted : ∀ (options : WriterOptions) (imageCount : Nat) (metadata : List MetadataWriteEntry)
      (check : MetadataCheck),
    metadata.foldlM (Writer.checkMetadataEntry options imageCount)
      (MetadataCheck.start imageCount) =
      .ok check → ∀ entry ∈ metadata, ∀ block xml, Writer.makeMetadataXml entry block = .ok xml →
    ∀ (readerOptions : ReaderOptions) (state : XmlBuilder) (e : Error),
      Reader.startMetadataEntry readerOptions state (reportedElement entry block) = .error e →
        OutsideValue e
  /-- The same of the two Properties that the writer adds, each for the first time. -/
  mandatory : ∀ (options : WriterOptions), Writer.isCanonicalUtcTime options.creationTime = true →
    ∀ entry ∈ mandatoryEntries options, ∀ (readerOptions : ReaderOptions) (state : XmlBuilder),
      state.sawCreationTime = false ∧ state.sawCreatorApplication = false → ∀ e : Error,
      Reader.startMetadataEntry readerOptions state (reportedElement entry none) = .error e →
        OutsideValue e

/-- The two sets of validators agree on every string, before and after
attribute-value normalisation, and no Property or FITS keyword that the writer
emits is refused for its identifier, its type or its value. -/
theorem validatorsAgree : ValidatorsAgree where
  scalarProperty := scalar_agrees
  propertyIdentifier := propertyIdentifier_agrees
  fitsKeywordName _ := rfl
  imageIdentifier := imageIdentifier_agrees
  utcTime _ := timePoint_of_canonical
  supportedType := supportedType_iff
  normalized type value := by
    refine ⟨?_, scalar_normalize type value, canonical_normalize value,
      timePoint_tight.normalize value⟩
    rw [scalar_agrees, scalar_agrees, scalar_normalize]
  emitted options imageCount metadata check run entry member block xml made readerOptions state e
      failed :=
    (validEntry_of_accepted reserved_start run entry member).start_error made failed
  mandatory _ canonical _ member _ _ fresh _ failed :=
    mandatory_start_error canonical member fresh failed

end Mmxisf
