/-
# Reader.Events -- what one event does to the parser

`Reader.Steps` says what the branch of an element does.  Here the branches are put
together: a start tag is pushed, identified and opened (`startElement_eq`), an end
tag closes its element and is popped (`endElement_eq`), and text goes to one of
five places (`characterData_eq`).
-/
import Mmxisf.Reader.Steps

namespace Mmxisf.Reader

set_option autoImplicit false

section

variable {options : ReaderOptions} {platform : Platform} {state state' : XmlBuilder}
  {element : ElementContext}

/-! ## Entering an element -/

/-- The bytes that an extension element is charged for at its start tag. -/
def extensionCharge (state : XmlBuilder) (element : ElementContext) : Nat :=
  element.namespaceUri.length + element.name.length +
    (state.qualifiedElementStack.headD ⟨[], []⟩).namespaceUri.length +
    (state.qualifiedElementStack.headD ⟨[], []⟩).name.length + attributeBytes element.attributes

/-- The extension element of a start tag, before its text. -/
def newExtension (state : XmlBuilder) (element : ElementContext) : ExtensionElement :=
  { namespaceUri := element.namespaceUri
    name := element.name
    parentNamespaceUri := (state.qualifiedElementStack.headD ⟨[], []⟩).namespaceUri
    parentName := (state.qualifiedElementStack.headD ⟨[], []⟩).name
    parentExtensionIndex := state.extensionStack.headD none
    imageIndex := state.currentImage
    attributes := copyAttributes element.attributes
    text := [] }

/-- The extension inventory after a start tag, with the index of its element. -/
inductive ExtensionRecorded (options : ReaderOptions) (state : XmlBuilder)
    (element : ElementContext) : XmlBuilder → Option Nat → Prop
  | known (known : state.depth ≤ 1 ∨ element.isXisf = true) :
      ExtensionRecorded options state element state none
  | extension (foreign : element.isXisf = false) (place : state.depth = 2)
      (parent : element.parent = lit "xisf")
      (room : state.extensionElements.length < options.maxExtensionElements)
      (attributes : element.attributes.length ≤ options.maxExtensionAttributes -
        min state.extensionAttributeCount options.maxExtensionAttributes)
      (bytes : extensionCharge state element ≤
        options.maxExtensionBytes - min state.extensionBytes options.maxExtensionBytes) :
      ExtensionRecorded options state element
        { state with
          extensionBytes := state.extensionBytes + extensionCharge state element
          extensionAttributeCount := state.extensionAttributeCount + element.attributes.length
          extensionElements := state.extensionElements ++ [newExtension state element] }
        (some state.extensionElements.length)

theorem recordExtension_eq {index : Option Nat}
    (run : recordExtension options state element = .ok (state', index)) :
    ExtensionRecorded options state element state' index := by
  unfold recordExtension at run
  obtain ⟨⟨deep, foreign⟩, run⟩ | ⟨known, run⟩ := ite_eq_ok run
  · simp only [bind_eq_ok, reject_eq_ok, not_or, not_not, pure, Except.pure, Except.ok.injEq,
      Prod.mk.injEq] at run
    obtain ⟨_, ⟨place, parent⟩, _, room, _, attributes, _, -, charged, charge, rfl, rfl⟩ := run
    obtain ⟨within, rfl⟩ := consumeExtensionBytes_eq charge
    exact .extension foreign place parent (Nat.not_le.mp room) (Nat.not_lt.mp attributes) within
  · rw [Except.ok.injEq, Prod.mk.injEq] at run
    obtain ⟨rfl, rfl⟩ := run
    refine .known ?_
    by_contra both
    rw [not_or, Bool.not_eq_true] at both
    exact known ⟨by omega, both.2⟩

theorem recordAttachedRange_same (run : recordAttachedRange state element = .ok state') :
    ∃ ranges, state' = { state with attachedRanges := ranges } := by
  unfold recordAttachedRange at run
  split at run
  · rw [Except.ok.injEq] at run
    exact ⟨_, run.symm⟩
  · obtain ⟨-, run⟩ | ⟨-, run⟩ := ite_eq_ok run
    · rw [Except.ok.injEq] at run
      exact ⟨_, run.symm⟩
    · obtain ⟨-, run⟩ | ⟨-, run⟩ := ite_eq_ok run
      · rw [Except.ok.injEq] at run
        exact ⟨_, run.symm⟩
      · split at run
        · cases run
        · rw [Except.ok.injEq] at run
          exact ⟨_, run.symm⟩

/-- The binding event of a Reference in an Image or in Metadata. -/
def referenceEvents (state : XmlBuilder) (element : ElementContext) (reference : Text) :
    List MetadataBindingEvent :=
  if (element.parent = lit "Image" ∧ state.currentImage.isSome = true) ∨
      element.parent = lit "Metadata" then
    [{ metadataIndex := none
       reference := reference
       scope := if element.parent = lit "Image" then .image else .xisfUnit
       imageIndex := state.currentImage
       byReference := true }]
  else []

/-- The event of a Reference in a Table. -/
def tableReferenceEvents (state : XmlBuilder) (element : ElementContext) (reference : Text) :
    List TableStructureReferenceEvent :=
  if element.parent = lit "Table" then [⟨state.openTableIndex.getD 0, reference⟩] else []

/-- What is noted of the uid or the ref of an element. -/
inductive Identified (options : ReaderOptions) (state : XmlBuilder) (element : ElementContext) :
    XmlBuilder → Prop
  | anonymous (none : element.isXisf = true → isCoreElement element.name = true →
        element.name ≠ lit "Reference" ∧ element.attr "uid" = none) :
      Identified options state element state
  | named (isXisf : element.isXisf = true) (core : isCoreElement element.name = true)
      (other : element.name ≠ lit "Reference") (uid : Text)
      (declared : element.attr "uid" = some uid) (valid : isValidUniqueId uid = true)
      (unique : uid ∉ state.coreUids) :
      Identified options state element { state with coreUids := state.coreUids ++ [uid] }
  | reference (isXisf : element.isXisf = true) (isReference : element.name = lit "Reference")
      (anonymous : element.attr "uid" = none) (reference : Text)
      (refers : element.attr "ref" = some reference) (valid : isValidUniqueId reference = true)
      (inTable : element.parent = lit "Table" → state.openTableIndex.isSome = true ∧
        state.tableStructureReferences.length < options.maxTables)
      (bound : referenceEvents state element reference ≠ [] →
        state.metadataBindingEvents.length < options.maxMetadataEntries) :
      Identified options state element { state with
        references := state.references ++ [reference]
        referencesFromThumbnails :=
          if element.parent = lit "Thumbnail" then state.referencesFromThumbnails ++ [reference]
          else state.referencesFromThumbnails
        tableStructureReferences := state.tableStructureReferences ++
          tableReferenceEvents state element reference
        metadataBindingEvents := state.metadataBindingEvents ++
          referenceEvents state element reference }

theorem recordTableReference_eq {reference : Text}
    (run : recordTableReference options state element reference = .ok state') :
    (element.parent = lit "Table" → state.openTableIndex.isSome = true ∧
        state.tableStructureReferences.length < options.maxTables) ∧
      state' = { state with
        tableStructureReferences := state.tableStructureReferences ++
          tableReferenceEvents state element reference } := by
  unfold recordTableReference at run
  unfold tableReferenceEvents
  obtain ⟨inTable, run⟩ | ⟨other, run⟩ := ite_eq_ok run
  · simp only [bind_eq_ok, orFail_eq_ok, reject_eq_ok, pure, Except.pure, Except.ok.injEq] at run
    obtain ⟨table, found, _, room, rfl⟩ := run
    rw [if_pos inTable, found]
    exact ⟨fun _ => ⟨rfl, Nat.not_le.mp room⟩, rfl⟩
  · rw [Except.ok.injEq] at run
    rw [if_neg other, List.append_nil, run]
    exact ⟨fun inTable => absurd inTable other, rfl⟩

theorem recordReferenceBinding_eq {reference : Text}
    (run : recordReferenceBinding options state element reference = .ok state') :
    (referenceEvents state element reference ≠ [] →
        state.metadataBindingEvents.length < options.maxMetadataEntries) ∧
      state' = { state with
        metadataBindingEvents := state.metadataBindingEvents ++
          referenceEvents state element reference } := by
  unfold recordReferenceBinding at run
  unfold referenceEvents
  obtain ⟨binds, run⟩ | ⟨other, run⟩ := ite_eq_ok run
  · simp only [bind_eq_ok, reject_eq_ok, pure, Except.pure, Except.ok.injEq] at run
    obtain ⟨_, room, rfl⟩ := run
    rw [if_pos binds]
    exact ⟨fun _ => Nat.not_le.mp room, rfl⟩
  · rw [Except.ok.injEq] at run
    rw [if_neg other, List.append_nil, run]
    exact ⟨fun impossible => absurd rfl impossible, rfl⟩

theorem recordIdentity_eq (run : recordIdentity options state element = .ok state') :
    Identified options state element state' := by
  unfold recordIdentity at run
  obtain ⟨⟨isXisf, core⟩, run⟩ | ⟨unknown, run⟩ := ite_eq_ok run
  · obtain ⟨isReference, run⟩ | ⟨other, run⟩ := ite_eq_ok run
    · simp only [recordReference, bind_eq_ok, reject_eq_ok, not_or] at run
      obtain ⟨_, ⟨anonymous, refers, valid⟩, tabled, table, run⟩ := run
      obtain ⟨inTable, rfl⟩ := recordTableReference_eq table
      obtain ⟨bound, rfl⟩ := recordReferenceBinding_eq run
      obtain ⟨reference, found⟩ := Option.ne_none_iff_exists'.mp
        (fun none => refers (by rw [none]; rfl) : element.attr "ref" ≠ none)
      have same : element.attributeOr "ref" = reference := by
        simp only [ElementContext.attributeOr, found, Option.getD_some]
      rw [same] at valid bound inTable ⊢
      exact .reference isXisf isReference (by simpa using anonymous) reference found
        (by simpa using valid) inTable bound
    · cases declared : element.attr "uid" with
      | none =>
          rw [declared] at run
          rw [Except.ok.injEq] at run
          subst run
          exact .anonymous fun _ _ => ⟨other, declared⟩
      | some uid =>
          rw [declared] at run
          simp only [bind_eq_ok, reject_eq_ok, pure, Except.pure, Except.ok.injEq] at run
          obtain ⟨_, valid, _, unique, rfl⟩ := run
          exact .named isXisf core other uid declared (by simpa using valid) unique
  · rw [Except.ok.injEq] at run
    subst run
    exact .anonymous fun isXisf core => absurd ⟨isXisf, core⟩ unknown

/-! ## Opening an element -/

/-- The names that the handler has a branch for. -/
def handledNames : List Text :=
  ["Table", "Structure", "Field", "Row", "Cell", "ICCProfile", "RGBWorkingSpace",
    "DisplayFunction", "ColorFilterArray", "Resolution", "Thumbnail", "Data", "Image", "Metadata",
    "Property", "FITSKeyword"].map lit

/-- The branch that an element takes. -/
inductive Opened (options : ReaderOptions) (platform : Platform) (state : XmlBuilder)
    (element : ElementContext) (state' : XmlBuilder) : Prop
  | unhandled (unknown : element.isXisf = true → element.name ∉ handledNames)
      (same : state' = state)
  | table (isXisf : element.isXisf = true) (named : element.name = lit "Table")
      (run : startTable options state element = .ok state')
  | tableStructure (isXisf : element.isXisf = true) (named : element.name = lit "Structure")
      (run : startStructure options state element = .ok state')
  | field (isXisf : element.isXisf = true) (named : element.name = lit "Field")
      (run : startField options state element = .ok state')
  | row (isXisf : element.isXisf = true) (named : element.name = lit "Row")
      (run : startRow options state element = .ok state')
  | cell (isXisf : element.isXisf = true) (named : element.name = lit "Cell")
      (run : startCell options state element = .ok state')
  | iccProfile (isXisf : element.isXisf = true) (named : element.name = lit "ICCProfile")
      (run : startIccProfile options state element = .ok state')
  | ancillary (isXisf : element.isXisf = true) (kind : AncillaryKind)
      (named : ancillaryKind element.name = some kind)
      (run : startAncillary options platform state kind element = .ok state')
  | thumbnail (isXisf : element.isXisf = true) (named : element.name = lit "Thumbnail")
      (run : startThumbnail options state element = .ok state')
  | data (isXisf : element.isXisf = true) (named : element.name = lit "Data")
      (run : startData state element = .ok state')
  | image (isXisf : element.isXisf = true) (named : element.name = lit "Image")
      (run : startImage options platform state element = .ok state')
  | metadata (isXisf : element.isXisf = true) (named : element.name = lit "Metadata")
      (run : startMetadata state element = .ok state')
  | entry (isXisf : element.isXisf = true)
      (named : element.name = lit "Property" ∨ element.name = lit "FITSKeyword")
      (run : startMetadataEntry options state element = .ok state')

theorem ancillaryKind_eq_none {name : Text} (none : ancillaryKind name = none) :
    name ≠ lit "RGBWorkingSpace" ∧ name ≠ lit "DisplayFunction" ∧
      name ≠ lit "ColorFilterArray" ∧ name ≠ lit "Resolution" := by
  unfold ancillaryKind at none
  split_ifs at none with rgb display filter resolution
  exact ⟨rgb, display, filter, resolution⟩

theorem openElement_eq (run : openElement options platform state element = .ok state') :
    Opened options platform state element state' := by
  unfold openElement at run
  obtain ⟨foreign, run⟩ | ⟨isXisf, run⟩ := ite_eq_ok run
  · rw [Except.ok.injEq] at run
    exact .unhandled (fun isXisf => by rw [foreign] at isXisf; cases isXisf) run.symm
  rw [Bool.not_eq_false] at isXisf
  obtain ⟨named, run⟩ | ⟨notTable, run⟩ := ite_eq_ok run
  · exact .table isXisf named run
  obtain ⟨named, run⟩ | ⟨notStructure, run⟩ := ite_eq_ok run
  · exact .tableStructure isXisf named run
  obtain ⟨named, run⟩ | ⟨notField, run⟩ := ite_eq_ok run
  · exact .field isXisf named run
  obtain ⟨named, run⟩ | ⟨notRow, run⟩ := ite_eq_ok run
  · exact .row isXisf named run
  obtain ⟨named, run⟩ | ⟨notCell, run⟩ := ite_eq_ok run
  · exact .cell isXisf named run
  obtain ⟨named, run⟩ | ⟨notIccProfile, run⟩ := ite_eq_ok run
  · exact .iccProfile isXisf named run
  cases ancillary : ancillaryKind element.name with
  | some kind =>
      rw [ancillary] at run
      exact .ancillary isXisf kind ancillary run
  | none =>
      rw [ancillary] at run
      obtain ⟨named, run⟩ | ⟨notThumbnail, run⟩ := ite_eq_ok run
      · exact .thumbnail isXisf named run
      obtain ⟨named, run⟩ | ⟨notData, run⟩ := ite_eq_ok run
      · exact .data isXisf named run
      obtain ⟨named, run⟩ | ⟨notImage, run⟩ := ite_eq_ok run
      · exact .image isXisf named run
      obtain ⟨named, run⟩ | ⟨notMetadata, run⟩ := ite_eq_ok run
      · exact .metadata isXisf named run
      obtain ⟨named, run⟩ | ⟨notEntry, run⟩ := ite_eq_ok run
      · exact .entry isXisf named run
      rw [Except.ok.injEq] at run
      rw [not_or] at notEntry
      obtain ⟨notRgb, notDisplay, notFilter, notResolution⟩ := ancillaryKind_eq_none ancillary
      refine .unhandled (fun _ => ?_) run.symm
      simp only [handledNames, List.map_cons, List.map_nil, List.mem_cons, List.not_mem_nil,
        or_false, not_or]
      exact ⟨notTable, notStructure, notField, notRow, notCell, notIccProfile, notRgb, notDisplay,
        notFilter, notResolution, notThumbnail, notData, notImage, notMetadata, notEntry.1,
        notEntry.2⟩

/-- The state on which the branch of an element runs. -/
def enteredState (state : XmlBuilder) (element : ElementContext) (index : Option Nat)
    (ranges : List AttachedRange) : XmlBuilder :=
  { pushElement state element index with attachedRanges := ranges }

/-- The tag with the name of the element it is in. -/
def contextOf (state : XmlBuilder) (qualifiedName : Text) (attributes : List (Text × Text)) :
    ElementContext :=
  ⟨localName qualifiedName, namespaceName qualifiedName, state.elementStack.headD [], attributes⟩

/-- Where no element may start. -/
def IsLeafPlace (element : ElementContext) : Prop :=
  element.parent = lit "Cell" ∨ element.parent = lit "Field" ∨
    (element.parent = lit "Row" ∧ (element.isXisf = false ∨ element.name ≠ lit "Cell"))

/-- A start tag: it is counted, its extension recorded, pushed, and then it is the
root or is identified and opened. -/
structure Started (options : ReaderOptions) (platform : Platform) (state : XmlBuilder)
    (element : ElementContext) (state' : XmlBuilder) : Prop where
  depth : state.depth < options.maxXmlDepth
  nodes : state.nodes < options.maxXmlNodes
  attributes : element.attributes.length ≤ options.maxAttributesPerElement
  encoded : isEncodedBlockOpen state = false
  leaf : ¬ IsLeafPlace element
  opens : ∃ base index ranges, ExtensionRecorded options
      { state with depth := state.depth + 1, nodes := state.nodes + 1 } element base index ∧
    ((state.depth = 0 ∧ state.sawRoot = false ∧ element.isXisf = true ∧
        element.name = lit "xisf" ∧
        state' = { enteredState base element index ranges with
          sawRoot := true
          version := lit "1.0" }) ∨
      (state.depth ≠ 0 ∧ ∃ identified,
        Identified options (enteredState base element index ranges) element identified ∧
        Opened options platform identified element state'))

theorem startElement_eq {name : Text} {attributes : List (Text × Text)}
    (run : startElement options platform state name attributes = .ok state') :
    Started options platform state (contextOf state name attributes) state' := by
  simp only [startElement, bind_eq_ok, reject_eq_ok] at run
  obtain ⟨entered, enter, ⟨recorded, index⟩, extension, attached, attach, _, encoded, _, leaf,
    opened⟩ := run
  simp only [enterElement, bind_eq_ok, reject_eq_ok, pure, Except.pure, Except.ok.injEq] at enter
  obtain ⟨_, depth, _, nodes, _, small, rfl⟩ := enter
  have extended := recordExtension_eq extension
  obtain ⟨ranges, rfl⟩ := recordAttachedRange_same attach
  have recordedDepth : recorded.depth = state.depth + 1 := by cases extended <;> rfl
  have recordedRoot : recorded.sawRoot = state.sawRoot := by cases extended <;> rfl
  have recordedEncoded : isEncodedBlockOpen recorded = isEncodedBlockOpen state := by
    cases extended <;> rfl
  refine ⟨Nat.not_lt.mp depth, Nat.not_lt.mp nodes, Nat.not_lt.mp small, ?_, leaf, recorded, index,
    ranges, extended, ?_⟩
  · rw [← recordedEncoded]
    exact Bool.not_eq_true _ ▸ encoded
  · obtain ⟨root, opened⟩ | ⟨inner, opened⟩ := ite_eq_ok opened
    · simp only [startRoot, bind_eq_ok, reject_eq_ok, not_or, not_not, pure, Except.pure,
        Except.ok.injEq] at opened
      obtain ⟨_, ⟨first, named, isXisf⟩, _, -, rfl⟩ := opened
      have outermost : recorded.depth = 1 := root
      have unseen : ¬ recorded.sawRoot = true := first
      rw [Bool.not_eq_false] at isXisf
      refine .inl ⟨by omega, ?_, isXisf, named, rfl⟩
      rw [← recordedRoot]
      simpa using unseen
    · simp only [bind_eq_ok] at opened
      obtain ⟨identified, identify, opened⟩ := opened
      have inside : ¬ recorded.depth = 1 := inner
      exact .inr ⟨by omega, identified, recordIdentity_eq identify, openElement_eq opened⟩

/-! ## Closing an element -/

/-- The names that closing has a branch for. -/
def closedNames : List Text :=
  ["Data", "ICCProfile", "Property", "Cell", "Row", "Structure", "Table", "Thumbnail",
    "Image"].map lit

/-- What closing an element does, before the stacks are popped. -/
inductive Closed (state : XmlBuilder) (isXisf : Bool) (name : Text) : XmlBuilder → Prop
  | unhandled (unknown : isXisf = true → name ∉ closedNames) : Closed state isXisf name state
  | data (xisf : isXisf = true) (named : name = lit "Data")
      (complete : isSequenceIncomplete state = false) :
      Closed state isXisf name { state with
        embeddedImageIndex := none
        embeddedThumbnailIndex := none
        embeddedEncoding := .none }
  | iccProfile (xisf : isXisf = true) (named : name = lit "ICCProfile")
      (attached : state.inlineIccProfileIndex = none) : Closed state isXisf name state
  | inlineIccProfile (xisf : isXisf = true) (named : name = lit "ICCProfile")
      (inside : state.inlineIccProfileIndex.isSome = true)
      (complete : isSequenceIncomplete state = false) :
      Closed state isXisf name { state with
        inlineIccProfileIndex := none
        embeddedEncoding := .none }
  | property (xisf : isXisf = true) (named : name = lit "Property")
      (attached : state.inlineMetadataIndex = none) :
      Closed state isXisf name { state with textMetadataIndex := none }
  | inlineProperty (xisf : isXisf = true) (named : name = lit "Property")
      (inside : state.inlineMetadataIndex.isSome = true)
      (complete : isSequenceIncomplete state = false) :
      Closed state isXisf name { state with
        inlineMetadataIndex := none
        embeddedEncoding := .none
        textMetadataIndex := none }
  | cell (xisf : isXisf = true) (named : name = lit "Cell") :
      Closed state isXisf name { state with openTableCellIndex := none }
  | row (xisf : isXisf = true) (named : name = lit "Row") (table row : Nat)
      (inTable : state.openTableIndex = some table) (inRow : state.openTableRowIndex = some row)
      (some : ∀ info, ((state.tables[table]?).bind fun table => table.rows[row]?) = some info →
        info.cells ≠ []) :
      Closed state isXisf name { state with openTableRowIndex := none }
  | tableStructure (xisf : isXisf = true) (named : name = lit "Structure") (index : Nat)
      (inside : state.openStructureIndex = some index)
      (some : ∀ info, state.tableStructures[index]? = some info → info.fields ≠ []) :
      Closed state isXisf name { state with openStructureIndex := none }
  | table (xisf : isXisf = true) (named : name = lit "Table") :
      Closed state isXisf name { state with openTableIndex := none }
  | thumbnail (xisf : isXisf = true) (named : name = lit "Thumbnail") :
      Closed state isXisf name { state with openThumbnailIndex := none }
  | image (xisf : isXisf = true) (named : name = lit "Image") :
      Closed state isXisf name { state with imageStack := state.imageStack.tail }

theorem closeElement_eq {isXisf : Bool} {name : Text}
    (run : closeElement state isXisf name = .ok state') : Closed state isXisf name state' := by
  unfold closeElement at run
  obtain ⟨foreign, run⟩ | ⟨xisf, run⟩ := ite_eq_ok run
  · rw [Except.ok.injEq] at run
    subst run
    exact .unhandled fun xisf => by rw [foreign] at xisf; cases xisf
  rw [Bool.not_eq_false] at xisf
  obtain ⟨named, run⟩ | ⟨notData, run⟩ := ite_eq_ok run
  · simp only [endData, bind_eq_ok, reject_eq_ok, pure, Except.pure, Except.ok.injEq,
      Bool.not_eq_true] at run
    obtain ⟨_, -, _, complete, rfl⟩ := run
    exact .data xisf named complete
  obtain ⟨named, run⟩ | ⟨notIccProfile, run⟩ := ite_eq_ok run
  · obtain ⟨inside, run⟩ | ⟨outside, run⟩ := ite_eq_ok run
    · simp only [bind_eq_ok, reject_eq_ok, pure, Except.pure, Except.ok.injEq,
        Bool.not_eq_true] at run
      obtain ⟨_, complete, rfl⟩ := run
      exact .inlineIccProfile xisf named inside complete
    · rw [Except.ok.injEq] at run
      subst run
      exact .iccProfile xisf named (by simpa using outside)
  obtain ⟨named, run⟩ | ⟨notProperty, run⟩ := ite_eq_ok run
  · obtain ⟨inside, run⟩ | ⟨outside, run⟩ := ite_eq_ok run
    · simp only [bind_eq_ok, reject_eq_ok, pure, Except.pure, Except.ok.injEq,
        Bool.not_eq_true] at run
      obtain ⟨_, complete, rfl⟩ := run
      exact .inlineProperty xisf named inside complete
    · rw [Except.ok.injEq] at run
      subst run
      exact .property xisf named (by simpa using outside)
  obtain ⟨named, run⟩ | ⟨notCell, run⟩ := ite_eq_ok run
  · simp only [endCell, bind_eq_ok, pure, Except.pure, Except.ok.injEq] at run
    obtain ⟨_, -, rfl⟩ := run
    exact .cell xisf named
  obtain ⟨named, run⟩ | ⟨notRow, run⟩ := ite_eq_ok run
  · simp only [endRow, bind_eq_ok, reject_eq_ok, not_or, Option.isNone_iff_eq_none, pure,
      Except.pure, Except.ok.injEq] at run
    obtain ⟨_, ⟨inTable, inRow⟩, _, some, rfl⟩ := run
    obtain ⟨table, inTable⟩ := Option.ne_none_iff_exists'.mp inTable
    obtain ⟨row, inRow⟩ := Option.ne_none_iff_exists'.mp inRow
    refine .row xisf named table row inTable inRow fun info found empty => some ?_
    rw [inTable, inRow, Option.getD_some, Option.getD_some, found]
    simpa using empty
  obtain ⟨named, run⟩ | ⟨notStructure, run⟩ := ite_eq_ok run
  · simp only [endStructure, bind_eq_ok, reject_eq_ok, Option.isNone_iff_eq_none, pure,
      Except.pure, Except.ok.injEq] at run
    obtain ⟨_, inside, _, some, rfl⟩ := run
    obtain ⟨index, inside⟩ := Option.ne_none_iff_exists'.mp inside
    refine .tableStructure xisf named index inside fun info found empty => some ?_
    rw [inside, Option.getD_some, found]
    simpa using empty
  obtain ⟨named, run⟩ | ⟨notTable, run⟩ := ite_eq_ok run
  · simp only [endTable, bind_eq_ok, pure, Except.pure, Except.ok.injEq] at run
    obtain ⟨_, -, rfl⟩ := run
    exact .table xisf named
  obtain ⟨named, run⟩ | ⟨notThumbnail, run⟩ := ite_eq_ok run
  · simp only [endThumbnail, bind_eq_ok, pure, Except.pure, Except.ok.injEq] at run
    obtain ⟨_, -, _, -, rfl⟩ := run
    exact .thumbnail xisf named
  obtain ⟨named, run⟩ | ⟨notImage, run⟩ := ite_eq_ok run
  · have same : state' = { state with imageStack := state.imageStack.tail } := by
      unfold endImage at run
      split at run
      · rename_i empty
        rw [Except.ok.injEq] at run
        rw [← run, empty]
        rw [List.tail_nil, ← empty]
      · rename_i index below open_
        simp only [bind_eq_ok, pure, Except.pure, Except.ok.injEq] at run
        obtain ⟨_, -, rfl⟩ := run
        rw [open_, List.tail_cons]
    subst same
    exact .image xisf named
  rw [Except.ok.injEq] at run
  subst run
  refine .unhandled fun _ => ?_
  simp only [closedNames, List.map_cons, List.map_nil, List.mem_cons, List.not_mem_nil, or_false,
    not_or]
  exact ⟨notData, notIccProfile, notProperty, notCell, notRow, notStructure, notTable, notThumbnail,
    notImage⟩

theorem endElement_eq {name : Text} (run : endElement state name = .ok state') :
    ∃ closed, Closed state (namespaceName name = kXisfNamespace) (localName name) closed ∧
      state' = popElement closed := by
  simp only [endElement, bind_eq_ok, pure, Except.pure, Except.ok.injEq] at run
  obtain ⟨closed, close, rfl⟩ := run
  exact ⟨closed, closeElement_eq close, rfl⟩

/-! ## Text -/

/-- The Cell that text goes to, if there is one. -/
def openCellInfo (state : XmlBuilder) : Option TableCellInfo :=
  (openCell state).bind fun place =>
    ((state.tables[place.1]?).bind fun table => table.rows[place.2.1]?).bind fun row =>
      row.cells[place.2.2]?

/-- The state with more text in a Cell. -/
def addCellText (state : XmlBuilder) (place : Nat × Nat × Nat) (text : Text) : XmlBuilder :=
  { state with
    tableTextBytes := state.tableTextBytes + text.length
    tables := state.tables.modify place.1 fun table => modifyRows table place.2.1 fun row =>
      ⟨row.cells.modify place.2.2 fun cell => { cell with value := cell.value ++ text }⟩ }

/-- Where text goes. -/
inductive TextTaken (options : ReaderOptions) (state : XmlBuilder) (text : Text) :
    XmlBuilder → Prop
  | empty (none : text = []) : TextTaken options state text state
  | encoded (state' : XmlBuilder) (inside : isEncodedBlockOpen state = true)
      (run : decodeEmbeddedText options state text = .ok state') :
      TextTaken options state text state'
  | cell (outside : isEncodedBlockOpen state = false) (place : Nat × Nat × Nat)
      (inside : openCell state = some place)
      (accepts : (openCellInfo state).any acceptsText = true)
      (within : text.length ≤
        options.maxTableTextBytes - min state.tableTextBytes options.maxTableTextBytes) :
      TextTaken options state text (addCellText state place text)
  | cellSpace (outside : isEncodedBlockOpen state = false) (place : Nat × Nat × Nat)
      (inside : openCell state = some place)
      (refuses : (openCellInfo state).any acceptsText = false)
      (space : containsNonXmlWhitespace text = false) : TextTaken options state text state
  | extension (outside : isEncodedBlockOpen state = false) (noCell : openCell state = none)
      (index : Nat) (inside : state.extensionStack.headD none = some index)
      (within : text.length ≤
        options.maxExtensionBytes - min state.extensionBytes options.maxExtensionBytes) :
      TextTaken options state text { state with
        extensionBytes := state.extensionBytes + text.length
        extensionElements := state.extensionElements.modify index fun element =>
          { element with text := element.text ++ text } }
  | property (outside : isEncodedBlockOpen state = false) (noCell : openCell state = none)
      (known : state.extensionStack.headD none = none) (index : Nat)
      (inside : state.textMetadataIndex = some index)
      (within : text.length ≤ options.maxMetadataValueBytes -
        min (((state.metadata[index]?).map fun entry => entry.value.length).getD 0)
          options.maxMetadataValueBytes) :
      TextTaken options state text { state with
        metadata := state.metadata.modify index fun entry =>
          { entry with value := entry.value ++ text } }
  | stray (outside : isEncodedBlockOpen state = false) (noCell : openCell state = none)
      (known : state.extensionStack.headD none = none)
      (noProperty : state.textMetadataIndex = none) : TextTaken options state text state

theorem strayText_eq {text : Text} (run : strayText state text = .ok state') : state' = state := by
  simp only [strayText] at run
  repeat' split at run
  all_goals cases run
  rfl

theorem characterData_eq {text : Text} (run : characterData options state text = .ok state') :
    TextTaken options state text state' := by
  unfold characterData at run
  obtain ⟨empty, run⟩ | ⟨-, run⟩ := ite_eq_ok run
  · cases run
    exact .empty empty
  obtain ⟨inside, run⟩ | ⟨outside, run⟩ := ite_eq_ok run
  · exact .encoded state' inside run
  rw [Bool.not_eq_true] at outside
  cases inCell : openCell state with
  | some place =>
      rw [inCell] at run
      obtain ⟨table, row, cell⟩ := place
      have found : openCellInfo state = ((state.tables[table]?).bind fun t => t.rows[row]?).bind
          fun r => r.cells[cell]? := by
        rw [openCellInfo, inCell, Option.bind_some]
      obtain ⟨accepts, run⟩ | ⟨refuses, run⟩ := ite_eq_ok run
      · simp only [bind_eq_ok, pure, Except.pure, Except.ok.injEq] at run
        obtain ⟨charged, charge, rfl⟩ := run
        obtain ⟨within, rfl⟩ := consumeTableTextBytes_eq charge
        exact .cell outside (table, row, cell) inCell (found ▸ accepts) within
      · simp only [bind_eq_ok, reject_eq_ok, pure, Except.pure, Except.ok.injEq] at run
        obtain ⟨_, space, rfl⟩ := run
        rw [Bool.not_eq_true] at refuses space
        exact .cellSpace outside (table, row, cell) inCell (found ▸ refuses) space
  | none =>
      rw [inCell] at run
      cases extension : state.extensionStack.headD none with
      | some index =>
          simp only [extension, extensionText, bind_eq_ok, pure, Except.pure,
            Except.ok.injEq] at run
          obtain ⟨charged, charge, rfl⟩ := run
          obtain ⟨within, rfl⟩ := consumeExtensionBytes_eq charge
          exact .extension outside inCell index extension within
      | none =>
          simp only [extension, bind_eq_ok] at run
          obtain ⟨_, -, _, -, run⟩ := run
          cases property : state.textMetadataIndex with
          | none =>
              rw [property] at run
              rw [strayText_eq run]
              exact .stray outside inCell extension property
          | some index =>
              rw [property] at run
              simp only [propertyText, bind_eq_ok, reject_eq_ok, pure, Except.pure,
                Except.ok.injEq] at run
              obtain ⟨_, within, rfl⟩ := run
              exact .property outside inCell extension index property (Nat.not_lt.mp within)

end

end Mmxisf.Reader
