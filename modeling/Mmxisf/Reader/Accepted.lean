/-
# Reader.Accepted -- what an accepted header was made from

`parse_header` runs the handlers over the whole header and then checks what only
the whole can show.  `AcceptedHeader.parser` takes an accepted header apart into the
state the handlers left and the result of each check.
-/
import Mmxisf.Reader.ParserRun

namespace Mmxisf.Reader

set_option autoImplicit false

/-- The bindings of one kind of object: those made by place, then those made by
References. -/
def BoundFrom (state : XmlBuilder) (objects : Nat) (direct : List ObjectBindingEvent)
    (uids : List (Text × Nat)) (limit : Nat) (bindings : List ObjectBinding) : Prop :=
  ∃ own outside beyond, directBindings objects state.images.length outside direct = .ok own ∧
    referencedBindings uids limit beyond state.metadataBindingEvents own = .ok bindings

/-- The checks that a parser state went through to become a parsed header. -/
structure AcceptedFrom (options : ReaderOptions) (fileSize headerLength : Nat)
    (state : XmlBuilder) (parsed : ParsedHeader) : Prop where
  complete : checkCompleteness state = .ok ()
  structures : resolveStructureReferences state = .ok parsed.document.tables
  tables : parsed.document.tables.forM (checkTable state.tableStructures) = .ok ()
  metadataBindings : metadataBindings state state.metadataBindingEvents =
    .ok parsed.document.metadataBindings
  ancillary : BoundFrom state state.ancillaryObjects.length state.ancillaryBindingEvents
    state.ancillaryUids options.maxAncillaryBindings parsed.document.ancillaryBindings
  iccProfiles : BoundFrom state state.iccProfiles.length state.iccProfileBindingEvents
    state.iccProfileUids options.maxIccProfileBindings parsed.document.iccProfileBindings
  thumbnails : BoundFrom state state.thumbnails.length state.thumbnailBindingEvents
    state.thumbnailUids options.maxThumbnailBindings parsed.document.thumbnailBindings
  tableBindings : ∃ own outside,
    directBindings parsed.document.tables.length state.images.length outside
      state.tableBindingEvents = .ok own ∧
    referencedTables state.tableUids options.maxTableBindings state.metadataBindingEvents own =
      .ok parsed.document.tableBindings
  identifiers : ∃ seen, checkIdentifiers state parsed.document.metadataBindings [] = .ok seen ∧
    checkTableIdentifiers parsed.document.tables state.images.length
      parsed.document.tableBindings seen = .ok ()
  ranges : checkRanges (16 + headerLength) fileSize (16 + headerLength)
    (sortRanges state.attachedRanges) = .ok ()
  document : parsed.document = { parsed.document with
    version := state.version
    images := state.images
    metadata := state.metadata
    fileSize := fileSize
    headerLength := headerLength
    extensionElements := state.extensionElements
    ancillaryObjects := state.ancillaryObjects
    iccProfiles := state.iccProfiles
    thumbnails := state.thumbnails
    tableStructures := state.tableStructures }
  blocks : parsed = ⟨parsed.document, state.embeddedBlocks, state.inlineMetadataBlocks,
    state.inlineIccProfileBlocks, state.embeddedThumbnailBlocks, sortRanges state.attachedRanges⟩

/-- What a complete header has. -/
structure Complete (state : XmlBuilder) : Prop where
  rootClosed : state.rootClosed = true
  oneMetadata : state.metadataCount = 1
  creationTime : state.sawCreationTime = true
  creatorApplication : state.sawCreatorApplication = true
  references : ∀ reference ∈ state.references, reference ∈ state.coreUids
  fieldIds : ∀ info ∈ state.tableStructures, (info.fields.map TableFieldInfo.id).Nodup

theorem checkCompleteness_eq {state : XmlBuilder} (run : checkCompleteness state = .ok ()) :
    Complete state := by
  simp only [checkCompleteness, bind_eq_ok, reject_eq_ok, not_or, not_not, Bool.not_eq_false,
    List.all_eq_true, decide_eq_true_eq] at run
  obtain ⟨-, -, -, ⟨-, closed⟩, -, one, -, ⟨time, application⟩, -, references, -, -, ids⟩ := run
  exact ⟨closed, one, time, application, references, ids⟩

section

variable {options : ReaderOptions} {platform : Platform}

theorem parseXmlHeader_eq {xml : Text} {state : XmlBuilder}
    (run : parseXmlHeader options platform xml = .ok state) :
    handleEvents options platform {} (platform.parseXml (xmlChunks xml.length xml)).events =
      .ok state := by
  simp only [parseXmlHeader, bind_eq_ok] at run
  obtain ⟨_, -, final, run, last⟩ := run
  split at last
  · cases last
  · simp only [pure, Except.pure, Except.ok.injEq] at last
    rw [run, last]

theorem acceptedFrom {xml : Text} {fileSize headerLength : Nat} {parsed : ParsedHeader}
    (accepted : parseHeader platform xml options fileSize headerLength = .ok parsed) :
    ∃ state,
      handleEvents options platform {} (platform.parseXml (xmlChunks xml.length xml)).events =
        .ok state ∧
      AcceptedFrom options fileSize headerLength state parsed := by
  simp only [parseHeader, bind_eq_ok, pure, Except.pure, Except.ok.injEq] at accepted
  obtain ⟨state, run, _, complete, tables, structures, _, tableChecks, bindings, bound, own, direct,
    ancillary, referenced, ownProfiles, directProfiles, profiles, referencedProfiles, ownThumbnails,
    directThumbnails, thumbnails, referencedThumbnails, ownTables, directTables, tableBindings,
    referencedTables, seen, identifiers, _, tableIdentifiers, _, ranges, rfl⟩ := accepted
  exact ⟨state, parseXmlHeader_eq run, complete, structures, tableChecks, bound,
    ⟨own, _, _, direct, referenced⟩, ⟨ownProfiles, _, _, directProfiles, referencedProfiles⟩,
    ⟨ownThumbnails, _, _, directThumbnails, referencedThumbnails⟩,
    ⟨ownTables, _, directTables, referencedTables⟩, ⟨seen, identifiers, tableIdentifiers⟩, ranges,
    rfl, rfl⟩

/-- What Expat reports of the header. -/
def AcceptedHeader.events (header : AcceptedHeader options platform) : List XmlEvent :=
  (platform.parseXml (xmlChunks header.xml.length header.xml)).events

theorem AcceptedHeader.parserOf (header : AcceptedHeader options platform) :
    ∃ parser : ParserRun options platform, parser.events = header.events ∧
      parser.outline = header.outline ∧
      AcceptedFrom options header.fileSize header.headerLength parser.state header.parsed := by
  obtain ⟨state, run, checked⟩ := acceptedFrom header.accepted
  exact ⟨⟨_, state, header.outline, run, header.nested⟩, rfl, rfl, checked⟩

theorem AcceptedHeader.parser (header : AcceptedHeader options platform) :
    ∃ parser : ParserRun options platform, parser.outline = header.outline ∧
      AcceptedFrom options header.fileSize header.headerLength parser.state header.parsed := by
  obtain ⟨parser, -, checked⟩ := header.parserOf
  exact ⟨parser, checked⟩

end

/-! ## Headers by their events -/

/-- The events of an element of the XISF namespace around others. -/
def xisfElement (name : String) (attributes : List (String × String))
    (content : List XmlEvent) : List XmlEvent :=
  .startElement (kXisfNamespace ++ separator :: lit name)
      (attributes.map fun entry => (lit entry.1, lit entry.2)) ::
    content ++ [.endElement (kXisfNamespace ++ separator :: lit name)]

/-- The Metadata element that every unit has. -/
def unitMetadata (more : List XmlEvent) : List XmlEvent :=
  xisfElement "Metadata" []
    (xisfElement "Property" [("id", "XISF:CreationTime"), ("type", "TimePoint"),
        ("value", "2026-01-01T00:00:00Z")] [] ++
      xisfElement "Property" [("id", "XISF:CreatorApplication"), ("type", "String")]
        [.characterData (lit "mmxisf")] ++ more)

/-- A unit with its Metadata first. -/
def unitEvents (inMetadata inRoot : List XmlEvent) : List XmlEvent :=
  .declaration (some (lit "1.0")) (some (lit "UTF-8")) (-1) ::
    xisfElement "xisf" [("version", "1.0")] (unitMetadata inMetadata ++ inRoot)

/-- A text that an XML parser reports these events for, where they have no
character that needs a reference. -/
def renderEvent : XmlEvent → Text
  | .declaration _ _ _ => lit "<?xml version=\"1.0\" encoding=\"UTF-8\"?>"
  | .doctype => []
  | .startElement name attributes =>
      lit "<" ++ localName name ++ lit " xmlns=\"" ++ namespaceName name ++ lit "\"" ++
        attributes.flatMap (fun entry => lit " " ++ entry.1 ++ lit "=\"" ++ entry.2 ++ lit "\"") ++
        lit ">"
  | .endElement name => lit "</" ++ localName name ++ lit ">"
  | .characterData text => text

def render (events : List XmlEvent) : Text := events.flatMap renderEvent

/-- A platform whose XML parser reports these events. -/
def reporting (events : List XmlEvent) : Platform where
  parseXml _ := ⟨events, none⟩
  extractDouble _ := none
  toCharsScientific _ := []
  digest _ _ := []
  compressBound _ _ := 0
  decompress _ _ _ _ := ⟨false, []⟩
  acceptsWindowLog _ := false
  nativeByteOrder := .little

/-- What `parse_header` makes of a file that is only this header. -/
def parseRendered (events : List XmlEvent) : Result ParsedHeader :=
  parseHeader (reporting events) (render events) {} (16 + (render events).length)
    (render events).length

/-- The value of a result that is one. -/
def valueOf {α : Type} : (result : Result α) → result.isOk = true → α
  | .ok value, _ => value

theorem valueOf_eq {α : Type} (result : Result α) (isOk : result.isOk = true) :
    result = .ok (valueOf result isOk) := by
  cases result with
  | error e => cases isOk
  | ok value => rfl

/-- A header with these events that is accepted. -/
def acceptedHeader (events : List XmlEvent) (accepted : (parseRendered events).isOk = true)
    (nested : (followAll {} events).isSome = true) : AcceptedHeader {} (reporting events) where
  xml := render events
  fileSize := 16 + (render events).length
  headerLength := (render events).length
  parsed := valueOf (parseRendered events) accepted
  outline := (followAll {} events).get nested
  accepted := valueOf_eq (parseRendered events) accepted
  nested := (Option.some_get nested).symm

end Mmxisf.Reader
