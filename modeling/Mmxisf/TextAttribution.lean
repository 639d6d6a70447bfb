/-
# TextAttribution -- which element character data is stored for

One handler takes all text and chooses where it goes from the indices that start
and end tags have left.  Extension elements, Cells and encoded blocks get exactly
the text that they directly contain.  A Property of text does so only where no other
element is between it and the text, and no other Property has ended in it: the text
of a child element is added to its value, and what follows a Property inside it is
lost.
-/
import Mmxisf.Reader.BlockText
import Mmxisf.Reader.CellText
import Mmxisf.Reader.Tables

namespace Mmxisf.Reader

set_option autoImplicit false

variable {options : ReaderOptions} {platform : Platform}

/-! ## Places of text -/

/-- Where text is kept as it is. -/
inductive TextPlace
  | property (index : Nat)
  | extension (index : Nat)
  | cell (index : Nat)
  deriving DecidableEq, Repr

def storedText (state : XmlBuilder) : TextPlace → Option Text
  | .property index => (state.metadata[index]?).map MetadataEntry.value
  | .extension index => (state.extensionElements[index]?).map ExtensionElement.text
  | .cell index => ((allCells state.tables)[index]?).map TableCellInfo.value

/-- The place that text directly in an element belongs to. -/
def textPlace (outline : HeaderOutline) (frame : HeaderFrame) : Option TextPlace :=
  if isTextTag frame.tag then some (.property (outline.rank isEntry frame))
  else if isKind .foreign frame.tag then
    some (.extension (outline.rank (isKind .foreign) frame))
  else if takesText frame.tag then some (.cell (outline.rank (isKind .cell) frame))
  else none

/-- The places of the innermost element. -/
def innermostText (outline : HeaderOutline) : Option TextPlace :=
  outline.opened.head?.bind (textPlace outline)

def innermostBlock (outline : HeaderOutline) : Option DecodedPlace :=
  outline.opened.head?.bind fun frame => placeAt outline frame outline.opened.tail

/-- Text is stored for the element that it stands directly in, and nowhere else. -/
structure StoredInnermost (outline : HeaderOutline) (state : XmlBuilder) (text : Text)
    (state' : XmlBuilder) : Prop where
  texts : ∀ place, storedText state' place =
    if innermostText outline = some place then (storedText state place).map (· ++ text)
    else storedText state place
  blocks : ∀ place, innermostBlock outline ≠ some place →
    storedBlock state' place = storedBlock state place

def decodedBlock (parsed : ParsedHeader) : DecodedPlace → Option Bytes
  | .image index => parsed.embeddedBlocks[index]?
  | .thumbnail index => parsed.embeddedThumbnailBlocks[index]?
  | .property index => parsed.inlineMetadataBlocks[index]?
  | .iccProfile index => parsed.inlineIccProfileBlocks[index]?

/-- The decoded bytes of an encoded element are in a place of their own. -/
structure BlockDecoded (outline : HeaderOutline) (parsed : ParsedHeader)
    (element : HeaderElement) (place : DecodedPlace) : Prop where
  own : ∀ other ∈ outline.elements, decodedPlace outline other = some place → other = element
  bytes : ∃ block, decodedBlock parsed place = some block ∧
    decodedText (isBase64 element.tag) element.content = some block

structure TextAttributed (header : AcceptedHeader options platform) : Prop where
  properties : Library.Matches EntryHolds (header.outline.ofKind isEntry)
    header.parsed.document.metadata
  extensions : Library.Matches (fun (element : HeaderElement) (extension : ExtensionElement) =>
    extension.text = element.content) (header.outline.ofKind (isKind .foreign))
    header.parsed.document.extensionElements
  cells : Library.Matches CellHolds (header.outline.ofKind (isKind .cell))
    (allCells header.parsed.document.tables)
  blocks : ∀ element ∈ header.outline.elements, isEncoded element.tag = true →
    ∃ place, decodedPlace header.outline element = some place ∧
      BlockDecoded header.outline header.parsed element place
  pieces : ∀ before text after outline state state',
    header.events = before ++ .characterData text :: after → text ≠ [] →
    followAll {} before = some outline → handleEvents options platform {} before = .ok state →
    characterData options state text = .ok state' → StoredInnermost outline state text state'

/-- Text outside encoded blocks stands directly in a Property of text in which no
Property has ended, or not inside such a Property. -/
def TextsInPlace (header : AcceptedHeader options platform) : Prop :=
  TextsAllowed isInPlace {} header.events

/-! ## One piece of text -/

section

variable {outline : HeaderOutline} {state state' : XmlBuilder} {top : HeaderFrame}
  {below : List HeaderFrame}

/-- No Property is open around a Cell or an extension element. -/
theorem Stacked.no_target (stacked : Stacked outline state) (opened : outline.opened = top :: below)
    (kind : top.tag.kind = .cell ∨ top.tag.kind = .foreign) :
    textTarget outline = none ∧ isTextTag top.tag = false := by
  have place := stacked.top opened
  have outside : ElementKind.property ∉ pathKinds outline.opened := by
    have above : ElementKind.property ∉ pathKinds below := by
      rcases kind with cell | foreign
      · rw [cell] at place
        have inside := place.known _ rfl
        have none : ∀ path ∈ tablePaths.map (ElementKind.row :: ·),
          ElementKind.property ∉ path := by decide
        exact none _ inside
      · rw [foreign] at place
        have inside := place.known _ rfl
        have none : ∀ path ∈ [rootPath], ElementKind.property ∉ path := by decide
        exact none _ inside
    rw [opened, pathKinds, List.map_cons, List.mem_cons, not_or]
    refine ⟨?_, above⟩
    rcases kind with cell | foreign
    · rw [cell]
      decide
    · rw [foreign]
      decide
  refine ⟨textTarget_eq_none outside, ?_⟩
  by_contra isText
  refine outside (List.mem_map.mpr ⟨top, ?_, isTextTag_kind (by simpa using isText)⟩)
  rw [opened]
  exact List.mem_cons_self

/-- The innermost Property of text is the target, unless a Property has ended in it. -/
theorem textTarget_of_top (opened : outline.opened = top :: below)
    (isText : isTextTag top.tag = true) :
    textTarget outline = some top ∨ textTarget outline = none := by
  unfold textTarget
  rw [opened, List.find?_cons_of_pos (by exact isText), Option.filter_some]
  split
  · exact .inl rfl
  · exact .inr rfl

/-- The open Cell takes text as its element says. -/
theorem CellsHold.takes (held : CellsHold outline state) (shape : Shape outline state)
    (opened : outline.opened = top :: below) (kind : top.tag.kind = .cell)
    {place : Nat × Nat × Nat} (inside : openCell state = some place) :
    (openCellInfo state).any acceptsText = takesText top.tag := by
  obtain ⟨found, -⟩ := held.open_cell shape.opens opened kind inside
  obtain ⟨element, there, frame⟩ := shape.stacked.coherent.opened.element top
    (by rw [opened]; exact List.mem_cons_self)
  have tag : element.tag = top.tag := congrArg Library.Frame.tag frame
  have atRank : (outline.ofKind (isKind .cell))[outline.rank (isKind .cell) top]? = some element :=
    Library.Outline.getElem?_rank there (by rw [tag]; exact decide_eq_true kind)
  obtain ⟨cell, there', holds⟩ := held.cells.get_element atRank
  rw [← found, there', Option.any_some, holds.form, tag]

/-- Where no text is stored, none is where the innermost element takes none. -/
theorem StoredInnermost.unchanged {text : Text} (none : innermostText outline = none) :
    StoredInnermost outline state text state where
  texts place := by rw [none, if_neg (by simp)]
  blocks _ _ := rfl

/-- One text grows. -/
theorem map_modify_text {α : Type} {field : α → Text} {change : α → α} {text : Text}
    (grows : ∀ a, field (change a) = field a ++ text) (records : List α) (i j : Nat) :
    ((records.modify i change)[j]?).map field =
      if j = i then ((records[j]?).map field).map (· ++ text) else (records[j]?).map field := by
  rw [Library.getElem?_modify_ite]
  split
  · rw [Option.map_map, Option.map_map]
    congr 1
    funext a
    exact grows a
  · rfl

/-- A text that is there does not grow and stay the same. -/
theorem no_growth {text : Text} (some : text ≠ []) {stored : Option Text}
    (there : stored.isSome = true) (same : stored = stored.map (· ++ text)) : False := by
  cases stored with
  | none => cases there
  | some value =>
      rw [Option.map_some, Option.some.injEq] at same
      exact some (List.self_eq_append_right.mp same)

/-- Text is stored for its element exactly where it is in place. -/
theorem Shape.storedInnermost_iff (shape : Shape outline state)
    (tracked : TextTracked outline state)
    (held : CellsHold outline state) {text : Text} (some : text ≠ [])
    (taken : TextTaken options state text state') :
    StoredInnermost outline state text state' ↔ TextInPlace outline := by
  have stacked := shape.stacked
  have noCell (outside : openCell state = none) :
      ∀ top below, outline.opened = top :: below → top.tag.kind ≠ .cell := by
    intro top below opened kind
    obtain ⟨place, inside⟩ := shape.opens.openCell_of_top opened kind
    rw [outside] at inside
    cases inside
  cases opened : outline.opened with
  | nil =>
      have noTarget : textTarget outline = none := by
        rw [textTarget, opened]
        rfl
      have inPlace : TextInPlace outline := by
        intro top below impossible
        rw [opened] at impossible
        cases impossible
      refine iff_of_true ?_ inPlace
      rw [TextTracked, noTarget] at tracked
      cases taken with
      | empty none => exact absurd none some
      | encoded _ inside =>
          obtain ⟨top, below, opened', -⟩ := shape.encodes.top_encoded inside
          rw [opened] at opened'
          cases opened'
      | cell _ place inside =>
          obtain ⟨top, below, opened', -⟩ := shape.top_cell (openCell_isSome inside)
          rw [opened] at opened'
          cases opened'
      | cellSpace _ place inside =>
          obtain ⟨top, below, opened', -⟩ := shape.top_cell (openCell_isSome inside)
          rw [opened] at opened'
          cases opened'
      | extension _ _ index inside =>
          obtain ⟨top, below, opened', -⟩ := stacked.extension_eq inside
          rw [opened] at opened'
          cases opened'
      | property _ _ _ index found =>
          rw [tracked] at found
          cases found
      | stray => exact .unchanged (by rw [innermostText, opened]; rfl)
  | cons top below =>
      have isOpen : top ∈ outline.opened := by
        rw [opened]
        exact List.mem_cons_self
      have head : innermostText outline = textPlace outline top := by
        rw [innermostText, opened]
        rfl
      have headBlock : innermostBlock outline = placeAt outline top below := by
        rw [innermostBlock, opened]
        rfl
      -- what a Cell and an extension element have in common
      have settled (kind : top.tag.kind = .cell ∨ top.tag.kind = .foreign) :
          TextInPlace outline ∧ isTextTag top.tag = false := by
        obtain ⟨noTarget, notText⟩ := stacked.no_target opened kind
        refine ⟨fun top' below' opened' _ => ?_, notText⟩
        obtain ⟨rfl, rfl⟩ := List.cons.inj (opened.symm.trans opened')
        rw [noTarget, notText, if_neg Bool.false_ne_true]
      cases taken with
      | empty none => exact absurd none some
      | encoded _ inside run =>
          obtain ⟨top', below', opened', encoded⟩ := shape.encodes.top_encoded inside
          obtain ⟨rfl, rfl⟩ := List.cons.inj (opened.symm.trans opened')
          have notText : isTextTag top.tag = false := by
            by_contra isText
            rw [isEncoded_of_isTextTag (by simpa using isText)] at encoded
            cases encoded
          have notForeign : top.tag.kind ≠ .foreign := by
            intro foreign
            rw [isEncoded_foreign foreign] at encoded
            cases encoded
          have notCell : top.tag.kind ≠ .cell := by
            intro cell
            rw [isEncoded_of_kind (by simp [cell]) (by simp [cell]) (by simp [cell])] at encoded
            cases encoded
          have noPlace : textPlace outline top = none := by
            simp [textPlace, takesText, isKind, notText, notForeign, notCell]
          obtain ⟨metadata, extensions, tables⟩ := decodeEmbeddedText_frame run
          refine iff_of_true ⟨fun place => ?_, fun place other => ?_⟩ ?_
          · rw [head, noPlace, if_neg (by simp)]
            cases place <;> simp [storedText, metadata, extensions, tables]
          · rw [headBlock, shape.openPlace_eq opened encoded, ne_eq, Option.some.injEq] at other
            exact decodeEmbeddedText_blocks run (Ne.symm other)
          · intro top' below' opened' plain
            obtain ⟨rfl, rfl⟩ := List.cons.inj (opened.symm.trans opened')
            rw [encoded] at plain
            cases plain
      | cell _ place inside accepts =>
          obtain ⟨top', below', opened', kind⟩ := shape.top_cell (openCell_isSome inside)
          obtain ⟨rfl, rfl⟩ := List.cons.inj (opened.symm.trans opened')
          obtain ⟨inPlace, notText⟩ := settled (.inl kind)
          have takes := held.takes shape opened kind inside
          rw [accepts] at takes
          obtain ⟨-, changed⟩ := held.open_cell shape.opens opened kind inside
          have here : textPlace outline top =
              Option.some (.cell (outline.rank (isKind .cell) top)) := by
            simp [textPlace, isKind, notText, kind, ← takes]
          refine iff_of_true ⟨fun place' => ?_, fun place' _ => ?_⟩ inPlace
          · rw [head, here]
            cases place' with
            | property i => rw [if_neg (by simp)]; rfl
            | extension i => rw [if_neg (by simp)]; rfl
            | cell i =>
                rw [storedText, storedText, changed, map_modify_text (by intro cell; rfl)]
                by_cases same : i = outline.rank (isKind .cell) top
                · subst same
                  rw [if_pos rfl, if_pos rfl]
                · rw [if_neg same, if_neg (by simpa using Ne.symm same)]
          · cases place' <;> rfl
      | cellSpace _ place inside refuses =>
          obtain ⟨top', below', opened', kind⟩ := shape.top_cell (openCell_isSome inside)
          obtain ⟨rfl, rfl⟩ := List.cons.inj (opened.symm.trans opened')
          obtain ⟨inPlace, notText⟩ := settled (.inl kind)
          have takes := held.takes shape opened kind inside
          rw [refuses] at takes
          refine iff_of_true (.unchanged ?_) inPlace
          rw [head]
          simp [textPlace, isKind, notText, kind, ← takes]
      | extension _ _ index inside =>
          obtain ⟨top', below', opened', kind, rfl, -⟩ := stacked.extension_eq inside
          obtain ⟨rfl, rfl⟩ := List.cons.inj (opened.symm.trans opened')
          obtain ⟨inPlace, notText⟩ := settled (.inr kind)
          have here : textPlace outline top =
              Option.some (.extension (outline.rank (isKind .foreign) top)) := by
            rw [textPlace, notText, if_neg Bool.false_ne_true,
              if_pos (by exact decide_eq_true kind)]
          refine iff_of_true ⟨fun place' => ?_, fun place' _ => ?_⟩ inPlace
          · rw [head, here]
            cases place' with
            | property i => rw [if_neg (by simp)]; rfl
            | cell i => rw [if_neg (by simp)]; rfl
            | extension i =>
                rw [storedText, storedText, map_modify_text (by intro element; rfl)]
                by_cases same : i = outline.rank (isKind .foreign) top
                · subst same
                  rw [if_pos rfl, if_pos rfl]
                · rw [if_neg same, if_neg (by simpa using Ne.symm same)]
          · cases place' <;> rfl
      | property outside outsideCell known index found =>
          have plain := shape.encodes.none_open stacked outside top isOpen
          have small := shape.encodes.text index found
          rw [TextTracked, found] at tracked
          obtain ⟨frame, target, rank⟩ := Option.map_eq_some_iff.mp tracked.symm
          cases isText : isTextTag top.tag with
          | true =>
              obtain rfl : frame = top := by
                rcases textTarget_of_top opened isText with here | none
                · exact Option.some.inj (target.symm.trans here)
                · rw [target] at none
                  cases none
              have here : textPlace outline frame = Option.some (.property index) := by
                rw [textPlace, if_pos isText, rank]
              refine iff_of_true ⟨fun place' => ?_, fun place' _ => ?_⟩ ?_
              · rw [head, here]
                cases place' with
                | extension i => rw [if_neg (by simp)]; rfl
                | cell i => rw [if_neg (by simp)]; rfl
                | property i =>
                    rw [storedText, storedText, map_modify_text (by intro entry; rfl)]
                    by_cases same : i = index
                    · subst same
                      rw [if_pos rfl, if_pos rfl]
                    · rw [if_neg same, if_neg (by simpa using Ne.symm same)]
              · cases place' <;> rfl
              · intro top' below' opened' _
                obtain ⟨rfl, rfl⟩ := List.cons.inj (opened.symm.trans opened')
                rw [target, if_pos isText]
          | false =>
              refine iff_of_false (fun stored => ?_) fun inPlace => ?_
              · have kept := stored.texts (.property index)
                have elsewhere : innermostText outline ≠ Option.some (.property index) := by
                  rw [head, textPlace, isText, if_neg Bool.false_ne_true]
                  split
                  · simp
                  · split <;> simp
                rw [if_neg elsewhere, storedText, storedText, map_modify_text (by intro entry; rfl),
                  if_pos rfl] at kept
                refine no_growth some ?_ kept.symm
                rw [Option.isSome_map]
                exact isSome_getElem? small
              · have none := inPlace top below opened plain
                rw [target, isText, if_neg Bool.false_ne_true] at none
                cases none
      | stray outside outsideCell known noProperty =>
          have plain := shape.encodes.none_open stacked outside top isOpen
          rw [TextTracked, noProperty] at tracked
          have noTarget : textTarget outline = none := Option.map_eq_none_iff.mp tracked.symm
          cases isText : isTextTag top.tag with
          | true =>
              refine iff_of_false (fun stored => ?_) fun inPlace => ?_
              · have kept := stored.texts (.property (outline.rank isEntry top))
                rw [head, textPlace, if_pos isText, if_pos rfl] at kept
                refine no_growth some ?_ kept
                have small := rank_lt stacked.coherent isOpen (isEntry_of_isTextTag isText)
                rw [← shape.counted.metadata] at small
                rw [storedText, Option.isSome_map]
                exact isSome_getElem? small
              · have target := inPlace top below opened plain
                rw [noTarget, if_pos isText] at target
                cases target
          | false =>
              have notForeign : top.tag.kind ≠ .foreign := by
                intro foreign
                rw [stacked.extensionStack, opened, List.map_cons, List.headD_cons, extensionIndex,
                  if_pos foreign] at known
                cases known
              have notCell := noCell outsideCell top below opened
              refine iff_of_true (.unchanged ?_) ?_
              · rw [head]
                simp [textPlace, takesText, isKind, isText, notForeign, notCell]
              · intro top' below' opened' _
                obtain ⟨rfl, rfl⟩ := List.cons.inj (opened.symm.trans opened')
                rw [noTarget, isText, if_neg Bool.false_ne_true]

/-- An encoded element has a place. -/
theorem Stacked.decodedPlace_isSome (stacked : Stacked outline state) {element : HeaderElement}
    (member : element ∈ outline.elements) (encoded : isEncoded element.tag = true) :
    ∃ place, decodedPlace outline element = some place := by
  have place := stacked.placed element member
  unfold decodedPlace placeAt
  by_cases data : element.tag.kind = .data
  · rw [data] at place
    have owners := place.known _ rfl
    cases around : element.ancestors with
    | nil =>
        rw [around] at owners
        exact absurd owners (by decide)
    | cons owner rest =>
        rw [around, pathKinds, List.map_cons] at owners
        have either : owner.tag.kind = .image ∨ owner.tag.kind = .thumbnail := by
          simp only [objectPaths, List.map_cons, List.map_nil, List.mem_cons, List.cons.injEq,
            List.not_mem_nil, or_false] at owners
          tauto
        rcases either with kind | kind <;> simp [data, kind]
  · cases property : isInlineProperty element.tag with
    | true => simp [data]
    | false =>
        cases profile : isInlineIccProfile element.tag with
        | true => simp [data]
        | false => simp [isEncoded, data, property, profile] at encoded

end

/-! ## The theorem -/

/-- The handlers before a piece of text of an accepted header. -/
theorem ParserRun.at_text (parser : ParserRun options platform) {before after : List XmlEvent}
    {text : Text}
    (split : parser.events = before ++ .characterData text :: after) : ∃ state state',
      handleEvents options platform {} before = .ok state ∧
        characterData options state text = .ok state' := by
  have run := parser.run
  rw [split, handleEvents_append, bind_eq_ok] at run
  obtain ⟨state, first, run⟩ := run
  rw [handleEvents, bind_eq_ok] at run
  obtain ⟨state', taken, -⟩ := run
  exact ⟨state, state', first, taken⟩

/-- A piece of text is stored for its element exactly where it is in place. -/
theorem storedInnermost_iff {before : List XmlEvent} {text : Text} {outline : HeaderOutline}
    {state state' : XmlBuilder} (nested : followAll {} before = some outline)
    (run : handleEvents options platform {} before = .ok state) (some : text ≠ [])
    (taken : characterData options state text = .ok state') :
    StoredInnermost outline state text state' ↔ TextInPlace outline := by
  let parser : ParserRun options platform := ⟨before, state, outline, run, nested⟩
  have shape : Shape outline state := parser.shape
  have tracked : TextTracked outline state := parser.holds preserved_textTracked
  have held : CellsHold outline state := parser.holds preserved_cellsHold
  exact shape.storedInnermost_iff tracked held some (characterData_eq taken)

/-- Character data of an accepted header is stored for the element that it stands
directly in exactly when no text stands in another element inside a Property of text,
or after a Property that has ended inside one. -/
theorem textAttributed_iff (header : AcceptedHeader options platform) :
    TextAttributed header ↔ TextsInPlace header := by
  obtain ⟨parser, sameEvents, sameOutline, checked⟩ := header.parserOf
  constructor
  · intro attributed before text after outline split nested some
    obtain ⟨state, state', run, taken⟩ := parser.at_text (sameEvents.trans split)
    have stored := attributed.pieces before text after outline state state' split some nested run
      taken
    exact (storedInnermost_iff nested run some taken).mp stored
  · intro inPlace
    have shape := parser.shape
    have entries := (parser.holds_when preserved_entriesHold (sameEvents ▸ inPlace)).2
    have extensions := parser.holds preserved_extensionsHold
    have cells := (parser.holds preserved_cellsHold).cells
    have blocks := parser.holds preserved_blocksHold
    have closed := AcceptedFrom.opened_nil parser checked
    have metadata : header.parsed.document.metadata = parser.state.metadata :=
      congrArg Document.metadata checked.document
    have extensionElements : header.parsed.document.extensionElements =
        parser.state.extensionElements := congrArg Document.extensionElements checked.document
    have tables : allCells header.parsed.document.tables = allCells parser.state.tables := by
      have rows := (resolveStructureReferences_eq checked.structures).map_eq TableInfo.rows
        (by intro table index; rfl)
      have parts (tables : List TableInfo) : allCells tables =
          (tables.map TableInfo.rows).flatMap fun rows => rows.flatMap TableRowInfo.cells := by
        rw [List.flatMap_map]
        rfl
      rw [parts, parts, rows]
    have stored (place : DecodedPlace) :
        decodedBlock header.parsed place = storedBlock parser.state place := by
      rw [checked.blocks]
      cases place <;> rfl
    refine ⟨?_, ?_, ?_, ?_, ?_⟩
    · rw [← sameOutline, metadata]
      exact entries
    · rw [← sameOutline, extensionElements]
      exact extensions
    · rw [← sameOutline, tables]
      exact cells
    · rw [← sameOutline]
      intro element member encoded
      obtain ⟨place, found⟩ := shape.stacked.decodedPlace_isSome member encoded
      have writes : element ∈ writers parser.outline place :=
        List.mem_filter.mpr ⟨member, decide_eq_true found⟩
      cases block : storedBlock parser.state place with
      | none =>
          rw [blocks.absent place block] at writes
          cases writes
      | some bytes =>
          rcases blocks.written place bytes block with ⟨none, -⟩ | ⟨writer, one, holds⟩
          · rw [none] at writes
            cases writes
          · rw [one, List.mem_singleton] at writes
            subst writes
            refine ⟨place, found, ?_, bytes, (stored place).trans block, ?_⟩
            · intro other inside same
              have also : other ∈ writers parser.outline place :=
                List.mem_filter.mpr ⟨inside, decide_eq_true same⟩
              rwa [one, List.mem_singleton] at also
            · refine (blockHolds_of_other ?_).mp holds
              rw [closed]
              exact nofun
    · intro before text after outline state state' split some nested run taken
      exact (storedInnermost_iff nested run some taken).mpr
        (inPlace before text after outline split nested some)

/-- Text of an element that is not known, inside a Property of text. -/
def childTextEvents : List XmlEvent :=
  unitEvents [] (xisfElement "Property" [("id", "Outer"), ("type", "String")]
    (.characterData (lit "x") :: xisfElement "Unknown" [] [.characterData (lit "y")]))

def childText : AcceptedHeader {} (reporting childTextEvents) :=
  acceptedHeader childTextEvents (by decide +kernel) (by decide +kernel)

/-- The Property has the text of the other element in its value. -/
theorem childText_notAttributed : ¬ TextAttributed childText := by
  intro attributed
  have stored : (childText.parsed.document.metadata[2]?).map MetadataEntry.value =
      some (lit "xy") := by decide +kernel
  have content : ((childText.outline.ofKind isEntry)[2]?).map
      (fun element => (isTextTag element.tag, element.content)) = some (true, lit "x") := by
    decide +kernel
  obtain ⟨entry, there, value⟩ := Option.map_eq_some_iff.mp stored
  obtain ⟨element, there', holds⟩ := attributed.properties.get there
  rw [there', Option.map_some, Option.some.injEq, Prod.mk.injEq] at content
  have same := holds.value content.1
  rw [value, content.2] at same
  exact absurd same (by decide)

end Mmxisf.Reader
