/-
# Reader.ParserRun -- the shape of the parser through a whole run

End tags, text and declarations keep the `Shape` that start tags build up
(`preserved_shape`), so it holds after any sequence of events that the handlers
accept and that is well nested.  Any other invariant of the parser is proved the
same way: `Preserved` says what each kind of event has to keep, and
`ParserRun.holds` that it then holds after every run.
-/
import Mmxisf.Reader.EncodedText
import Mmxisf.Reader.Shape

namespace Mmxisf.Reader

set_option autoImplicit false

section

variable {options : ReaderOptions} {platform : Platform} {outline : HeaderOutline}
  {state state' closed : XmlBuilder} {top : HeaderFrame} {below : List HeaderFrame}

/-! ## An end tag -/

/-- The kinds that closing has a branch for. -/
def closedKinds : List ElementKind :=
  [.data, .iccProfile, .property, .cell, .row, .tableStructure, .table, .thumbnail, .image]

theorem closedKinds_of_unhandled {tag : XmlTag}
    (unknown : tag.isXisf = true → tag.name ∉ closedNames) :
    ∀ kind ∈ closedKinds, tag.kind ≠ kind := by
  have known : ∀ kind ∈ closedKinds, kind ∈ ElementKind.named ∧ kind.name ∈ closedNames := by
    decide
  intro kind member same
  obtain ⟨isNamed, inside⟩ := known kind member
  obtain ⟨isXisf, name⟩ := (XmlTag.kind_eq isNamed).mp same
  exact unknown isXisf (name ▸ inside)

/-- Closing leaves the stacks and the vectors. -/
theorem Stacked.close (stacked : Stacked outline state) {isXisf : Bool} {name : Text}
    (close : Closed state isXisf name closed) : Stacked outline.finish (popElement closed) := by
  obtain ⟨coherent, placed, depth, elementStack, qualified, extensionStack, extensions⟩ := stacked
  have popped : Stacked outline.finish (popElement state) := by
    refine ⟨coherent.finish, placed, ?_, ?_, ?_, ?_, extensions⟩
    · show state.depth - 1 = outline.opened.tail.length
      rw [depth, List.length_tail]
    · exact (congrArg List.tail elementStack).trans List.map_tail.symm
    · exact (congrArg List.tail qualified).trans List.map_tail.symm
    · exact (congrArg List.tail extensionStack).trans List.map_tail.symm
  obtain ⟨coherent', placed', depth', elementStack', qualified', extensionStack', extensions'⟩ :=
    popped
  cases close <;> exact ⟨coherent', placed', depth', elementStack', qualified', extensionStack',
    extensions'⟩

theorem Counted.close (counted : Counted outline state) {isXisf : Bool} {name : Text}
    (close : Closed state isXisf name closed) : Counted outline.finish (popElement closed) := by
  obtain ⟨images, embedded, seen, metadata, inlineMetadata, profiles, inlineProfiles, thumbnails,
    thumbnailBlocks, thumbnailSeen, ancillary, tables, structures⟩ := counted
  cases close <;> exact ⟨images, embedded, seen, metadata, inlineMetadata, profiles,
    inlineProfiles, thumbnails, thumbnailBlocks, thumbnailSeen, ancillary, tables, structures⟩

/-- No element of the kind stays open when one of it ends. -/
theorem openIndex_finish_same (opened : outline.opened = top :: below) {kind : ElementKind}
    (place : HasPlace top.tag.kind (pathKinds below)) (same : top.tag.kind = kind)
    (member : kind ∈ ElementKind.named) {allowed : List (List ElementKind)}
    (fixed : allowedPaths kind = some allowed) :
    outline.finish.openIndex (isKind kind) = none := by
  refine openIndex_of_path ?_
  rw [Library.Outline.finish_opened, opened, List.tail_cons]
  rw [same] at place
  exact not_nested kind member allowed fixed _ (place.known allowed fixed)

/-- What is open below an element that stands in one of these places. -/
theorem openIndex_finish_below (opened : outline.opened = top :: below) (kind : ElementKind)
    {allowed : List (List ElementKind)} (inside : pathKinds below ∈ allowed)
    (outside : ∀ path ∈ allowed, kind ∉ path) :
    outline.finish.openIndex (isKind kind) = none := by
  refine openIndex_of_path ?_
  rw [Library.Outline.finish_opened, opened, List.tail_cons]
  exact outside _ inside

theorem openIndex_finish (opened : outline.opened = top :: below) {kind : ElementKind}
    (other : top.tag.kind ≠ kind) :
    outline.finish.openIndex (isKind kind) = outline.openIndex (isKind kind) :=
  Library.Outline.openIndex_finish_other opened (decide_eq_false other)

/-- An element that no index is about ends. -/
theorem Opens.close_other (opens : Opens outline state) (opened : outline.opened = top :: below)
    (other : ∀ kind ∈ [ElementKind.image, .thumbnail, .table, .tableStructure, .row, .cell],
      top.tag.kind ≠ kind) :
    Opens outline.finish (popElement state) := by
  obtain ⟨image, thumbnail, table, tableStructure, row, cell, lastTable, lastRow, lastCell⟩ := opens
  have kept := fun kind member => openIndex_finish opened (other kind member)
  refine ⟨?_, ?_, ?_, ?_, ?_, ?_, lastTable, lastRow, lastCell⟩
  · rw [kept .image (by decide)]
    exact image
  · rw [kept .thumbnail (by decide)]
    exact thumbnail
  · rw [kept .table (by decide)]
    exact table
  · rw [kept .tableStructure (by decide)]
    exact tableStructure
  · rw [kept .row (by decide)]
    exact row
  · rw [kept .cell (by decide)]
    exact cell

theorem Opens.close (opens : Opens outline state) (opened : outline.opened = top :: below)
    (place : HasPlace top.tag.kind (pathKinds below))
    (close : Closed state top.tag.isXisf top.tag.name closed) :
    Opens outline.finish (popElement closed) := by
  have other := opens.close_other opened
  obtain ⟨image, thumbnail, table, tableStructure, row, cell, lastTable, lastRow, lastCell⟩ := opens
  cases close with
  | unhandled unknown =>
      have others := closedKinds_of_unhandled unknown
      refine other fun kind member => others kind ?_
      revert kind
      decide
  | data xisf named complete =>
      have kind := kind_of_name .data (by decide) xisf named
      obtain ⟨image, thumbnail, table, tableStructure, row, cell, lastTable, lastRow, lastCell⟩ :=
        other (by rw [kind]; decide)
      exact ⟨image, thumbnail, table, tableStructure, row, cell, lastTable, lastRow, lastCell⟩
  | iccProfile xisf named attached =>
      have kind := kind_of_name .iccProfile (by decide) xisf named
      exact other (by rw [kind]; decide)
  | inlineIccProfile xisf named inside complete =>
      have kind := kind_of_name .iccProfile (by decide) xisf named
      obtain ⟨image, thumbnail, table, tableStructure, row, cell, lastTable, lastRow, lastCell⟩ :=
        other (by rw [kind]; decide)
      exact ⟨image, thumbnail, table, tableStructure, row, cell, lastTable, lastRow, lastCell⟩
  | property xisf named attached =>
      have kind := kind_of_name .property (by decide) xisf named
      obtain ⟨image, thumbnail, table, tableStructure, row, cell, lastTable, lastRow, lastCell⟩ :=
        other (by rw [kind]; decide)
      exact ⟨image, thumbnail, table, tableStructure, row, cell, lastTable, lastRow, lastCell⟩
  | inlineProperty xisf named inside complete =>
      have kind := kind_of_name .property (by decide) xisf named
      obtain ⟨image, thumbnail, table, tableStructure, row, cell, lastTable, lastRow, lastCell⟩ :=
        other (by rw [kind]; decide)
      exact ⟨image, thumbnail, table, tableStructure, row, cell, lastTable, lastRow, lastCell⟩
  | cell xisf named =>
      have kind := kind_of_name .cell (by decide) xisf named
      have kept (kind' : ElementKind) (apart : .cell ≠ kind') :=
        openIndex_finish opened (kind ▸ apart)
      have none := openIndex_finish_same opened place kind (by decide) rfl
      refine ⟨?_, ?_, ?_, ?_, ?_, ?_, lastTable, lastRow, nofun⟩
      · rw [kept .image (by decide)]
        exact image
      · rw [kept .thumbnail (by decide)]
        exact thumbnail
      · rw [kept .table (by decide)]
        exact table
      · rw [kept .tableStructure (by decide)]
        exact tableStructure
      · rw [kept .row (by decide)]
        exact row
      · rw [none]
        rfl
  | row xisf named t r inTable inRow some =>
      have kind := kind_of_name .row (by decide) xisf named
      have kept (kind' : ElementKind) (apart : .row ≠ kind') :=
        openIndex_finish opened (kind ▸ apart)
      have none := openIndex_finish_same opened place kind (by decide) rfl
      have places : pathKinds below ∈ tablePaths := by
        rw [kind] at place
        exact place.known _ rfl
      have noCell := openIndex_finish_below opened .cell places (by decide)
      have cellOpen := kept .cell (by decide)
      rw [← cellOpen, noCell] at cell
      refine ⟨?_, ?_, ?_, ?_, ?_, ?_, lastTable, nofun, ?_⟩
      · rw [kept .image (by decide)]
        exact image
      · rw [kept .thumbnail (by decide)]
        exact thumbnail
      · rw [kept .table (by decide)]
        exact table
      · rw [kept .tableStructure (by decide)]
        exact tableStructure
      · rw [none]
        rfl
      · rw [noCell]
        exact cell
      · intro c impossible
        have open_ : state.openTableCellIndex = .some c := impossible
        rw [open_] at cell
        cases cell
  | tableStructure xisf named index inside some =>
      have kind := kind_of_name .tableStructure (by decide) xisf named
      have kept (kind' : ElementKind) (apart : .tableStructure ≠ kind') :=
        openIndex_finish opened (kind ▸ apart)
      have none := openIndex_finish_same opened place kind (by decide) rfl
      refine ⟨?_, ?_, ?_, none.symm, ?_, ?_, lastTable, lastRow, lastCell⟩
      · rw [kept .image (by decide)]
        exact image
      · rw [kept .thumbnail (by decide)]
        exact thumbnail
      · rw [kept .table (by decide)]
        exact table
      · rw [kept .row (by decide)]
        exact row
      · rw [kept .cell (by decide)]
        exact cell
  | table xisf named =>
      have kind := kind_of_name .table (by decide) xisf named
      have kept (kind' : ElementKind) (apart : .table ≠ kind') :=
        openIndex_finish opened (kind ▸ apart)
      have none := openIndex_finish_same opened place kind (by decide) rfl
      have places : pathKinds below ∈ objectPaths := by
        rw [kind] at place
        exact place.known _ rfl
      have noRow := openIndex_finish_below opened .row places (by decide)
      have noCell := openIndex_finish_below opened .cell places (by decide)
      have rowOpen := kept .row (by decide)
      have cellOpen := kept .cell (by decide)
      rw [← rowOpen, noRow] at row
      rw [← cellOpen, noCell] at cell
      refine ⟨?_, ?_, none.symm, ?_, ?_, ?_, nofun, ?_, ?_⟩
      · rw [kept .image (by decide)]
        exact image
      · rw [kept .thumbnail (by decide)]
        exact thumbnail
      · rw [kept .tableStructure (by decide)]
        exact tableStructure
      · rw [noRow]
        exact row
      · rw [noCell]
        exact cell
      · intro r impossible
        have open_ : state.openTableRowIndex = .some r := impossible
        rw [open_] at row
        cases row
      · intro c impossible
        have open_ : state.openTableCellIndex = .some c := impossible
        rw [open_] at cell
        cases cell
  | thumbnail xisf named =>
      have kind := kind_of_name .thumbnail (by decide) xisf named
      have kept (kind' : ElementKind) (apart : .thumbnail ≠ kind') :=
        openIndex_finish opened (kind ▸ apart)
      have none := openIndex_finish_same opened place kind (by decide) rfl
      refine ⟨?_, none.symm, ?_, ?_, ?_, ?_, lastTable, lastRow, lastCell⟩
      · rw [kept .image (by decide)]
        exact image
      · rw [kept .table (by decide)]
        exact table
      · rw [kept .tableStructure (by decide)]
        exact tableStructure
      · rw [kept .row (by decide)]
        exact row
      · rw [kept .cell (by decide)]
        exact cell
  | image xisf named =>
      have kind := kind_of_name .image (by decide) xisf named
      have kept (kind' : ElementKind) (apart : .image ≠ kind') :=
        openIndex_finish opened (kind ▸ apart)
      have none := openIndex_finish_same opened place kind (by decide) rfl
      refine ⟨?_, ?_, ?_, ?_, ?_, ?_, lastTable, lastRow, lastCell⟩
      · show state.imageStack.tail = _
        rw [none, image]
        cases outline.openIndex (isKind .image) <;> rfl
      · rw [kept .thumbnail (by decide)]
        exact thumbnail
      · rw [kept .table (by decide)]
        exact table
      · rw [kept .tableStructure (by decide)]
        exact tableStructure
      · rw [kept .row (by decide)]
        exact row
      · rw [kept .cell (by decide)]
        exact cell

theorem dataIndex_of_top (opened : outline.opened = top :: below) (kind : ElementKind)
    (other : top.tag.kind ≠ .data) : dataIndex outline kind = none := by
  rw [dataIndex, opened]
  cases below with
  | nil => rfl
  | cons owner rest => simp [other]

theorem innermostIndex_of_top (opened : outline.opened = top :: below) {innermost : XmlTag → Bool}
    (kind : XmlTag → Bool) (other : innermost top.tag = false) :
    innermostIndex outline innermost kind = none := by
  simp [innermostIndex, opened, other]

/-- Where no encoded block is open, four indices are none. -/
theorem encodes_of_none (none_open : ∀ frame ∈ outline.opened, isEncoded frame.tag = false)
    (closed : isEncodedBlockOpen state = false)
    (text : ∀ entry, state.textMetadataIndex = some entry → entry < state.metadata.length) :
    Encodes outline state := by
  obtain ⟨noImage, noProperty, noIccProfile, noThumbnail⟩ := isEncodedBlockOpen_false.mp closed
  cases opened : outline.opened with
  | nil =>
      refine ⟨?_, ?_, ?_, ?_, by simp [opened], text⟩ <;>
        simp [dataIndex, innermostIndex, opened, noImage, noProperty, noIccProfile, noThumbnail]
  | cons top below =>
      have plain := none_open top (by simp [opened])
      simp only [isEncoded, Bool.or_eq_false_iff, decide_eq_false_iff_not] at plain
      obtain ⟨⟨notData, notProperty⟩, notIccProfile⟩ := plain
      refine ⟨?_, ?_, ?_, ?_, fun frame member => ?_, text⟩
      · rw [noImage, dataIndex_of_top opened _ notData]
      · rw [noThumbnail, dataIndex_of_top opened _ notData]
      · rw [noProperty, innermostIndex_of_top opened _ notProperty]
      · rw [noIccProfile, innermostIndex_of_top opened _ notIccProfile]
      · exact none_open frame (List.mem_of_mem_tail member)

/-- Every element that may have an encoded block closes it. -/
theorem Encodes.close_none (encodes : Encodes outline state)
    (opened : outline.opened = top :: below)
    (close : Closed state top.tag.isXisf top.tag.name closed) :
    isEncodedBlockOpen closed = false := by
  obtain ⟨image, thumbnail, property, iccProfile, -, -⟩ := encodes
  have noData := fun kind (other : top.tag.kind ≠ .data) => dataIndex_of_top opened kind other
  have noProperty (other : top.tag.kind ≠ .property) : state.inlineMetadataIndex = none := by
    rw [property, innermostIndex_of_top opened _ (by simp [isInlineProperty, other])]
  have noIccProfile (other : top.tag.kind ≠ .iccProfile) : state.inlineIccProfileIndex = none := by
    rw [iccProfile, innermostIndex_of_top opened _ (by simp [isInlineIccProfile, other])]
  have plain (other : ∀ kind ∈ [ElementKind.data, .property, .iccProfile], top.tag.kind ≠ kind) :
      isEncodedBlockOpen state = false := by
    simp only [List.mem_cons, List.not_mem_nil, or_false, forall_eq_or_imp, forall_eq] at other
    rw [isEncodedBlockOpen_false, image, thumbnail]
    exact ⟨noData _ other.1, noProperty other.2.1, noIccProfile other.2.2, noData _ other.1⟩
  cases close with
  | unhandled unknown =>
      have others := closedKinds_of_unhandled unknown
      refine plain fun kind member => others kind ?_
      revert kind
      decide
  | data xisf named complete =>
      have kind := kind_of_name .data (by decide) xisf named
      rw [isEncodedBlockOpen_false]
      exact ⟨rfl, noProperty (by simp [kind]), noIccProfile (by simp [kind]), rfl⟩
  | iccProfile xisf named attached =>
      have kind := kind_of_name .iccProfile (by decide) xisf named
      rw [isEncodedBlockOpen_false, image, thumbnail]
      exact ⟨noData _ (by simp [kind]), noProperty (by simp [kind]), attached,
        noData _ (by simp [kind])⟩
  | inlineIccProfile xisf named inside complete =>
      have kind := kind_of_name .iccProfile (by decide) xisf named
      rw [isEncodedBlockOpen_false]
      exact ⟨image.trans (noData _ (by simp [kind])), noProperty (by simp [kind]), rfl,
        thumbnail.trans (noData _ (by simp [kind]))⟩
  | property xisf named attached =>
      have kind := kind_of_name .property (by decide) xisf named
      rw [isEncodedBlockOpen_false]
      exact ⟨image.trans (noData _ (by simp [kind])), attached, noIccProfile (by simp [kind]),
        thumbnail.trans (noData _ (by simp [kind]))⟩
  | inlineProperty xisf named inside complete =>
      have kind := kind_of_name .property (by decide) xisf named
      rw [isEncodedBlockOpen_false]
      exact ⟨image.trans (noData _ (by simp [kind])), rfl, noIccProfile (by simp [kind]),
        thumbnail.trans (noData _ (by simp [kind]))⟩
  | cell xisf named => exact plain (by rw [kind_of_name .cell (by decide) xisf named]; decide)
  | row xisf named => exact plain (by rw [kind_of_name .row (by decide) xisf named]; decide)
  | tableStructure xisf named =>
      exact plain (by rw [kind_of_name .tableStructure (by decide) xisf named]; decide)
  | table xisf named => exact plain (by rw [kind_of_name .table (by decide) xisf named]; decide)
  | thumbnail xisf named =>
      exact plain (by rw [kind_of_name .thumbnail (by decide) xisf named]; decide)
  | image xisf named => exact plain (by rw [kind_of_name .image (by decide) xisf named]; decide)

theorem Encodes.close (encodes : Encodes outline state) (opened : outline.opened = top :: below)
    (close : Closed state top.tag.isXisf top.tag.name closed) :
    Encodes outline.finish (popElement closed) := by
  have closedNone := encodes.close_none opened close
  have text := encodes.text
  refine encodes_of_none ?_ closedNone ?_
  · intro frame member
    exact encodes.leaf frame member
  · cases close <;> first | exact text | exact nofun

theorem Shape.close (shape : Shape outline state) (opened : outline.opened = top :: below)
    (close : Closed state top.tag.isXisf top.tag.name closed) :
    Shape outline.finish (popElement closed) :=
  ⟨shape.stacked.close close, shape.counted.close close,
    shape.opens.close opened (shape.stacked.top opened) close, shape.encodes.close opened close⟩

/-! ## Text -/

/-- Characters directly in an element change no place and no position. -/
theorem Shape.append (shape : Shape outline state) (text : Text) :
    Shape (outline.append text) state := by
  obtain ⟨stacked, counted, opens, encodes⟩ := shape
  obtain ⟨coherent, placed, depth, elementStack, qualified, extensionStack, extensions⟩ := stacked
  obtain ⟨images, embedded, seen, metadata, inlineMetadata, profiles, inlineProfiles, thumbnails,
    thumbnailBlocks, thumbnailSeen, ancillary, tables, structures⟩ := counted
  obtain ⟨image, thumbnail, table, tableStructure, row, cell, lastTable, lastRow, lastCell⟩ := opens
  obtain ⟨inImage, inThumbnail, inProperty, inIccProfile, leaf, inRange⟩ := encodes
  have extensionIndex_append : extensionIndex (outline.append text) = extensionIndex outline := by
    funext frame
    simp only [extensionIndex, Library.Outline.rank_append]
  have dataIndex_append (kind : ElementKind) :
      dataIndex (outline.append text) kind = dataIndex outline kind := by
    simp only [dataIndex, Library.Outline.append_opened, Library.Outline.rank_append]
  have innermostIndex_append (innermost kind : XmlTag → Bool) :
      innermostIndex (outline.append text) innermost kind =
        innermostIndex outline innermost kind := by
    simp only [innermostIndex, Library.Outline.append_opened, Library.Outline.rank_append]
  refine ⟨⟨coherent.append text, ?_, ?_, ?_, ?_, ?_, ?_⟩, ⟨?_, embedded, seen, ?_, inlineMetadata,
    ?_, inlineProfiles, ?_, thumbnailBlocks, thumbnailSeen, ?_, ?_, ?_⟩, ⟨?_, ?_, ?_, ?_, ?_, ?_,
    lastTable, lastRow, lastCell⟩, ⟨?_, ?_, ?_, ?_, ?_, inRange⟩⟩
  · intro element member
    obtain ⟨old, inside, frame, around⟩ := Library.Outline.exists_of_mem_append member
    have tag : element.tag = old.tag := congrArg Library.Frame.tag frame
    rw [tag, around]
    exact placed old inside
  all_goals simp only [Library.Outline.append_opened, Library.Outline.length_ofKind_append,
    Library.Outline.openIndex_append, extensionIndex_append, dataIndex_append,
    innermostIndex_append]
  all_goals assumption

theorem rowCount_modifyRows (tables : List TableInfo) (i row table : Nat)
    (change : TableRowInfo → TableRowInfo) :
    rowCount (tables.modify i fun info => modifyRows info row change) table =
      rowCount tables table := by
  refine rowCount_modify ?_ i table
  exact fun _ => List.length_modify ..

/-- Text in a Cell changes no number of cells. -/
theorem cellCount_modifyRows (tables : List TableInfo) (i row table row' : Nat)
    (change : TableRowInfo → TableRowInfo)
    (same : ∀ info, (change info).cells.length = info.cells.length) :
    cellCount (tables.modify i fun info => modifyRows info row change) table row' =
      cellCount tables table row' := by
  refine cellCount_modify ?_ i table row'
  intro info r
  simp only [modifyRows, List.getElem?_modify]
  cases info.rows[r]? with
  | none => rfl
  | some found => by_cases here : row = r <;> simp [here, same]

theorem Shape.addBytes (shape : Shape outline state) (bytes : Bytes) :
    Shape outline (addBytes state bytes) := by
  obtain ⟨stacked, counted, opens, encodes⟩ := shape
  obtain ⟨coherent, placed, depth, elementStack, qualified, extensionStack, extensions⟩ := stacked
  obtain ⟨images, embedded, seen, metadata, inlineMetadata, profiles, inlineProfiles, thumbnails,
    thumbnailBlocks, thumbnailSeen, ancillary, tables, structures⟩ := counted
  obtain ⟨image, thumbnail, table, tableStructure, row, cell, lastTable, lastRow, lastCell⟩ := opens
  obtain ⟨inImage, inThumbnail, inProperty, inIccProfile, leaf, inRange⟩ := encodes
  unfold Reader.addBytes
  split
  all_goals
    refine ⟨⟨coherent, placed, depth, elementStack, qualified, extensionStack, extensions⟩,
      ⟨images, ?_, seen, metadata, ?_, profiles, ?_, thumbnails, ?_, thumbnailSeen, ancillary,
        tables, structures⟩,
      ⟨image, thumbnail, table, tableStructure, row, cell, lastTable, lastRow, lastCell⟩,
      ⟨inImage, inThumbnail, inProperty, inIccProfile, leaf, inRange⟩⟩ <;>
      simp only [List.length_modify, embedded, inlineMetadata, inlineProfiles, thumbnailBlocks]

theorem Shape.withDecoder (shape : Shape outline state) (decoder : Decoder) (count : Nat) :
    Shape outline (withDecoder state decoder count) := by
  obtain ⟨stacked, counted, opens, encodes⟩ := shape
  obtain ⟨coherent, placed, depth, elementStack, qualified, extensionStack, extensions⟩ := stacked
  obtain ⟨images, embedded, seen, metadata, inlineMetadata, profiles, inlineProfiles, thumbnails,
    thumbnailBlocks, thumbnailSeen, ancillary, tables, structures⟩ := counted
  obtain ⟨image, thumbnail, table, tableStructure, row, cell, lastTable, lastRow, lastCell⟩ := opens
  obtain ⟨inImage, inThumbnail, inProperty, inIccProfile, leaf, inRange⟩ := encodes
  exact ⟨⟨coherent, placed, depth, elementStack, qualified, extensionStack, extensions⟩,
    ⟨images, embedded, seen, metadata, inlineMetadata, profiles, inlineProfiles, thumbnails,
      thumbnailBlocks, thumbnailSeen, ancillary, tables, structures⟩,
    ⟨image, thumbnail, table, tableStructure, row, cell, lastTable, lastRow, lastCell⟩,
    ⟨inImage, inThumbnail, inProperty, inIccProfile, leaf, inRange⟩⟩

theorem Shape.addCellText (shape : Shape outline state) (place : Nat × Nat × Nat) (text : Text) :
    Shape outline (addCellText state place text) := by
  obtain ⟨stacked, counted, opens, encodes⟩ := shape
  obtain ⟨coherent, placed, depth, elementStack, qualified, extensionStack, extensions⟩ := stacked
  obtain ⟨images, embedded, seen, metadata, inlineMetadata, profiles, inlineProfiles, thumbnails,
    thumbnailBlocks, thumbnailSeen, ancillary, tables, structures⟩ := counted
  obtain ⟨image, thumbnail, table, tableStructure, row, cell, lastTable, lastRow, lastCell⟩ := opens
  obtain ⟨inImage, inThumbnail, inProperty, inIccProfile, leaf, inRange⟩ := encodes
  refine ⟨⟨coherent, placed, depth, elementStack, qualified, extensionStack, extensions⟩,
    ⟨images, embedded, seen, metadata, inlineMetadata, profiles, inlineProfiles, thumbnails,
      thumbnailBlocks, thumbnailSeen, ancillary, (List.length_modify ..).trans tables, structures⟩,
    ⟨image, thumbnail, table, tableStructure, row, cell, ?_, ?_, ?_⟩,
    ⟨inImage, inThumbnail, inProperty, inIccProfile, leaf, inRange⟩⟩
  · intro t open_
    rw [lastTable t open_]
    exact (List.length_modify ..).symm
  · intro r open_
    obtain ⟨t, inTable, counts⟩ := lastRow r open_
    exact ⟨t, inTable, (rowCount_modifyRows ..).trans counts⟩
  · intro c open_
    obtain ⟨t, r, inTable, inRow, counts⟩ := lastCell c open_
    refine ⟨t, r, inTable, inRow, Eq.trans ?_ counts⟩
    exact cellCount_modifyRows _ _ _ _ _ _ fun _ => List.length_modify ..

theorem Shape.extensionText (shape : Shape outline state) (used index : Nat)
    (change : ExtensionElement → ExtensionElement) :
    Shape outline { state with
      extensionBytes := used
      extensionElements := state.extensionElements.modify index change } := by
  obtain ⟨stacked, counted, opens, encodes⟩ := shape
  obtain ⟨coherent, placed, depth, elementStack, qualified, extensionStack, extensions⟩ := stacked
  obtain ⟨images, embedded, seen, metadata, inlineMetadata, profiles, inlineProfiles, thumbnails,
    thumbnailBlocks, thumbnailSeen, ancillary, tables, structures⟩ := counted
  obtain ⟨image, thumbnail, table, tableStructure, row, cell, lastTable, lastRow, lastCell⟩ := opens
  obtain ⟨inImage, inThumbnail, inProperty, inIccProfile, leaf, inRange⟩ := encodes
  exact ⟨⟨coherent, placed, depth, elementStack, qualified, extensionStack,
      (List.length_modify ..).trans extensions⟩,
    ⟨images, embedded, seen, metadata, inlineMetadata, profiles, inlineProfiles, thumbnails,
      thumbnailBlocks, thumbnailSeen, ancillary, tables, structures⟩,
    ⟨image, thumbnail, table, tableStructure, row, cell, lastTable, lastRow, lastCell⟩,
    ⟨inImage, inThumbnail, inProperty, inIccProfile, leaf, inRange⟩⟩

theorem Shape.propertyText (shape : Shape outline state) (index : Nat)
    (change : MetadataEntry → MetadataEntry) :
    Shape outline { state with metadata := state.metadata.modify index change } := by
  obtain ⟨stacked, counted, opens, encodes⟩ := shape
  obtain ⟨coherent, placed, depth, elementStack, qualified, extensionStack, extensions⟩ := stacked
  obtain ⟨images, embedded, seen, metadata, inlineMetadata, profiles, inlineProfiles, thumbnails,
    thumbnailBlocks, thumbnailSeen, ancillary, tables, structures⟩ := counted
  obtain ⟨image, thumbnail, table, tableStructure, row, cell, lastTable, lastRow, lastCell⟩ := opens
  obtain ⟨inImage, inThumbnail, inProperty, inIccProfile, leaf, inRange⟩ := encodes
  refine ⟨⟨coherent, placed, depth, elementStack, qualified, extensionStack, extensions⟩,
    ⟨images, embedded, seen, (List.length_modify ..).trans metadata,
      inlineMetadata.trans (List.length_modify ..).symm, profiles, inlineProfiles, thumbnails,
      thumbnailBlocks, thumbnailSeen, ancillary, tables, structures⟩,
    ⟨image, thumbnail, table, tableStructure, row, cell, lastTable, lastRow, lastCell⟩,
    ⟨inImage, inThumbnail, inProperty, inIccProfile, leaf, fun entry open_ => ?_⟩⟩
  rw [List.length_modify]
  exact inRange entry open_

theorem Shape.text (shape : Shape outline state) {text : Text}
    (taken : TextTaken options state text state') : Shape (outline.append text) state' := by
  refine Shape.append ?_ text
  cases taken with
  | empty => exact shape
  | encoded state' inside run =>
      obtain ⟨decoder, bytes, -, -, added, count, ⟨-, rfl⟩, rfl⟩ := decodeEmbeddedText_eq run
      exact (shape.addBytes bytes).withDecoder decoder count
  | cell outside place inside accepts within => exact shape.addCellText place text
  | cellSpace => exact shape
  | extension outside noCell index inside within => exact shape.extensionText ..
  | property outside noCell known index inside within => exact shape.propertyText ..
  | stray => exact shape

/-! ## A run -/

theorem shape_empty : Shape {} {} := by
  refine ⟨⟨Library.Outline.coherent_empty, ?_, rfl, rfl, rfl, rfl, rfl⟩, ⟨rfl, rfl, rfl, rfl, rfl,
    rfl, rfl, rfl, rfl, rfl, rfl, rfl, rfl⟩, ⟨rfl, rfl, rfl, rfl, rfl, rfl, nofun, nofun, nofun⟩,
    ⟨rfl, rfl, rfl, rfl, ?_, nofun⟩⟩
  · intro element member
    cases member
  · intro frame member
    cases member

theorem Shape.declared (shape : Shape outline state) :
    Shape outline { state with sawXmlDeclaration := true } := by
  obtain ⟨stacked, counted, opens, encodes⟩ := shape
  obtain ⟨coherent, placed, depth, elementStack, qualified, extensionStack, extensions⟩ := stacked
  obtain ⟨images, embedded, seen, metadata, inlineMetadata, profiles, inlineProfiles, thumbnails,
    thumbnailBlocks, thumbnailSeen, ancillary, tables, structures⟩ := counted
  obtain ⟨image, thumbnail, table, tableStructure, row, cell, lastTable, lastRow, lastCell⟩ := opens
  obtain ⟨inImage, inThumbnail, inProperty, inIccProfile, leaf, inRange⟩ := encodes
  exact ⟨⟨coherent, placed, depth, elementStack, qualified, extensionStack, extensions⟩,
    ⟨images, embedded, seen, metadata, inlineMetadata, profiles, inlineProfiles, thumbnails,
      thumbnailBlocks, thumbnailSeen, ancillary, tables, structures⟩,
    ⟨image, thumbnail, table, tableStructure, row, cell, lastTable, lastRow, lastCell⟩,
    ⟨inImage, inThumbnail, inProperty, inIccProfile, leaf, inRange⟩⟩

/-- What every event preserves, beside the shape of the parser. -/
structure Preserved (options : ReaderOptions) (platform : Platform)
    (holds : HeaderOutline → XmlBuilder → Prop) : Prop where
  empty : holds {} {}
  declared : ∀ {outline state}, holds outline state →
    holds outline { state with sawXmlDeclaration := true }
  start : ∀ {outline state state' tag}, Shape outline state → holds outline state →
    Started options platform state (tag.context (parentName outline)) state' →
      holds (outline.start tag) state'
  close : ∀ {outline state closed top below}, Shape outline state → holds outline state →
    outline.opened = top :: below → Closed state top.tag.isXisf top.tag.name closed →
      holds outline.finish (popElement closed)
  text : ∀ {outline state state' text}, Shape outline state → holds outline state →
    TextTaken options state text state' → holds (outline.append text) state'

/-- The same, where text is known to be allowed where it stands. -/
structure PreservedWhen (options : ReaderOptions) (platform : Platform)
    (allowed : HeaderOutline → Text → Prop) (holds : HeaderOutline → XmlBuilder → Prop) : Prop where
  empty : holds {} {}
  declared : ∀ {outline state}, holds outline state →
    holds outline { state with sawXmlDeclaration := true }
  start : ∀ {outline state state' tag}, Shape outline state → holds outline state →
    Started options platform state (tag.context (parentName outline)) state' →
      holds (outline.start tag) state'
  close : ∀ {outline state closed top below}, Shape outline state → holds outline state →
    outline.opened = top :: below → Closed state top.tag.isXisf top.tag.name closed →
      holds outline.finish (popElement closed)
  text : ∀ {outline state state' text}, Shape outline state → holds outline state →
    allowed outline text → TextTaken options state text state' →
      holds (outline.append text) state'

theorem Preserved.always {holds : HeaderOutline → XmlBuilder → Prop}
    (preserved : Preserved options platform holds) :
    PreservedWhen options platform (fun _ _ => True) holds :=
  ⟨preserved.empty, preserved.declared, preserved.start, preserved.close,
    fun shape before _ taken => preserved.text shape before taken⟩

theorem PreservedWhen.event {allowed : HeaderOutline → Text → Prop}
    {holds : HeaderOutline → XmlBuilder → Prop}
    (preserved : PreservedWhen options platform allowed holds) (shape : Shape outline state)
    (before : holds outline state) {event : XmlEvent} {next : HeaderOutline}
    (run : handleEvent options platform state event = .ok state')
    (nested : follow outline event = some next)
    (inPlace : ∀ text, event = .characterData text → allowed outline text) : holds next state' := by
  cases event with
  | declaration version encoding standalone =>
      simp only [follow, Option.some.injEq] at nested
      simp only [handleEvent, xmlDeclaration, bind_eq_ok, pure, Except.pure,
        Except.ok.injEq] at run
      obtain ⟨-, -, -, -, -, -, rfl⟩ := run
      subst nested
      exact preserved.declared before
  | doctype => cases run
  | startElement name attributes =>
      simp only [follow, Option.some.injEq] at nested
      subst nested
      have started := startElement_eq run
      rw [shape.stacked.context] at started
      exact preserved.start shape before started
  | endElement name =>
      obtain ⟨closed, close, rfl⟩ := endElement_eq run
      unfold follow at nested
      cases opened : outline.opened with
      | nil => simp [opened] at nested
      | cons top below =>
          simp only [opened] at nested
          split at nested
          · rename_i same
            cases nested
            rw [← same.1, ← same.2] at close
            exact preserved.close shape before opened close
          · cases nested
  | characterData text =>
      simp only [follow, Option.some.injEq] at nested
      subst nested
      exact preserved.text shape before (inPlace text rfl) (characterData_eq run)

theorem preserved_shape : Preserved options platform Shape where
  empty := shape_empty
  declared := Shape.declared
  start _ shape started := shape.start started
  close _ shape opened close := shape.close opened close
  text _ shape taken := shape.text taken

theorem handleEvents_append (first second : List XmlEvent) :
    handleEvents options platform state (first ++ second) =
      handleEvents options platform state first >>= fun middle =>
        handleEvents options platform middle second := by
  induction first generalizing state with
  | nil => rfl
  | cons event rest ih =>
      rw [List.cons_append, handleEvents, handleEvents]
      cases handleEvent options platform state event with
      | error e => rfl
      | ok next => exact ih

theorem followAll_append (first second : List XmlEvent) :
    followAll outline (first ++ second) =
      (followAll outline first).bind fun middle => followAll middle second := by
  induction first generalizing outline with
  | nil => rfl
  | cons event rest ih =>
      rw [List.cons_append, followAll, followAll]
      cases follow outline event with
      | none => rfl
      | some next => exact ih

/-- All text of the events is allowed where it stands. -/
def TextsAllowed (allowed : HeaderOutline → Text → Prop) (outline : HeaderOutline)
    (events : List XmlEvent) : Prop :=
  ∀ before text after last, events = before ++ .characterData text :: after →
    followAll outline before = some last → allowed last text

theorem TextsAllowed.tail {allowed : HeaderOutline → Text → Prop} {event : XmlEvent}
    {rest : List XmlEvent} {next : HeaderOutline}
    (inPlace : TextsAllowed allowed outline (event :: rest))
    (following : follow outline event = some next) : TextsAllowed allowed next rest := by
  intro before text after last split nested
  refine inPlace (event :: before) text after last (by rw [split]; rfl) ?_
  rw [followAll, following]
  exact nested

/-- From one event to all of them. -/
theorem PreservedWhen.run {allowed : HeaderOutline → Text → Prop}
    {holds : HeaderOutline → XmlBuilder → Prop}
    (preserved : PreservedWhen options platform allowed holds) {events : List XmlEvent}
    (shape : Shape outline state) (before : holds outline state) {last : HeaderOutline}
    (run : handleEvents options platform state events = .ok state')
    (nested : followAll outline events = some last)
      (inPlace : TextsAllowed allowed outline events) :
    Shape last state' ∧ holds last state' := by
  induction events generalizing outline state with
  | nil =>
      rw [handleEvents, Except.ok.injEq] at run
      rw [followAll, Option.some.injEq] at nested
      subst run nested
      exact ⟨shape, before⟩
  | cons event rest ih =>
      rw [handleEvents, bind_eq_ok] at run
      obtain ⟨middle, first, run⟩ := run
      rw [followAll] at nested
      obtain ⟨next, following, nested⟩ := Option.bind_eq_some_iff.mp nested
      have allowedHere : ∀ text, event = .characterData text → allowed outline text := by
        rintro text rfl
        exact inPlace [] text rest outline rfl rfl
      exact ih (preserved_shape.always.event shape shape first following fun _ _ => trivial)
        (preserved.event shape before first following allowedHere) run nested
        (inPlace.tail following)

theorem Preserved.run {holds : HeaderOutline → XmlBuilder → Prop}
    (preserved : Preserved options platform holds) {events : List XmlEvent}
    (shape : Shape outline state) (before : holds outline state) {last : HeaderOutline}
    (run : handleEvents options platform state events = .ok state')
    (nested : followAll outline events = some last) : Shape last state' ∧ holds last state' :=
  preserved.always.run shape before run nested fun _ _ _ _ _ _ => trivial

end

/-- The handlers have read a well nested sequence of events without an error. -/
structure ParserRun (options : ReaderOptions) (platform : Platform) where
  events : List XmlEvent
  state : XmlBuilder
  outline : HeaderOutline
  run : handleEvents options platform {} events = .ok state
  nested : followAll {} events = some outline

/-- What every event preserves holds after a run. -/
theorem ParserRun.holds {options : ReaderOptions} {platform : Platform}
    {holds : HeaderOutline → XmlBuilder → Prop} (preserved : Preserved options platform holds)
    (parser : ParserRun options platform) : holds parser.outline parser.state :=
  (preserved.run shape_empty preserved.empty parser.run parser.nested).2

/-- And what they preserve where text is allowed. -/
theorem ParserRun.holds_when {options : ReaderOptions} {platform : Platform}
    {allowed : HeaderOutline → Text → Prop} {holds : HeaderOutline → XmlBuilder → Prop}
    (preserved : PreservedWhen options platform allowed holds)
    (parser : ParserRun options platform) (inPlace : TextsAllowed allowed {} parser.events) :
    holds parser.outline parser.state :=
  (preserved.run shape_empty preserved.empty parser.run parser.nested inPlace).2

theorem ParserRun.shape {options : ReaderOptions} {platform : Platform}
    (parser : ParserRun options platform) : Shape parser.outline parser.state :=
  parser.holds preserved_shape

/-- A header that was accepted.  Expat closes elements in the order they were
opened in. -/
structure AcceptedHeader (options : ReaderOptions) (platform : Platform) where
  xml : Text
  fileSize : Nat
  headerLength : Nat
  parsed : ParsedHeader
  outline : HeaderOutline
  accepted : parseHeader platform xml options fileSize headerLength = .ok parsed
  nested : followAll {} (platform.parseXml (xmlChunks xml.length xml)).events = some outline

end Mmxisf.Reader
