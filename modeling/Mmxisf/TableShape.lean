/-
# TableShape -- the Tables of an accepted document

Rows are read before the Structure of their Table is known: it may be inside the
Table, or a standalone one that a Reference names, before or after it.  While the
handlers run (`TablesSound`), a Table has the one Structure inside it, no Structure
that has ended is empty, and every Cell has a value or a location.  The rest is
checked afterwards, row by row.
-/
import Mmxisf.Library.Totals
import Mmxisf.Reader.Frames
import Mmxisf.Reader.Tables

namespace Mmxisf.Reader

set_option autoImplicit false

variable {options : ReaderOptions} {platform : Platform}

/-! ## What a Table declares -/

/-- The Structures inside the Table at a position. -/
def inlineStructures (outline : HeaderOutline) (i : Nat) : List Nat :=
  ((outline.ofKind (isKind .tableStructure)).filter fun element =>
    around outline .table element = some i).map (positionOf outline (isKind .tableStructure))

/-- The References that are children of the Table at a position. -/
def tableReferences (outline : HeaderOutline) (i : Nat) : List HeaderElement :=
  outline.elements.filter fun element => (referenceOf element.tag).isSome &&
    parentKind element = some .table && around outline .table element = some i

/-- The one Structure of the Table at a position: the one inside it, or the
standalone one that its only Reference names. -/
inductive HasStructure (outline : HeaderOutline) (i : Nat) (table : TableInfo) (structureAt : Nat) :
    Prop
  | inline (own : table.structureByReference = false)
      (one : inlineStructures outline i = [structureAt])
      (noReference : tableReferences outline i = [])
  | byReference (shared : table.structureByReference = true)
      (noneInside : inlineStructures outline i = []) (reference target : HeaderElement)
      (one : tableReferences outline i = [reference])
      (member : target ∈ outline.ofKind (isKind .tableStructure))
      (standalone : isStandalone target = true) (named : names reference target = true)
      (position : positionOf outline (isKind .tableStructure) target = structureAt)

def hasNoExtents (cell : TableCellInfo) : Prop :=
  cell.length = none ∧ cell.rows = none ∧ cell.columns = none

/-- A Cell has the form, the extents and the syntax of its Field's type. -/
def CellFits (field : TableFieldInfo) (cell : TableCellInfo) : Prop :=
  match classifyPropertyType field.type with
  | .scalarOrComplex => cell.valueForm = .attribute ∧ hasNoExtents cell ∧
      isValidScalarOrComplexValue field.type cell.value = true
  | .string => hasNoExtents cell
  | .timePoint => cell.valueForm = .attribute ∧ hasNoExtents cell ∧
      isValidTimePointValue cell.value = true
  | .vector => cell.valueForm = .dataBlock ∧ cell.length.isSome = true ∧ cell.rows = none ∧
      cell.columns = none
  | .matrix => cell.valueForm = .dataBlock ∧ cell.length = none ∧ cell.rows.isSome = true ∧
      cell.columns.isSome = true
  | .unknown => True

/-- A Cell without a location has no block; one with a location has a block, and a
value only as the text of an inline block. -/
structure CellFormed (cell : TableCellInfo) : Prop where
  noBlock : cell.valueForm ≠ .dataBlock → cell.block = .empty
  block : cell.valueForm = .dataBlock → cell.block.kind ≠ .unknown ∧ cell.block.kind ≠ .embedded ∧
    (cell.block.kind ≠ .inlineData → cell.value = [])

/-- A Cell element does not declare a value and a location. -/
def OneValue (element : HeaderElement) : Prop :=
  ¬ ((element.tag.attr "value").isSome = true ∧ (element.tag.attr "location").isSome = true)

/-- A table with its fields. -/
structure TableFits (fields : List TableFieldInfo) (table : TableInfo) : Prop where
  declaredRows : ∀ rows, table.declaredRows = some rows → rows = table.rows.length
  declaredColumns : ∀ columns, table.declaredColumns = some columns → columns = fields.length
  columns : ∀ row ∈ table.rows, row.cells.length = fields.length
  cells : ∀ row ∈ table.rows, ∀ (column : Nat) (field : TableFieldInfo) (cell : TableCellInfo),
    fields[column]? = some field → row.cells[column]? = some cell → CellFits field cell
  formed : ∀ row ∈ table.rows, ∀ cell ∈ row.cells, CellFormed cell

structure TablesWellFormed (header : AcceptedHeader options platform) : Prop where
  /-- One record for each Table and each Structure, in document order. -/
  tables : header.parsed.document.tables.map tableKey =
    (header.outline.ofKind (isKind .table)).map (tableKeyOf header.outline)
  structures : header.parsed.document.tableStructures.map structureKey =
    (header.outline.ofKind (isKind .tableStructure)).map (structureKeyOf header.outline)
  fields : ∀ info ∈ header.parsed.document.tableStructures,
    info.fields ≠ [] ∧ (info.fields.map TableFieldInfo.id).Nodup
  resolved : ∀ (i : Nat) (table : TableInfo), header.parsed.document.tables[i]? = some table →
    ∃ structureAt info, table.structureIndex = some structureAt ∧
      header.parsed.document.tableStructures[structureAt]? = some info ∧
      HasStructure header.outline i table structureAt ∧ TableFits info.fields table
  oneValue : ∀ element ∈ header.outline.ofKind (isKind .cell), OneValue element

/-! ## While the handlers run -/

section

variable {outline : HeaderOutline} {state state' : XmlBuilder} {tag : XmlTag}

/-- The Structure of a table, and whether it is that of a Reference. -/
def structureOf (tables : List TableInfo) (i : Nat) : Option (Option Nat × Bool) :=
  (tables[i]?).map fun table => (table.structureIndex, table.structureByReference)

theorem structureOf_modify {tables : List TableInfo} {change : TableInfo → TableInfo}
    (same : ∀ table, ((change table).structureIndex, (change table).structureByReference) =
      (table.structureIndex, table.structureByReference)) (i j : Nat) :
    structureOf (tables.modify j change) i = structureOf tables i := by
  unfold structureOf
  rw [List.getElem?_modify]
  cases tables[i]? with
  | none => rfl
  | some table => by_cases here : j = i <;> simp [here, same]

/-- The Tables and Structures so far. -/
structure TablesSound (outline : HeaderOutline) (state : XmlBuilder) : Prop where
  inline : ∀ (i : Nat) (own : Option Nat × Bool), structureOf state.tables i = some own →
    own.2 = false ∧ inlineStructures outline i = own.1.toList
  fields : ∀ (s : Nat) (info : TableStructureInfo), state.tableStructures[s]? = some info →
    info.fields = [] → state.openStructureIndex = some s
  cells : ∀ table ∈ state.tables, ∀ row ∈ table.rows, ∀ cell ∈ row.cells, CellFormed cell
  oneValue : ∀ element ∈ outline.ofKind (isKind .cell), OneValue element

theorem inlineStructures_start (coherent : outline.Coherent) (tag : XmlTag) (i : Nat) :
    inlineStructures (outline.start tag) i = inlineStructures outline i ++
      if isKind .tableStructure tag = true ∧ outline.openIndex (isKind .table) = some i then
        [(outline.ofKind (isKind .tableStructure)).length] else [] := by
  have old : ((outline.ofKind (isKind .tableStructure)).filter fun element =>
      around (outline.start tag) .table element = some i).map
        (positionOf (outline.start tag) (isKind .tableStructure)) = inlineStructures outline i := by
    have same : (outline.ofKind (isKind .tableStructure)).filter (fun element =>
        around (outline.start tag) .table element = some i) =
        (outline.ofKind (isKind .tableStructure)).filter fun element =>
          around outline .table element = some i :=
      List.filter_congr fun element member => by
        rw [around_start coherent (List.mem_filter.mp member).1]
    rw [same]
    exact List.map_congr_left fun element member => positionOf_start coherent
      (List.mem_filter.mp (List.mem_filter.mp member).1).1 _
  rw [inlineStructures, Library.Outline.ofKind_start, List.filter_append, List.map_append, old]
  congr 1
  cases isStructure : isKind .tableStructure tag with
  | false => simp
  | true =>
      rw [if_pos rfl, List.filter_singleton, around_fresh coherent]
      by_cases here : outline.openIndex (isKind .table) = some i
      · simp [here, positionOf_fresh]
      · simp [here]

/-- A Table that is not there yet has no Structures. -/
theorem inlineStructures_beyond (coherent : outline.Coherent) :
    inlineStructures outline (outline.ofKind (isKind .table)).length = [] := by
  rw [inlineStructures, List.map_eq_nil_iff, List.filter_eq_nil_iff]
  intro element member inside
  have small := around_lt coherent (List.mem_filter.mp member).1 (of_decide_eq_true inside)
  exact Nat.lt_irrefl _ small

theorem inlineStructures_append (text : Text) (i : Nat) :
    inlineStructures (outline.append text) i = inlineStructures outline i := by
  cases opened : outline.opened with
  | nil =>
      unfold Library.Outline.append
      rw [opened]
  | cons top below =>
      rw [inlineStructures, Library.Outline.ofKind_append _ opened, List.filter_map, List.map_map]
      have around_same (element : HeaderElement) : around (outline.append text) .table
          (element.extendAt top.index text) = around outline .table element := by
        simp only [around, Library.Element.extendAt_ancestors, Library.Outline.rank_append]
      have position_same (element : HeaderElement) :
          positionOf (outline.append text) (isKind .tableStructure)
            (element.extendAt top.index text) =
          positionOf outline (isKind .tableStructure) element := by
        simp only [positionOf, Library.Element.extendAt_frame, Library.Outline.rank_append]
      have filter_same : ((fun element =>
          decide (around (outline.append text) .table element = some i)) ∘
          Library.Element.extendAt top.index text) =
          fun element => decide (around outline .table element = some i) :=
        funext fun element => by rw [Function.comp_apply, around_same]
      have map_same : (positionOf (outline.append text) (isKind .tableStructure)) ∘
          Library.Element.extendAt top.index text = positionOf outline (isKind .tableStructure) :=
        funext position_same
      rw [filter_same, map_same, inlineStructures]

/-- A new Table is the last one. -/
theorem structureOf_append (tables : List TableInfo) (table : TableInfo) (i : Nat) :
    structureOf (tables ++ [table]) i = if i = tables.length then
      some (table.structureIndex, table.structureByReference) else structureOf tables i := by
  unfold structureOf
  by_cases last : i = tables.length
  · subst last
    simp
  · rw [if_neg last]
    rcases Nat.lt_or_gt_of_ne last with before | beyond
    · rw [List.getElem?_append_left before]
    · rw [List.getElem?_eq_none (by simp; omega), List.getElem?_eq_none (by omega)]

/-- What the elements other than Tables and their parts keep. -/
theorem TablesSound.congr (sound : TablesSound outline state) {outline' : HeaderOutline}
    (part : tablePart state' = tablePart state)
    (inlines : ∀ i, inlineStructures outline' i = inlineStructures outline i)
    (oneValue : ∀ element ∈ outline'.ofKind (isKind .cell), OneValue element) :
    TablesSound outline' state' := by
  have tables : state'.tables = state.tables := congrArg TablePart.tables part
  have structures : state'.tableStructures = state.tableStructures :=
    congrArg TablePart.tableStructures part
  have open_ : state'.openStructureIndex = state.openStructureIndex :=
    congrArg TablePart.openStructureIndex part
  obtain ⟨inline, fields, cells, -⟩ := sound
  refine ⟨fun i own here => ?_, ?_, ?_, oneValue⟩
  · rw [tables] at here
    rw [inlines]
    exact inline i own here
  · rw [structures, open_]
    exact fields
  · rw [tables]
    exact cells

theorem cellFormed_newCell {element : ElementContext} {block : BlockLocation} {form : ValueForm}
    {length rows columns : Option Nat} (located : cellBlock element = .ok (block, form))
    (one : ¬ ((element.attr "value").isSome = true ∧ (element.attr "location").isSome = true)) :
    CellFormed (newCell element block form length rows columns) := by
  rcases cellBlock_eq located with ⟨-, rfl, rfl⟩ | ⟨location, found, -, known, attached, -, rfl⟩
  · refine ⟨fun _ => rfl, fun impossible => ?_⟩
    have form : (if (element.attr "value").isNone then ValueForm.characterData else .attribute) =
        .dataBlock := impossible
    split at form <;> cases form
  · refine ⟨fun impossible => absurd rfl impossible, fun _ => ⟨known, attached, fun _ => ?_⟩⟩
    have noValue : element.attr "value" = none := by
      rw [found] at one
      cases value : element.attr "value" with
      | none => rfl
      | some text => exact absurd ⟨by rw [value]; rfl, rfl⟩ one
    show (element.attr "value").getD [] = []
    rw [noValue]
    rfl

/-- The Tables and Structures after the branch of a start tag. -/
theorem TablesSound.opened (sound : TablesSound outline state) (coherent : outline.Coherent)
    (opens : Opens outline state) (counted : Counted outline state)
    (place : HasPlace tag.kind (pathKinds outline.opened))
    (depth : state.depth = outline.opened.length + 1)
    (opened : Opened options platform state (tag.context (parentName outline)) state') :
    TablesSound (outline.start tag) state' := by
  have frame := opened.frame.2.2
  have sound' := sound
  obtain ⟨inline, fields, cells, oneValue⟩ := sound
  have oneValue' (notCell : isKind .cell tag = false) :
      ∀ element ∈ (outline.start tag).ofKind (isKind .cell), OneValue element := by
    rw [Library.Outline.ofKind_start_other notCell]
    exact oneValue
  have sameInline (other : isKind .tableStructure tag = false) (i : Nat) :
      inlineStructures (outline.start tag) i = inlineStructures outline i := by
    rw [inlineStructures_start coherent, other]
    simp
  have inTable : state.openTableIndex = outline.openIndex (isKind .table) := opens.table
  -- the elements that are not part of a Table
  have other (none : isTablePart tag = false) : TablesSound (outline.start tag) state' := by
    refine sound'.congr (frame none) (sameInline ?_) (oneValue' ?_)
    all_goals
      simp only [isTablePart, Bool.or_eq_false_iff] at none
      tauto
  cases opened with
  | table isXisf named run =>
      have kind := kind_of_name .table (by decide) isXisf named
      obtain ⟨rows, columns, -, -, -, -, rfl⟩ := startTable_eq run
      refine ⟨fun i own here => ?_, fields, ?_, oneValue' (by simp [isKind, kind])⟩
      · rw [sameInline (by simp [isKind, kind])]
        change structureOf (state.tables ++ [_]) i = some own at here
        rw [structureOf_append] at here
        split at here
        · rename_i last
          rw [Option.some.injEq] at here
          subst last here
          rw [counted.tables]
          exact ⟨rfl, inlineStructures_beyond coherent⟩
        · exact inline i own here
      · intro table member
        rcases List.mem_append.mp member with old | new
        · exact cells table old
        · rw [List.mem_singleton.mp new]
          exact fun row impossible => by cases impossible
  | tableStructure isXisf named run =>
      have kind := kind_of_name .tableStructure (by decide) isXisf named
      have isStructure : isKind .tableStructure tag = true := decide_eq_true kind
      have noneOpen : state.openStructureIndex = none := by
        rw [opens.tableStructure]
        rw [kind] at place
        exact place.none_open (by decide) rfl
      have fields' (added : TableStructureInfo) : ∀ (s : Nat) (info : TableStructureInfo),
          (state.tableStructures ++ [added])[s]? = some info → info.fields = [] →
            some state.tableStructures.length = some s := by
        intro s info there empty
        by_cases old : s < state.tableStructures.length
        · rw [List.getElem?_append_left old] at there
          have impossible := fields s info there empty
          rw [noneOpen] at impossible
          cases impossible
        · have small := (List.getElem?_eq_some_iff.mp there).1
          rw [List.length_append, List.length_singleton] at small
          rw [Option.some.injEq]
          omega
      obtain ⟨-, -, ⟨child, -, rfl⟩ | ⟨-, child, first, rfl⟩⟩ := startStructure_eq run
      · have noTable : outline.openIndex (isKind .table) = none := by
          refine openIndex_of_path ?_
          rw [rootChild_path depth child]
          decide
        refine ⟨fun i own here => ?_, fields' _, cells, oneValue' (by simp [isKind, kind])⟩
        rw [inlineStructures_start coherent, noTable]
        simpa using inline i own here
      · have isOpen : state.openTableIndex.isSome = true := by
          simp only [isTableChild, Bool.and_eq_true] at child
          exact child.2
        obtain ⟨k, isOpen⟩ := Option.isSome_iff_exists.mp isOpen
        rw [isOpen, Option.getD_some] at first ⊢
        refine ⟨fun i own here => ?_, fields' _, ?_, oneValue' (by simp [isKind, kind])⟩
        · rw [inlineStructures_start coherent, ← inTable, isOpen, isStructure]
          change structureOf (state.tables.modify k _) i = some own at here
          by_cases same : k = i
          · subst same
            cases there : state.tables[k]? with
            | none => simp [structureOf, there] at here
            | some table =>
                simp only [structureOf, List.getElem?_modify_eq, there, Option.map_eq_map,
                  Option.map_some, Option.some.injEq] at here
                rw [there, Option.bind_some] at first
                have before := inline k (table.structureIndex, table.structureByReference)
                  (by simp [structureOf, there])
                have empty : table.structureIndex = none := by simpa using first
                rw [← here, before.2, empty, ← counted.tableStructures]
                exact ⟨before.1, by simp⟩
          · have unchanged : structureOf (state.tables.modify k fun table =>
                { table with structureIndex := some state.tableStructures.length }) i =
                structureOf state.tables i := by
              unfold structureOf
              rw [List.getElem?_modify_ne _ _ same]
            rw [unchanged] at here
            simpa [same] using inline i own here
        · exact Library.forall_mem_modify cells fun _ _ held => held
  | field isXisf named run =>
      have kind := kind_of_name .field (by decide) isXisf named
      obtain ⟨-, inside, -, -, rfl⟩ := startField_eq run
      obtain ⟨index, isOpen⟩ := Option.isSome_iff_exists.mp inside
      refine ⟨fun i own here => ?_, fun s info there empty => ?_, cells,
        oneValue' (by simp [isKind, kind])⟩
      · rw [sameInline (by simp [isKind, kind])]
        exact inline i own here
      · change (state.tableStructures.modify (state.openStructureIndex.getD 0) _)[s]? = some info
          at there
        rw [isOpen, Option.getD_some, List.getElem?_modify, Option.map_eq_map,
          Option.map_eq_some_iff] at there
        obtain ⟨before, there, rfl⟩ := there
        split at empty
        · rename_i here
          exact absurd empty (by simp)
        · rename_i other
          exact fields s before there (by simpa [other] using empty)
  | row isXisf named run =>
      have kind := kind_of_name .row (by decide) isXisf named
      obtain ⟨-, -, -, -, rfl⟩ := startRow_eq run
      refine ⟨fun i own here => ?_, fields, ?_, oneValue' (by simp [isKind, kind])⟩
      · rw [sameInline (by simp [isKind, kind])]
        exact inline i own ((structureOf_modify (by intro table; rfl) i _).symm.trans here)
      · refine Library.forall_mem_modify cells fun table _ held row member => ?_
        rcases List.mem_append.mp member with old | new
        · exact held row old
        · rw [List.mem_singleton.mp new]
          exact fun cell impossible => by cases impossible
  | cell isXisf named run =>
      have kind := kind_of_name .cell (by decide) isXisf named
      obtain ⟨block, form, length, rows, columns, -, -, -, -, -, one, located, -, rfl⟩ :=
        startCell_eq run
      refine ⟨fun i own here => ?_, fields, ?_, ?_⟩
      · rw [sameInline (by simp [isKind, kind])]
        exact inline i own ((structureOf_modify (by intro table; rfl) i _).symm.trans here)
      · refine Library.forall_mem_modify cells fun table _ held => ?_
        refine Library.forall_mem_modify held fun row _ held cell member => ?_
        rcases List.mem_append.mp member with old | new
        · exact held cell old
        · rw [List.mem_singleton.mp new]
          exact cellFormed_newCell located one
      · rw [Library.Outline.ofKind_start_same (by simp [isKind, kind])]
        intro element member
        rcases List.mem_append.mp member with old | new
        · exact oneValue element old
        · rw [List.mem_singleton.mp new]
          exact one
  | unhandled unknown same =>
      refine other ?_
      rcases kind_of_unhandled unknown with kind | kind | kind | kind <;>
        simp [isTablePart, isKind, kind]
  | iccProfile isXisf named run =>
      exact other (by simp [isTablePart, isKind, kind_of_name .iccProfile (by decide) isXisf named])
  | ancillary isXisf which named run =>
      exact other (by simp [isTablePart, isKind, XmlTag.kind_ancillary isXisf named])
  | thumbnail isXisf named run =>
      exact other (by simp [isTablePart, isKind, kind_of_name .thumbnail (by decide) isXisf named])
  | data isXisf named run =>
      exact other (by simp [isTablePart, isKind, kind_of_name .data (by decide) isXisf named])
  | image isXisf named run =>
      exact other (by simp [isTablePart, isKind, kind_of_name .image (by decide) isXisf named])
  | metadata isXisf named run =>
      exact other (by simp [isTablePart, isKind, kind_of_name .metadata (by decide) isXisf named])
  | entry isXisf named run =>
      refine other ?_
      rcases named with named | named
      · simp [isTablePart, isKind, kind_of_name .property (by decide) isXisf named]
      · simp [isTablePart, isKind, kind_of_name .fitsKeyword (by decide) isXisf named]

/-- What only the tags decide is not changed by text. -/
theorem ofKind_append_all (holds : HeaderElement → Prop) (text : Text)
    (seesTag : ∀ element element' : HeaderElement, element.toFrame = element'.toFrame →
      holds element → holds element')
    {kind : XmlTag → Bool} (all : ∀ element ∈ outline.ofKind kind, holds element) :
    ∀ element ∈ (outline.append text).ofKind kind, holds element := by
  intro element member
  obtain ⟨inside, same⟩ := List.mem_filter.mp member
  obtain ⟨old, there, sameFrame, -⟩ := Library.Outline.exists_of_mem_append inside
  refine seesTag old element sameFrame.symm (all old (List.mem_filter.mpr ⟨there, ?_⟩))
  rw [← congrArg Library.Frame.tag sameFrame]
  exact same

/-- A Cell that takes text may have a value. -/
theorem CellFormed.addText {cell : TableCellInfo} (formed : CellFormed cell)
    (accepts : acceptsText cell = true) (text : Text) :
    CellFormed { cell with value := cell.value ++ text } := by
  refine ⟨formed.noBlock, fun isBlock => ?_⟩
  obtain ⟨known, attached, -⟩ := formed.block isBlock
  refine ⟨known, attached, fun notInline => ?_⟩
  have form : cell.valueForm = .dataBlock := isBlock
  have kind : cell.block.kind ≠ .inlineData := notInline
  simp [acceptsText, form, kind] at accepts

theorem preserved_tablesSound : Preserved options platform TablesSound where
  empty := by
    refine ⟨fun i own here => ?_, fun s info there => ?_, ?_, ?_⟩
    · cases here
    · cases there
    · exact fun table impossible => by cases impossible
    · exact fun element impossible => by cases impossible
  declared sound := ⟨sound.inline, sound.fields, sound.cells, sound.oneValue⟩
  start := by
    intro outline state state' tag shape sound started
    have place := hasPlace_start shape.stacked started
    obtain ⟨identified, before, opened⟩ := started.branch
    have sound' : TablesSound outline identified :=
      sound.congr before.tablePart.1 (fun _ => rfl) sound.oneValue
    exact sound'.opened shape.stacked.coherent (before.opens shape.opens)
      (before.counted shape.counted) place
      (by rw [before.depth, shape.stacked.depth]) opened
  close := by
    intro outline state closed top below shape sound opened close
    obtain ⟨inline, fields, cells, oneValue⟩ := sound
    cases close with
    | tableStructure xisf named index inside some =>
        refine ⟨inline, fun s info there empty => ?_, cells, oneValue⟩
        have open_ := fields s info there empty
        rw [inside, Option.some.injEq] at open_
        exact absurd empty (some info (by rw [open_]; exact there))
    | _ => exact ⟨inline, fields, cells, oneValue⟩
  text := by
    intro outline state state' text shape sound taken
    have oneValue := ofKind_append_all OneValue text
      (fun element element' same held => by
        unfold OneValue at held ⊢
        rw [← congrArg Library.Frame.tag same]
        exact held) sound.oneValue
    have same : ∀ i, inlineStructures (outline.append text) i = inlineStructures outline i :=
      inlineStructures_append text
    cases taken with
    | encoded state' inside run =>
        obtain ⟨decoder, bytes, -, -, added, count, ⟨-, rfl⟩, rfl⟩ := decodeEmbeddedText_eq run
        refine sound.congr ?_ same oneValue
        unfold addBytes
        split <;> rfl
    | cell outside place inside accepts within =>
        obtain ⟨inline, fields, cells, -⟩ := sound
        refine ⟨fun i own here => ?_, fields, ?_, oneValue⟩
        · rw [same]
          exact inline i own ((structureOf_modify (by intro table; rfl) i _).symm.trans here)
        · refine Library.forall_mem_modify cells fun table isTable held => ?_
          refine Library.forall_mem_modify held fun row isRow held => ?_
          refine Library.forall_mem_modify held fun cell isCell held => held.addText ?_ text
          simpa [openCellInfo, inside, isTable, isRow, isCell] using accepts
    | _ => exact sound.congr rfl same oneValue

end

/-! ## What is checked afterwards -/

section

theorem forM_eq_ok {α : Type} {records : List α} {check : α → Result Unit} :
    records.forM check = .ok () ↔ ∀ a ∈ records, check a = .ok () := by
  induction records with
  | nil => simp [List.forM, pure, Except.pure]
  | cons a rest ih =>
      show (check a >>= fun _ => rest.forM check) = .ok () ↔ _
      rw [bind_eq_ok, List.forall_mem_cons, ← ih]
      constructor
      · rintro ⟨⟨⟩, first, others⟩
        exact ⟨first, others⟩
      · rintro ⟨first, others⟩
        exact ⟨(), first, others⟩

theorem hasNoExtents_of {cell : TableCellInfo}
    (none : ¬ (cell.length.isSome || cell.rows.isSome || cell.columns.isSome) = true) :
    hasNoExtents cell := by
  simpa [hasNoExtents, and_assoc] using none

theorem cellFits_of_check {field : TableFieldInfo} {cell : TableCellInfo}
    (check : checkCell field cell = .ok ()) : CellFits field cell := by
  unfold checkCell at check
  unfold CellFits
  cases category : classifyPropertyType field.type with
  | scalarOrComplex =>
      simp only [category, reject_eq_ok, not_or, not_not, Bool.not_eq_false] at check
      exact ⟨check.1, hasNoExtents_of check.2.1, check.2.2⟩
  | string =>
      simp only [category, reject_eq_ok] at check
      exact hasNoExtents_of check
  | timePoint =>
      simp only [category, reject_eq_ok, not_or, not_not, Bool.not_eq_false] at check
      exact ⟨check.1, hasNoExtents_of check.2.1, check.2.2⟩
  | vector =>
      simp only [category, reject_eq_ok, not_or, not_not] at check
      exact ⟨check.1, by simpa [Option.isSome_iff_ne_none] using check.2.1,
        by simpa using check.2.2.1, by simpa using check.2.2.2⟩
  | matrix =>
      simp only [category, reject_eq_ok, not_or, not_not] at check
      exact ⟨check.1, by simpa using check.2.1,
        by simpa [Option.isSome_iff_ne_none] using check.2.2.1,
        by simpa [Option.isSome_iff_ne_none] using check.2.2.2⟩
  | unknown => trivial

theorem tableFits_of_check {structures : List TableStructureInfo} {table : TableInfo}
    (check : checkTable structures table = .ok ())
    (formed : ∀ row ∈ table.rows, ∀ cell ∈ row.cells, CellFormed cell) :
    ∃ structureAt info, table.structureIndex = some structureAt ∧
      structures[structureAt]? = some info ∧ TableFits info.fields table := by
  simp only [checkTable, bind_eq_ok, orFail_eq_ok, reject_eq_ok, Bool.not_eq_true] at check
  obtain ⟨info, found, -, rows, -, columns, checks⟩ := check
  obtain ⟨structureAt, isStructure, there⟩ := Option.bind_eq_some_iff.mp found
  rw [forM_eq_ok] at checks
  have perRow : ∀ row ∈ table.rows, row.cells.length = info.fields.length ∧
      ∀ pair ∈ info.fields.zip row.cells, checkCell pair.1 pair.2 = .ok () := by
    intro row member
    have check := checks row member
    simp only [checkRow, bind_eq_ok, reject_eq_ok, not_not] at check
    obtain ⟨-, count, cells⟩ := check
    exact ⟨count, fun pair member => forM_eq_ok.mp cells pair member⟩
  refine ⟨structureAt, info, isStructure, there,
    ⟨?_, ?_, fun row member => (perRow row member).1, ?_,
    formed⟩⟩
  · intro count declared
    simpa [declared] using rows
  · intro count declared
    simpa [declared] using columns
  · intro row member column field cell isField isCell
    refine cellFits_of_check ((perRow row member).2 (field, cell) ?_)
    refine List.mem_of_getElem? (i := column) ?_
    rw [List.getElem?_zip_eq_some]
    exact ⟨isField, isCell⟩

end

/-! ## The theorem -/

section

variable {outline : HeaderOutline} {state : XmlBuilder}

/-- The events of a table are its References. -/
theorem Registered.eventsOfTable (registered : Registered outline state) (i : Nat) :
    state.tableStructureReferences.filter (fun event => event.tableIndex = i) =
      (tableReferences outline i).map fun reference =>
        ⟨i, (referenceOf reference.tag).getD []⟩ := by
  rw [registered.structureReferences, tableReferences]
  induction outline.elements with
  | nil => rfl
  | cons element rest ih =>
      rw [List.flatMap_cons, List.filter_append, ih, List.filter_cons]
      by_cases parent : parentKind element = some .table
      · obtain ⟨frame, above, ancestors, isTable⟩ := parentKind_eq parent
        have inTable : ∃ k, around outline .table element = some k := by
          simp [around, ancestors, isKind, isTable]
        obtain ⟨k, inTable⟩ := inTable
        cases refers : referenceOf element.tag with
        | none => simp [structureReferencesOf, refers]
        | some text =>
            by_cases here : k = i <;>
              simp [structureReferencesOf, refers, parent, inTable, here]
      · simp [structureReferencesOf, parent]

end

/-- The Tables of every accepted document are well formed. -/
theorem tablesWellFormed (header : AcceptedHeader options platform) : TablesWellFormed header := by
  obtain ⟨parser, sameOutline, checked⟩ := header.parser
  have closed := checked.opened_nil parser
  have registered := parser.registered
  have shape := parser.shape
  have sound := parser.holds preserved_tablesSound
  rw [sameOutline] at registered shape sound closed
  have resolved := resolveStructureReferences_eq checked.structures
  have structures : header.parsed.document.tableStructures = parser.state.tableStructures :=
    congrArg Document.tableStructures checked.document
  have noneOpen : parser.state.openStructureIndex = none := by
    rw [shape.opens.tableStructure]
    exact Library.Outline.openIndex_eq_none (by rw [closed]; simp)
  refine ⟨?_, ?_, ?_, ?_, sound.oneValue⟩
  · rw [resolved.map_eq tableKey fun _ _ => rfl]
    refine (congrArg Register.tables registered.same).trans ?_
    rw [List.map_eq_flatMap]
    exact Register.field_of_kind Register.tables (fun _ _ => rfl) rfl (isKind .table) _ fun _ => rfl
  · rw [structures]
    refine (congrArg Register.structures registered.same).trans ?_
    rw [List.map_eq_flatMap]
    exact Register.field_of_kind Register.structures (fun _ _ => rfl) rfl (isKind .tableStructure) _
      fun _ => rfl
  · intro info member
    rw [structures] at member
    refine ⟨fun empty => ?_, ?_⟩
    · obtain ⟨s, there⟩ := List.getElem?_of_mem member
      have open_ := sound.fields s info there empty
      rw [noneOpen] at open_
      cases open_
    · exact (checkCompleteness_eq checked.complete).fieldIds info member
  · intro i table there
    have small := (List.getElem?_eq_some_iff.mp there).1
    rw [resolved.length] at small
    obtain ⟨table', before⟩ : ∃ table', parser.state.tables[i]? = some table' :=
      ⟨_, List.getElem?_eq_getElem small⟩
    have step := resolved.resolved i _ table before there
    rw [registered.eventsOfTable] at step
    have inline := sound.inline i _ (by rw [structureOf, before]; rfl)
    have formed := sound.cells _ (List.mem_of_getElem? before)
    have check := forM_eq_ok.mp checked.tables table (List.mem_of_getElem? there)
    have own : table'.structureByReference = false := inline.1
    have inside : inlineStructures header.outline i = table'.structureIndex.toList := inline.2
    generalize events : (tableReferences header.outline i).map (fun reference =>
      (⟨i, (referenceOf reference.tag).getD []⟩ : TableStructureReferenceEvent)) = list at step
    rw [structures]
    cases step with
    | inline =>
        obtain ⟨structureAt, info, isStructure, isThere, fits⟩ := tableFits_of_check check formed
        refine ⟨structureAt, info, isStructure, isThere, .inline own ?_ ?_, fits⟩
        · rw [inside, isStructure]
          rfl
        · exact List.map_eq_nil_iff.mp events
    | byReference event target noneInside found =>
        obtain ⟨structureAt, info, isStructure, isThere, fits⟩ := tableFits_of_check check formed
        obtain rfl : target = structureAt := Option.some.inj isStructure
        refine ⟨target, info, rfl, isThere, ?_, fits⟩
        cases references : tableReferences header.outline i with
        | nil =>
            rw [references] at events
            cases events
        | cons reference more =>
            rw [references, List.map_cons, List.cons.injEq, List.map_eq_nil_iff] at events
            obtain ⟨rfl, rfl⟩ := events
            have member : reference ∈ tableReferences header.outline i := by
              rw [references]
              exact List.mem_cons_self
            have isReference := (List.mem_filter.mp member).2
            simp only [Bool.and_eq_true] at isReference
            obtain ⟨text, refers⟩ := Option.isSome_iff_exists.mp isReference.1.1
            rw [refers, Option.getD_some] at found
            obtain ⟨standalone, isTarget, isStandalone, named, position⟩ :=
              registered.lookup_standalone refers found
            have none : inlineStructures header.outline i = [] := by
              rw [inside, noneInside]
              rfl
            exact .byReference rfl none reference standalone references isTarget isStandalone
              named position

end Mmxisf.Reader
