/-
# Reader.CellText -- what Cells hold

Cells are kept in rows, in Tables.  Taken in order they are the Cell elements of
the header in document order, and text goes to the last of them while it is open.
-/
import Mmxisf.Library.Totals
import Mmxisf.Reader.TextHeld

namespace Mmxisf.Reader

set_option autoImplicit false

/-- The Cells of all Tables, row by row. -/
def allCells (tables : List TableInfo) : List TableCellInfo :=
  tables.flatMap fun table => table.rows.flatMap TableRowInfo.cells

/-- A Cell whose content is its value, or its inline block. -/
def takesText (tag : XmlTag) : Bool :=
  isKind .cell tag &&
    ((tag.attr "value").isNone && (tag.attr "location").isNone || hasInlineBlock tag)

/-- A Cell that takes text has its content as its value. -/
structure CellHolds (element : HeaderElement) (cell : TableCellInfo) : Prop where
  form : acceptsText cell = takesText element.tag
  value : takesText element.tag = true → cell.value = element.content

structure CellsHold (outline : HeaderOutline) (state : XmlBuilder) : Prop where
  cells : Library.Matches CellHolds (outline.ofKind (isKind .cell)) (allCells state.tables)
  /-- The open Cell is the last of them. -/
  last : ∀ top below, outline.opened = top :: below → top.tag.kind = .cell →
    outline.rank (isKind .cell) top + 1 = (outline.ofKind (isKind .cell)).length

section

variable {options : ReaderOptions} {platform : Platform} {outline : HeaderOutline}
  {state state' identified : XmlBuilder} {tag : XmlTag} {top : HeaderFrame}
  {below : List HeaderFrame}

/-! ## The last row -/

/-- The open row is the last, and its Cells come last. -/
theorem Opens.allCells_eq (opens : Opens outline state) {t r : Nat}
    (inTable : state.openTableIndex = some t) (inRow : state.openTableRowIndex = some r) :
    ∃ before table row, state.tables[t]? = some table ∧ table.rows[r]? = some row ∧
      allCells state.tables = before ++ row.cells ∧
      ∀ change : TableRowInfo → TableRowInfo,
        allCells (state.tables.modify t fun table => modifyRows table r change) =
          before ++ (change row).cells := by
  obtain ⟨t', inTable', counts⟩ := opens.lastRow r inRow
  obtain rfl : t = t' := Option.some.inj (inTable.symm.trans inTable')
  obtain ⟨table, there, total⟩ := Option.map_eq_some_iff.mp counts
  have small : r < table.rows.length := by omega
  have inRows := List.getElem?_eq_getElem small
  obtain ⟨outer, tables, changedTables⟩ := @Library.flatMap_last _ _
    (fun table : TableInfo => table.rows.flatMap TableRowInfo.cells) _ _ _ there
    (opens.lastTable t inTable)
  obtain ⟨inner, rows, changedRows⟩ := @Library.flatMap_last _ _ TableRowInfo.cells _ _ _ inRows
    total.symm
  refine ⟨outer ++ inner, table, table.rows[r], there, inRows, ?_, fun change => ?_⟩
  · rw [List.append_assoc, ← rows]
    exact tables
  · rw [List.append_assoc, ← changedRows]
    exact changedTables fun table => modifyRows table r change

theorem allCells_append (tables : List TableInfo) (table : TableInfo) (empty : table.rows = []) :
    allCells (tables ++ [table]) = allCells tables := by
  rw [allCells, List.flatMap_append, List.flatMap_singleton, empty, List.flatMap_nil,
    List.append_nil]
  rfl

/-! ## Start tags -/

/-- A Cell takes text as its tag says, and has none yet. -/
theorem newCell_holds {parent : Text} {block : BlockLocation} {form : ValueForm}
    {length rows columns : Option Nat} (kind : isKind .cell tag = true)
    (located : cellBlock (tag.context parent) = .ok (block, form))
    (one : ¬ (((tag.context parent).attr "value").isSome = true ∧
      ((tag.context parent).attr "location").isSome = true)) :
    acceptsText (newCell (tag.context parent) block form length rows columns) = takesText tag ∧
      (acceptsText (newCell (tag.context parent) block form length rows columns) = true →
        (newCell (tag.context parent) block form length rows columns).value = []) := by
  have attr (name : String) : (tag.context parent).attr name = tag.attr name := rfl
  rw [attr, attr] at one
  rcases cellBlock_eq located with ⟨absent, rfl, rfl⟩ | ⟨location, found, rfl, known, -, -, rfl⟩
  · rw [attr] at absent
    cases value : tag.attr "value" with
    | none =>
        simp [acceptsText, newCell, takesText, kind, attr, value, absent]
    | some text =>
        simp [acceptsText, newCell, takesText, hasInlineBlock, kind, attr, value, absent]
  · rw [attr] at found
    have noValue : tag.attr "value" = none := by
      cases value : tag.attr "value" with
      | none => rfl
      | some text => exact absurd ⟨by rw [value]; rfl, by rw [found]; rfl⟩ one
    simp [acceptsText, newCell, takesText, hasInlineBlock, kind, attr, noValue, found]

/-- What a start tag does to the Cells: only a Cell adds one. -/
def CellAdded (tag : XmlTag) (before after : List TableInfo) : Prop :=
  if isKind .cell tag then ∃ cell, allCells after = allCells before ++ [cell] ∧
    acceptsText cell = takesText tag ∧ (acceptsText cell = true → cell.value = [])
  else allCells after = allCells before

theorem Opened.cellAdded (opens : Opens outline identified)
    (opened : Opened options platform identified (tag.context (parentName outline)) state') :
    CellAdded tag identified.tables state'.tables := by
  have frame := opened.frame.2.2
  have same (other : isKind .cell tag = false)
      (kept : allCells state'.tables = allCells identified.tables) :
      CellAdded tag identified.tables state'.tables := by
    rwa [CellAdded, other, if_neg Bool.false_ne_true]
  have plain (none : isTablePart tag = false) : CellAdded tag identified.tables state'.tables := by
    refine same ?_ (congrArg (fun part => allCells part.tables) (frame none))
    simp only [isTablePart, Bool.or_eq_false_iff] at none
    exact none.2
  cases opened with
  | table isXisf named run =>
      obtain ⟨rows, columns, -, -, -, -, rfl⟩ := startTable_eq run
      exact same (by simp [isKind, kind_of_name .table (by decide) isXisf named])
        (allCells_append _ _ rfl)
  | tableStructure isXisf named run =>
      refine same (by simp [isKind, kind_of_name .tableStructure (by decide) isXisf named]) ?_
      obtain ⟨-, -, ⟨-, -, rfl⟩ | ⟨-, -, -, rfl⟩⟩ := startStructure_eq run
      · rfl
      · exact Library.flatMap_modify_same _ _ (by intro table; rfl)
  | field isXisf named run =>
      obtain ⟨-, -, -, -, rfl⟩ := startField_eq run
      exact same (by simp [isKind, kind_of_name .field (by decide) isXisf named]) rfl
  | row isXisf named run =>
      obtain ⟨-, -, -, -, rfl⟩ := startRow_eq run
      exact same (by simp [isKind, kind_of_name .row (by decide) isXisf named])
        (Library.flatMap_modify_same _ _ fun _ => by simp)
  | cell isXisf named run =>
      obtain ⟨block, form, length, rows, columns, -, inTable, inRow, -, -, one, located, -, rfl⟩ :=
        startCell_eq run
      obtain ⟨t, inTable⟩ := Option.isSome_iff_exists.mp inTable
      obtain ⟨r, inRow⟩ := Option.isSome_iff_exists.mp inRow
      obtain ⟨others, table, row, -, -, cells, changed⟩ := opens.allCells_eq inTable inRow
      have kind : isKind .cell tag = true :=
        decide_eq_true (kind_of_name .cell (by decide) isXisf named)
      rw [CellAdded, if_pos kind]
      refine ⟨newCell (tag.context (parentName outline)) block form length rows columns, ?_,
        newCell_holds kind located one⟩
      simp only [inTable, inRow, Option.getD_some, changed]
      rw [cells, List.append_assoc]
  | unhandled unknown equal =>
      refine plain ?_
      rcases kind_of_unhandled unknown with kind | kind | kind | kind <;>
        simp [isTablePart, isKind, kind]
  | ancillary isXisf which named run =>
      exact plain (by simp [isTablePart, isKind, XmlTag.kind_ancillary isXisf named])
  | iccProfile isXisf named run =>
      exact plain (by simp [isTablePart, isKind, kind_of_name .iccProfile (by decide) isXisf named])
  | thumbnail isXisf named run =>
      exact plain (by simp [isTablePart, isKind, kind_of_name .thumbnail (by decide) isXisf named])
  | data isXisf named run =>
      exact plain (by simp [isTablePart, isKind, kind_of_name .data (by decide) isXisf named])
  | image isXisf named run =>
      exact plain (by simp [isTablePart, isKind, kind_of_name .image (by decide) isXisf named])
  | metadata isXisf named run =>
      exact plain (by simp [isTablePart, isKind, kind_of_name .metadata (by decide) isXisf named])
  | entry isXisf named run =>
      rcases named with property | keyword
      · exact plain (by simp [isTablePart, isKind,
          kind_of_name .property (by decide) isXisf property])
      · exact plain (by simp [isTablePart, isKind,
          kind_of_name .fitsKeyword (by decide) isXisf keyword])

theorem CellsHold.start (held : CellsHold outline state) (shape : Shape outline state)
    (started : Started options platform state (tag.context (parentName outline)) state') :
    CellsHold (outline.start tag) state' := by
  obtain ⟨identified, before, opened⟩ := started.branch
  have tables : identified.tables = state.tables := congrArg TablePart.tables before.tablePart.1
  have opens := before.opens shape.opens
  have added := opened.cellAdded opens
  rw [tables] at added
  refine ⟨?_, ?_⟩
  · cases cell : isKind .cell tag with
    | false =>
        rw [CellAdded, cell, if_neg Bool.false_ne_true] at added
        rw [Library.Outline.ofKind_start_other cell, added]
        exact held.cells
    | true =>
        rw [CellAdded, cell, if_pos rfl] at added
        obtain ⟨info, more, form, empty⟩ := added
        rw [Library.Outline.ofKind_start_same cell, more]
        exact held.cells.concat ⟨form, fun takes => empty (form.trans takes)⟩
  · intro top below same kind
    rw [Library.Outline.start_opened, List.cons.injEq] at same
    obtain ⟨rfl, -⟩ := same
    have cell : isKind .cell tag = true := decide_eq_true kind
    rw [Library.Outline.rank_fresh, Library.Outline.ofKind_start_same cell, List.length_append]
    rfl

/-! ## Text -/

/-- Text elsewhere changes no Cell. -/
theorem CellsHold.other (held : CellsHold outline state) (coherent : outline.Coherent)
    (notCell : ∀ top below, outline.opened = top :: below → top.tag.kind ≠ .cell) (text : Text)
    (same : allCells state'.tables = allCells state.tables) :
    CellsHold (outline.append text) state' := by
  have kept : (outline.append text).ofKind (isKind .cell) = outline.ofKind (isKind .cell) := by
    cases opened : outline.opened with
    | nil =>
        unfold Library.Outline.append
        rw [opened]
    | cons top below =>
        exact coherent.ofKind_append_other opened
          (by simpa [isKind] using notCell top below opened) text
  refine ⟨?_, ?_⟩
  · rw [kept, same]
    exact held.cells
  · rw [Library.Outline.append_opened, Library.Outline.rank_append, kept]
    exact held.last

theorem Opens.openCell_of_top (opens : Opens outline state) (opened : outline.opened = top :: below)
    (kind : top.tag.kind = .cell) : ∃ place, openCell state = some place := by
  have isOpen : state.openTableCellIndex.isSome = true := by
    rw [opens.cell]
    exact Library.Outline.openIndex_isSome.mpr
      ⟨top, by rw [opened]; exact List.mem_cons_self, decide_eq_true kind⟩
  obtain ⟨c, inCell⟩ := Option.isSome_iff_exists.mp isOpen
  obtain ⟨t, r, inTable, inRow, -⟩ := opens.lastCell c inCell
  exact ⟨(t, r, c), by rw [openCell, inTable, inRow, inCell]⟩

/-- The open Cell is the last of all, at the rank of its element. -/
theorem CellsHold.open_cell (held : CellsHold outline state) (opens : Opens outline state)
    (opened : outline.opened = top :: below) (kind : top.tag.kind = .cell)
    {place : Nat × Nat × Nat} (inside : openCell state = some place) :
    (allCells state.tables)[outline.rank (isKind .cell) top]? = openCellInfo state ∧
      ∀ text, allCells (addCellText state place text).tables =
        (allCells state.tables).modify (outline.rank (isKind .cell) top)
          fun cell => { cell with value := cell.value ++ text } := by
  have places := inside
  unfold openCell at inside
  split at inside
  · rename_i t r c inTable inRow inCell
    rw [Option.some.injEq] at inside
    subst inside
    obtain ⟨before, table, row, there, inRows, cells, changed⟩ := opens.allCells_eq inTable inRow
    obtain ⟨t', r', inTable', inRow', counts⟩ := opens.lastCell c inCell
    obtain rfl : t = t' := Option.some.inj (inTable.symm.trans inTable')
    obtain rfl : r = r' := Option.some.inj (inRow.symm.trans inRow')
    rw [cellCount, there, Option.bind_some, inRows, Option.map_some, Option.some.injEq] at counts
    have last := held.last top below opened kind
    rw [held.cells.length_eq, cells, List.length_append, counts] at last
    have rank : outline.rank (isKind .cell) top = before.length + c := by omega
    refine ⟨?_, fun text => ?_⟩
    · rw [rank, cells, List.getElem?_append_right (Nat.le_add_right _ _), Nat.add_sub_cancel_left,
        openCellInfo, places, Option.bind_some, there, Option.bind_some, inRows, Option.bind_some]
    · rw [rank, cells, Library.modify_append_right]
      exact changed _
  · cases inside

theorem preserved_cellsHold : Preserved options platform CellsHold where
  empty := ⟨.nil, nofun⟩
  declared held := ⟨held.cells, held.last⟩
  start := by
    intro outline state state' tag shape held started
    exact held.start shape started
  close := by
    intro outline state closed top below shape held opened close
    refine ⟨?_, ?_⟩
    · have same : closed.tables = state.tables := by
        cases close <;> rfl
      show Library.Matches _ _ (allCells closed.tables)
      rw [same]
      exact held.cells
    · intro inner rest opened' kind
      rw [Library.Outline.finish_opened, opened, List.tail_cons] at opened'
      have leaf := not_cell_of_path shape.stacked.placed shape.stacked.coherent.opened
      rw [opened, List.tail_cons, opened'] at leaf
      exact absurd kind (leaf inner List.mem_cons_self)
  text := by
    intro outline state state' text shape held taken
    have coherent := shape.stacked.coherent
    by_cases isCell : ∃ top below, outline.opened = top :: below ∧ top.tag.kind = .cell
    · obtain ⟨top, below, opened, kind⟩ := isCell
      obtain ⟨place, inside⟩ := shape.opens.openCell_of_top opened kind
      obtain ⟨found, changed⟩ := held.open_cell shape.opens opened kind inside
      have last : ∀ top below, (outline.append text).opened = top :: below →
          top.tag.kind = .cell → (outline.append text).rank (isKind .cell) top + 1 =
            ((outline.append text).ofKind (isKind .cell)).length := by
        rw [Library.Outline.append_opened, Library.Outline.rank_append,
          Library.Outline.length_ofKind_append]
        exact held.last
      cases taken with
      | empty none =>
          subst none
          rw [Library.Outline.append_nil]
          exact held
      | encoded _ encoded =>
          obtain ⟨top', below', opened', encoded⟩ := shape.encodes.top_encoded encoded
          obtain ⟨rfl, rfl⟩ := List.cons.inj (opened.symm.trans opened')
          simp [isEncoded, isInlineProperty, isInlineIccProfile, kind] at encoded
      | cell _ place' inside' accepts =>
          obtain rfl : place = place' := Option.some.inj (inside.symm.trans inside')
          refine ⟨?_, last⟩
          rw [changed]
          refine Library.Matches.append coherent held.cells opened (decide_eq_true kind) ?_
          intro element cell same there holds
          refine ⟨by rw [Library.Element.extendAt_tag]; exact holds.form, fun takes => ?_⟩
          rw [Library.Element.extendAt_tag] at takes
          rw [Library.Element.extendAt_same (congrArg Library.Frame.index same)]
          exact congrArg (· ++ text) (holds.value takes)
      | cellSpace _ place' inside' refuses =>
          refine ⟨?_, last⟩
          have kept : Library.Matches CellHolds ((outline.append text).ofKind (isKind .cell))
              ((allCells state.tables).modify (outline.rank (isKind .cell) top) id) :=
            Library.Matches.append coherent held.cells opened (decide_eq_true kind)
              fun element cell _ there holds => by
                refine ⟨by rw [Library.Element.extendAt_tag]; exact holds.form, fun takes => ?_⟩
                rw [found] at there
                rw [there, Option.any_some, holds.form] at refuses
                rw [Library.Element.extendAt_tag, refuses] at takes
                cases takes
          rwa [List.modify_id] at kept
      | extension _ noCell => simp [inside] at noCell
      | property _ noCell => simp [inside] at noCell
      | stray _ noCell => simp [inside] at noCell
    · simp only [not_exists, not_and] at isCell
      refine held.other coherent isCell text ?_
      cases taken with
      | encoded _ inside run => rw [(decodeEmbeddedText_frame run).2.2]
      | cell _ place inside =>
          obtain ⟨top, below, opened, kind⟩ := shape.top_cell (openCell_isSome inside)
          exact absurd kind (isCell top below opened)
      | _ => rfl

end

end Mmxisf.Reader
