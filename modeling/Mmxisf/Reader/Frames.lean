/-
# Reader.Frames -- what a start tag leaves as it was

A branch changes what its element is kept in.  `Started.branch` takes a start tag
apart into the state after it was counted, pushed and identified, and the branch;
`Opened.tablePart` and `Opened.rootClosed` say what the branches leave.  At the end
of a header nothing is open.
-/
import Mmxisf.Reader.Accepted

namespace Mmxisf.Reader

set_option autoImplicit false

/-- What Tables are kept in. -/
structure TablePart where
  tables : List TableInfo
  tableStructures : List TableStructureInfo
  openStructureIndex : Option Nat

def tablePart (state : XmlBuilder) : TablePart :=
  ⟨state.tables, state.tableStructures, state.openStructureIndex⟩

/-- A Table, or what stands in one. -/
def isTablePart (tag : XmlTag) : Bool :=
  isKind .table tag || isKind .tableStructure tag || isKind .field tag || isKind .row tag ||
    isKind .cell tag

section

variable {options : ReaderOptions} {platform : Platform} {outline : HeaderOutline}
  {state state' identified : XmlBuilder} {tag : XmlTag}

/-- The state that the branch of a start tag runs on. -/
structure Before (options : ReaderOptions) (state : XmlBuilder) (element : ElementContext)
    (identified : XmlBuilder) : Prop where
  entered : ∃ base index ranges, ExtensionRecorded options
      { state with depth := state.depth + 1, nodes := state.nodes + 1 } element base index ∧
    ((state.sawRoot = false ∧ identified = seeRoot (enteredState base element index ranges)) ∨
      (state.depth ≠ 0 ∧
        Identified options (enteredState base element index ranges) element identified))

/-- The root takes no branch. -/
theorem Started.branch (started : Started options platform state (tag.context (parentName outline))
    state') : ∃ identified, Before options state (tag.context (parentName outline)) identified ∧
      Opened options platform identified (tag.context (parentName outline)) state' := by
  obtain ⟨-, -, -, -, -, base, index, ranges, extended, opened⟩ := started
  rcases opened with ⟨-, unseen, isXisf, named, rfl⟩ | ⟨inside, identified, identify, opened⟩
  · refine ⟨_, ⟨base, index, ranges, extended, .inl ⟨unseen, rfl⟩⟩, .unhandled (fun _ => ?_) rfl⟩
    rw [named]
    decide
  · exact ⟨identified, ⟨base, index, ranges, extended, .inr ⟨inside, identify⟩⟩, opened⟩

theorem Before.tablePart {element : ElementContext}
    (before : Before options state element identified) :
    tablePart identified = tablePart state ∧ identified.openTableIndex = state.openTableIndex ∧
      identified.rootClosed = state.rootClosed := by
  obtain ⟨base, index, ranges, extended, ⟨-, rfl⟩ | ⟨-, identify⟩⟩ := before
  · cases extended <;> exact ⟨rfl, rfl, rfl⟩
  · cases extended <;> cases identify <;> exact ⟨rfl, rfl, rfl⟩

theorem Before.opens {element : ElementContext} (before : Before options state element identified)
    (opens : Opens outline state) : Opens outline identified := by
  obtain ⟨base, index, ranges, extended, ⟨-, rfl⟩ | ⟨-, identify⟩⟩ := before
  · exact (opens.enter extended).seeRoot
  · exact (opens.enter extended).identify identify

theorem Before.counted {element : ElementContext} (before : Before options state element identified)
    (counted : Counted outline state) : Counted outline identified := by
  obtain ⟨base, index, ranges, extended, ⟨-, rfl⟩ | ⟨-, identify⟩⟩ := before
  · exact (counted.enter extended).seeRoot
  · exact (counted.enter extended).identify identify

theorem Before.depth {element : ElementContext} (before : Before options state element identified) :
    identified.depth = state.depth + 1 := by
  obtain ⟨base, index, ranges, extended, ⟨-, rfl⟩ | ⟨-, identify⟩⟩ := before
  · cases extended <;> rfl
  · cases extended <;> cases identify <;> rfl

theorem Opened.frame (opened : Opened options platform identified
      (tag.context (parentName outline)) state') :
    state'.rootClosed = identified.rootClosed ∧ state'.sawRoot = identified.sawRoot ∧
      (isTablePart tag = false → Reader.tablePart state' = Reader.tablePart identified) := by
  have inside {kind : ElementKind} (same : tag.kind = kind)
      (part : kind ∈ [ElementKind.table, .tableStructure, .field, .row, .cell])
      (other : isTablePart tag = false) : False := by
    simp only [List.mem_cons, List.not_mem_nil, or_false] at part
    rcases part with rfl | rfl | rfl | rfl | rfl <;> simp [isTablePart, isKind, same] at other
  cases opened with
  | unhandled unknown same =>
      subst same
      exact ⟨rfl, rfl, fun _ => rfl⟩
  | table isXisf named run =>
      have kind := kind_of_name .table (by decide) isXisf named
      obtain ⟨-, -, -, -, -, -, rfl⟩ := startTable_eq run
      exact ⟨rfl, rfl, fun other => (inside kind (by decide) other).elim⟩
  | tableStructure isXisf named run =>
      have kind := kind_of_name .tableStructure (by decide) isXisf named
      obtain ⟨-, -, ⟨-, -, rfl⟩ | ⟨-, -, -, rfl⟩⟩ := startStructure_eq run <;>
        exact ⟨rfl, rfl, fun other => (inside kind (by decide) other).elim⟩
  | field isXisf named run =>
      have kind := kind_of_name .field (by decide) isXisf named
      obtain ⟨-, -, -, -, rfl⟩ := startField_eq run
      exact ⟨rfl, rfl, fun other => (inside kind (by decide) other).elim⟩
  | row isXisf named run =>
      have kind := kind_of_name .row (by decide) isXisf named
      obtain ⟨-, -, -, -, rfl⟩ := startRow_eq run
      exact ⟨rfl, rfl, fun other => (inside kind (by decide) other).elim⟩
  | cell isXisf named run =>
      have kind := kind_of_name .cell (by decide) isXisf named
      obtain ⟨-, -, -, -, -, -, -, -, -, -, -, -, -, rfl⟩ := startCell_eq run
      exact ⟨rfl, rfl, fun other => (inside kind (by decide) other).elim⟩
  | iccProfile isXisf named run =>
      obtain ⟨-, -, -, -, -, ⟨-, rfl⟩ | ⟨-, -, rfl⟩⟩ := startIccProfile_eq run <;>
        exact ⟨rfl, rfl, fun _ => rfl⟩
  | ancillary isXisf which named run =>
      obtain ⟨-, -, -, -, -, rfl⟩ := startAncillary_eq run
      exact ⟨rfl, rfl, fun _ => rfl⟩
  | thumbnail isXisf named run =>
      obtain ⟨-, -, -, -, -, -, -, -, rfl⟩ := startThumbnail_eq run
      exact ⟨rfl, rfl, fun _ => rfl⟩
  | data isXisf named run =>
      obtain ⟨-, -, ⟨-, -, -, rfl⟩ | ⟨-, -, -, -, rfl⟩⟩ := startData_eq run <;>
        exact ⟨rfl, rfl, fun _ => rfl⟩
  | image isXisf named run =>
      obtain ⟨-, -, -, -, -, -, -, rfl⟩ := startImage_eq run
      exact ⟨rfl, rfl, fun _ => rfl⟩
  | metadata isXisf named run =>
      obtain ⟨-, -, rfl⟩ := startMetadata_eq run
      exact ⟨rfl, rfl, fun _ => rfl⟩
  | entry isXisf named run =>
      obtain ⟨-, -, -, -, -, -, -, ⟨-, rfl⟩ | ⟨-, -, -, -, rfl⟩ | ⟨-, -, rfl⟩⟩ :=
        startMetadataEntry_eq run <;>
        exact ⟨rfl, rfl, fun _ => rfl⟩

/-! ## Where text goes -/

/-- The Cell that takes text. -/
theorem Opens.openCell_eq (opens : Opens outline state) {place : Nat × Nat × Nat}
    (isOpen : openCell state = some place) : ∃ table row cell,
      state.tables[place.1]? = some table ∧ table.rows[place.2.1]? = some row ∧
        row.cells[place.2.2]? = some cell := by
  unfold openCell at isOpen
  cases inTable : state.openTableIndex with
  | none => simp [inTable] at isOpen
  | some t =>
      cases inRow : state.openTableRowIndex with
      | none => simp [inTable, inRow] at isOpen
      | some r =>
          cases inCell : state.openTableCellIndex with
          | none => simp [inTable, inRow, inCell] at isOpen
          | some c =>
              obtain ⟨t', r', table, row, inTable', inRow', there, inRows, small⟩ :=
                opens.cell_eq inCell
              obtain rfl : t = t' := Option.some.inj (inTable.symm.trans inTable')
              obtain rfl : r = r' := Option.some.inj (inRow.symm.trans inRow')
              simp only [inTable, inRow, inCell, Option.some.injEq] at isOpen
              subst isOpen
              exact ⟨table, row, _, there, inRows, List.getElem?_eq_getElem small⟩

/-- The extension element that takes text. -/
theorem Stacked.extension_eq (stacked : Stacked outline state) {index : Nat}
    (inside : state.extensionStack.headD none = some index) : ∃ top rest,
      outline.opened = top :: rest ∧ top.tag.kind = .foreign ∧
        index = outline.rank (isKind .foreign) top ∧ index < state.extensionElements.length := by
  rw [stacked.extensionStack] at inside
  cases opened : outline.opened with
  | nil => simp [opened] at inside
  | cons top rest =>
      rw [opened, List.map_cons, List.headD_cons, extensionIndex] at inside
      split at inside
      · rename_i foreign
        rw [Option.some.injEq] at inside
        refine ⟨top, rest, rfl, foreign, inside.symm, ?_⟩
        rw [stacked.extensions, ← inside]
        exact rank_lt stacked.coherent (by rw [opened]; exact List.mem_cons_self)
          (decide_eq_true foreign)
      · cases inside

/-! ## The end of the root -/

/-- Once the root has ended nothing is open, and no other root starts. -/
structure RootTracked (outline : HeaderOutline) (state : XmlBuilder) : Prop where
  seen : outline.opened ≠ [] → state.sawRoot = true
  closed : state.rootClosed = true → outline.opened = [] ∧ state.sawRoot = true

theorem Closed.root {isXisf : Bool} {name : Text} {closed : XmlBuilder}
    (close : Closed state isXisf name closed) : closed.rootClosed = state.rootClosed ∧
      closed.sawRoot = state.sawRoot ∧ closed.depth = state.depth := by
  cases close <;> exact ⟨rfl, rfl, rfl⟩

theorem TextTaken.root {text : Text} (taken : TextTaken options state text state') :
    state'.rootClosed = state.rootClosed ∧ state'.sawRoot = state.sawRoot := by
  cases taken with
  | encoded state' inside run =>
      obtain ⟨decoder, bytes, -, -, added, count, ⟨-, rfl⟩, rfl⟩ := decodeEmbeddedText_eq run
      unfold addBytes
      split <;> exact ⟨rfl, rfl⟩
  | _ => exact ⟨rfl, rfl⟩

theorem preserved_rootTracked : Preserved options platform RootTracked where
  empty := ⟨fun impossible => absurd rfl impossible, fun impossible => by cases impossible⟩
  declared tracked := ⟨tracked.seen, tracked.closed⟩
  start := by
    intro outline state state' tag shape tracked started
    obtain ⟨identified, before, opened⟩ := started.branch
    obtain ⟨sameClosed, sameSeen, -⟩ := opened.frame
    obtain ⟨-, -, sameClosed'⟩ := before.tablePart
    obtain ⟨base, index, ranges, extended, root⟩ := before
    have inner : state.depth ≠ 0 → state.sawRoot = true := fun inside => tracked.seen fun empty =>
      inside (by rw [shape.stacked.depth, empty]; rfl)
    have sawRoot : state'.sawRoot = true := by
      rw [sameSeen]
      rcases root with ⟨-, rfl⟩ | ⟨inside, identify⟩
      · rfl
      · rw [← inner inside]
        cases extended <;> cases identify <;> rfl
    refine ⟨fun _ => sawRoot, fun closed => ?_⟩
    rw [sameClosed, sameClosed'] at closed
    obtain ⟨empty, seen⟩ := tracked.closed closed
    rcases root with ⟨unseen, -⟩ | ⟨inside, -⟩
    · rw [seen] at unseen
      cases unseen
    · rw [shape.stacked.depth, empty] at inside
      exact absurd rfl inside
  close := by
    intro outline state closed top below shape tracked opened close
    obtain ⟨sameClosed, sameSeen, sameDepth⟩ := close.root
    have seen : state.sawRoot = true := tracked.seen (by rw [opened]; exact List.cons_ne_nil _ _)
    refine ⟨fun _ => sameSeen.trans seen, fun ended => ⟨?_, sameSeen.trans seen⟩⟩
    rw [popElement, sameClosed, sameDepth, shape.stacked.depth, opened] at ended
    rw [Library.Outline.finish_opened, opened, List.tail_cons]
    by_cases last : below.length = 0
    · exact List.eq_nil_of_length_eq_zero last
    · rw [if_neg (by simpa using last)] at ended
      have empty := (tracked.closed ended).1
      rw [opened] at empty
      cases empty
  text := by
    intro outline state state' text shape tracked taken
    obtain ⟨sameClosed, sameSeen⟩ := taken.root
    refine ⟨fun inside => sameSeen.trans (tracked.seen ?_), fun closed => ?_⟩
    · rwa [Library.Outline.append_opened] at inside
    · rw [Library.Outline.append_opened, sameSeen]
      exact tracked.closed (sameClosed.symm.trans closed)

end

/-- At the end of an accepted header nothing is open. -/
theorem AcceptedFrom.opened_nil {options : ReaderOptions} {platform : Platform}
    {fileSize headerLength : Nat} {parsed : ParsedHeader}
    (parser : ParserRun options platform)
    (checked : AcceptedFrom options fileSize headerLength parser.state parsed) :
    parser.outline.opened = [] := by
  have closed := (checkCompleteness_eq checked.complete).rootClosed
  exact ((parser.holds preserved_rootTracked).closed closed).1

end Mmxisf.Reader
