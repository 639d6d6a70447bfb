/-
# Reader.TextHeld -- what Properties and extension elements hold

The value of a Property of text and the text of an extension element are compared
with the content of their element, in one list each.  Text goes to the innermost
element where it is `TextInPlace`; for an extension element it always does.
-/
import Mmxisf.Reader.TextTarget

namespace Mmxisf.Reader

set_option autoImplicit false

/-- Outside encoded blocks, text here goes to the Property that it stands directly
in, or to none. -/
def TextInPlace (outline : HeaderOutline) : Prop :=
  ∀ top below, outline.opened = top :: below → isEncoded top.tag = false →
    textTarget outline = if isTextTag top.tag then some top else none

/-- What holds where the parser is given text. -/
def isInPlace (outline : HeaderOutline) (text : Text) : Prop := text ≠ [] → TextInPlace outline

section

variable {options : ReaderOptions} {platform : Platform} {outline : HeaderOutline}
  {state state' identified : XmlBuilder} {tag : XmlTag} {top : HeaderFrame}
  {below : List HeaderFrame}

/-! ## Encoded blocks -/

theorem Encodes.top_encoded (encodes : Encodes outline state)
    (inside : isEncodedBlockOpen state = true) :
    ∃ top below, outline.opened = top :: below ∧ isEncoded top.tag = true := by
  have data {kind : ElementKind} {index : Nat} (found : dataIndex outline kind = some index) :
      ∃ top below, outline.opened = top :: below ∧ isEncoded top.tag = true := by
    obtain ⟨top, owner, rest, opened, kind, -, -⟩ := dataIndex_eq_some found
    exact ⟨top, owner :: rest, opened, by simp [isEncoded, kind]⟩
  simp only [isEncodedBlockOpen, Bool.or_eq_true, Option.isSome_iff_exists] at inside
  rcases inside with ((⟨index, image⟩ | ⟨index, property⟩) | ⟨index, profile⟩) | ⟨index, thumbnail⟩
  · exact data (encodes.image.symm.trans image)
  · obtain ⟨top, rest, opened, inline, -⟩ :=
      innermostIndex_eq_some (encodes.property.symm.trans property)
    exact ⟨top, rest, opened, by simp [isEncoded, inline]⟩
  · obtain ⟨top, rest, opened, inline, -⟩ :=
      innermostIndex_eq_some (encodes.iccProfile.symm.trans profile)
    exact ⟨top, rest, opened, by simp [isEncoded, inline]⟩
  · exact data (encodes.thumbnail.symm.trans thumbnail)

theorem isEncoded_of_isTextTag (isText : isTextTag tag = true) : isEncoded tag = false := by
  have kind := isTextTag_kind isText
  simp only [isTextTag, Bool.and_eq_true, Option.isNone_iff_eq_none] at isText
  simp [isEncoded, isInlineProperty, isInlineIccProfile, hasInlineBlock, kind, isText.2]

theorem isEncoded_foreign (foreign : tag.kind = .foreign) : isEncoded tag = false := by
  simp [isEncoded, isInlineProperty, isInlineIccProfile, foreign]

/-- Only the innermost element can be a Cell. -/
theorem not_cell_of_path {elements : List HeaderElement}
    (placed : ∀ element ∈ elements, HasPlace element.tag.kind (pathKinds element.ancestors))
    {path : List HeaderFrame} (isPath : Library.Outline.IsPath elements path) :
    ∀ frame ∈ path.tail, frame.tag.kind ≠ .cell := by
  induction path with
  | nil => simp
  | cons top below ih =>
      obtain ⟨⟨element, there, -, around⟩, -, inner⟩ := isPath
      intro frame member
      cases below with
      | nil => cases member
      | cons parent rest =>
          rcases List.mem_cons.mp member with rfl | member
          · have leaf := (placed element (List.mem_of_getElem? there)).leaf.1
            rw [around, pathKinds, List.map_cons, List.head?_cons, ne_eq, Option.some.injEq] at leaf
            exact leaf
          · exact ih inner frame member

/-- The open Cell is innermost. -/
theorem Shape.top_cell (shape : Shape outline state)
    (inside : state.openTableCellIndex.isSome = true) :
    ∃ top below, outline.opened = top :: below ∧ top.tag.kind = .cell := by
  rw [shape.opens.cell] at inside
  obtain ⟨frame, member, isCell⟩ := Library.Outline.openIndex_isSome.mp inside
  have kind : frame.tag.kind = .cell := by simpa [isKind] using isCell
  have others := not_cell_of_path shape.stacked.placed shape.stacked.coherent.opened
  cases opened : outline.opened with
  | nil =>
      rw [opened] at member
      cases member
  | cons top below =>
      rw [opened] at member others
      rcases List.mem_cons.mp member with rfl | member
      · exact ⟨_, _, rfl, kind⟩
      · exact absurd kind (others frame member)

theorem openCell_isSome {place : Nat × Nat × Nat} (inside : openCell state = some place) :
    state.openTableCellIndex.isSome = true := by
  unfold openCell at inside
  split at inside
  · rename_i found
    rw [found]
    rfl
  · cases inside

/-- Text of an encoded block changes blocks only. -/
theorem decodeEmbeddedText_frame {text : Text}
    (run : decodeEmbeddedText options state text = .ok state') :
    state'.metadata = state.metadata ∧ state'.extensionElements = state.extensionElements ∧
      state'.tables = state.tables := by
  obtain ⟨decoder, bytes, -, -, added, count, ⟨-, rfl⟩, rfl⟩ := decodeEmbeddedText_eq run
  unfold addBytes
  split <;> exact ⟨rfl, rfl, rfl⟩

/-- No text changes nothing. -/
theorem TextTaken.of_nil (taken : TextTaken options state [] state') : state' = state := by
  cases taken with
  | encoded _ inside run =>
      rw [decodeEmbeddedText, Except.ok.injEq] at run
      exact run.symm
  | cell outside place inside accepts within =>
      have cell : (fun cell : TableCellInfo => { cell with value := cell.value ++ [] }) = id := by
        funext cell
        rw [List.append_nil]
        rfl
      have row : (fun row : TableRowInfo => (⟨row.cells.modify place.2.2 id⟩ : TableRowInfo)) =
          id := by
        funext row
        rw [List.modify_id]
        rfl
      have table : (fun table : TableInfo => modifyRows table place.2.1 id) = id := by
        funext table
        rw [modifyRows, List.modify_id]
        rfl
      rw [addCellText, cell, row, table, List.modify_id]
      rfl
  | extension outside noCell index inside within =>
      simp only [List.append_nil, List.length_nil, Nat.add_zero]
      rw [show (fun element : ExtensionElement => element) = id from rfl, List.modify_id]
  | property outside noCell known index inside within =>
      simp only [List.append_nil]
      rw [show (fun entry : MetadataEntry => entry) = id from rfl, List.modify_id]
  | _ => rfl

/-! ## Properties -/

/-- A Property of text has its content as its value. -/
structure EntryHolds (element : HeaderElement) (entry : MetadataEntry) : Prop where
  form : entry.valueForm = .characterData ↔ isTextTag element.tag = true
  value : isTextTag element.tag = true → entry.value = element.content

def EntriesHold (outline : HeaderOutline) (state : XmlBuilder) : Prop :=
  Library.Matches EntryHolds (outline.ofKind isEntry) state.metadata

theorem EntryOf.holds {entry : MetadataEntry} {parent : Text} (isEntry : isEntry tag = true)
    (of : EntryOf identified (tag.context parent) entry) :
    EntryHolds (outline.fresh tag) entry := by
  have isText : isTextProperty (tag.context parent) = isTextTag tag :=
      isTextProperty_context isEntry
  refine ⟨?_, fun text => ?_⟩
  · rw [of.valueForm, isText, Library.Outline.fresh_tag]
    cases text : isTextTag tag with
    | false =>
        split
        · simp
        · simp
    | true =>
        have none : entryLocation (tag.context parent) = none := by
          have property := ((XmlTag.kind_eq (by decide)).mp (isTextTag_kind text)).2
          simp only [isTextTag, Bool.and_eq_true, Option.isNone_iff_eq_none] at text
          rw [entryLocation, if_pos (by exact property)]
          exact text.2
        simp [none]
  · rw [Library.Outline.fresh_tag, isTextTag, Bool.and_eq_true, Bool.and_eq_true,
      Option.isNone_iff_eq_none] at text
    have none : (tag.context parent).attr "value" = none := text.1.2
    rw [of.value, ElementContext.attributeOr, none]
    rfl

theorem EntriesHold.start (held : EntriesHold outline state)
    (started : Started options platform state (tag.context (parentName outline)) state') :
    EntriesHold (outline.start tag) state' := by
  obtain ⟨identified, before, opened⟩ := started.branch
  obtain ⟨metadata, -⟩ := before.metadata
  rw [EntriesHold, Library.Outline.ofKind_start]
  rcases opened.entries.2 with ⟨other, same⟩ | ⟨isEntry, entry, of, more⟩
  · rw [other, if_neg Bool.false_ne_true, List.append_nil, same, metadata]
    exact held
  · rw [isEntry, if_pos rfl, more, metadata]
    exact held.concat (of.holds isEntry)

/-- Text elsewhere changes no value, where it is in place. -/
theorem EntriesHold.other (held : EntriesHold outline state) (coherent : outline.Coherent)
    (opened : outline.opened = top :: below) (other : isTextTag top.tag = false) (text : Text) :
    EntriesHold (outline.append text) state := by
  cases entry : isEntry top.tag with
  | false =>
      rw [EntriesHold, coherent.ofKind_append_other opened entry]
      exact held
  | true =>
      have kept : Library.Matches EntryHolds ((outline.append text).ofKind isEntry)
          (state.metadata.modify (outline.rank isEntry top) id) :=
        Library.Matches.append coherent held opened entry fun element record same _ holds => by
          have tag : element.tag = top.tag := congrArg Library.Frame.tag same
          refine ⟨by simpa using holds.form, fun isText => ?_⟩
          rw [Library.Element.extendAt_tag, tag, other] at isText
          cases isText
      rwa [List.modify_id] at kept

/-- Text that goes to no Property. -/
theorem EntriesHold.taken_elsewhere {next : HeaderOutline} (held : EntriesHold next state)
    (none : state.textMetadataIndex = none) {text : Text}
    (taken : TextTaken options state text state') : EntriesHold next state' := by
  cases taken with
  | encoded _ inside run =>
      rw [EntriesHold, (decodeEmbeddedText_frame run).1]
      exact held
  | property _ _ _ index found =>
      rw [none] at found
      cases found
  | _ => exact held

/-- Text directly in the Property of text that takes it. -/
theorem EntriesHold.taken (held : EntriesHold outline state) (shape : Shape outline state)
    (opened : outline.opened = top :: below) (isText : isTextTag top.tag = true) {text : Text}
    (tracked : state.textMetadataIndex = some (outline.rank isEntry top)) (some : text ≠ [])
    (taken : TextTaken options state text state') : EntriesHold (outline.append text) state' := by
  have noCell : ¬ state.openTableCellIndex.isSome = true := by
    intro inside
    obtain ⟨top', below', opened', kind⟩ := shape.top_cell inside
    obtain ⟨rfl, rfl⟩ := List.cons.inj (opened.symm.trans opened')
    rw [isTextTag_kind isText] at kind
    cases kind
  cases taken with
  | empty none => exact absurd none some
  | encoded _ inside run =>
      obtain ⟨top', below', opened', encoded⟩ := shape.encodes.top_encoded inside
      obtain ⟨rfl, rfl⟩ := List.cons.inj (opened.symm.trans opened')
      rw [isEncoded_of_isTextTag isText] at encoded
      cases encoded
  | cell _ place inside => exact absurd (openCell_isSome inside) noCell
  | cellSpace _ place inside => exact absurd (openCell_isSome inside) noCell
  | extension _ _ index inside =>
      obtain ⟨top', below', opened', foreign, -⟩ := shape.stacked.extension_eq inside
      obtain ⟨rfl, rfl⟩ := List.cons.inj (opened.symm.trans opened')
      rw [isTextTag_kind isText] at foreign
      cases foreign
  | property _ _ _ index found =>
      rw [tracked, Option.some.injEq] at found
      subst found
      refine Library.Matches.append shape.stacked.coherent held opened
        (isEntry_of_isTextTag isText) ?_
      intro element entry same _ holds
      have tag : element.tag = top.tag := congrArg Library.Frame.tag same
      have index : element.index = top.index := congrArg Library.Frame.index same
      refine ⟨by simpa using holds.form, fun _ => ?_⟩
      rw [Library.Element.extendAt_same index]
      exact congrArg (· ++ text) (holds.value (by rw [tag, isText]))
  | stray _ _ _ none =>
      rw [tracked] at none
      cases none

theorem preserved_entriesHold : PreservedWhen options platform isInPlace
    (fun outline state => TextTracked outline state ∧ EntriesHold outline state) where
  empty := ⟨rfl, .nil⟩
  declared held := held
  start := by
    intro outline state state' tag shape held started
    exact ⟨preserved_textTracked.start shape held.1 started, held.2.start started⟩
  close := by
    intro outline state closed top below shape held opened close
    have rules : Preserved options platform TextTracked := preserved_textTracked
    refine ⟨rules.close shape held.1 opened close, ?_⟩
    have same : closed.metadata = state.metadata := by
      cases close <;> rfl
    show Library.Matches _ _ closed.metadata
    rw [same]
    exact held.2
  text := by
    intro outline state state' text shape held inPlace taken
    have coherent := shape.stacked.coherent
    have rules : Preserved options platform TextTracked := preserved_textTracked
    refine ⟨rules.text shape held.1 taken, ?_⟩
    obtain ⟨tracked, held⟩ := held
    by_cases empty : text = []
    · subst empty
      rw [taken.of_nil, Library.Outline.append_nil]
      exact held
    cases opened : outline.opened with
    | nil =>
        have noTarget : textTarget outline = none := by
          rw [textTarget, opened]
          rfl
        have unchanged : outline.append text = outline := by
          unfold Library.Outline.append
          rw [opened]
        rw [TextTracked, noTarget] at tracked
        rw [unchanged]
        exact held.taken_elsewhere tracked taken
    | cons top below =>
        have isOpen : top ∈ outline.opened := by
          rw [opened]
          exact List.mem_cons_self
        cases outside : isEncodedBlockOpen state with
        | true =>
            obtain ⟨top', below', opened', encoded⟩ := shape.encodes.top_encoded outside
            obtain ⟨rfl, rfl⟩ := List.cons.inj (opened.symm.trans opened')
            have notText : isTextTag top.tag = false := by
              by_contra isText
              rw [isEncoded_of_isTextTag (by simpa using isText)] at encoded
              cases encoded
            have others := held.other coherent opened notText text
            cases taken with
            | encoded _ inside run =>
                rw [EntriesHold, (decodeEmbeddedText_frame run).1]
                exact others
            | empty none => exact absurd none empty
            | cell closed => simp [outside] at closed
            | cellSpace closed => simp [outside] at closed
            | extension closed => simp [outside] at closed
            | property closed => simp [outside] at closed
            | stray closed => simp [outside] at closed
        | false =>
            have plain := shape.encodes.none_open shape.stacked outside top isOpen
            rw [TextTracked, inPlace empty top below opened plain] at tracked
            cases isText : isTextTag top.tag with
            | false =>
                rw [isText, if_neg Bool.false_ne_true] at tracked
                exact (held.other coherent opened isText text).taken_elsewhere tracked taken
            | true =>
                rw [isText, if_pos rfl] at tracked
                exact held.taken shape opened isText tracked empty taken

/-! ## Extension elements -/

/-- An extension element has its content as its text. -/
def ExtensionsHold (outline : HeaderOutline) (state : XmlBuilder) : Prop :=
  Library.Matches (fun (element : HeaderElement) (extension : ExtensionElement) =>
    extension.text = element.content) (outline.ofKind (isKind .foreign)) state.extensionElements

theorem Opened.extensions {element : ElementContext}
    (opened : Opened options platform identified element state') :
    state'.extensionElements = identified.extensionElements := by
  cases opened with
  | unhandled unknown same => rw [same]
  | table isXisf named run =>
      obtain ⟨-, -, -, -, -, -, rfl⟩ := startTable_eq run
      rfl
  | tableStructure isXisf named run =>
      obtain ⟨-, -, ⟨-, -, rfl⟩ | ⟨-, -, -, rfl⟩⟩ := startStructure_eq run <;> rfl
  | field isXisf named run =>
      obtain ⟨-, -, -, -, rfl⟩ := startField_eq run
      rfl
  | row isXisf named run =>
      obtain ⟨-, -, -, -, rfl⟩ := startRow_eq run
      rfl
  | cell isXisf named run =>
      obtain ⟨-, -, -, -, -, -, -, -, -, -, -, -, -, rfl⟩ := startCell_eq run
      rfl
  | iccProfile isXisf named run =>
      obtain ⟨-, -, -, -, -, ⟨-, rfl⟩ | ⟨-, -, rfl⟩⟩ := startIccProfile_eq run <;> rfl
  | ancillary isXisf which named run =>
      obtain ⟨-, -, -, -, -, rfl⟩ := startAncillary_eq run
      rfl
  | thumbnail isXisf named run =>
      obtain ⟨-, -, -, -, -, -, -, -, rfl⟩ := startThumbnail_eq run
      rfl
  | data isXisf named run =>
      obtain ⟨-, -, ⟨-, -, -, rfl⟩ | ⟨-, -, -, -, rfl⟩⟩ := startData_eq run <;> rfl
  | image isXisf named run =>
      obtain ⟨-, -, -, -, -, -, -, rfl⟩ := startImage_eq run
      rfl
  | metadata isXisf named run =>
      obtain ⟨-, -, rfl⟩ := startMetadata_eq run
      rfl
  | entry isXisf named run =>
      obtain ⟨-, -, -, -, -, -, -, ⟨-, rfl⟩ | ⟨-, -, -, -, rfl⟩ | ⟨-, -, rfl⟩⟩ :=
        startMetadataEntry_eq run <;> rfl

/-- An element of another namespace adds an extension element with no text yet. -/
theorem Before.extensions (place : HasPlace tag.kind (pathKinds outline.opened))
    (stacked : Stacked outline state)
    (before : Before options state (tag.context (parentName outline)) identified) :
    (tag.kind ≠ .foreign ∧ identified.extensionElements = state.extensionElements) ∨
      (tag.kind = .foreign ∧ ∃ extension : ExtensionElement, extension.text = [] ∧
        identified.extensionElements = state.extensionElements ++ [extension]) := by
  obtain ⟨base, index, ranges, extended, entered⟩ := before
  have same : identified.extensionElements = base.extensionElements := by
    rcases entered with ⟨-, rfl⟩ | ⟨-, identify⟩
    · rfl
    · cases identify <;> rfl
  rw [same]
  cases extended with
  | known known =>
      refine .inl ⟨?_, rfl⟩
      rcases known with outermost | isXisf
      · have empty : outline.opened = [] := by
          have depth : state.depth + 1 ≤ 1 := outermost
          rw [stacked.depth] at depth
          exact List.eq_nil_of_length_eq_zero (by omega)
        rw [place.root (by rw [empty]; rfl)]
        decide
      · rw [ne_eq, XmlTag.kind_foreign]
        have xisf : tag.isXisf = true := isXisf
        simp [xisf]
  | extension foreign => exact .inr ⟨XmlTag.kind_foreign.mpr foreign, _, rfl, rfl⟩

theorem preserved_extensionsHold : Preserved options platform ExtensionsHold where
  empty := .nil
  declared held := held
  start := by
    intro outline state state' tag shape held started
    have place := hasPlace_start shape.stacked started
    obtain ⟨identified, before, opened⟩ := started.branch
    rw [ExtensionsHold, Library.Outline.ofKind_start, opened.extensions]
    rcases before.extensions place shape.stacked with ⟨other, same⟩ |
      ⟨foreign, extension, empty, more⟩
    · rw [same, if_neg (by simpa [isKind] using other), List.append_nil]
      exact held
    · rw [more, if_pos (by exact decide_eq_true foreign)]
      exact held.concat empty
  close := by
    intro outline state closed top below shape held opened close
    have same : closed.extensionElements = state.extensionElements := by
      cases close <;> rfl
    show Library.Matches _ _ closed.extensionElements
    rw [same]
    exact held
  text := by
    intro outline state state' text shape held taken
    have coherent := shape.stacked.coherent
    by_cases empty : text = []
    · subst empty
      rw [taken.of_nil, Library.Outline.append_nil]
      exact held
    cases opened : outline.opened with
    | nil =>
        have unchanged : outline.append text = outline := by
          unfold Library.Outline.append
          rw [opened]
        rw [unchanged]
        cases taken with
        | encoded _ inside run =>
            rw [ExtensionsHold, (decodeEmbeddedText_frame run).2.1]
            exact held
        | extension _ _ index inside =>
            obtain ⟨top, below, opened', -⟩ := shape.stacked.extension_eq inside
            rw [opened] at opened'
            cases opened'
        | _ => exact held
    | cons top below =>
        by_cases foreign : top.tag.kind = .foreign
        · have known : state.extensionStack.headD none ≠ none := by
            rw [shape.stacked.extensionStack, opened, List.map_cons, List.headD_cons,
              extensionIndex, if_pos foreign]
            exact Option.some_ne_none _
          have noCell : ¬ state.openTableCellIndex.isSome = true := by
            intro inside
            obtain ⟨top', below', opened', kind⟩ := shape.top_cell inside
            obtain ⟨rfl, rfl⟩ := List.cons.inj (opened.symm.trans opened')
            rw [foreign] at kind
            cases kind
          cases taken with
          | empty none => exact absurd none empty
          | encoded _ inside =>
              obtain ⟨top', below', opened', encoded⟩ := shape.encodes.top_encoded inside
              obtain ⟨rfl, rfl⟩ := List.cons.inj (opened.symm.trans opened')
              rw [isEncoded_foreign foreign] at encoded
              cases encoded
          | cell _ place inside => exact absurd (openCell_isSome inside) noCell
          | cellSpace _ place inside => exact absurd (openCell_isSome inside) noCell
          | property _ _ none => exact absurd none known
          | stray _ _ none => exact absurd none known
          | extension _ _ index inside =>
              obtain ⟨top', below', opened', -, rfl, -⟩ := shape.stacked.extension_eq inside
              obtain ⟨rfl, rfl⟩ := List.cons.inj (opened.symm.trans opened')
              refine Library.Matches.append coherent held opened (decide_eq_true foreign) ?_
              intro element extension same _ holds
              rw [Library.Element.extendAt_same (congrArg Library.Frame.index same)]
              exact congrArg (· ++ text) holds
        · have others : ExtensionsHold (outline.append text) state := by
            rw [ExtensionsHold, coherent.ofKind_append_other opened
              (by simpa [isKind] using foreign)]
            exact held
          cases taken with
          | encoded _ inside run =>
              rw [ExtensionsHold, (decodeEmbeddedText_frame run).2.1]
              exact others
          | extension _ _ index inside =>
              obtain ⟨top', below', opened', kind, -⟩ := shape.stacked.extension_eq inside
              obtain ⟨rfl, rfl⟩ := List.cons.inj (opened.symm.trans opened')
              exact absurd kind foreign
          | _ => exact others

end

end Mmxisf.Reader
