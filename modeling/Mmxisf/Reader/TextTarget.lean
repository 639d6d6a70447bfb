/-
# Reader.TextTarget -- which Property the parser is taking text for

`text_metadata_index` is set when a Property of text starts and is reset when any
Property ends.  So it is a function of the outline (`textTarget`): the innermost
open Property of text, unless a Property that started after it has ended.
-/
import Mmxisf.Reader.Frames

namespace Mmxisf.Reader

set_option autoImplicit false

/-- A Property with neither value nor location: its content is its value. -/
def isTextTag (tag : XmlTag) : Bool :=
  isKind .property tag && (tag.attr "value").isNone && (tag.attr "location").isNone

/-- Every Property that started after this element is still open. -/
def noneEnded (outline : HeaderOutline) (frame : HeaderFrame) : Bool :=
  (outline.ofKind (isKind .property)).all fun element =>
    element.index ≤ frame.index || decide (element.toFrame ∈ outline.opened)

/-- The Property that is taking text. -/
def textTarget (outline : HeaderOutline) : Option HeaderFrame :=
  (outline.opened.find? fun frame => isTextTag frame.tag).filter (noneEnded outline)

section

variable {options : ReaderOptions} {platform : Platform} {outline : HeaderOutline}
  {state state' identified : XmlBuilder} {tag : XmlTag} {frame : HeaderFrame}

/-! ## What a start tag does to the metadata -/

theorem isEntry_of_isTextTag (isText : isTextTag tag = true) : isEntry tag = true := by
  simp only [isTextTag, isKind, Bool.and_eq_true, decide_eq_true_eq] at isText
  simp [isEntry, isText.1.1]

theorem isTextTag_kind (isText : isTextTag tag = true) : tag.kind = .property := by
  simp only [isTextTag, isKind, Bool.and_eq_true, decide_eq_true_eq] at isText
  exact isText.1.1

theorem isTextProperty_context {parent : Text} (entry : isEntry tag = true) :
    isTextProperty (tag.context parent) = isTextTag tag := by
  have kinds : tag.kind = .property ∨ tag.kind = .fitsKeyword := by simpa [isEntry] using entry
  have named : tag.name = lit "Property" ↔ tag.kind = .property := by
    rcases kinds with kind | kind
    · simp [kind, ((XmlTag.kind_eq (by decide)).mp kind).2, ElementKind.name]
    · have name := ((XmlTag.kind_eq (by decide)).mp kind).2
      rw [kind, name]
      decide
  simp only [isTextProperty, isTextTag, isKind, XmlTag.context, named]
  rfl

theorem Before.metadata {element : ElementContext}
    (before : Before options state element identified) :
    identified.metadata = state.metadata ∧
      identified.textMetadataIndex = state.textMetadataIndex := by
  obtain ⟨base, index, ranges, extended, ⟨-, rfl⟩ | ⟨-, identify⟩⟩ := before
  · cases extended <;> exact ⟨rfl, rfl⟩
  · cases extended <;> cases identify <;> exact ⟨rfl, rfl⟩

/-- Only a Property or FITSKeyword adds an entry, and only a Property of text is
taken text for. -/
theorem Opened.entries {parent : Text}
    (opened : Opened options platform identified (tag.context parent) state') :
    state'.textMetadataIndex =
        (if isTextTag tag then some identified.metadata.length else identified.textMetadataIndex) ∧
      ((isEntry tag = false ∧ state'.metadata = identified.metadata) ∨
        (isEntry tag = true ∧ ∃ entry, EntryOf identified (tag.context parent) entry ∧
          state'.metadata = identified.metadata ++ [entry])) := by
  cases kind : isEntry tag with
  | true =>
      have run := opened.entry_run kind
      obtain ⟨entry, of, -, -, -, -, -, made⟩ := startMetadataEntry_eq run
      rw [isTextProperty_context kind] at made
      rcases made with ⟨isText, rfl⟩ | ⟨other, -, -, -, rfl⟩ | ⟨other, -, rfl⟩
      · exact ⟨by rw [if_pos isText], .inr ⟨rfl, entry, of, rfl⟩⟩
      · exact ⟨by rw [other, if_neg Bool.false_ne_true]; rfl, .inr ⟨rfl, entry, of, rfl⟩⟩
      · exact ⟨by rw [other, if_neg Bool.false_ne_true]; rfl, .inr ⟨rfl, entry, of, rfl⟩⟩
  | false =>
      have notText : isTextTag tag = false := by
        by_contra isText
        rw [isEntry_of_isTextTag (by simpa using isText)] at kind
        cases kind
      rw [notText, if_neg Bool.false_ne_true]
      suffices same : state'.textMetadataIndex = identified.textMetadataIndex ∧
          state'.metadata = identified.metadata from ⟨same.1, .inl ⟨rfl, same.2⟩⟩
      cases opened with
      | unhandled unknown same =>
          subst same
          exact ⟨rfl, rfl⟩
      | table isXisf named run =>
          obtain ⟨-, -, -, -, -, -, rfl⟩ := startTable_eq run
          exact ⟨rfl, rfl⟩
      | tableStructure isXisf named run =>
          obtain ⟨-, -, ⟨-, -, rfl⟩ | ⟨-, -, -, rfl⟩⟩ := startStructure_eq run <;> exact ⟨rfl, rfl⟩
      | field isXisf named run =>
          obtain ⟨-, -, -, -, rfl⟩ := startField_eq run
          exact ⟨rfl, rfl⟩
      | row isXisf named run =>
          obtain ⟨-, -, -, -, rfl⟩ := startRow_eq run
          exact ⟨rfl, rfl⟩
      | cell isXisf named run =>
          obtain ⟨-, -, -, -, -, -, -, -, -, -, -, -, -, rfl⟩ := startCell_eq run
          exact ⟨rfl, rfl⟩
      | iccProfile isXisf named run =>
          obtain ⟨-, -, -, -, -, ⟨-, rfl⟩ | ⟨-, -, rfl⟩⟩ := startIccProfile_eq run <;>
            exact ⟨rfl, rfl⟩
      | ancillary isXisf which named run =>
          obtain ⟨-, -, -, -, -, rfl⟩ := startAncillary_eq run
          exact ⟨rfl, rfl⟩
      | thumbnail isXisf named run =>
          obtain ⟨-, -, -, -, -, -, -, -, rfl⟩ := startThumbnail_eq run
          exact ⟨rfl, rfl⟩
      | data isXisf named run =>
          obtain ⟨-, -, ⟨-, -, -, rfl⟩ | ⟨-, -, -, -, rfl⟩⟩ := startData_eq run <;>
            exact ⟨rfl, rfl⟩
      | image isXisf named run =>
          obtain ⟨-, -, -, -, -, -, -, rfl⟩ := startImage_eq run
          exact ⟨rfl, rfl⟩
      | metadata isXisf named run =>
          obtain ⟨-, -, rfl⟩ := startMetadata_eq run
          exact ⟨rfl, rfl⟩
      | entry isXisf named run =>
          rcases named with property | keyword
          · simp [isEntry, kind_of_name .property (by decide) isXisf property] at kind
          · simp [isEntry, kind_of_name .fitsKeyword (by decide) isXisf keyword] at kind

/-! ## The target -/

theorem textTarget_eq_some (found : textTarget outline = some frame) :
    frame ∈ outline.opened ∧ isTextTag frame.tag = true ∧ noneEnded outline frame = true := by
  obtain ⟨found, none⟩ := Option.filter_eq_some_iff.mp found
  exact ⟨List.mem_of_find?_eq_some found,
    List.find?_some (p := fun frame : HeaderFrame => isTextTag frame.tag) found, none⟩

/-- Outside every Property there is no target. -/
theorem textTarget_eq_none (outside : ElementKind.property ∉ pathKinds outline.opened) :
    textTarget outline = none := by
  by_contra target
  obtain ⟨frame, found⟩ := Option.ne_none_iff_exists'.mp target
  obtain ⟨member, isText, -⟩ := textTarget_eq_some found
  exact outside (List.mem_map.mpr ⟨frame, member, isTextTag_kind isText⟩)

theorem noneEnded_iff : noneEnded outline frame = true ↔
    ∀ element ∈ outline.ofKind (isKind .property),
      element.index ≤ frame.index ∨ element.toFrame ∈ outline.opened := by
  simp [noneEnded]

theorem noneEnded_start (coherent : outline.Coherent) :
    noneEnded (outline.start tag) frame = noneEnded outline frame := by
  have old (element : HeaderElement) (inside : element ∈ outline.ofKind (isKind .property)) :
      element.toFrame ≠ (outline.fresh tag).toFrame := by
    intro same
    obtain ⟨i, there⟩ := List.getElem?_of_mem (List.mem_filter.mp inside).1
    have index := coherent.index i element there
    have range := (List.getElem?_eq_some_iff.mp there).1
    have equal : element.index = outline.elements.length := congrArg Library.Frame.index same
    omega
  rw [Bool.eq_iff_iff, noneEnded_iff, noneEnded_iff, Library.Outline.ofKind_start,
    Library.Outline.start_opened]
  constructor
  · intro all element inside
    refine (all element (List.mem_append_left _ inside)).imp id fun open_ => ?_
    exact (List.mem_cons.mp open_).resolve_left (old element inside)
  · intro all element inside
    rcases List.mem_append.mp inside with inside | new
    · exact (all element inside).imp id (List.mem_cons_of_mem _)
    · split at new
      · rw [List.mem_singleton.mp new]
        exact .inr List.mem_cons_self
      · cases new

/-- A Property of text that starts is the target; any other element leaves it. -/
theorem textTarget_start (coherent : outline.Coherent) :
    textTarget (outline.start tag) =
      if isTextTag tag then some (outline.fresh tag).toFrame else textTarget outline := by
  unfold textTarget
  rw [Library.Outline.start_opened]
  cases isText : isTextTag tag with
  | true =>
      rw [List.find?_cons_of_pos (by exact isText), if_pos rfl, Option.filter_eq_some_iff]
      refine ⟨rfl, ?_⟩
      rw [noneEnded_iff]
      intro element inside
      obtain ⟨i, there⟩ := List.getElem?_of_mem (List.mem_filter.mp inside).1
      have index := (coherent.start tag).index i element there
      have range := (List.getElem?_eq_some_iff.mp there).1
      rw [Library.Outline.start_elements, List.length_append, List.length_singleton] at range
      refine .inl ?_
      show element.index ≤ outline.elements.length
      omega
  | false =>
      rw [List.find?_cons_of_neg (by simp [isText]), if_neg Bool.false_ne_true]
      cases found : outline.opened.find? fun frame => isTextTag frame.tag with
      | none => rfl
      | some frame =>
          rw [Option.filter_some, Option.filter_some,
            noneEnded_start coherent]

/-- The end of a Property ends it as the target, and any around it. -/
theorem textTarget_finish_property (coherent : outline.Coherent) {top : HeaderFrame}
    {below : List HeaderFrame} (opened : outline.opened = top :: below)
    (kind : top.tag.kind = .property) : textTarget outline.finish = none := by
  by_contra target
  obtain ⟨frame, found⟩ := Option.ne_none_iff_exists'.mp target
  obtain ⟨member, -, none⟩ := textTarget_eq_some found
  rw [Library.Outline.finish_opened, opened, List.tail_cons] at member
  have path := coherent.opened
  rw [opened] at path
  obtain ⟨⟨element, there, same, -⟩, later, -⟩ := path
  have inside : element ∈ outline.finish.ofKind (isKind .property) := by
    refine List.mem_filter.mpr ⟨List.mem_of_getElem? there, ?_⟩
    rw [show element.tag = top.tag from congrArg Library.Frame.tag same, isKind, kind]
    rfl
  have index : element.index = top.index := congrArg Library.Frame.index same
  have after := later frame member
  rcases noneEnded_iff.mp none element inside with small | again
  · omega
  · rw [Library.Outline.finish_opened, opened, List.tail_cons, same] at again
    exact Nat.lt_irrefl _ (later top again)

theorem textTarget_finish_other {top : HeaderFrame} {below : List HeaderFrame}
    (opened : outline.opened = top :: below) (kind : top.tag.kind ≠ .property) :
    textTarget outline.finish = textTarget outline := by
  have notText : isTextTag top.tag = false := by
    by_contra isText
    exact kind (isTextTag_kind (by simpa using isText))
  have same (frame : HeaderFrame) : noneEnded outline.finish frame = noneEnded outline frame := by
    rw [Bool.eq_iff_iff, noneEnded_iff, noneEnded_iff, Library.Outline.finish_opened, opened,
      List.tail_cons]
    refine forall₂_congr fun element inside => or_congr_right ?_
    have other : element.toFrame ≠ top := by
      rintro rfl
      exact kind (by simpa [isKind] using (List.mem_filter.mp inside).2)
    rw [List.mem_cons, or_iff_right other]
  unfold textTarget
  rw [Library.Outline.finish_opened, opened, List.tail_cons,
    List.find?_cons_of_neg (by simp [notText])]
  congr 1
  funext frame
  exact same frame

theorem textTarget_append (text : Text) : textTarget (outline.append text) =
    textTarget outline := by
  have same (frame : HeaderFrame) :
      noneEnded (outline.append text) frame = noneEnded outline frame := by
    cases opened : outline.opened with
    | nil =>
        unfold Library.Outline.append
        rw [opened]
    | cons top below =>
        rw [Bool.eq_iff_iff, noneEnded_iff, noneEnded_iff, Library.Outline.append_opened,
          Library.Outline.ofKind_append _ opened, List.forall_mem_map]
        simp
  unfold textTarget
  rw [Library.Outline.append_opened]
  congr 1
  funext frame
  exact same frame

/-! ## The index -/

/-- The index is that of the target. -/
def TextTracked (outline : HeaderOutline) (state : XmlBuilder) : Prop :=
  state.textMetadataIndex = (textTarget outline).map (outline.rank isEntry)

theorem preserved_textTracked : Preserved options platform TextTracked where
  empty := rfl
  declared tracked := tracked
  start := by
    intro outline state state' tag shape tracked started
    obtain ⟨identified, before, opened⟩ := started.branch
    obtain ⟨metadata, index⟩ := before.metadata
    have coherent := shape.stacked.coherent
    rw [TextTracked, opened.entries.1, metadata, index, textTarget_start coherent]
    cases isText : isTextTag tag with
    | true =>
        rw [if_pos rfl, if_pos rfl, Option.map_some, Library.Outline.rank_fresh,
          shape.counted.metadata]
    | false =>
        rw [if_neg Bool.false_ne_true, if_neg Bool.false_ne_true, tracked]
        cases found : textTarget outline with
        | none => rfl
        | some frame =>
            have small := coherent.opened.lt_length frame (textTarget_eq_some found).1
            rw [Option.map_some, Option.map_some, Library.Outline.rank_start (Nat.le_of_lt small)]
  close := by
    intro outline state closed top below shape tracked opened close
    have other (kind : top.tag.kind ≠ .property)
        (same : closed.textMetadataIndex = state.textMetadataIndex) :
        TextTracked outline.finish (popElement closed) := by
      show closed.textMetadataIndex = _
      rw [same, textTarget_finish_other opened kind]
      exact tracked
    have ended (kind : top.tag.kind = .property) (none : closed.textMetadataIndex = none) :
        TextTracked outline.finish (popElement closed) := by
      show closed.textMetadataIndex = _
      rw [none, textTarget_finish_property shape.stacked.coherent opened kind]
      rfl
    cases close with
    | unhandled unknown => exact other (closedKinds_of_unhandled unknown _ (by decide)) rfl
    | property xisf named => exact ended (kind_of_name .property (by decide) xisf named) rfl
    | inlineProperty xisf named => exact ended (kind_of_name .property (by decide) xisf named) rfl
    | data xisf named => exact other (by rw [kind_of_name .data (by decide) xisf named]; decide) rfl
    | iccProfile xisf named =>
        exact other (by rw [kind_of_name .iccProfile (by decide) xisf named]; decide) rfl
    | inlineIccProfile xisf named =>
        exact other (by rw [kind_of_name .iccProfile (by decide) xisf named]; decide) rfl
    | cell xisf named => exact other (by rw [kind_of_name .cell (by decide) xisf named]; decide) rfl
    | row xisf named => exact other (by rw [kind_of_name .row (by decide) xisf named]; decide) rfl
    | tableStructure xisf named =>
        exact other (by rw [kind_of_name .tableStructure (by decide) xisf named]; decide) rfl
    | table xisf named =>
        exact other (by rw [kind_of_name .table (by decide) xisf named]; decide) rfl
    | thumbnail xisf named =>
        exact other (by rw [kind_of_name .thumbnail (by decide) xisf named]; decide) rfl
    | image xisf named =>
        exact other (by rw [kind_of_name .image (by decide) xisf named]; decide) rfl
  text := by
    intro outline state state' text shape tracked taken
    have kept : TextTracked (outline.append text) state := by
      rw [TextTracked, textTarget_append, Library.Outline.rank_append]
      exact tracked
    cases taken with
    | encoded state' inside run =>
        obtain ⟨decoder, bytes, -, -, added, count, ⟨-, rfl⟩, rfl⟩ := decodeEmbeddedText_eq run
        have same : (addBytes state bytes).textMetadataIndex = state.textMetadataIndex := by
          unfold addBytes
          split <;> rfl
        exact same.trans kept
    | _ => exact kept

end

end Mmxisf.Reader
