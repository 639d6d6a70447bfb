/-
# Fragmentation -- it makes no difference where text is cut

Expat reports the text of an element in as many pieces as it likes: at entities, at
line ends, at the end of each part of the header that it is given.  The handlers keep
what a cut may divide (a Base64 group, a hexadecimal digit, the count against a
limit) from one piece to the next, and what they ask of a whole piece is asked of
each of its bytes, so text in pieces is taken as the text would be
(`characterData_append`).
-/
import Mmxisf.Reader.EncodedAccepts
import Mmxisf.Reader.TextTarget

namespace Mmxisf.Reader

set_option autoImplicit false

/-! ## Text in pieces -/

/-- What a caller can tell a result by: its value, or the code of its error. -/
def outcome {α : Type} (result : Result α) : Except ErrorCode α := result.mapError Error.code

/-- The same events, with text in pieces. -/
inductive Splits : List XmlEvent → List XmlEvent → Prop
  | nil : Splits [] []
  | keep (event : XmlEvent) {whole split : List XmlEvent} (rest : Splits whole split) :
      Splits (event :: whole) (event :: split)
  | split (pieces : List Text) {whole split : List XmlEvent} (rest : Splits whole split) :
      Splits (.characterData pieces.flatten :: whole) (pieces.map .characterData ++ split)

/-- A header, and another report of it with its text in pieces. -/
structure FragmentedHeader (platform : Platform) where
  xml : Text
  report : XmlReport
  outline : HeaderOutline
  nested : followAll {} (platform.parseXml (xmlChunks xml.length xml)).events = some outline
  split : Splits (platform.parseXml (xmlChunks xml.length xml)).events report.events
  malformed : (platform.parseXml (xmlChunks xml.length xml)).malformed.isSome =
    report.malformed.isSome

/-- A text in one piece and in two. -/
example : FragmentedHeader (reporting (xisfElement "Cell" [] [.characterData (lit "12")])) where
  xml := []
  report := ⟨xisfElement "Cell" [] [.characterData (lit "1"), .characterData (lit "2")], none⟩
  outline := (followAll {} (xisfElement "Cell" [] [.characterData (lit "12")])).get (by decide)
  nested := (Option.some_get _).symm
  split := .keep _ (.split [lit "1", lit "2"] (.keep _ .nil))
  malformed := rfl

/-- The platform whose parser makes the other report. -/
def FragmentedHeader.platform {platform : Platform} (header : FragmentedHeader platform) :
    Platform :=
  { platform with parseXml := fun _ => header.report }

/-! ## Outcomes -/

section

variable {α β : Type}

theorem outcome_bind (result : Result α) (next : α → Result β) :
    outcome (result >>= next) = outcome result >>= fun a => outcome (next a) := by
  cases result <;> rfl

theorem outcome_eq_ok {result : Result α} {a : α} :
    outcome result = .ok a ↔ result = .ok a := by
  cases result <;> simp [outcome, Except.mapError]

/-- The outcomes of two sequences agree when those of their parts do. -/
theorem outcome_bind_congr {first second : Result α} {next next' : α → Result β}
    (same : outcome first = outcome second)
    (later : ∀ a, first = .ok a → outcome (next a) = outcome (next' a)) :
    outcome (first >>= next) = outcome (second >>= next') := by
  rw [outcome_bind, outcome_bind, ← same]
  cases result : first with
  | error e => rfl
  | ok a => exact later a result

theorem outcome_reject {bad bad' : Prop} [Decidable bad] [Decidable bad'] (same : bad ↔ bad')
    (code : ErrorCode) (message message' : String) (element element' : Text) :
    outcome (reject bad code message element) = outcome (reject bad' code message' element') := by
  by_cases holds : bad
  · rw [reject, reject, if_pos holds, if_pos (same.mp holds)]
    rfl
  · rw [reject, reject, if_neg holds, if_neg (mt same.mpr holds)]

end

/-! ## One cut -/

section

variable {options : ReaderOptions} {state : XmlBuilder} (first second : Text)

theorem containsNonXmlWhitespace_append :
    containsNonXmlWhitespace (first ++ second) =
      (containsNonXmlWhitespace first || containsNonXmlWhitespace second) := List.any_append

/-- A check of every byte may be made of each piece. -/
theorem outcome_rejectText (place : Prop) [Decidable place] (code : ErrorCode) (message : String)
    (element : Text) :
    outcome (reject (place ∧ containsNonXmlWhitespace (first ++ second) = true) code message
        element) =
      outcome (reject (place ∧ containsNonXmlWhitespace first = true) code message element >>=
        fun _ => reject (place ∧ containsNonXmlWhitespace second = true) code message element) := by
  rw [containsNonXmlWhitespace_append]
  by_cases here : place <;> cases containsNonXmlWhitespace first <;>
    cases containsNonXmlWhitespace second <;> simp [reject, here] <;> rfl

/-- What takes text as far as a limit goes. -/
def takeWithin (limit : Nat) (used : XmlBuilder → Nat) (message : String)
    (name : XmlBuilder → Text) (add : XmlBuilder → Text → XmlBuilder) (state : XmlBuilder)
    (text : Text) : Result XmlBuilder := do
  reject (text.length > limit - min (used state) limit) .resourceLimit message (name state)
  return add state text

/-- A charge may be made in two parts. -/
theorem outcome_takeWithin {limit : Nat} {used : XmlBuilder → Nat} {message : String}
    {name : XmlBuilder → Text} {add : XmlBuilder → Text → XmlBuilder}
    (counts : used (add state first) = used state + first.length)
    (adds : add (add state first) second = add state (first ++ second)) :
    outcome (takeWithin limit used message name add state (first ++ second)) =
      outcome (takeWithin limit used message name add state first >>= fun middle =>
        takeWithin limit used message name add middle second) := by
  unfold takeWithin
  by_cases early : first.length > limit - min (used state) limit
  · have both : (first ++ second).length > limit - min (used state) limit := by
      rw [List.length_append]
      omega
    rw [reject, reject, if_pos early, if_pos both]
    rfl
  · rw [show reject (first.length > limit - min (used state) limit) .resourceLimit message
      (name state) = .ok () from if_neg early]
    show _ = outcome (reject (second.length > limit - min (used (add state first)) limit)
      .resourceLimit message (name (add state first)) >>= fun _ =>
      .ok (add (add state first) second))
    rw [adds, counts]
    refine outcome_bind_congr (outcome_reject ?_ ..) fun _ _ => rfl
    rw [List.length_append]
    omega

/-- A charge that the limit allows leaves its sum. -/
theorem consumeBytes_bind {α : Type} (limit used count : Nat) (message : String) (name : Text)
    (next : Nat → Result α) :
    (consumeBytes limit used count message name >>= next) =
      (reject (count > limit - min used limit) .resourceLimit message name >>= fun _ =>
        next (used + count)) := by
  unfold consumeBytes reject
  by_cases beyond : count > limit - min used limit
  · rw [if_pos beyond, if_pos beyond]
    rfl
  · rw [if_neg beyond, if_neg beyond]
    rfl

theorem cellText_of_accepts {place : Nat × Nat × Nat} {text : Text}
    (accepts : (((state.tables[place.1]?).bind fun table => table.rows[place.2.1]?).bind
      fun row => row.cells[place.2.2]?).any acceptsText = true) :
    cellText options state place text =
      takeWithin options.maxTableTextBytes XmlBuilder.tableTextBytes
        "Table text byte limit exceeded" (fun _ => lit "Cell")
        (fun state => addCellText state place) state text := by
  obtain ⟨table, row, cell⟩ := place
  refine (if_pos accepts).trans ?_
  rw [consumeTableTextBytes, bind_assoc, consumeBytes_bind]
  rfl

theorem extensionText_eq (index : Nat) (text : Text) :
    extensionText options state index text =
      takeWithin options.maxExtensionBytes XmlBuilder.extensionBytes
        "Extension inventory byte limit exceeded"
        (fun state => ((state.extensionElements[index]?).map ExtensionElement.name).getD [])
        (fun state text => { state with
          extensionBytes := state.extensionBytes + text.length
          extensionElements := state.extensionElements.modify index fun element =>
            { element with text := element.text ++ text } }) state text := by
  show (consumeExtensionBytes options state text.length _ >>= fun _ => _) = _
  rw [consumeExtensionBytes, bind_assoc, consumeBytes_bind]
  rfl

theorem addCellText_append (place : Nat × Nat × Nat) :
    addCellText (addCellText state place first) place second =
      addCellText state place (first ++ second) := by
  have cells (row : TableRowInfo) :
      (row.cells.modify place.2.2 fun cell => { cell with value := cell.value ++ first }).modify
          place.2.2 (fun cell => { cell with value := cell.value ++ second }) =
        row.cells.modify place.2.2 fun cell =>
          { cell with value := cell.value ++ (first ++ second) } := by
    rw [List.modify_modify_eq]
    simp only [Function.comp_def, List.append_assoc]
  simp only [addCellText, List.length_append, Nat.add_assoc, List.modify_modify_eq,
    Function.comp_def,
    modifyRows, cells]

theorem outcome_cellText (place : Nat × Nat × Nat) :
    outcome (cellText options state place (first ++ second)) =
      outcome (cellText options state place first >>= fun middle =>
        cellText options middle place second) := by
  by_cases accepts : (((state.tables[place.1]?).bind fun table => table.rows[place.2.1]?).bind
      fun row => row.cells[place.2.2]?).any acceptsText = true
  · -- a Cell that takes text does so after the first piece
    have still : ((((addCellText state place first).tables[place.1]?).bind
        fun table => table.rows[place.2.1]?).bind fun row => row.cells[place.2.2]?).any
          acceptsText = true := by
      rw [Option.any_eq_true] at accepts
      obtain ⟨cell, found, accepted⟩ := accepts
      simp only [Option.bind_eq_some_iff] at found
      obtain ⟨row, ⟨table, inTable, inRow⟩, inCell⟩ := found
      simp only [addCellText, List.getElem?_modify_eq, inTable, inRow, inCell, modifyRows,
        Option.map_eq_map, Option.map_some, Option.bind_some]
      exact accepted
    rw [cellText_of_accepts accepts, cellText_of_accepts accepts,
      outcome_takeWithin first second rfl (addCellText_append first second place)]
    refine outcome_bind_congr rfl fun middle run => ?_
    rw [takeWithin, bind_eq_ok] at run
    obtain ⟨-, -, same⟩ := run
    cases same
    rw [cellText_of_accepts still]
  · have refused (text : Text) : cellText options state place text =
        (reject (True ∧ containsNonXmlWhitespace text = true) .invalidXisf
          "Cell form cannot contain character data" (lit "Cell") >>= fun _ => .ok state) := by
      obtain ⟨table, row, cell⟩ := place
      refine (if_neg accepts).trans ?_
      simp only [true_and]
      rfl
    rw [refused, refused, bind_assoc]
    refine (outcome_bind_congr (outcome_rejectText ..) fun _ _ => rfl).trans ?_
    rw [bind_assoc]
    refine outcome_bind_congr rfl fun _ _ => ?_
    exact congrArg outcome (refused second).symm

theorem outcome_extensionText (index : Nat) :
    outcome (extensionText options state index (first ++ second)) =
      outcome (extensionText options state index first >>= fun middle =>
        extensionText options middle index second) := by
  simp only [extensionText_eq]
  apply outcome_takeWithin
  · rfl
  · simp only [List.length_append, Nat.add_assoc, List.modify_modify_eq, Function.comp_def,
      List.append_assoc]

theorem propertyText_eq (index : Nat) (text : Text) :
    propertyText options state index text =
      takeWithin options.maxMetadataValueBytes
        (fun state => ((state.metadata[index]?).map fun entry => entry.value.length).getD 0)
        "Inline metadata value exceeds the inspection limit" (fun _ => lit "Property")
        (fun state text => { state with
          metadata := state.metadata.modify index fun entry =>
            { entry with value := entry.value ++ text } }) state text := rfl

theorem outcome_propertyText {index : Nat} (inside : index < state.metadata.length) :
    outcome (propertyText options state index (first ++ second)) =
      outcome (propertyText options state index first >>= fun middle =>
        propertyText options middle index second) := by
  simp only [propertyText_eq]
  apply outcome_takeWithin
  · simp only [List.getElem?_modify_eq, List.getElem?_eq_getElem inside, Option.map_eq_map,
      Option.map_some, Option.getD_some, List.length_append]
  · simp only [List.modify_modify_eq, Function.comp_def, List.append_assoc]

/-- The places whose text may only be whitespace, where no element takes it. -/
def RefusesText (state : XmlBuilder) : Prop :=
  (innermostXisfName state).any (fun name => (ancillaryKind name).isSome) = true ∨
    innermostXisfName state = some (lit "ICCProfile") ∨
    (state.depth = 1 ∧ state.elementStack.head? = some (lit "xisf")) ∨
    state.openThumbnailIndex.isSome = true ∨
    (state.openTableRowIndex.isSome = true ∨ state.openStructureIndex.isSome = true ∨
      state.openTableIndex.isSome = true) ∨
    (state.currentImage.bind fun index => state.images[index]?).any
      (fun image => image.block.kind = .embedded) = true

instance : Decidable (RefusesText state) := inferInstanceAs (Decidable (_ ∨ _))

/-- What text meets where no element takes it. -/
def plainText (state : XmlBuilder) (text : Text) : Result XmlBuilder := do
  let innermost := innermostXisfName state
  reject (innermost.any (fun name => (ancillaryKind name).isSome) = true ∧
      containsNonXmlWhitespace text = true) .invalidXisf
    "Attribute-based ancillary metadata cannot contain text" (innermost.getD [])
  reject (innermost = some (lit "ICCProfile") ∧ containsNonXmlWhitespace text = true)
    .invalidXisf "Non-inline ICCProfile cannot contain character data" (lit "ICCProfile")
  strayText state text

theorem outcome_plainText_eq (text : Text) :
    outcome (plainText state text) =
      outcome (reject (RefusesText state ∧ containsNonXmlWhitespace text = true) .invalidXisf ""
        >>= fun _ => .ok state) := by
  unfold plainText strayText reject
  cases visible : containsNonXmlWhitespace text with
  | false =>
      simp only [Bool.false_eq_true, and_false, if_false]
      rfl
  | true =>
      simp only [and_true]
      by_cases ancillary : (innermostXisfName state).any
          (fun name => (ancillaryKind name).isSome) = true
      · have refuses : RefusesText state := .inl ancillary
        rw [if_pos ancillary, if_pos refuses]
        rfl
      rw [if_neg ancillary]
      by_cases profile : innermostXisfName state = some (lit "ICCProfile")
      · have refuses : RefusesText state := .inr (.inl profile)
        rw [if_pos profile, if_pos refuses]
        rfl
      rw [if_neg profile]
      by_cases refuses : RefusesText state
      · rw [if_pos refuses]
        have left := (refuses.resolve_left ancillary).resolve_left profile
        show outcome (ite _ _ _) = .error .invalidXisf
        split_ifs with root thumbnail table image <;> first | rfl | skip
        exact absurd left (by tauto)
      · rw [if_neg refuses]
        simp only [RefusesText, not_or] at refuses
        obtain ⟨-, -, root, thumbnail, ⟨row, structure_, table⟩, image⟩ := refuses
        show outcome (ite _ _ _) = .ok state
        split_ifs <;> first | rfl | tauto

theorem outcome_plainText :
    outcome (plainText state (first ++ second)) =
      outcome (plainText state first >>= fun middle => plainText middle second) := by
  have stays (middle : XmlBuilder) (run : plainText state first = .ok middle) : middle = state := by
    simp only [plainText, bind_eq_ok] at run
    obtain ⟨-, -, -, -, run⟩ := run
    exact strayText_eq run
  calc outcome (plainText state (first ++ second))
      = outcome (reject (RefusesText state ∧ containsNonXmlWhitespace (first ++ second) = true)
          .invalidXisf "" >>= fun _ => (.ok state : Result XmlBuilder)) := outcome_plainText_eq _
    _ = outcome ((reject (RefusesText state ∧ containsNonXmlWhitespace first = true)
          .invalidXisf "" >>= fun _ => reject (RefusesText state ∧
            containsNonXmlWhitespace second = true) .invalidXisf "") >>= fun _ =>
          (.ok state : Result XmlBuilder)) :=
        outcome_bind_congr (outcome_rejectText ..) fun _ _ => rfl
    _ = outcome (plainText state first >>= fun _ => plainText state second) := by
        rw [outcome_bind (plainText state first), outcome_plainText_eq, outcome_plainText_eq,
          ← outcome_bind]
        simp only [bind_assoc]
        rfl
    _ = outcome (plainText state first >>= fun middle => plainText middle second) :=
        outcome_bind_congr rfl fun middle run => by rw [stays middle run]

/-! ## Where text stands -/

variable {outline : HeaderOutline}

/-- No Property takes text inside an element that must have none. -/
theorem Stacked.innermost_noText (stacked : Stacked outline state)
    (tracked : TextTracked outline state) {name : Text}
    (inside : innermostXisfName state = some name)
    (plain : (ancillaryKind name).isSome = true ∨ name = lit "ICCProfile") :
    state.textMetadataIndex = none := by
  unfold innermostXisfName at inside
  rw [stacked.qualifiedElementStack] at inside
  cases opened : outline.opened with
  | nil => simp [opened] at inside
  | cons top below =>
      simp only [opened, List.map_cons, Option.ite_none_right_eq_some, Option.some.injEq] at inside
      obtain ⟨namespaceUri, named⟩ := inside
      have isXisf : top.tag.isXisf = true := decide_eq_true namespaceUri
      have place := stacked.top opened
      have kind : allowedPaths top.tag.kind = some objectPaths ∧ top.tag.kind ≠ .property := by
        rcases plain with ancillary | rfl
        · obtain ⟨which, found⟩ := Option.isSome_iff_exists.mp ancillary
          rw [XmlTag.kind_ancillary isXisf (named ▸ found)]
          exact ⟨rfl, nofun⟩
        · rw [(@XmlTag.kind_eq _ .iccProfile (by decide)).mpr ⟨isXisf, named⟩]
          exact ⟨rfl, nofun⟩
      have outside : ∀ path ∈ objectPaths, ElementKind.property ∉ path := by decide
      have none : textTarget outline = none := by
        refine textTarget_eq_none ?_
        rw [opened, pathKinds, List.map_cons, List.mem_cons, not_or]
        exact ⟨Ne.symm kind.2, outside _ (place.known _ kind.1)⟩
      rw [tracked, none, Option.map_none]

/-- What takes the text. -/
inductive TextRoute
  | encoded
  | cell (place : Nat × Nat × Nat)
  | extension (index : Nat)
  | property (index : Nat)
  | plain

def textRoute (state : XmlBuilder) : TextRoute :=
  if isEncodedBlockOpen state then .encoded
  else
    match openCell state, state.extensionStack.headD none, state.textMetadataIndex with
    | some place, _, _ => .cell place
    | none, some index, _ => .extension index
    | none, none, some index => .property index
    | none, none, none => .plain

def takeText (options : ReaderOptions) : TextRoute → XmlBuilder → Text → Result XmlBuilder
  | .encoded, state, text => decodeEmbeddedText options state text
  | .cell place, state, text => cellText options state place text
  | .extension index, state, text => extensionText options state index text
  | .property index, state, text => propertyText options state index text
  | .plain, state, text => plainText state text

/-- No Property takes text where only whitespace may stand. -/
def NoTextInside (state : XmlBuilder) : Prop :=
  ∀ name, innermostXisfName state = some name →
    (ancillaryKind name).isSome = true ∨ name = lit "ICCProfile" → state.textMetadataIndex = none

theorem characterData_route {text : Text} (some : text ≠ []) (clear : NoTextInside state) :
    characterData options state text = takeText options (textRoute state) state text := by
  unfold characterData textRoute
  rw [if_neg some]
  cases isEncodedBlockOpen state with
  | true => rfl
  | false =>
      rw [if_neg Bool.false_ne_true, if_neg Bool.false_ne_true]
      cases openCell state with
      | some place => rfl
      | none =>
          cases state.extensionStack.headD none with
          | some index => rfl
          | none =>
              cases target : state.textMetadataIndex with
              | none => rfl
              | some index =>
                  have noAncillary : ¬ (innermostXisfName state).any
                      (fun name => (ancillaryKind name).isSome) = true := by
                    intro ancillary
                    obtain ⟨name, inside, isAncillary⟩ := Option.any_eq_true _ _ |>.mp ancillary
                    cases target.symm.trans (clear name inside (.inl isAncillary))
                  have noProfile : innermostXisfName state ≠ lit "ICCProfile" := by
                    intro profile
                    cases target.symm.trans (clear _ profile (.inr rfl))
                  simp only [reject, noAncillary, noProfile, false_and, if_false]
                  rfl

/-- Taking text changes nothing that says what takes the next. -/
theorem TextTaken.route {text : Text} {state' : XmlBuilder}
    (taken : TextTaken options state text state') :
    textRoute state' = textRoute state ∧ (NoTextInside state → NoTextInside state') := by
  cases taken with
  | encoded state' inside run =>
      obtain ⟨decoder, bytes, -, -, added, count, ⟨-, rfl⟩, rfl⟩ := decodeEmbeddedText_eq run
      unfold addBytes
      split <;> exact ⟨rfl, id⟩
  | _ => exact ⟨rfl, id⟩

theorem outcome_takeText (route : TextRoute)
    (inside : ∀ index, route = .property index → index < state.metadata.length) :
    outcome (takeText options route state (first ++ second)) =
      outcome (takeText options route state first >>= fun middle =>
        takeText options route middle second) := by
  cases route with
  | encoded => exact congrArg outcome (decodeEmbeddedText_append first second)
  | cell place => exact outcome_cellText first second place
  | extension index => exact outcome_extensionText first second index
  | property index => exact outcome_propertyText first second (inside index rfl)
  | plain => exact outcome_plainText first second

theorem textRoute_property {index : Nat} (route : textRoute state = .property index) :
    state.textMetadataIndex = some index := by
  unfold textRoute at route
  split at route
  · cases route
  · split at route <;> cases route
    assumption

/-- Text in two pieces is taken as the text would be. -/
theorem characterData_append (shape : Shape outline state) (tracked : TextTracked outline state) :
    outcome (characterData options state (first ++ second)) =
      outcome (characterData options state first >>= fun middle =>
        characterData options middle second) := by
  by_cases noFirst : first = []
  · rw [noFirst]
    rfl
  by_cases noSecond : second = []
  · have nothing (middle : XmlBuilder) : characterData options middle [] = .ok middle := rfl
    rw [noSecond, List.append_nil]
    simp only [nothing]
    exact congrArg outcome (bind_pure _).symm
  have some : first ++ second ≠ [] := fun empty => noFirst (List.append_eq_nil_iff.mp empty).1
  have clear : NoTextInside state := fun name inside plain =>
    shape.stacked.innermost_noText tracked inside plain
  have inside (index : Nat) (route : textRoute state = .property index) :
      index < state.metadata.length := shape.encodes.text index (textRoute_property route)
  calc outcome (characterData options state (first ++ second))
      = outcome (takeText options (textRoute state) state (first ++ second)) := by
        rw [characterData_route some clear]
    _ = outcome (takeText options (textRoute state) state first >>= fun middle =>
          takeText options (textRoute state) middle second) :=
        outcome_takeText first second _ inside
    _ = outcome (characterData options state first >>= fun middle =>
          characterData options middle second) := by
        rw [characterData_route noFirst clear]
        refine outcome_bind_congr rfl fun middle run => ?_
        rw [← characterData_route noFirst clear] at run
        obtain ⟨same, kept⟩ := (characterData_eq run).route
        rw [characterData_route noSecond (kept clear), same]

end

/-! ## Every cut -/

section

variable {options : ReaderOptions} {platform : Platform} {outline : HeaderOutline}
  {state : XmlBuilder}

/-- Text in any number of pieces is taken as the text would be. -/
theorem handleEvents_pieces (shape : Shape outline state) (tracked : TextTracked outline state)
    (pieces : List Text) :
    outcome (handleEvents options platform state (pieces.map .characterData)) =
      outcome (characterData options state pieces.flatten) := by
  induction pieces generalizing outline state with
  | nil => rfl
  | cons piece rest ih =>
      rw [List.map_cons, handleEvents, List.flatten_cons,
        characterData_append piece rest.flatten shape tracked]
      refine outcome_bind_congr rfl fun middle run => ?_
      have taken := characterData_eq run
      have rules : Preserved options platform TextTracked := preserved_textTracked
      exact ih (shape.text taken) (rules.text shape tracked taken)

/-- The handlers come to the same end, however the text is cut. -/
theorem handleEvents_splits {whole split : List XmlEvent} (splits : Splits whole split)
    (shape : Shape outline state) (tracked : TextTracked outline state) {last : HeaderOutline}
    (nested : followAll outline whole = some last) :
    outcome (handleEvents options platform state split) =
      outcome (handleEvents options platform state whole) := by
  induction splits generalizing outline state with
  | nil => rfl
  | keep event rest ih =>
      rw [followAll] at nested
      obtain ⟨next, follows, nested⟩ := Option.bind_eq_some_iff.mp nested
      rw [handleEvents, handleEvents]
      refine outcome_bind_congr rfl fun middle run => ?_
      exact ih (preserved_shape.always.event shape shape run follows fun _ _ => trivial)
        (preserved_textTracked.always.event shape tracked run follows fun _ _ => trivial) nested
  | split pieces rest ih =>
      rw [handleEvents_append, handleEvents]
      have same := @handleEvents_pieces options platform outline state shape tracked pieces
      refine outcome_bind_congr same fun middle run => ?_
      rw [run] at same
      have taken := characterData_eq (outcome_eq_ok.mp same.symm)
      have rules : Preserved options platform TextTracked := preserved_textTracked
      exact ih (shape.text taken) (rules.text shape tracked taken) nested

/-- Of the platform the handlers only use its numbers. -/
theorem handleEvents_parseXml (parseXml : List Text → XmlReport) (events : List XmlEvent) :
    handleEvents options { platform with parseXml := parseXml } state events =
      handleEvents options platform state events := by
  induction events generalizing state with
  | nil => rfl
  | cons event rest ih =>
      rw [handleEvents, handleEvents]
      have same : handleEvent options { platform with parseXml := parseXml } state event =
          handleEvent options platform state event := rfl
      simp only [same, ih]

theorem FragmentedHeader.outcome_parseXmlHeader (header : FragmentedHeader platform) :
    outcome (parseXmlHeader options header.platform header.xml) =
      outcome (parseXmlHeader options platform header.xml) := by
  unfold parseXmlHeader
  refine outcome_bind_congr rfl fun _ _ => ?_
  show outcome (handleEvents options { platform with parseXml := _ } {}
      header.report.events >>= _) = _
  rw [handleEvents_parseXml]
  refine outcome_bind_congr (handleEvents_splits header.split shape_empty rfl header.nested)
    fun state _ => ?_
  have same : (platform.parseXml (xmlChunks header.xml.length header.xml)).malformed.isSome =
      (header.platform.parseXml (xmlChunks header.xml.length header.xml)).malformed.isSome :=
    header.malformed
  split <;> split <;> simp_all [outcome, Except.mapError, makeError]

end

/-! ## The theorem -/

/-- However a header's text is cut, what is made of it is the same document with the same
blocks, or a failure with the same code. -/
theorem fragmentation (options : ReaderOptions) (platform : Platform)
    (header : FragmentedHeader platform) (fileSize headerLength : Nat) :
    outcome (parseHeader header.platform header.xml options fileSize headerLength) =
      outcome (parseHeader platform header.xml options fileSize headerLength) := by
  unfold parseHeader
  exact outcome_bind_congr header.outcome_parseXmlHeader fun _ _ => rfl

end Mmxisf.Reader
