/-
# UnitProgress -- the parser's state while it reads the header of a unit

Of the many fields of `XmlBuilder` only a few change while a header of a writer is
read.  `UnitProgress` is those, and `builder` the whole state that goes with them.
`Takes` says that the handlers take one state to another over some events, however
their text is cut, unless a limit stops them, and that the limits that are needed do not;
it is closed under sequences, so a header is read when each of its elements is.
-/
import Mmxisf.Reader.Room
import Mmxisf.UnitReport
import Mmxisf.Fragmentation

namespace Mmxisf

set_option autoImplicit false

open Library (Gates Short)
open Reader (XmlBuilder ElementContext ReaderOptions Suffices Tighter IsLimit Splits AttachedRange)

/-! ## Taking events -/

section

variable {ω : Type} {need : ReaderOptions} {settings : ω → ReaderOptions} {platform : Platform}

theorem splits_append {first second split : List XmlEvent}
    (splits : Splits (first ++ second) split) :
    ∃ before after, split = before ++ after ∧ Splits first before ∧ Splits second after := by
  induction first generalizing split with
  | nil => exact ⟨[], split, rfl, .nil, splits⟩
  | cons event rest ih =>
      cases splits with
      | keep _ later =>
          obtain ⟨before, after, rfl, splitRest, splitSecond⟩ := ih later
          exact ⟨event :: before, after, rfl, .keep event splitRest, splitSecond⟩
      | split pieces later =>
          obtain ⟨before, after, rfl, splitRest, splitSecond⟩ := ih later
          exact ⟨pieces.map .characterData ++ before, after, by rw [List.append_assoc],
            .split pieces splitRest, splitSecond⟩

theorem handleEvents_append (options : ReaderOptions) (first second : List XmlEvent)
    (state : XmlBuilder) :
    Reader.handleEvents options platform state (first ++ second) =
      Reader.handleEvents options platform state first >>= fun next =>
        Reader.handleEvents options platform next second := by
  induction first generalizing state with
  | nil => rfl
  | cons event rest ih =>
      rw [List.cons_append, Reader.handleEvents, Reader.handleEvents]
      cases Reader.handleEvent options platform state event with
      | error e => rfl
      | ok next => exact ih next

/-- The handlers take one state to another over these events, with any text in pieces,
or a limit that is not what is needed stops them. -/
def Takes (need : ReaderOptions) (settings : ω → ReaderOptions) (platform : Platform)
    (state : XmlBuilder) (events : List XmlEvent) (state' : XmlBuilder) : Prop :=
  ∀ o split, Splits events split →
    Gates (Short IsLimit (fun o => Tighter need (settings o)) o)
      (Reader.handleEvents (settings o) platform state split) (.ok state')

namespace Takes

variable {state next state' : XmlBuilder} {events more : List XmlEvent}

theorem nil : Takes need settings platform state [] state := by
  intro o split splits
  cases splits
  exact .refl _

theorem append (first : Takes need settings platform state events next)
    (second : Takes need settings platform next more state') :
    Takes need settings platform state (events ++ more) state' := by
  intro o split splits
  obtain ⟨before, after, rfl, splitFirst, splitSecond⟩ := splits_append splits
  rw [handleEvents_append]
  exact .andThen (first o before splitFirst) (second o after splitSecond)

/-- An event that is not text. -/
theorem cons {event : XmlEvent} (whole : ∀ text, event ≠ .characterData text)
    (one : Suffices need settings (fun o => Reader.handleEvent (settings o) platform state event)
      fun _ => next)
    (later : Takes need settings platform next events state') :
    Takes need settings platform state (event :: events) state' := by
  refine @append _ need settings platform state next state' [event] events ?_ later
  intro o split splits
  cases splits with
  | keep _ rest =>
      cases rest
      rw [Reader.handleEvents]
      exact .andThen (one o) (.refl _)
  | split pieces _ => exact absurd rfl (whole _)

theorem start {name : Text} {attributes : List (Text × Text)}
    (one : Suffices need settings
      (fun o => Reader.startElement (settings o) platform state name attributes) fun _ => next)
    (later : Takes need settings platform next events state') :
    Takes need settings platform state (.startElement name attributes :: events) state' :=
  cons (fun _ => by rintro ⟨⟩) one later

theorem finish {name : Text} (one : Reader.endElement state name = .ok next) :
    Takes need settings platform state [.endElement name] next :=
  cons (fun _ => by rintro ⟨⟩) (.of_eq fun _ => one) nil

/-- Text that each piece is appended to. -/
theorem text {stateWith : Text → XmlBuilder} {content : Text}
    (piece : ∀ o before text after, before ++ text ++ after = content →
      Gates (Short IsLimit (fun o => Tighter need (settings o)) o)
        (Reader.characterData (settings o) (stateWith before) text)
        (.ok (stateWith (before ++ text)))) :
    Takes need settings platform (stateWith []) [.characterData content] (stateWith content) := by
  have pieces : ∀ (o : ω) (pieces : List Text) (before : Text), before ++ pieces.flatten = content →
      Gates (Short IsLimit (fun o => Tighter need (settings o)) o)
        (Reader.handleEvents (settings o) platform (stateWith before)
          (pieces.map .characterData)) (.ok (stateWith (before ++ pieces.flatten))) := by
    intro o pieces
    induction pieces with
    | nil =>
        intro before _
        rw [List.flatten_nil, List.append_nil]
        exact .refl _
    | cons first rest ih =>
        intro before whole
        rw [List.flatten_cons, ← List.append_assoc] at whole
        rw [List.map_cons, Reader.handleEvents, List.flatten_cons, ← List.append_assoc]
        exact .andThen (piece o before first _ whole) (ih (before ++ first) whole)
  intro o split splits
  cases splits with
  | keep _ rest =>
      cases rest
      simpa using pieces o [content] [] (by simp)
  | split parts rest =>
      cases rest
      simpa using pieces o parts [] rfl

/-- Several parts, one after another. -/
theorem flatMap {α : Type} {eventsOf : α → List XmlEvent} {after : List α → XmlBuilder} :
    ∀ {items : List α}, (∀ done item rest, done ++ item :: rest = items →
        Takes need settings platform (after done) (eventsOf item) (after (done ++ [item]))) →
      Takes need settings platform (after []) (items.flatMap eventsOf) (after items) := by
  intro items each
  have walk : ∀ rest done, done ++ rest = items →
      Takes need settings platform (after done) (rest.flatMap eventsOf) (after items) := by
    intro rest
    induction rest with
    | nil =>
        intro done whole
        rw [List.append_nil] at whole
        subst whole
        exact nil
    | cons item rest ih =>
        intro done whole
        rw [List.flatMap_cons]
        refine append (each done item rest whole) (ih (done ++ [item]) ?_)
        rw [List.append_assoc]
        exact whole
  exact walk items [] rfl

end Takes

end

/-! ## The fields that change -/

structure UnitProgress where
  version : Text := []
  images : List ImageInfo := []
  entries : List MetadataEntry := []
  ranges : List AttachedRange := []
  nodes : Nat := 0
  /-- The names of the open elements, innermost first. -/
  path : List Text := []
  openImages : List Nat := []
  declared : Bool := false
  sawRoot : Bool := false
  rootClosed : Bool := false
  metadataCount : Nat := 0
  sawCreationTime : Bool := false
  sawCreatorApplication : Bool := false
  /-- The entry that text goes to. -/
  openText : Option Nat := none
  /-- The entry whose inline block is open. -/
  openBlock : Option Nat := none

/-- The binding event of an entry in its image, or in the unit. -/
def directEvent (index : Nat) (entry : MetadataEntry) : Reader.MetadataBindingEvent where
  metadataIndex := some index
  reference := []
  scope := if entry.scope = .image then .image else .xisfUnit
  imageIndex := entry.imageIndex
  byReference := false

namespace UnitProgress

def builder (progress : UnitProgress) : XmlBuilder where
  version := progress.version
  images := progress.images
  imageIds := (progress.images.map (·.id)).filter (· ≠ [])
  embeddedBlocks := progress.images.map fun _ => []
  embeddedDataSeen := progress.images.map fun _ => false
  attachedRanges := progress.ranges
  metadata := progress.entries
  inlineMetadataBlocks := progress.entries.map fun _ => []
  depth := progress.path.length
  nodes := progress.nodes
  sawRoot := progress.sawRoot
  rootClosed := progress.rootClosed
  sawXmlDeclaration := progress.declared
  imageStack := progress.openImages
  elementStack := progress.path
  qualifiedElementStack := progress.path.map fun name => ⟨Reader.kXisfNamespace, name⟩
  extensionStack := progress.path.map fun _ => none
  textMetadataIndex := progress.openText
  metadataCount := progress.metadataCount
  sawCreationTime := progress.sawCreationTime
  sawCreatorApplication := progress.sawCreatorApplication
  metadataBindingEvents := progress.entries.mapIdx directEvent
  inlineMetadataIndex := progress.openBlock
  embeddedEncoding := if progress.openBlock.isSome then .base64 else .none

/-- Inside one more element. -/
def enter (progress : UnitProgress) (name : Text) : UnitProgress :=
  { progress with path := name :: progress.path, nodes := progress.nodes + 1 }

/-- With more attached ranges. -/
def locate (progress : UnitProgress) (ranges : List AttachedRange) : UnitProgress :=
  { progress with ranges := progress.ranges ++ ranges }

/-- After the innermost element. -/
def leave (progress : UnitProgress) : UnitProgress :=
  { progress with
    path := progress.path.tail
    rootClosed := if progress.path.length = 1 then true else progress.rootClosed }

end UnitProgress

/-! ## Names -/

theorem localName_xisf {name : Text} (plain : Reader.separator ∉ name) :
    Reader.localName (xisfName name) = name := by
  have passes : ∀ c ∈ name.reverse, decide (c ≠ Reader.separator) = true := fun c member =>
    decide_eq_true fun same => plain (same ▸ List.mem_reverse.mp member)
  unfold Reader.localName xisfName
  rw [List.reverse_append, List.reverse_cons, List.append_assoc, List.singleton_append,
    List.takeWhile_append_of_pos passes, List.takeWhile_cons_of_neg (by simp), List.append_nil,
    List.reverse_reverse]

theorem namespaceName_xisf {name : Text} (plain : Reader.separator ∉ name) :
    Reader.namespaceName (xisfName name) = Reader.kXisfNamespace := by
  have passes : ∀ c ∈ name.reverse, decide (c ≠ Reader.separator) = true := fun c member =>
    decide_eq_true fun same => plain (same ▸ List.mem_reverse.mp member)
  unfold Reader.namespaceName xisfName
  rw [List.reverse_append, List.reverse_cons, List.append_assoc, List.singleton_append,
    List.dropWhile_append_of_pos passes, List.dropWhile_cons_of_neg (by simp), List.drop_succ_cons,
    List.drop_zero, List.reverse_reverse]

/-! ## Elements -/

section

variable {ω : Type} {need : ReaderOptions} {settings : ω → ReaderOptions} {platform : Platform}
  {progress : UnitProgress} {attributes : List (Text × Text)}

/-- The limits let in one more element with this many attributes. -/
structure UnitProgress.LetsIn (need : ReaderOptions) (progress : UnitProgress) (attributes : Nat) :
    Prop where
  depth : progress.path.length + 1 ≤ need.maxXmlDepth
  nodes : progress.nodes + 1 ≤ need.maxXmlNodes
  attributes : attributes ≤ need.maxAttributesPerElement

/-- The elements inside the root of a unit. -/
def unitElements : List Text := ["Image", "Metadata", "Property", "FITSKeyword"].map lit

/-- The elements that others are in. -/
def unitParents : List Text := ["xisf", "Image", "Metadata"].map lit

/-- An element as its handler sees it. -/
def UnitProgress.element (progress : UnitProgress) (name : Text) (attributes : List (Text × Text)) :
    ElementContext :=
  ⟨name, Reader.kXisfNamespace, progress.path.headD [], attributes⟩

/-- What the attachment inventory gains from an element. -/
inductive Locates (element : ElementContext) : List AttachedRange → Prop
  | none (unlocated : element.attr "location" = none) : Locates element []
  | inline (located : element.attr "location" = some (lit "inline:base64")) : Locates element []
  | attached {offset size : Nat} (offsetFits : offset ≤ u64Max) (sizeFits : size ≤ u64Max)
      (located : element.attr "location" = some (Writer.attachmentLocation offset size)) :
      Locates element [⟨offset, size⟩]

theorem Locates.recorded {element : ElementContext} {ranges : List AttachedRange}
    (locates : Locates element ranges) (state : XmlBuilder) :
    Reader.recordAttachedRange state element =
      .ok { state with attachedRanges := state.attachedRanges ++ ranges } := by
  unfold Reader.recordAttachedRange
  cases locates with
  | none unlocated =>
      rw [unlocated, List.append_nil]
  | inline located =>
      have other : Reader.attachmentPrefix.isPrefixOf (lit "inline:base64") = false := by decide
      simp only [located, other, if_true, List.append_nil]
  | attached offsetFits sizeFits located =>
      rename_i offset size
      have attached : Reader.attachmentPrefix.isPrefixOf (Writer.attachmentLocation offset size) =
          true := by
        unfold Writer.attachmentLocation
        rw [List.append_assoc, List.append_assoc, List.isPrefixOf_iff_prefix]
        exact List.prefix_append _ _
      simp only [located, attached, Bool.true_eq_false, if_false,
        parseLocation_attachment offsetFits sizeFits, if_true]

/-- An element starts when its own handler takes it. -/
theorem UnitProgress.start {name : Text} {ranges : List AttachedRange} {state' : XmlBuilder}
    (known : name ∈ unitElements) (inside : progress.path.headD [] ∈ unitParents)
    (closed : progress.openBlock = none) (lets : progress.LetsIn need attributes.length)
    (locates : Locates (progress.element name attributes) ranges)
    (noUid : (progress.element name attributes).attr "uid" = none)
    (opened : Suffices need settings (fun o => Reader.openElement (settings o) platform
      ((progress.enter name).locate ranges).builder (progress.element name attributes))
      fun _ => state') :
    Suffices need settings
      (fun o => Reader.startElement (settings o) platform progress.builder
        (xisfName name) attributes)
      fun _ => state' := by
  have plain : ∀ name ∈ unitElements, Reader.separator ∉ name ∧ name ≠ lit "Reference" := by decide
  have parents : ∀ parent ∈ unitParents, parent ≠ lit "Cell" ∧ parent ≠ lit "Field" ∧
      parent ≠ lit "Row" := by decide
  obtain ⟨noSeparator, notReference⟩ := plain name known
  obtain ⟨notCell, notField, notRow⟩ := parents _ inside
  have deep : progress.path ≠ [] := by
    intro none
    rw [none] at inside
    exact absurd inside (by decide)
  have isXisf : (progress.element name attributes).isXisf = true := by
    simp [ElementContext.isXisf, UnitProgress.element]
  have element : (⟨Reader.localName (xisfName name), Reader.namespaceName (xisfName name),
      progress.builder.elementStack.headD [], attributes⟩ : ElementContext) =
      progress.element name attributes := by
    rw [localName_xisf noSeparator, namespaceName_xisf noSeparator]
    rfl
  have pushed : (Reader.pushElement
      { progress.builder with
        depth := progress.builder.depth + 1
        nodes := progress.builder.nodes + 1 } (progress.element name attributes) none) =
      (progress.enter name).builder := by
    unfold Reader.pushElement
    rw [isXisf]
    rfl
  have extension : ∀ options : ReaderOptions, Reader.recordExtension options
      { progress.builder with
        depth := progress.builder.depth + 1
        nodes := progress.builder.nodes + 1 } (progress.element name attributes) =
      .ok ({ progress.builder with
        depth := progress.builder.depth + 1
        nodes := progress.builder.nodes + 1 }, none) := by
    intro options
    unfold Reader.recordExtension
    rw [isXisf, if_neg (by simp)]
  have located : Reader.recordAttachedRange (progress.enter name).builder
      (progress.element name attributes) = .ok ((progress.enter name).locate ranges).builder :=
    locates.recorded _
  have encoded : Reader.isEncodedBlockOpen ((progress.enter name).locate ranges).builder =
      false := by
    unfold Reader.isEncodedBlockOpen UnitProgress.builder UnitProgress.locate UnitProgress.enter
    rw [closed]
    rfl
  have identity : ∀ options : ReaderOptions,
      Reader.recordIdentity options ((progress.enter name).locate ranges).builder
        (progress.element name attributes) = .ok ((progress.enter name).locate ranges).builder := by
    intro options
    have other : (progress.element name attributes).name ≠ lit "Reference" := notReference
    unfold Reader.recordIdentity
    rw [noUid, if_neg other]
    exact ite_self _
  unfold Reader.startElement
  rw [element]
  have entered : Suffices need settings (fun o => Reader.enterElement (settings o) progress.builder
      (progress.element name attributes)) fun _ => { progress.builder with
        depth := progress.builder.depth + 1
        nodes := progress.builder.nodes + 1 } :=
    .andThen (suffices_atMost Tighter.maxXmlDepth lets.depth)
      (.andThen (suffices_atMost Tighter.maxXmlNodes lets.nodes)
        (.andThen (suffices_atMost Tighter.maxAttributesPerElement lets.attributes) suffices_ok))
  refine .andThen entered (.andThen (.of_eq fun o => extension (settings o)) ?_)
  dsimp only
  rw [pushed, located]
  refine .andThen suffices_ok (.andThen (suffices_check ?_) (.andThen (suffices_check ?_) ?_))
  · exact ne_true_of_eq_false encoded
  · have parent : (progress.element name attributes).parent = progress.path.headD [] := rfl
    rw [parent, not_or, not_or]
    exact ⟨notCell, notField, fun row => notRow row.1⟩
  · have notRoot : ((progress.enter name).locate ranges).builder.depth ≠ 1 := by
      have length := List.length_pos_of_ne_nil deep
      show progress.path.length + 1 ≠ 1
      omega
    exact .ifFalse notRoot (.andThen (.of_eq fun o => identity (settings o)) opened)

end

end Mmxisf
