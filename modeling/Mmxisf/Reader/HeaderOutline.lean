/-
# Reader.HeaderOutline -- the elements of a header

The outline of a header is what its events say, before the parser makes anything
of them: every element with its tag, the elements around it, and the characters
directly in it.  `follow` takes one event; an end tag must name the innermost open
element, as Expat's do, so a sequence of events is well nested when it can be
followed to its end.

Where an element may stand depends on what kind it is and on the kinds of the
elements around it (`allowedPaths`).
-/
import Mmxisf.Library.Outline
import Mmxisf.Reader.Events

namespace Mmxisf.Reader

set_option autoImplicit false

/-! ## Kinds of elements -/

inductive ElementKind
  | xisf
  | metadata
  | image
  | thumbnail
  | data
  | iccProfile
  | ancillary (kind : AncillaryKind)
  | property
  | fitsKeyword
  | reference
  | table
  | tableStructure
  | field
  | row
  | cell
  /-- An element of the XISF namespace with a name that is not known. -/
  | unknown
  /-- An element of another namespace. -/
  | foreign
  deriving DecidableEq, Repr

namespace ElementKind

/-- The name of the elements of a kind. -/
def name : ElementKind → Text
  | .xisf => lit "xisf"
  | .metadata => lit "Metadata"
  | .image => lit "Image"
  | .thumbnail => lit "Thumbnail"
  | .data => lit "Data"
  | .iccProfile => lit "ICCProfile"
  | .ancillary .rgbWorkingSpace => lit "RGBWorkingSpace"
  | .ancillary .displayFunction => lit "DisplayFunction"
  | .ancillary .colorFilterArray => lit "ColorFilterArray"
  | .ancillary .resolution => lit "Resolution"
  | .property => lit "Property"
  | .fitsKeyword => lit "FITSKeyword"
  | .reference => lit "Reference"
  | .table => lit "Table"
  | .tableStructure => lit "Structure"
  | .field => lit "Field"
  | .row => lit "Row"
  | .cell => lit "Cell"
  | .unknown => []
  | .foreign => []

/-- The kinds with a name. -/
def named : List ElementKind :=
  [.xisf, .metadata, .image, .thumbnail, .data, .iccProfile, .ancillary .rgbWorkingSpace,
    .ancillary .displayFunction, .ancillary .colorFilterArray, .ancillary .resolution, .property,
    .fitsKeyword, .reference, .table, .tableStructure, .field, .row, .cell]

/-- The kind of the elements of the XISF namespace with this name. -/
def ofName (name : Text) : ElementKind :=
  (named.find? fun kind => kind.name = name).getD .unknown

theorem named_apart : ∀ kind ∈ named, ∀ other ∈ named, kind.name = other.name → kind = other := by
  decide

theorem ofName_eq {name : Text} {kind : ElementKind} (member : kind ∈ named) :
    ofName name = kind ↔ name = kind.name := by
  unfold ofName
  constructor
  · intro found
    cases search : named.find? fun kind => kind.name = name with
    | none =>
        rw [search, Option.getD_none] at found
        rw [← found] at member
        exact absurd member (by decide)
    | some other =>
        rw [search, Option.getD_some] at found
        have same := List.find?_some (p := fun kind : ElementKind => kind.name = name) search
        rw [decide_eq_true_eq] at same
        rw [← found, same]
  · rintro rfl
    cases search : named.find? fun other => other.name = kind.name with
    | none =>
        rw [List.find?_eq_none] at search
        exact absurd (decide_eq_true rfl) (search kind member)
    | some other =>
        have same := List.find?_some (p := fun other : ElementKind => other.name = kind.name) search
        rw [decide_eq_true_eq] at same
        rw [Option.getD_some]
        exact named_apart other (List.mem_of_find?_eq_some search) kind member same

theorem ofName_mem (name : Text) : ofName name ∈ named ∨ ofName name = .unknown := by
  unfold ofName
  cases search : named.find? fun kind => kind.name = name with
  | none => exact .inr rfl
  | some kind => exact .inl (List.mem_of_find?_eq_some search)

end ElementKind

/-! ## Tags -/

/-- A start tag. -/
structure XmlTag where
  namespaceUri : Text
  name : Text
  attributes : List (Text × Text)
  deriving DecidableEq, Repr

namespace XmlTag

def isXisf (tag : XmlTag) : Bool := tag.namespaceUri = kXisfNamespace

def kind (tag : XmlTag) : ElementKind := if tag.isXisf then .ofName tag.name else .foreign

def attr (tag : XmlTag) (wanted : String) : Option Text :=
    attributeValue tag.attributes (lit wanted)

def attributeOr (tag : XmlTag) (wanted : String) (fallback : String := "") : Text :=
  (tag.attr wanted).getD (lit fallback)

/-- The name by which a child knows its parent. -/
def stackName (tag : XmlTag) : Text := if tag.isXisf then tag.name else []

theorem kind_eq {tag : XmlTag} {kind : ElementKind} (member : kind ∈ ElementKind.named) :
    tag.kind = kind ↔ tag.isXisf = true ∧ tag.name = kind.name := by
  unfold XmlTag.kind
  cases tag.isXisf with
  | true => simp only [if_true, true_and, ElementKind.ofName_eq member]
  | false =>
      simp only [Bool.false_eq_true, if_false, false_and, iff_false]
      rintro rfl
      exact absurd member (by decide)

/-- A child sees the name of a known kind only in an element of that kind. -/
theorem stackName_eq {tag : XmlTag} {kind : ElementKind} (member : kind ∈ ElementKind.named) :
    tag.stackName = kind.name ↔ tag.kind = kind := by
  rw [kind_eq member]
  unfold stackName
  cases tag.isXisf with
  | true => simp
  | false =>
      have nonempty : ∀ kind ∈ ElementKind.named, kind.name ≠ [] := by decide
      simp [(nonempty kind member).symm]

theorem kind_foreign {tag : XmlTag} : tag.kind = .foreign ↔ tag.isXisf = false := by
  unfold XmlTag.kind
  cases tag.isXisf with
  | true =>
      simp only [if_true, Bool.true_eq_false, iff_false]
      intro impossible
      rcases ElementKind.ofName_mem tag.name with member | unknown
      · rw [impossible] at member
        exact absurd member (by decide)
      · rw [impossible] at unknown
        cases unknown
  | false => simp

theorem kind_ancillary {tag : XmlTag} {kind : AncillaryKind} (isXisf : tag.isXisf = true)
    (named : ancillaryKind tag.name = some kind) : tag.kind = .ancillary kind := by
  have same : tag.name = (ElementKind.ancillary kind).name := by
    unfold ancillaryKind at named
    split_ifs at named with rgb display filter resolution
    all_goals
      rw [Option.some.injEq] at named
      subst named
      assumption
  refine (kind_eq ?_).mpr ⟨isXisf, same⟩
  cases kind <;> decide

/-- The kinds without a branch of their own. -/
theorem kind_unhandled {tag : XmlTag} (isXisf : tag.isXisf = true)
    (unknown : tag.name ∉ handledNames) :
    tag.kind = .xisf ∨ tag.kind = .reference ∨ tag.kind = .unknown := by
  have handled : ∀ kind ∈ ElementKind.named, kind.name ∈ handledNames ∨ kind = .xisf ∨
      kind = .reference := by decide
  have ofName : tag.kind = .ofName tag.name := by
    rw [XmlTag.kind, if_pos isXisf]
  rcases ElementKind.ofName_mem tag.name with member | none
  · rw [← ofName] at member
    rcases handled tag.kind member with inside | rest
    · exact absurd (((kind_eq member).mp rfl).2 ▸ inside) unknown
    · exact rest.imp id .inl
  · exact .inr (.inr (ofName.trans none))

end XmlTag

abbrev HeaderFrame := Library.Frame XmlTag
abbrev HeaderElement := Library.Element XmlTag Byte
abbrev HeaderOutline := Library.Outline XmlTag Byte

/-! ## Following events -/

def tagOf (qualifiedName : Text) (attributes : List (Text × Text)) : XmlTag :=
  ⟨namespaceName qualifiedName, localName qualifiedName, attributes⟩

/-- The outline after one event; none when an end tag does not fit. -/
def follow (outline : HeaderOutline) : XmlEvent → Option HeaderOutline
  | .declaration _ _ _ => some outline
  | .doctype => some outline
  | .startElement name attributes => some (outline.start (tagOf name attributes))
  | .endElement name =>
      match outline.opened with
      | [] => none
      | top :: _ =>
          if top.tag.namespaceUri = namespaceName name ∧ top.tag.name = localName name then
            some outline.finish
          else none
  | .characterData text => some (outline.append text)

/-- The outline after all events. -/
def followAll (outline : HeaderOutline) : List XmlEvent → Option HeaderOutline
  | [] => some outline
  | event :: rest => (follow outline event).bind fun next => followAll next rest

/-! ## Places -/

/-- The kinds of the elements of a path, innermost first. -/
def pathKinds (path : List HeaderFrame) : List ElementKind := path.map fun frame => frame.tag.kind

def rootPath : List ElementKind := [.xisf]

/-- A child of the root or of an image. -/
def objectPaths : List (List ElementKind) := [[.xisf], [.image, .xisf]]

def tablePaths : List (List ElementKind) := objectPaths.map (.table :: ·)

def structurePaths : List (List ElementKind) := rootPath :: tablePaths

/-- The paths of the elements around an element of a kind, if that kind has any
fixed ones. -/
def allowedPaths : ElementKind → Option (List (List ElementKind))
  | .metadata | .image => some [rootPath]
  | .thumbnail | .iccProfile | .ancillary _ | .table => some objectPaths
  | .tableStructure => some structurePaths
  | .field => some (structurePaths.map (.tableStructure :: ·))
  | .row => some tablePaths
  | .cell => some (tablePaths.map (.row :: ·))
  | .data => some ([.image, .xisf] :: objectPaths.map (.thumbnail :: ·))
  | .foreign => some [rootPath]
  | _ => none

/-- Where an element of a kind stands, by the kinds of the elements around it. -/
structure HasPlace (kind : ElementKind) (path : List ElementKind) : Prop where
  root : path = [] → kind = .xisf
  known : ∀ allowed, allowedPaths kind = some allowed → path ∈ allowed
  property : kind = .property →
    path.head? = some .xisf ∨ path.head? = some .image ∨ path.head? = some .metadata
  fitsKeyword : kind = .fitsKeyword → path.head? = some .xisf ∨ path.head? = some .image
  leaf : path.head? ≠ some .cell ∧ path.head? ≠ some .field
  row : path.head? = some .row → kind = .cell

/-- Kinds that have no element of their kind around them. -/
theorem not_nested : ∀ kind ∈ ElementKind.named, ∀ allowed, allowedPaths kind = some allowed →
    ∀ path ∈ allowed, kind ∉ path := by
  have checked : ∀ kind ∈ ElementKind.named, ((allowedPaths kind).getD []).all
      (fun path => decide (kind ∉ path)) = true := by decide
  intro kind member allowed found path inside
  have all := checked kind member
  rw [found, Option.getD_some, List.all_eq_true] at all
  simpa using all path inside

end Mmxisf.Reader
