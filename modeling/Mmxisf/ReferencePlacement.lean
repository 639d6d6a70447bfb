/-
# ReferencePlacement -- a Reference and the rules of its target

What may not stand in a place should not be brought there by a Reference.  A
Reference in an Image, in Metadata or in a Table is checked against its target;
one anywhere else is not, and a Reference in Metadata may name a Property that
could not stand there itself.  A header keeps the rules exactly when it has no
such Reference.
-/
import Mmxisf.Reader.Tables

namespace Mmxisf.Reader

set_option autoImplicit false

variable {options : ReaderOptions} {platform : Platform}

/-! ## The rules of a Reference -/

/-- The id that a Property in Metadata must have. -/
def hasUnitId (tag : XmlTag) : Bool := (lit "XISF:").isPrefixOf (nameOf tag)

/-- A Reference obeys the rules of the element it names. -/
structure ObeysTarget (outline : HeaderOutline) (reference target : HeaderElement) : Prop where
  tableStructure : target.tag.kind = .tableStructure →
    parentKind reference = some .table ∧ isStandalone target = true
  property : target.tag.kind = .property → parentKind reference = some .metadata →
    hasUnitId target.tag = true
  /-- It binds a FITSKeyword or a Table to images only. -/
  imageOnly : target.tag.kind = .fitsKeyword ∨ target.tag.kind = .table →
    parentKind reference ≠ some .metadata ∧
      (∀ binding ∈ referenceBindingsOf outline reference,
        binding.scope = .image ∧ binding.imageIndex.isSome = true) ∧
      ∀ binding ∈ objectReferencesOf outline (isKind .table) reference,
        imageOf outline reference = some binding.imageIndex

def ReferencesObey (header : AcceptedHeader options platform) : Prop :=
  ∀ reference ∈ header.outline.elements, ∀ target ∈ header.outline.elements,
    names reference target = true → ObeysTarget header.outline reference target

/-- A Structure is named from Tables, Images and Metadata only, and of the Properties
that Metadata names each has an id for it. -/
structure NoneMisplaced (outline : HeaderOutline) : Prop where
  tableStructure : ∀ reference ∈ outline.elements, ∀ target ∈ outline.ofKind
    (isKind .tableStructure),
    names reference target = true → parentKind reference = some .table ∨
      parentKind reference = some .image ∨ parentKind reference = some .metadata
  property : ∀ reference ∈ outline.elements, ∀ target ∈ outline.ofKind (isKind .property),
    names reference target = true → parentKind reference = some .metadata →
      hasUnitId target.tag = true

/-! ## What the parser checks -/

section

variable {fileSize headerLength : Nat} {state : XmlBuilder} {parsed : ParsedHeader}
  {outline : HeaderOutline} {reference target : HeaderElement}

/-- A Reference in a Table names a standalone Structure. -/
theorem AcceptedFrom.standalone_of_table
    (checked : AcceptedFrom options fileSize headerLength state parsed)
    (registered : Registered outline state) (shape : Shape outline state)
    (inside : reference ∈ outline.elements) (member : target ∈ outline.elements)
    (named : names reference target = true) (parent : parentKind reference = some .table) :
    isStandalone target = true := by
  have coherent := shape.stacked.coherent
  obtain ⟨text, refers, declared⟩ := names_iff.mp named
  obtain ⟨frame, rest, ancestors, isTable⟩ := parentKind_eq parent
  have table : ∃ k, around outline .table reference = some k := by
    simp [around, ancestors, isKind, isTable]
  obtain ⟨k, table⟩ := table
  have event : (⟨k, text⟩ : TableStructureReferenceEvent) ∈ state.tableStructureReferences := by
    rw [registered.structureReferences, List.mem_flatMap]
    refine ⟨reference, inside, ?_⟩
    rw [structureReferencesOf, if_pos parent, refers, table]
    exact List.mem_singleton_self _
  have small : k < state.tables.length := by
    rw [shape.counted.tables]
    exact around_lt coherent inside table
  obtain ⟨-, index, -, -, -, found, -⟩ :=
    (resolveStructureReferences_eq checked.structures).of_event event small
  obtain ⟨standalone, isStructure, isStandalone, alsoNamed, -⟩ :=
    registered.lookup_standalone refers found
  obtain rfl := named_unique registered.uids member named (List.mem_filter.mp isStructure).1
    alsoNamed
  exact isStandalone

end

/-! ## The theorem -/

/-- The References of an accepted header obey the rules of their targets exactly when
none names a Structure from another place, and none in Metadata a Property without
an id for it. -/
theorem referencesObey_iff (header : AcceptedHeader options platform) :
    ReferencesObey header ↔ NoneMisplaced header.outline := by
  constructor
  · refine fun obey => ⟨fun reference inside target member named => ?_,
      fun reference inside target member named parent => ?_⟩
    · obtain ⟨member, kind⟩ := List.mem_filter.mp member
      exact .inl ((obey reference inside target member named).tableStructure
        (of_decide_eq_true kind)).1
    · obtain ⟨member, kind⟩ := List.mem_filter.mp member
      exact (obey reference inside target member named).property (of_decide_eq_true kind) parent
  · intro none reference inside target member named
    obtain ⟨parser, sameOutline, checked⟩ := header.parser
    have shape := parser.shape
    have registered := parser.registered
    rw [sameOutline] at shape registered
    have taken := checked.referenceTaken registered shape.stacked.coherent inside member named
    have ofKind {kind : ElementKind} (same : target.tag.kind = kind) :
        target ∈ header.outline.ofKind (isKind kind) :=
      List.mem_filter.mpr ⟨member, decide_eq_true same⟩
    refine ⟨fun kind => ?_, fun kind => none.property reference inside target (ofKind kind) named,
      fun kind => ?_⟩
    · rcases none.tableStructure reference inside target (ofKind kind) named with
        table | image | metadata
      · exact ⟨table, checked.standalone_of_table registered shape inside member named table⟩
      · exact absurd kind (taken.fromImage image)
      · exact absurd kind (taken.fromMetadata metadata).1
    · have elsewhere : parentKind reference ≠ some .metadata := fun metadata =>
        kind.elim (taken.fromMetadata metadata).2.1 (taken.fromMetadata metadata).2.2
      refine ⟨elsewhere, fun binding made => ?_, fun binding made => ?_⟩
      · rw [referenceBindingsOf] at made
        split at made
        · rename_i places
          have image := places.resolve_right elsewhere
          obtain ⟨index, -, rfl⟩ := List.mem_map.mp made
          exact ⟨if_pos image, imageOf_child image⟩
        · cases made
      · rw [objectReferencesOf] at made
        split at made
        · obtain ⟨image, here, made⟩ := List.mem_flatMap.mp made
          obtain ⟨index, -, rfl⟩ := List.mem_map.mp made
          exact Option.mem_toList.mp here
        · cases made

/-- A Structure, and a Reference to it, both in the root. -/
def strayReferenceEvents : List XmlEvent :=
  unitEvents [] (xisfElement "Structure" [("uid", "S")]
      (xisfElement "Field" [("id", "x"), ("type", "UInt8")] []) ++
    xisfElement "Reference" [("ref", "S")] [])

def strayReference : AcceptedHeader {} (reporting strayReferenceEvents) :=
  acceptedHeader strayReferenceEvents (by decide +kernel) (by decide +kernel)

/-- The Reference is in no Table. -/
theorem strayReference_notObeyed : ¬ ReferencesObey strayReference := by
  intro obey
  have misplaced : ∃ reference ∈ strayReference.outline.elements,
      ∃ target ∈ strayReference.outline.elements, names reference target = true ∧
        target.tag.kind = .tableStructure ∧ parentKind reference ≠ some .table := by
    decide +kernel
  obtain ⟨reference, inside, target, member, named, kind, parent⟩ := misplaced
  exact parent ((obey reference inside target member named).tableStructure kind).1

end Mmxisf.Reader
