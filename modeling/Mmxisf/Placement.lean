/-
# Placement -- where Properties and FITS keywords stand

A Property belongs to the root, to an image of the root or to Metadata, and a
FITSKeyword to the root or such an image.  The parser decides by the name of the
parent: of the elements that may be parents only `xisf` can stand elsewhere than
in its place, since an element of that name inside another one is ignored but for
its name.  So the entries of a header stand in their places exactly when none of
them is a child of an `xisf` that is not the root.
-/
import Mmxisf.Reader.Bindings

namespace Mmxisf.Reader

set_option autoImplicit false

variable {options : ReaderOptions} {platform : Platform}

/-! ## The place of an entry -/

/-- An entry is that of its element, stands in one of its places, and has the scope
and the image of that place. -/
structure IsPlaced (outline : HeaderOutline) (element : HeaderElement) (entry : MetadataEntry) :
    Prop where
  kind : entry.kind = if element.tag.kind = .property then .property else .fitsKeyword
  name : entry.name = nameOf element.tag
  place :
    (pathKinds element.ancestors = [.xisf] ∧ entry.scope = .standalone ∧ entry.imageIndex = none) ∨
    (∃ image root, element.ancestors = [image, root] ∧ image.tag.kind = .image ∧
      root.tag.kind = .xisf ∧ entry.scope = .image ∧
      entry.imageIndex = some (outline.rank (isKind .image) image)) ∨
    (entry.kind = .property ∧ pathKinds element.ancestors = [.metadata, .xisf] ∧
      entry.scope = .xisfUnit ∧ entry.imageIndex = none)

/-- The unit has one Metadata element, and every recorded Property and FITSKeyword
is placed. -/
structure EntriesPlaced (header : AcceptedHeader options platform) : Prop where
  oneMetadata : (header.outline.ofKind (isKind .metadata)).length = 1
  entries : Library.Matches (IsPlaced header.outline) (header.outline.ofKind isEntry)
    header.parsed.document.metadata

/-- No Property and no FITSKeyword is a child of an `xisf` inside another element. -/
def NoneInNestedRoot (outline : HeaderOutline) : Prop :=
  ∀ element ∈ outline.ofKind isEntry, parentKind element = some .xisf → element.ancestors.length = 1

/-! ## What is recorded -/

section

variable {outline : HeaderOutline} {state : XmlBuilder} {element : HeaderElement}

/-- An entry in an image or in Metadata, or in an `xisf`. -/
theorem Stacked.entry_place (stacked : Stacked outline state)
    (member : element ∈ outline.ofKind isEntry) :
    (∃ root rest, element.ancestors = root :: rest ∧ root.tag.kind = .xisf) ∨
    (∃ image root, element.ancestors = [image, root] ∧ image.tag.kind = .image ∧
      root.tag.kind = .xisf) ∨
    (element.tag.kind = .property ∧ ∃ metadata root, element.ancestors = [metadata, root] ∧
      metadata.tag.kind = .metadata ∧ root.tag.kind = .xisf) := by
  have inside := (List.mem_filter.mp member).1
  have kinds : element.tag.kind = .property ∨ element.tag.kind = .fitsKeyword := by
    simpa [isEntry] using (List.mem_filter.mp member).2
  have place := stacked.placed element inside
  cases ancestors : element.ancestors with
  | nil =>
      have root := place.root (by rw [ancestors]; rfl)
      rw [root] at kinds
      rcases kinds with impossible | impossible <;> cases impossible
  | cons parent rest =>
      have child (kind : ElementKind) (same : parent.tag.kind = kind)
          (fixed : allowedPaths kind = some [rootPath]) :
          ∃ root, parent :: rest = [parent, root] ∧ root.tag.kind = .xisf := by
        rw [← ancestors]
        exact stacked.rootGrandchild inside ancestors same fixed
      have heads : parent.tag.kind = .xisf ∨ parent.tag.kind = .image ∨
          (element.tag.kind = .property ∧ parent.tag.kind = .metadata) := by
        have property := place.property
        have keyword := place.fitsKeyword
        rw [ancestors] at property keyword
        simp only [pathKinds, List.map_cons, List.head?_cons, Option.some.injEq] at property keyword
        rcases kinds with kind | kind
        · rcases property kind with root | image | metadata
          · exact .inl root
          · exact .inr (.inl image)
          · exact .inr (.inr ⟨kind, metadata⟩)
        · exact (keyword kind).imp id .inl
      rcases heads with root | image | ⟨property, metadata⟩
      · exact .inl ⟨parent, rest, rfl, root⟩
      · obtain ⟨root, only, isRoot⟩ := child .image image rfl
        exact .inr (.inl ⟨parent, root, only, image, isRoot⟩)
      · obtain ⟨root, only, isRoot⟩ := child .metadata metadata rfl
        exact .inr (.inr ⟨property, parent, root, only, metadata, isRoot⟩)

/-- An entry that is not in a nested `xisf` is placed. -/
theorem Stacked.isPlaced (stacked : Stacked outline state) {entry : MetadataEntry}
    (member : element ∈ outline.ofKind isEntry) (key : entryKey entry = entryKeyOf outline element)
    (outermost : parentKind element = some .xisf → element.ancestors.length = 1) :
    IsPlaced outline element entry := by
  have kind : entry.kind = if element.tag.kind = .property then .property else .fitsKeyword :=
    congrArg EntryKey.kind key
  have scope : entry.scope = scopeOf outline element := congrArg EntryKey.scope key
  have image : entry.imageIndex = imageOf outline element := congrArg EntryKey.imageIndex key
  refine ⟨kind, congrArg EntryKey.name key, ?_⟩
  rcases stacked.entry_place member with ⟨root, rest, ancestors, isRoot⟩ |
    ⟨owner, root, ancestors, isImage, isRoot⟩ |
    ⟨property, owner, root, ancestors, isMetadata, isRoot⟩
  · have outermost := outermost (by simp [parentKind, pathKinds, ancestors, isRoot])
    rw [ancestors, List.length_cons, Nat.add_eq_right, List.length_eq_zero_iff] at outermost
    subst outermost
    refine .inl ⟨by simp [pathKinds, ancestors, isRoot], ?_, ?_⟩
    · simp [scope, scopeOf, imageOf, around, parentKind, pathKinds, ancestors, isKind, isRoot]
    · simp [image, imageOf, around, ancestors, isKind, isRoot]
  · refine .inr (.inl ⟨owner, root, ancestors, isImage, isRoot, ?_, ?_⟩)
    · simp [scope, scopeOf, imageOf, around, ancestors, isKind, isImage]
    · simp [image, imageOf, around, ancestors, isKind, isImage]
  · refine .inr (.inr ⟨by rw [kind, if_pos property], ?_, ?_, ?_⟩)
    · simp [pathKinds, ancestors, isMetadata, isRoot]
    · simp [scope, scopeOf, imageOf, around, parentKind, pathKinds, ancestors, isKind, isMetadata,
        isRoot]
    · simp [image, imageOf, around, ancestors, isKind, isMetadata, isRoot]

/-- A child of an `xisf` is placed in the root only. -/
theorem IsPlaced.outermost {entry : MetadataEntry} (placed : IsPlaced outline element entry)
    (inside : parentKind element = some .xisf) : element.ancestors.length = 1 := by
  rcases placed.place with ⟨path, -⟩ | ⟨image, root, ancestors, isImage, -⟩ | ⟨-, path, -⟩
  · have length := congrArg List.length path
    simpa [pathKinds] using length
  · simp [parentKind, pathKinds, ancestors, isImage] at inside
  · rw [parentKind, path] at inside
    cases inside

end

/-! ## The theorem -/

/-- Of placed entries none is in a nested `xisf`. -/
theorem EntriesPlaced.noneInNestedRoot {header : AcceptedHeader options platform}
    (placed : EntriesPlaced header) : NoneInNestedRoot header.outline := by
  intro element member inside
  obtain ⟨i, there⟩ := List.getElem?_of_mem member
  obtain ⟨entry, -, isPlaced⟩ := placed.entries.get_element there
  exact isPlaced.outermost inside

/-- The entries of an accepted header are in their places exactly when none of them
is a child of an `xisf` inside another element. -/
theorem entriesPlaced_iff (header : AcceptedHeader options platform) :
    EntriesPlaced header ↔ NoneInNestedRoot header.outline := by
  refine ⟨EntriesPlaced.noneInNestedRoot, fun outermost => ?_⟩
  obtain ⟨parser, sameOutline, checked⟩ := header.parser
  have stacked := parser.shape.stacked
  have entries := parser.registered.entries
  have seen := parser.holds preserved_unitSeen
  rw [sameOutline] at stacked entries seen
  refine ⟨seen.metadata.symm.trans (checkCompleteness_eq checked.complete).oneMetadata, ?_⟩
  have metadata : header.parsed.document.metadata = parser.state.metadata :=
    congrArg Document.metadata checked.document
  rw [metadata]
  refine List.forall₂_iff_get.mpr ⟨?_, fun i small small' => ?_⟩
  · have length := congrArg List.length entries
    simpa using length.symm
  · have key := congrArg (fun keys => keys[i]?) entries
    simp only [List.getElem?_map, List.getElem?_eq_getElem small, List.getElem?_eq_getElem small',
      Option.map_some, Option.some.injEq] at key
    have member := List.getElem_mem small
    exact stacked.isPlaced member key (outermost _ member)

/-- A Property of an `xisf` inside an element that is not known. -/
def nestedRootEvents : List XmlEvent :=
  unitEvents [] (xisfElement "Unknown" [] (xisfElement "xisf" []
    (xisfElement "Property" [("id", "Nested"), ("type", "UInt8"), ("value", "1")] [])))

def nestedRoot : AcceptedHeader {} (reporting nestedRootEvents) :=
  acceptedHeader nestedRootEvents (by decide +kernel) (by decide +kernel)

/-- The Property has the scope of a child of the root, which it is not. -/
theorem nestedRoot_notPlaced : ¬ EntriesPlaced nestedRoot := by
  intro placed
  have outermost := placed.noneInNestedRoot
  have nested : ¬ ∀ element ∈ nestedRoot.outline.ofKind isEntry,
      parentKind element = some .xisf → element.ancestors.length = 1 := by decide +kernel
  exact nested outermost

end Mmxisf.Reader
