/-
# AcceptedUnits -- what the checks of a writer leave of a call

`checkUnit` refuses a call or passes it on unchanged.  What it has made sure of is
stated here in the terms a reader of the file needs: each image and each entry on its
own (`AcceptedImage`, `AcceptedEntry`), and that no identifier occurs twice where it
must be unique (`AcceptedUnit`).
-/
import Mmxisf.MetadataAgreement
import Mmxisf.Writer.Units

namespace Mmxisf

set_option autoImplicit false

open Writer (MetadataWriteEntry MetadataCheck ImageWriteView WriterOptions)

/-! ## Images -/

/-- What the image loop leaves of an image. -/
structure AcceptedImage (image : ImageWriteView) : Prop where
  format : (Writer.sampleFormatDescription image.sampleFormat).1 ≠ []
  colorSpace : image.colorSpace = lit "Gray" ∨ image.colorSpace = lit "RGB"
  shuffled : image.byteShuffle = true → image.compression ≠ .none
  width : image.width ≠ 0
  height : image.height ≠ 0
  channels : image.channels = if image.colorSpace = lit "Gray" then 1 else 3
  paired : image.lowerBound.isSome = image.upperBound.isSome
  bounded : image.sampleFormat = .float32 ∨ image.sampleFormat = .float64 →
    image.lowerBound.isSome = true
  increase : Writer.boundsIncrease image.lowerBound image.upperBound = true
  pixels : Writer.pixelBytes image = some image.pixels.length

theorem checkImage_eq {options : WriterOptions} {cumulative cumulative' : Nat}
    {image : ImageWriteView} (run : Writer.checkImage options cumulative image = .ok cumulative') :
    AcceptedImage image := by
  simp only [Writer.checkImage, bind_eq_ok, reject_eq_ok, orFail_eq_ok, not_or, not_and, not_not,
    Bool.not_eq_false] at run
  obtain ⟨_, ⟨format, -, -, gray⟩, _, shuffled, _, ⟨width, height, channels⟩, _, paired, _, bounded,
    _, increase, bytes, pixels, _, -, _, -, _, same, -⟩ := run
  subst same
  refine ⟨format, ?_, shuffled, width, height, channels, paired, fun float => ?_, increase, pixels⟩
  · by_cases isGray : image.colorSpace = lit "Gray"
    · exact .inl isGray
    · exact .inr (gray isGray)
  · have there := bounded float
    rw [Option.isNone_iff_eq_none] at there
    exact Option.isSome_iff_ne_none.mpr there

theorem checkImages_eq {options : WriterOptions} {images : List ImageWriteView}
    {cumulative cumulative' : Nat}
    (run : images.foldlM (Writer.checkImage options) cumulative = .ok cumulative') :
    ∀ image ∈ images, AcceptedImage image := by
  induction images generalizing cumulative with
  | nil => exact fun _ member => absurd member List.not_mem_nil
  | cons first rest ih =>
      rw [List.foldlM_cons, bind_eq_ok] at run
      obtain ⟨next, one, run⟩ := run
      exact List.forall_mem_cons.mpr ⟨checkImage_eq one, ih run⟩

/-- The identifiers of the images that have one. -/
def imageIds (images : List ImageWriteView) : List Text :=
  (images.map (·.id)).filter (· ≠ [])

theorem checkImageIds_eq {images : List ImageWriteView} {seen : List Text}
    (run : Writer.checkImageIds seen images = .ok ()) :
    (∀ image ∈ images, image.id ≠ [] → Writer.isValidImageIdentifier image.id = true) ∧
      (imageIds images).Nodup ∧ ∀ id ∈ imageIds images, id ∉ seen := by
  induction images generalizing seen with
  | nil => exact ⟨by simp, List.nodup_nil, by simp [imageIds]⟩
  | cons first rest ih =>
      simp only [Writer.checkImageIds, bind_eq_ok, reject_eq_ok, not_and, not_or,
        Bool.not_eq_false] at run
      obtain ⟨_, named, run⟩ := run
      obtain ⟨valid, apart, fresh⟩ := ih run
      refine ⟨List.forall_mem_cons.mpr ⟨fun some => (named some).1, valid⟩, ?_⟩
      by_cases some : first.id ≠ []
      · rw [if_pos some] at fresh
        have ids : imageIds (first :: rest) = first.id :: imageIds rest := by
          simp [imageIds, some]
        rw [ids, List.nodup_cons, List.forall_mem_cons]
        refine ⟨⟨fun again => ?_, apart⟩, (named some).2, fun id member => ?_⟩
        · exact fresh _ again (List.mem_append_right _ (List.mem_singleton.mpr rfl))
        · exact fun before => fresh id member (List.mem_append_left _ before)
      · rw [if_neg some] at fresh
        have ids : imageIds (first :: rest) = imageIds rest := by
          simp [imageIds, not_not.mp some]
        rw [ids]
        exact ⟨apart, fresh⟩

/-! ## Entries -/

/-- What the checks leave of a block Property, with its layout and its number of
elements. -/
structure BlockChecked (entry : MetadataWriteEntry) (layout : PropertyElementLayout) (count : Nat) :
    Prop where
  known : propertyElementLayout entry.type = some layout
  counted : Writer.elementCount entry = .ok count
  bytes : checkedMultiply count layout.elementSize = some entry.blockBytes.length
  shuffled : entry.byteShuffle = true → entry.compression ≠ .none
  container : Writer.isEmptyPropertyContainer entry = true →
    entry.byteOrder = .little ∧ entry.format = [] ∧ entry.compression = .none ∧
      entry.byteShuffle = false ∧ entry.checksum = .none
  noValue : entry.value = []

/-- What the metadata loop leaves of an entry. -/
structure AcceptedEntry (imageCount : Nat) (entry : MetadataWriteEntry) : Prop where
  valid : ValidEntry entry
  inRange : ∀ index, entry.imageIndex = some index → index < imageCount
  direct : entry.valueForm = .direct → Writer.declaresBlock entry = false
  fitsKeyword : entry.kind = .fitsKeyword → entry.valueForm = .direct ∧ entry.type = []
  comment : entry.kind = .property → entry.comment = []
  order : entry.kind = .property → entry.valueForm = .direct → entry.byteOrder = .little
  block : entry.valueForm = .dataBlock → ∃ layout count, BlockChecked entry layout count

section

variable {options : WriterOptions} {imageCount : Nat} {check check' : MetadataCheck}
  {entry : MetadataWriteEntry}

theorem blockChecked_of_run {cumulative cumulative' : Nat}
    (run : Writer.checkBlockProperty options cumulative entry = .ok cumulative') :
    ∃ layout count, BlockChecked entry layout count := by
  simp only [Writer.checkBlockProperty, bind_eq_ok, reject_eq_ok, orFail_eq_ok, not_and, not_not,
    not_or, Bool.not_eq_true] at run
  obtain ⟨_, noValue, layout, isLayout, count, counted, expected, bytes, _, same, _, -, _, -, _,
    shuffled, _, container, -⟩ := run
  subst same
  exact ⟨layout, count, isLayout, counted, bytes, shuffled, container, noValue⟩

theorem acceptedEntry_of_run (reserved : Reserved check)
    (run : Writer.checkMetadataEntry options imageCount check entry = .ok check') :
    AcceptedEntry imageCount entry := by
  obtain ⟨valid, -⟩ := checkMetadataEntry_eq reserved run
  simp only [Writer.checkMetadataEntry, bind_eq_ok, reject_eq_ok] at run
  obtain ⟨_, range, _, -, checked, form, -⟩ := run
  have inRange : ∀ index, entry.imageIndex = some index → index < imageCount := by
    intro index there
    simpa [there] using range
  cases kind : entry.kind with
  | fitsKeyword =>
      simp only [kind, bind_eq_ok, Writer.checkFitsKeyword, reject_eq_ok, not_or, not_not,
        Bool.not_eq_true] at form
      obtain ⟨_, ⟨_, ⟨direct, plain⟩, _, -, _, type, -⟩, -⟩ := form
      refine ⟨valid, inRange, fun _ => plain, fun _ => ⟨direct, type⟩, ?_, ?_, ?_⟩
      · rw [kind]
        rintro ⟨⟩
      · rw [kind]
        rintro ⟨⟩
      · rw [direct]
        rintro ⟨⟩
  | property =>
      simp only [kind, Writer.checkProperty, bind_eq_ok, reject_eq_ok, not_not] at form
      obtain ⟨_, -, _, comment, cumulative, value, -⟩ := form
      have notKeyword : entry.kind = .fitsKeyword → entry.valueForm = .direct ∧
          entry.type = [] := by
        rw [kind]
        rintro ⟨⟩
      cases isForm : entry.valueForm with
      | direct =>
          simp only [isForm, bind_eq_ok, Writer.checkDirectProperty, reject_eq_ok, not_or, not_not,
            Bool.not_eq_true] at value
          obtain ⟨_, ⟨_, ⟨plain, little⟩, -⟩, -⟩ := value
          refine ⟨valid, inRange, fun _ => plain, notKeyword,
            fun _ => comment, fun _ _ => little, ?_⟩
          rw [isForm]
          rintro ⟨⟩
      | dataBlock =>
          simp only [isForm] at value
          refine ⟨valid, inRange, ?_, notKeyword, fun _ => comment, ?_,
            fun _ => blockChecked_of_run value⟩
          · rw [isForm]
            rintro ⟨⟩
          · rw [isForm]
            rintro _ ⟨⟩

/-- The identifier of a Property, with the association it must be unique in. -/
def association (entry : MetadataWriteEntry) : Option (Option Nat × Text) :=
  if entry.kind = .property then some (entry.imageIndex, entry.name) else none

/-- An identifier is used in its association. -/
def MetadataCheck.Uses (check : MetadataCheck) (identifier : Option Nat × Text) : Prop :=
  identifier.2 ∈ check.propertyIds identifier.1

/-- There is a list of identifiers for every image. -/
def Sized (imageCount : Nat) (check : MetadataCheck) : Prop :=
  check.imagePropertyIds.length = imageCount

theorem uses_add (sized : Sized imageCount check) {imageIndex : Option Nat} {name : Text}
    (inRange : ∀ index, imageIndex = some index → index < imageCount)
    {identifier : Option Nat × Text} :
    MetadataCheck.Uses (check.addPropertyId imageIndex name) identifier ↔
      MetadataCheck.Uses check identifier ∨ identifier = (imageIndex, name) := by
  obtain ⟨place, id⟩ := identifier
  unfold MetadataCheck.Uses MetadataCheck.addPropertyId MetadataCheck.propertyIds
  cases imageIndex with
  | none => cases place <;> simp
  | some index =>
      have inside : index < check.imagePropertyIds.length := sized ▸ inRange index rfl
      cases place with
      | none => simp
      | some other =>
          by_cases same : other = index
          · subst same
            simp [List.getD_eq_getElem?_getD, List.getElem?_eq_getElem inside]
          · simp [List.getD_eq_getElem?_getD, same, Ne.symm same]

/-- A round adds the identifier of a Property, which was not used. -/
theorem checkMetadataEntry_uses (sized : Sized imageCount check)
    (run : Writer.checkMetadataEntry options imageCount check entry = .ok check') :
    Sized imageCount check' ∧
      (∀ identifier, association entry = some identifier → ¬ MetadataCheck.Uses check identifier) ∧
      ∀ identifier, MetadataCheck.Uses check' identifier ↔
        MetadataCheck.Uses check identifier ∨ association entry = some identifier := by
  simp only [Writer.checkMetadataEntry, bind_eq_ok, reject_eq_ok] at run
  obtain ⟨_, range, _, -, checked, form, run⟩ := run
  have same : checked = check' := by
    obtain ⟨-, run⟩ | ⟨-, run⟩ := ite_eq_ok run
    · simp only [bind_eq_ok] at run
      obtain ⟨-, -, same⟩ := run
      cases same
      rfl
    · cases run
      rfl
  subst same
  cases kind : entry.kind with
  | fitsKeyword =>
      simp only [kind, bind_eq_ok] at form
      obtain ⟨_, -, same⟩ := form
      cases same
      have none : association entry = none := by simp [association, kind]
      exact ⟨sized, by simp [none], by simp [none]⟩
  | property =>
      have some : association entry = some (entry.imageIndex, entry.name) := if_pos kind
      simp only [kind, Writer.checkProperty, bind_eq_ok, reject_eq_ok] at form
      obtain ⟨_, -, _, -, cumulative, -, _, -, _, fresh, same⟩ := form
      cases same
      have inRange : ∀ index, entry.imageIndex = .some index → index < imageCount := by
        intro index there
        simpa [there] using range
      refine ⟨?_, ?_, fun identifier => ?_⟩
      · unfold Sized MetadataCheck.addPropertyId
        cases entry.imageIndex with
        | none => exact sized
        | some index => exact (List.length_modify ..).trans sized
      · rintro identifier there
        rw [some, Option.some.injEq] at there
        subst there
        exact fresh
      · rw [some, Option.some.injEq, eq_comm]
        exact uses_add sized inRange

theorem checkMetadata_apart {metadata : List MetadataWriteEntry} (sized : Sized imageCount check)
    (run : metadata.foldlM (Writer.checkMetadataEntry options imageCount) check = .ok check') :
    (metadata.filterMap association).Nodup ∧
      ∀ identifier ∈ metadata.filterMap association, ¬ MetadataCheck.Uses check identifier := by
  induction metadata generalizing check with
  | nil => exact ⟨List.nodup_nil, fun _ member => absurd member List.not_mem_nil⟩
  | cons first rest ih =>
      rw [List.foldlM_cons, bind_eq_ok] at run
      obtain ⟨next, one, run⟩ := run
      obtain ⟨sizedNext, fresh, uses⟩ := checkMetadataEntry_uses sized one
      obtain ⟨apart, unused⟩ := ih sizedNext run
      rw [List.filterMap_cons]
      cases there : association first with
      | none => exact ⟨apart, fun identifier member used =>
          unused identifier member ((uses identifier).mpr (.inl used))⟩
      | some identifier =>
          refine ⟨List.nodup_cons.mpr ⟨fun again => ?_, apart⟩, List.forall_mem_cons.mpr
            ⟨fresh identifier there, fun other member used => ?_⟩⟩
          · exact unused identifier again ((uses identifier).mpr (.inr there))
          · exact unused other member ((uses other).mpr (.inl used))

theorem acceptedEntries_of_run {metadata : List MetadataWriteEntry} (reserved : Reserved check)
    (run : metadata.foldlM (Writer.checkMetadataEntry options imageCount) check = .ok check') :
    ∀ entry ∈ metadata, AcceptedEntry imageCount entry := by
  induction metadata generalizing check with
  | nil => exact fun _ member => absurd member List.not_mem_nil
  | cons first rest ih =>
      rw [List.foldlM_cons, bind_eq_ok] at run
      obtain ⟨next, one, run⟩ := run
      exact List.forall_mem_cons.mpr ⟨acceptedEntry_of_run reserved one,
        ih (checkMetadataEntry_eq reserved one).2 run⟩

end

/-! ## Units -/

/-- What the checks leave of the arguments of a call. -/
structure AcceptedUnit (options : WriterOptions) (images : List ImageWriteView)
    (metadata : List MetadataWriteEntry) : Prop where
  image : ∀ image ∈ images, AcceptedImage image
  imageId : ∀ image ∈ images, image.id ≠ [] → Writer.isValidImageIdentifier image.id = true
  imageIds : (imageIds images).Nodup
  entry : ∀ entry ∈ metadata, AcceptedEntry images.length entry
  identifiers : (metadata.filterMap association).Nodup
  chunks : options.compressionSubblockBytes ≠ 0
  creationTime : Writer.isCanonicalUtcTime options.creationTime = true
  creatorApplication : options.creatorApplication ≠ []

theorem acceptedUnit_of_run {options : WriterOptions} {images : List ImageWriteView}
    {metadata : List MetadataWriteEntry} {total : Nat}
    (run : Writer.checkUnit options images metadata = .ok total) :
    AcceptedUnit options images metadata := by
  simp only [Writer.checkUnit, bind_eq_ok, reject_eq_ok, not_or, Bool.not_eq_false] at run
  obtain ⟨_, -, _, -, _, -, _, -, _, ⟨chunks, -⟩, _, -, _, time, _, creator, _, -, _, ids, check,
    entries, bytes⟩ := run
  obtain ⟨valid, apart, -⟩ := checkImageIds_eq ids
  have sized : Sized images.length (MetadataCheck.start images.length) := List.length_replicate
  exact ⟨checkImages_eq bytes, valid, apart, acceptedEntries_of_run reserved_start entries,
    (checkMetadata_apart sized entries).1, chunks, time, creator⟩

end Mmxisf
