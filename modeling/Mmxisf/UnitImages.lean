/-
# UnitImages -- the images of a unit, as the reader lists them

What a reader says of an image that a writer accepted is determined by the image and
the place of its pixels (`listedImage`).  The start tag of the image, as a parser
reports it, makes the handlers list it so, unless a limit stops them
(`image_opens`).
-/
import Mmxisf.EntrySteps

namespace Mmxisf

set_option autoImplicit false

open Writer (ImageWriteView MetadataWriteEntry PlannedBlock TagAttribute decimal)
open Reader (XmlBuilder ElementContext ReaderOptions Suffices Tighter AttachedRange)
open Library (split)

/-! ## The listing -/

/-- What a reader lists for an image. -/
def listedImage (item : ImageWriteView × PlannedBlock) : ImageInfo where
  id := item.1.id
  geometry := [item.1.width, item.1.height, item.1.channels]
  sampleFormat := item.1.sampleFormat
  sampleFormatName := (Writer.sampleFormatDescription item.1.sampleFormat).1
  colorSpace := item.1.colorSpace
  orientation := none
  nominalChannelOrder := Reader.nominalChannelOrderOf item.1.colorSpace
  lowerBound := item.1.lowerBound
  upperBound := item.1.upperBound
  pixelStorage := .planar
  byteOrder := .little
  block := item.2.location
  compression := item.2.prepared.compression
  subblocks := item.2.prepared.subblocks
  checksum := item.2.prepared.checksum

/-- What is known of an image and its block when a header is read. -/
structure ImageReady (item : ImageWriteView × PlannedBlock) : Prop where
  accepted : AcceptedImage item.1
  named : item.1.id ≠ [] → Writer.isValidImageIdentifier item.1.id = true
  tidy : TidyBlock item.2.prepared
  placed : PlacedBlock item.2

/-! ## Tidy attributes -/

/-- The names of an Image, and those it does not use. -/
def imageNames : List String :=
  ["id", "geometry", "sampleFormat", "colorSpace", "pixelStorage", "byteOrder", "bounds",
    "compression", "subblocks", "checksum", "location", "orientation", "uid"]

theorem attributeValue_tidy {attributes : List TagAttribute}
    (known : ∀ tag ∈ attributes, tag.1 ∈ imageNames) (tidy : ∀ tag ∈ attributes, Tidy tag.2)
    {wanted : String} (isName : wanted ∈ imageNames) :
    Reader.attributeValue (reportedTags attributes) (lit wanted) = tagValue attributes wanted := by
  have plain : ∀ name ∈ imageNames, Reader.namespaceName (lit name) = [] ∧
      ∀ other ∈ imageNames, Reader.localName (lit name) = lit other ↔ name = other := by decide
  unfold Reader.attributeValue reportedTags reportedAttributes tagValue
  induction attributes with
  | nil => rfl
  | cons tag rest ih =>
      rw [List.forall_mem_cons] at known tidy
      obtain ⟨noNamespace, isLocal⟩ := plain tag.1 known.1
      have same : (decide (Reader.namespaceName (lit tag.1) = []) &&
          decide (Reader.localName (lit tag.1) = lit wanted)) = decide (tag.1 = wanted) := by
        rw [← Bool.decide_and, decide_eq_decide, isLocal wanted isName]
        exact and_iff_right noNamespace
      have value : normalizeValue (deliveredTag tag).2 = tag.2 := tidy.1.attributeText
      rw [List.map_cons, List.map_cons, List.find?_cons, List.find?_cons]
      dsimp only
      have name : (deliveredTag tag).1 = tag.1 := rfl
      rw [name, same]
      by_cases here : tag.1 = wanted
      · simp [here, value]
      · simp only [here, decide_false]
        exact ih known.2 tidy.2

/-! ## The tags of an image -/

section

variable {platform : Platform} {item : ImageWriteView × PlannedBlock}

/-- Both bounds, or neither. -/
theorem AcceptedImage.bounds {image : ImageWriteView} (accepted : AcceptedImage image) :
    (image.lowerBound = none ∧ image.upperBound = none) ∨
      ∃ lower upper, image.lowerBound = some lower ∧ image.upperBound = some upper ∧
        lower.isFinite = true ∧ upper.isFinite = true ∧ lower.less upper = true := by
  have paired := accepted.paired
  have increase := accepted.increase
  cases lower : image.lowerBound with
  | none =>
      rw [lower] at paired
      exact .inl ⟨rfl, by simpa using paired.symm⟩
  | some low =>
      rw [lower] at paired increase
      obtain ⟨high, upper⟩ := Option.isSome_iff_exists.mp paired.symm
      rw [upper] at increase
      simp only [Writer.boundsIncrease, Bool.and_eq_true] at increase
      exact .inr ⟨low, high, rfl, upper, increase.1.1, increase.1.2, increase.2⟩

/-- The bounds as a text. -/
def boundsText (platform : Platform) (lower upper : Double) : Text :=
  platform.toCharsScientific lower ++ lit ":" ++ platform.toCharsScientific upper

theorem boundsTag_eq (accepted : AcceptedImage item.1) :
    boundsTag platform item.1 = [] ∧ item.1.lowerBound = none ∧ item.1.upperBound = none ∨
      ∃ lower upper, boundsTag platform item.1 = [("bounds", boundsText platform lower upper)] ∧
        item.1.lowerBound = some lower ∧ item.1.upperBound = some upper ∧
        lower.isFinite = true ∧ upper.isFinite = true ∧ lower.less upper = true := by
  unfold boundsTag
  rcases accepted.bounds with ⟨noLower, noUpper⟩ | ⟨lower, upper, isLower, isUpper, more⟩
  · rw [noLower, noUpper]
    exact .inl ⟨rfl, rfl, rfl⟩
  · rw [isLower, isUpper]
    exact .inr ⟨lower, upper, rfl, rfl, rfl, more⟩

theorem boundsText_tidy (numbers : NumberLaws platform) {lower upper : Double}
    (lowerFinite : lower.isFinite = true) (upperFinite : upper.isFinite = true) :
    Tidy (boundsText platform lower upper) :=
  ((numbers.tidy lower lowerFinite).append (by decide)).append (numbers.tidy upper upperFinite)

/-- All values of the tags are tidy, and the names are known. -/
theorem imageAttributes_tidy (numbers : NumberLaws platform) (ready : ImageReady item) :
    ∀ tag ∈ imageAttributes platform item, tag.1 ∈ imageNames ∧ Tidy tag.2 := by
  have known (name : String) (isName : name ∈ imageNames) {value : Text} (tidy : Tidy value) :
      (name, value).1 ∈ imageNames ∧ Tidy (name, value).2 := ⟨isName, tidy⟩
  intro tag member
  unfold imageAttributes preparedTags at member
  simp only [List.mem_append] at member
  rcases member with (((id | own) | bounds) | ((compression | subblocks) | checksum)) | place
  · rw [mem_optionalAttribute id]
    have some : item.1.id ≠ [] := by
      intro none
      rw [none] at id
      cases id
    exact known "id" (by decide) (imageIdentifier_tidy (ready.named some))
  · simp only [List.mem_cons, List.not_mem_nil, or_false] at own
    rcases own with rfl | rfl | rfl | rfl | rfl
    · exact known "geometry" (by decide) (geometry_tidy ..)
    · exact known "sampleFormat" (by decide) (sampleFormat_tidy _)
    · exact known "colorSpace" (by decide) ready.accepted.tidySpace
    · exact known "pixelStorage" (by decide) (by decide)
    · exact known "byteOrder" (by decide) (by decide)
  · rcases @boundsTag_eq platform item ready.accepted with
      ⟨none, -⟩ | ⟨lower, upper, same, -, -, lowerFinite, upperFinite, -⟩
    · rw [none] at bounds
      cases bounds
    · rw [same] at bounds
      rw [List.mem_singleton.mp bounds]
      exact known "bounds" (by decide) (boundsText_tidy numbers lowerFinite upperFinite)
  · rw [mem_optionalAttribute compression]
    exact known "compression" (by decide) ready.tidy.compression
  · rw [mem_optionalAttribute subblocks]
    exact known "subblocks" (by decide) ready.tidy.subblocks
  · rw [mem_optionalAttribute checksum]
    exact known "checksum" (by decide) ready.tidy.checksum
  · rw [List.mem_singleton.mp place]
    exact known "location" (by decide) (attachmentLocation_tidy _ _)

/-- The element of an image, as the parser reports it. -/
def imageElement (platform : Platform) (item : ImageWriteView × PlannedBlock) : ElementContext where
  name := lit "Image"
  namespaceUri := Reader.kXisfNamespace
  parent := lit "xisf"
  attributes := reportedTags (imageAttributes platform item)

theorem attr_image (numbers : NumberLaws platform) (ready : ImageReady item) {wanted : String}
    (isName : wanted ∈ imageNames) : (imageElement platform item).attr wanted =
      tagValue (imageAttributes platform item) wanted :=
  attributeValue_tidy (fun tag member => (imageAttributes_tidy numbers ready tag member).1)
    (fun tag member => (imageAttributes_tidy numbers ready tag member).2) isName

theorem tagValue_nil (wanted : String) : tagValue [] wanted = none := rfl

theorem tagValue_cons (name wanted : String) (value : Text) (rest : List TagAttribute) :
    tagValue ((name, value) :: rest) wanted =
      if name = wanted then some value else tagValue rest wanted := by
  unfold tagValue
  rw [List.find?_cons]
  by_cases same : name = wanted
  · simp [same]
  · simp [same]

theorem tagValue_bounds {wanted : String} (other : wanted ≠ "bounds") :
    tagValue (boundsTag platform item.1) wanted = none := by
  unfold boundsTag
  split
  · rw [tagValue_cons, if_neg other.symm, tagValue_nil]
  · rfl

/-- What the tags of an image say. -/
structure ImageTags (platform : Platform) (item : ImageWriteView × PlannedBlock)
    (element : ElementContext) : Prop where
  geometry : element.attr "geometry" = some (decimal item.1.width ++ lit ":" ++
    decimal item.1.height ++ lit ":" ++ decimal item.1.channels)
  sampleFormat : element.attr "sampleFormat" =
    some (Writer.sampleFormatDescription item.1.sampleFormat).1
  colorSpace : element.attributeOr "colorSpace" "Gray" = item.1.colorSpace
  pixelStorage : element.attr "pixelStorage" = some (lit "Planar")
  byteOrder : element.attr "byteOrder" = some (lit "little")
  bounds : element.attr "bounds" = tagValue (boundsTag platform item.1) "bounds"
  id : element.attributeOr "id" = item.1.id
  compression : element.attributeOr "compression" = item.2.prepared.compression
  subblocks : element.attributeOr "subblocks" = item.2.prepared.subblocks
  checksum : element.attributeOr "checksum" = item.2.prepared.checksum
  location : element.attr "location" =
    some (Writer.attachmentLocation item.2.location.offset item.2.location.size)
  noOrientation : element.attr "orientation" = none
  noUid : element.attr "uid" = none

theorem optional_or (value : Text) : (if value = [] then none else some value).getD [] = value := by
  by_cases none : value = []
  · rw [if_pos none, none]
    rfl
  · rw [if_neg none]
    rfl

theorem imageElement_tags (numbers : NumberLaws platform) (ready : ImageReady item) :
    ImageTags platform item (imageElement platform item) := by
  have value (wanted : String) (isName : wanted ∈ imageNames) (other : wanted ≠ "bounds") :
      (imageElement platform item).attr wanted =
        (tagValue (Writer.optionalAttribute "id" item.1.id) wanted).or
          ((tagValue [("geometry", decimal item.1.width ++ lit ":" ++ decimal item.1.height ++
              lit ":" ++ decimal item.1.channels),
            ("sampleFormat", (Writer.sampleFormatDescription item.1.sampleFormat).1),
            ("colorSpace", item.1.colorSpace), ("pixelStorage", lit "Planar"),
            ("byteOrder", lit "little")] wanted).or
          ((tagValue (preparedTags item.2.prepared) wanted).or (tagValue [("location",
            Writer.attachmentLocation item.2.location.offset item.2.location.size)] wanted))) := by
    rw [attr_image numbers ready isName, imageAttributes]
    simp only [tagValue_append, tagValue_bounds other, Option.or_none, Option.or_assoc]
  have optional (wanted : String) (isName : wanted ∈ imageNames) (other : wanted ≠ "bounds")
      {text : Text} (own : (imageElement platform item).attr wanted =
        if text = [] then none else some text) :
      (imageElement platform item).attributeOr wanted = text := by
    rw [ElementContext.attributeOr, own]
    exact optional_or text
  constructor
  case bounds =>
    rw [attr_image numbers ready (by decide), imageAttributes]
    simp [preparedTags, tagValue_append, tagValue_optional, tagValue_cons, tagValue_nil]
  case colorSpace =>
    rw [ElementContext.attributeOr, value "colorSpace" (by decide) (by decide)]
    simp [preparedTags, tagValue_append, tagValue_optional, tagValue_cons, tagValue_nil]
  case id =>
    refine optional "id" (by decide) (by decide) ?_
    rw [value "id" (by decide) (by decide)]
    simp [preparedTags, tagValue_append, tagValue_optional, tagValue_cons, tagValue_nil]
  case compression =>
    refine optional "compression" (by decide) (by decide) ?_
    rw [value "compression" (by decide) (by decide)]
    simp [preparedTags, tagValue_append, tagValue_optional, tagValue_cons, tagValue_nil]
  case subblocks =>
    refine optional "subblocks" (by decide) (by decide) ?_
    rw [value "subblocks" (by decide) (by decide)]
    simp [preparedTags, tagValue_append, tagValue_optional, tagValue_cons, tagValue_nil]
  case checksum =>
    refine optional "checksum" (by decide) (by decide) ?_
    rw [value "checksum" (by decide) (by decide)]
    simp [preparedTags, tagValue_append, tagValue_optional, tagValue_cons, tagValue_nil]
  all_goals
    rw [value _ (by decide) (by decide)]
    simp [preparedTags, tagValue_append, tagValue_optional, tagValue_cons, tagValue_nil]

/-! ## What the handler reads of them -/

theorem Dark.trim {text : Text} (dark : Dark text) : trimXmlWhitespace text = text := by
  have front : text.dropWhile isXmlWhitespace = text := by
    cases text with
    | nil => rfl
    | cons c rest =>
        rw [List.dropWhile_cons_of_neg (by rw [dark c List.mem_cons_self]; decide)]
  have back : text.reverse.dropWhile isXmlWhitespace = text.reverse := by
    cases reversed : text.reverse with
    | nil => rfl
    | cons c rest =>
        have member : c ∈ text := by
          rw [← List.mem_reverse, reversed]
          exact List.mem_cons_self
        rw [List.dropWhile_cons_of_neg (by rw [dark c member]; decide)]
  rw [trimXmlWhitespace, front, back, List.reverse_reverse]

theorem parseFiniteDouble_number (numbers : NumberLaws platform) {d : Double}
    (finite : d.isFinite = true) :
    Reader.parseFiniteDouble platform (platform.toCharsScientific d) = some d := by
  obtain ⟨nonempty, unsigned⟩ := numbers.unsigned d finite
  unfold Reader.parseFiniteDouble
  rw [(numbers.tidy d finite).dark.trim]
  dsimp only
  rw [if_neg unsigned, if_neg nonempty, numbers.extracted d finite]
  simp [finite]

theorem parseBounds_text (numbers : NumberLaws platform) {lower upper : Double}
    (lowerFinite : lower.isFinite = true) (upperFinite : upper.isFinite = true)
    (increase : lower.less upper = true) :
    Reader.parseBounds platform (boundsText platform lower upper) = .ok (lower, upper) := by
  have fields : Reader.splitColons (boundsText platform lower upper) =
      [platform.toCharsScientific lower, platform.toCharsScientific upper] := by
    have shape : boundsText platform lower upper =
        platform.toCharsScientific lower ++ ch ':' :: platform.toCharsScientific upper :=
      List.append_assoc _ _ _
    rw [shape, Reader.splitColons, Library.split_append _ (numbers.colonFree lower lowerFinite),
      Library.split_of_not_mem (numbers.colonFree upper upperFinite)]
  unfold Reader.parseBounds
  rw [fields]
  simp only [parseFiniteDouble_number numbers lowerFinite,
    parseFiniteDouble_number numbers upperFinite,
    increase, if_true]

/-- The bounds of an image are read as they were written. -/
theorem imageBounds_listed (numbers : NumberLaws platform) (accepted : AcceptedImage item.1)
    {element : ElementContext} (tags : ImageTags platform item element) :
    Reader.imageBounds platform element (Writer.sampleFormatDescription item.1.sampleFormat).1 =
      .ok (item.1.lowerBound, item.1.upperBound) := by
  have floats : (Writer.sampleFormatDescription item.1.sampleFormat).1 = lit "Float32" ∨
      (Writer.sampleFormatDescription item.1.sampleFormat).1 = lit "Float64" →
      item.1.sampleFormat = .float32 ∨ item.1.sampleFormat = .float64 := by
    have all : ∀ format : SampleFormat, (Writer.sampleFormatDescription format).1 = lit "Float32" ∨
        (Writer.sampleFormatDescription format).1 = lit "Float64" →
        format = .float32 ∨ format = .float64 := by
      rintro (_ | _ | _ | _ | _ | _ | _ | _) <;> decide
    exact all _
  unfold Reader.imageBounds
  rw [tags.bounds]
  rcases @boundsTag_eq platform item accepted with
    ⟨none, noLower, noUpper⟩ | ⟨lower, upper, same, isLower, isUpper, lowerFinite,
      upperFinite, increase⟩
  · have notFloat : ¬ ((Writer.sampleFormatDescription item.1.sampleFormat).1 = lit "Float32" ∨
        (Writer.sampleFormatDescription item.1.sampleFormat).1 = lit "Float64") := by
      intro float
      have bounded := accepted.bounded (floats float)
      rw [noLower] at bounded
      cases bounded
    rw [none, noLower, noUpper, tagValue_nil, reject, if_neg fun both => notFloat both.1]
    rfl
  · rw [same, isLower, isUpper, tagValue_cons, if_pos rfl, reject,
      if_neg fun both => Bool.noConfusion both.2]
    have parsed := parseBounds_text numbers lowerFinite upperFinite increase
    simp only [parsed, Reader.atAttribute, bind, Except.bind]
    rfl

/-- The axes of an image are numbers of 64 bits. -/
theorem AcceptedImage.axes {image : ImageWriteView} (accepted : AcceptedImage image) :
    image.width ≤ u64Max ∧ image.height ≤ u64Max ∧ image.channels ≤ 3 ∧ image.channels ≠ 0 := by
  have channels := accepted.channels
  have small : image.channels ≤ 3 ∧ image.channels ≠ 0 := by
    rw [channels]
    split <;> decide
  have product := accepted.pixels
  simp only [Writer.pixelBytes, Option.bind_eq_bind, Option.bind_eq_some_iff] at product
  obtain ⟨pixels, area, -⟩ := product
  obtain ⟨-, fits⟩ := checkedMultiply_eq_some.mp area
  have within : image.width * image.height ≤ u64Max := fits.resolve_left accepted.width
  refine ⟨le_trans ?_ within, le_trans ?_ within, small⟩
  · exact Nat.le_mul_of_pos_right _ (Nat.pos_of_ne_zero accepted.height)
  · exact Nat.le_mul_of_pos_left _ (Nat.pos_of_ne_zero accepted.width)

theorem parseAxes_decimal {n seen : Nat} {rest : List Text} {axes : List Nat} (some : n ≠ 0)
    (fits : n ≤ u64Max) (room : seen < 9) (later : Reader.parseAxes (seen + 1) rest = .ok axes) :
    Reader.parseAxes seen (decimal n :: rest) = .ok (n :: axes) := by
  obtain ⟨m, rfl⟩ := Nat.exists_eq_succ_of_ne_zero some
  have small : ¬ seen + 1 > 9 := by omega
  rw [Reader.parseAxes, parseUnsigned_decimal fits]
  dsimp only
  rw [if_neg small, later]
  rfl

theorem parseGeometry_listed (accepted : AcceptedImage item.1) :
    Reader.parseGeometry (decimal item.1.width ++ lit ":" ++ decimal item.1.height ++ lit ":" ++
      decimal item.1.channels) = .ok [item.1.width, item.1.height, item.1.channels] := by
  obtain ⟨width, height, channels, someChannels⟩ := accepted.axes
  have channelsFit : item.1.channels ≤ u64Max := channels.trans (by decide)
  have shape : decimal item.1.width ++ lit ":" ++ decimal item.1.height ++ lit ":" ++
      decimal item.1.channels = decimal item.1.width ++ ch ':' :: (decimal item.1.height ++
        ch ':' :: decimal item.1.channels) := by
    rw [List.append_assoc, List.append_assoc, List.append_assoc]
    rfl
  have fields : Reader.splitColons (decimal item.1.width ++ ch ':' :: (decimal item.1.height ++
      ch ':' :: decimal item.1.channels)) =
      [decimal item.1.width, decimal item.1.height, decimal item.1.channels] := by
    rw [Reader.splitColons, Library.split_append _ (colon_free _),
      Library.split_append _ (colon_free _), Library.split_of_not_mem (colon_free _)]
  have third := @parseAxes_decimal _ 2 [] [] someChannels channelsFit (by decide) rfl
  have second := @parseAxes_decimal _ 1 _ _ accepted.height height (by decide) third
  have axes := @parseAxes_decimal _ 0 _ _ accepted.width width (by decide) second
  unfold Reader.parseGeometry
  rw [shape, fields, axes]
  rfl

/-! ## The start tag -/

/-- In the element of an image. -/
def UnitProgress.imageOpened (progress : UnitProgress) (item : ImageWriteView × PlannedBlock) :
    UnitProgress :=
  { (progress.enter (lit "Image")).locate [⟨item.2.location.offset, item.2.location.size⟩] with
    images := progress.images ++ [listedImage item]
    openImages := progress.images.length :: progress.openImages }

variable {progress : UnitProgress}

theorem imageOpened_builder : (progress.imageOpened item).builder =
    let entered := ((progress.enter (lit "Image")).locate
      [⟨item.2.location.offset, item.2.location.size⟩]).builder
    { entered with
      imageIds := if item.1.id = [] then entered.imageIds else entered.imageIds ++ [item.1.id]
      images := entered.images ++ [listedImage item]
      embeddedBlocks := entered.embeddedBlocks ++ [[]]
      embeddedDataSeen := entered.embeddedDataSeen ++ [false]
      imageStack := entered.images.length :: entered.imageStack } := by
  have ids : ((progress.images ++ [listedImage item]).map (·.id)).filter (· ≠ []) =
      if item.1.id = [] then (progress.images.map (·.id)).filter (· ≠ [])
      else (progress.images.map (·.id)).filter (· ≠ []) ++ [item.1.id] := by
    have own : (listedImage item).id = item.1.id := rfl
    rw [List.map_append, List.map_singleton, own, List.filter_append]
    by_cases none : item.1.id = []
    · simp [none]
    · simp [none]
  unfold UnitProgress.builder UnitProgress.imageOpened
  dsimp only
  rw [ids, List.map_append, List.map_append]
  rfl

/-- The limits let in one more image. -/
structure UnitProgress.LetsImage (need : ReaderOptions) (platform : Platform)
    (progress : UnitProgress) (item : ImageWriteView × PlannedBlock) : Prop
    extends progress.LetsIn need (imageElement platform item).attributes.length where
  images : progress.images.length < need.maxImages
  dimensions : 2 ≤ need.maxImageDimensions
  channels : item.1.channels ≤ need.maxInspectedChannels

theorem image_opens {ω : Type} {need : ReaderOptions} {settings : ω → ReaderOptions}
    (numbers : NumberLaws platform) (ready : ImageReady item)
    (lets : progress.LetsImage need platform item) (outside : progress.path = [lit "xisf"])
    (fresh : item.1.id ≠ [] → item.1.id ∉ progress.images.map (·.id)) :
    Suffices need settings (fun o => Reader.openElement (settings o) platform
      ((progress.enter (lit "Image")).locate
        [⟨item.2.location.offset, item.2.location.size⟩]).builder (imageElement platform item))
      fun _ => (progress.imageOpened item).builder := by
  have tags := imageElement_tags numbers ready
  have isXisf : (imageElement platform item).isXisf = true := by
    simp [ElementContext.isXisf, imageElement]
  have opens : ∀ options : ReaderOptions, Reader.openElement options platform
      ((progress.enter (lit "Image")).locate
        [⟨item.2.location.offset, item.2.location.size⟩]).builder (imageElement platform item) =
      Reader.startImage options platform ((progress.enter (lit "Image")).locate
        [⟨item.2.location.offset, item.2.location.size⟩]).builder (imageElement platform item) := by
    intro options
    unfold Reader.openElement
    rw [isXisf]
    rfl
  have rootChild : Reader.isRootChild ((progress.enter (lit "Image")).locate
      [⟨item.2.location.offset, item.2.location.size⟩]).builder (imageElement platform item) =
      true := by
    have depth : ((progress.enter (lit "Image")).locate
      [⟨item.2.location.offset, item.2.location.size⟩]).builder.depth = progress.path.length + 1 :=
      rfl
    unfold Reader.isRootChild
    rw [depth, outside]
    rfl
  have formats : Reader.sampleFormatOf (Writer.sampleFormatDescription item.1.sampleFormat).1 =
      some item.1.sampleFormat := by
    have all : ∀ format : SampleFormat, (Writer.sampleFormatDescription format).1 ≠ [] →
        Reader.sampleFormatOf (Writer.sampleFormatDescription format).1 = some format := by
      rintro (_ | _ | _ | _ | _ | _ | _ | _) <;> decide
    exact all _ ready.accepted.format
  have spaces : ¬ (item.1.colorSpace ≠ lit "Gray" ∧ item.1.colorSpace ≠ lit "RGB" ∧
      item.1.colorSpace ≠ lit "CIELab") := by
    rcases ready.accepted.colorSpace with gray | rgb
    · simp [gray]
    · simp [rgb]
  have channels : ¬ ((item.1.colorSpace = lit "RGB" ∨ item.1.colorSpace = lit "CIELab") ∧
      item.1.channels < 3) := by
    rintro ⟨color, few⟩
    have notGray : item.1.colorSpace ≠ lit "Gray" := by
      rcases color with rgb | lab
      · rw [rgb]
        decide
      · rw [lab]
        decide
    rw [ready.accepted.channels, if_neg notGray] at few
    exact absurd few (by decide)
  have identified : ¬ (item.1.id ≠ [] ∧ (isValidUniqueId item.1.id = false ∨
      item.1.id ∈ ((progress.enter (lit "Image")).locate
        [⟨item.2.location.offset, item.2.location.size⟩]).builder.imageIds)) := by
    rintro ⟨some, invalid | again⟩
    · rw [← imageIdentifier_agrees, ready.named some] at invalid
      cases invalid
    · exact fresh some (List.mem_of_mem_filter again)
  have block : Reader.parseLocation
      (Writer.attachmentLocation item.2.location.offset item.2.location.size) = item.2.location :=
    (parseLocation_attachment ready.placed.offset ready.placed.size).trans
      ready.placed.location.symm
  have few : ((progress.enter (lit "Image")).locate
      [⟨item.2.location.offset, item.2.location.size⟩]).builder.images.length < need.maxImages :=
    lets.images
  simp only [opens]
  rw [imageOpened_builder]
  generalize (((progress.enter (lit "Image")).locate
    [⟨item.2.location.offset, item.2.location.size⟩])).builder = state
    at rootChild identified few ⊢
  unfold Reader.startImage
  refine .andThen (suffices_check (by simp [rootChild]))
    (.andThen (suffices_below Tighter.maxImages few) ?_)
  refine .andThen (suffices_some tags.geometry) (.andThen (suffices_some tags.sampleFormat)
    (.andThen (suffices_some tags.location) ?_))
  refine .andThen (a := fun _ => [item.1.width, item.1.height, item.1.channels]) ?_ ?_
  · rw [parseGeometry_listed ready.accepted]
    exact suffices_ok
  refine .andThen (suffices_atMost Tighter.maxImageDimensions lets.dimensions)
    (.andThen (suffices_atMost Tighter.maxInspectedChannels lets.channels)
      (.andThen (suffices_some formats) ?_))
  refine .andThen (a := fun _ => (item.1.lowerBound, item.1.upperBound)) ?_ ?_
  · rw [imageBounds_listed numbers ready.accepted tags]
    exact suffices_ok
  dsimp only
  rw [tags.colorSpace, tags.id, block]
  refine .andThen (suffices_check spaces) (.andThen (suffices_check ?_) ?_)
  · exact channels
  refine .andThen (a := fun _ => none) (.of_eq fun _ => ?_) ?_
  · unfold Reader.parseOrientation
    rw [tags.noOrientation]
  refine .andThen (suffices_check identified) ?_
  refine .andThen (a := fun _ => .planar) (.of_eq fun _ => ?_) ?_
  · unfold Reader.parsePixelStorage ElementContext.attributeOr
    rw [tags.pixelStorage]
    rfl
  refine .andThen (a := fun _ => .little) (.of_eq fun _ => ?_) ?_
  · unfold Reader.parseByteOrder ElementContext.attributeOr
    rw [tags.byteOrder]
    rfl
  have attached : item.2.location.kind = .attachment := by
    rw [ready.placed.location]
  refine .andThen (suffices_check (by simp [attached]))
    (.andThen (suffices_check (by simp [attached])) ?_)
  rw [tags.compression, tags.subblocks, tags.checksum]
  exact suffices_ok

end

/-! ## Several entries -/

section

variable {ω : Type} {need : ReaderOptions} {settings : ω → ReaderOptions} {platform : Platform}
  {progress : UnitProgress}

/-- After several entries. -/
def UnitProgress.gains (progress : UnitProgress)
    (items : List (MetadataWriteEntry × PlannedBlock)) : UnitProgress :=
  items.foldl UnitProgress.gained progress

/-- What several entries leave. -/
structure UnitProgress.Gained (progress after : UnitProgress)
    (items : List (MetadataWriteEntry × PlannedBlock)) : Prop where
  entries : after.entries = progress.entries ++ items.map listedEntry
  ranges : after.ranges = progress.ranges ++ items.flatMap entryRanges
  rest : after = { progress with
    entries := after.entries
    ranges := after.ranges
    nodes := progress.nodes + items.length
    sawCreationTime := after.sawCreationTime
    sawCreatorApplication := after.sawCreatorApplication }

theorem UnitProgress.gains_gained (items : List (MetadataWriteEntry × PlannedBlock)) :
    progress.Gained (progress.gains items) items := by
  induction items generalizing progress with
  | nil =>
      refine ⟨?_, ?_, rfl⟩
      · rw [List.map_nil, List.append_nil]
        rfl
      · rw [List.flatMap_nil, List.append_nil]
        rfl
  | cons item rest ih =>
      obtain ⟨entries, ranges, same⟩ := @ih (progress.gained item)
      have more : progress.gains (item :: rest) = (progress.gained item).gains rest := rfl
      rw [more]
      refine ⟨?_, ?_, ?_⟩
      · rw [entries, List.map_cons]
        exact List.append_assoc _ _ _
      · rw [ranges, List.flatMap_cons]
        exact List.append_assoc _ _ _
      · have count : progress.nodes + (item :: rest).length = progress.nodes + 1 + rest.length := by
          rw [List.length_cons]
          omega
        rw [count]
        exact same

theorem UnitProgress.gains_same {items : List (MetadataWriteEntry × PlannedBlock)} :
    (progress.gains items).path = progress.path ∧
      (progress.gains items).openImages = progress.openImages ∧
      (progress.gains items).openText = progress.openText ∧
      (progress.gains items).openBlock = progress.openBlock ∧
      (progress.gains items).images = progress.images := by
  rw [(@UnitProgress.gains_gained progress items).rest]
  exact ⟨rfl, rfl, rfl, rfl, rfl⟩

/-- The limits let in several more entries. -/
structure UnitProgress.LetsEntries (need : ReaderOptions) (progress : UnitProgress)
    (items : List (MetadataWriteEntry × PlannedBlock)) : Prop where
  depth : progress.path.length + 1 ≤ need.maxXmlDepth
  nodes : progress.nodes + items.length ≤ need.maxXmlNodes
  entries : progress.entries.length + items.length ≤ need.maxMetadataEntries
  attributes : ∀ item ∈ items, (entryElement item).attributes.length ≤ need.maxAttributesPerElement
  values : ∀ item ∈ items, (listedValue item.1).length ≤ need.maxMetadataValueBytes

theorem UnitProgress.LetsEntries.first {item : MetadataWriteEntry × PlannedBlock}
    {rest : List (MetadataWriteEntry × PlannedBlock)}
    (lets : progress.LetsEntries need (item :: rest)) : progress.LetsEntry need item := by
  have nodes := lets.nodes
  have entries := lets.entries
  rw [List.length_cons] at nodes entries
  exact { depth := lets.depth
          nodes := by omega
          attributes := lets.attributes item List.mem_cons_self
          entries := by omega
          value := lets.values item List.mem_cons_self }

theorem UnitProgress.LetsEntries.later {done rest : List (MetadataWriteEntry × PlannedBlock)}
    (lets : progress.LetsEntries need (done ++ rest)) :
    (progress.gains done).LetsEntries need rest := by
  obtain ⟨entries, -, same⟩ := @UnitProgress.gains_gained progress done
  have nodes : (progress.gains done).nodes = progress.nodes + done.length := by
    rw [same]
  have count : (progress.gains done).entries.length = progress.entries.length + done.length := by
    rw [entries, List.length_append, List.length_map]
  have enough := lets.nodes
  have room := lets.entries
  rw [List.length_append] at enough room
  constructor
  case depth =>
    rw [(@UnitProgress.gains_same progress done).1]
    exact lets.depth
  case nodes => omega
  case entries => omega
  case attributes => exact fun item member => lets.attributes item (List.mem_append_right _ member)
  case values => exact fun item member => lets.values item (List.mem_append_right _ member)

/-- Entries that belong where the handlers are. -/
theorem entries_take {imageCount : Nat} {items : List (MetadataWriteEntry × PlannedBlock)}
    (ready : ∀ item ∈ items, EntryReady imageCount item)
    (inside : ∀ item ∈ items, progress.Inside item) (lets : progress.LetsEntries need items) :
    Takes need settings platform progress.builder (items.flatMap entryEvents)
      (progress.gains items).builder := by
  refine @Takes.flatMap _ need settings platform _ entryEvents
    (fun done => (progress.gains done).builder)
    items fun done item rest whole => ?_
  rw [← whole] at lets
  have member : item ∈ items := by
    rw [← whole]
    exact List.mem_append_right _ List.mem_cons_self
  have one : progress.gains (done ++ [item]) = (progress.gains done).gained item := by
    unfold UnitProgress.gains
    rw [List.foldl_append]
    rfl
  obtain ⟨path, openImages, openText, openBlock, -⟩ := @UnitProgress.gains_same progress done
  obtain ⟨parent, image, noText, noBlock⟩ := inside item member
  rw [one]
  exact entry_takes (ready item member) ⟨path ▸ parent, openImages ▸ image, openText ▸ noText,
    openBlock ▸ noBlock⟩ lets.later.first

/-! ## The whole image -/

/-- After an image with these entries. -/
def UnitProgress.imageGained (progress : UnitProgress) (item : ImageWriteView × PlannedBlock)
    (items : List (MetadataWriteEntry × PlannedBlock)) : UnitProgress :=
  { (progress.imageOpened item).gains items with
    path := progress.path
    openImages := progress.openImages }

theorem endElement_image {item : ImageWriteView × PlannedBlock}
    {items : List (MetadataWriteEntry × PlannedBlock)} (placed : PlacedBlock item.2)
    (outside : progress.path = [lit "xisf"]) :
    Reader.endElement ((progress.imageOpened item).gains items).builder (xisfName (lit "Image")) =
      .ok (progress.imageGained item items).builder := by
  obtain ⟨path, openImages, -, -, images⟩ :=
    @UnitProgress.gains_same (progress.imageOpened item) items
  generalize opened : (progress.imageOpened item).gains items = state at path openImages images
  have ownPath : state.path = lit "Image" :: progress.path := path
  have ownImages : state.images = progress.images ++ [listedImage item] := images
  have ownOpen : state.openImages = progress.images.length :: progress.openImages := openImages
  have plain : Reader.separator ∉ lit "Image" := by decide
  have stack : state.builder.imageStack = progress.images.length :: progress.openImages := ownOpen
  have notEmbedded : ((state.builder.images[progress.images.length]?).any
      fun image => image.block.kind = .embedded) = false := by
    have list : state.builder.images = progress.images ++ [listedImage item] := ownImages
    have block : (listedImage item).block.kind = .attachment := by
      have own : (listedImage item).block = item.2.location := rfl
      rw [own, placed.location]
    rw [list, List.getElem?_concat_length]
    simp [block]
  have closed : Reader.closeElement state.builder true (lit "Image") =
      .ok { state with openImages := progress.openImages }.builder := by
    have isImage : Reader.closeElement state.builder true (lit "Image") =
        Reader.endImage state.builder (lit "Image") := rfl
    rw [isImage]
    unfold Reader.endImage
    rw [stack]
    simp only [notEmbedded, Bool.false_eq_true, false_and, reject, if_false, bind, Except.bind]
    rfl
  have deep : 1 < { state with openImages := progress.openImages }.path.length := by
    have same : { state with openImages := progress.openImages }.path = state.path := rfl
    rw [same, ownPath, outside]
    decide
  have left := leave_builder deep
  have gained : { state with
      openImages := progress.openImages
      path := state.path.tail } = progress.imageGained item items := by
    rw [ownPath, List.tail_cons]
    unfold UnitProgress.imageGained
    rw [opened]
  unfold Reader.endElement
  rw [localName_xisf plain, namespaceName_xisf plain,
    decide_eq_true (rfl : Reader.kXisfNamespace = Reader.kXisfNamespace)]
  dsimp only
  rw [closed, ← gained]
  exact congrArg Except.ok left

theorem image_takes {imageCount : Nat} {metadata : List (MetadataWriteEntry × PlannedBlock)}
    {item : ImageWriteView × PlannedBlock} (numbers : NumberLaws platform) (ready : ImageReady item)
    (entries : ∀ entry ∈ metadata, EntryReady imageCount entry)
    (outside : progress.path = [lit "xisf"])
    (noText : progress.openText = none) (noBlock : progress.openBlock = none)
    (fresh : item.1.id ≠ [] → item.1.id ∉ progress.images.map (·.id))
    (lets : progress.LetsImage need platform item)
    (letsEntries : (progress.imageOpened item).LetsEntries need (metadata.filter fun entry =>
      entry.1.imageIndex = some progress.images.length)) :
    Takes need settings platform progress.builder
      (imageEvents platform metadata (item, progress.images.length))
      (progress.imageGained item (metadata.filter fun entry =>
        entry.1.imageIndex = some progress.images.length)).builder := by
  have tags := imageElement_tags numbers ready
  have parents : progress.path.headD [] ∈ unitParents := by
    rw [outside]
    decide
  have isElement : progress.element (lit "Image")
      (reportedTags (imageAttributes platform item)) = imageElement platform item := by
    unfold UnitProgress.element
    rw [outside]
    rfl
  have located : Locates (imageElement platform item)
      [⟨item.2.location.offset, item.2.location.size⟩] :=
    .attached ready.placed.offset ready.placed.size tags.location
  have started := @UnitProgress.start _ need settings platform progress
    (reportedTags (imageAttributes platform item)) (lit "Image") _
    (progress.imageOpened item).builder (by decide) parents noBlock lets.toLetsIn
    (isElement.symm ▸ located) (isElement.symm ▸ tags.noUid)
    (isElement.symm ▸ image_opens numbers ready lets outside fresh)
  unfold imageEvents
  refine .start started (.append ?_ (.finish (endElement_image ready.placed outside)))
  refine entries_take (fun entry member => entries entry (List.mem_of_mem_filter member))
    (fun entry member => ?_) letsEntries
  have own : entry.1.imageIndex = some progress.images.length := by
    simpa using (List.mem_filter.mp member).2
  have parent : (entryElement entry).parent = lit "Image" := by
    have isParent : (entryElement entry).parent =
        if entry.1.imageIndex.isSome then lit "Image" else lit "Metadata" := rfl
    rw [isParent, own]
    rfl
  exact ⟨parent.symm, own.symm, noText, noBlock⟩

end

end Mmxisf
