/-
# Reader.BlockText -- what encoded blocks hold

The decoded bytes of a Data element, an inline Property or an inline ICCProfile go
to one place of the vectors of blocks (`decodedPlace`).  At most one element writes
to a place (`writers`).  While it is open the place has what the decoder has made
of its content so far, and afterwards what the content stands for.
-/
import Mmxisf.Library.Totals
import Mmxisf.Reader.TextHeld

namespace Mmxisf.Reader

set_option autoImplicit false

/-! ## Places -/

/-- Where decoded bytes are kept. -/
inductive DecodedPlace
  | image (index : Nat)
  | thumbnail (index : Nat)
  | property (index : Nat)
  | iccProfile (index : Nat)
  deriving DecidableEq, Repr

def storedBlock (state : XmlBuilder) : DecodedPlace → Option Bytes
  | .image index => state.embeddedBlocks[index]?
  | .thumbnail index => state.embeddedThumbnailBlocks[index]?
  | .property index => state.inlineMetadataBlocks[index]?
  | .iccProfile index => state.inlineIccProfileBlocks[index]?

/-- The place of the block that is open, if one is. -/
def openPlace (state : XmlBuilder) : DecodedPlace :=
  match state.inlineMetadataIndex, state.inlineIccProfileIndex, state.embeddedThumbnailIndex with
  | some index, _, _ => .property index
  | none, some index, _ => .iccProfile index
  | none, none, some index => .thumbnail index
  | none, none, none => .image (state.embeddedImageIndex.getD 0)

/-- No Data element of this image or thumbnail has started. -/
def Unseen (state : XmlBuilder) : DecodedPlace → Prop
  | .image index => state.embeddedDataSeen[index]? = some false
  | .thumbnail index => state.embeddedThumbnailDataSeen[index]? = some false
  | .property _ => False
  | .iccProfile _ => False

/-- The place of an element by the elements around it. -/
def placeAt (outline : HeaderOutline) (frame : HeaderFrame) (around : List HeaderFrame) :
    Option DecodedPlace :=
  if frame.tag.kind = .data then
    around.head?.bind fun owner =>
      if owner.tag.kind = .image then some (.image (outline.rank (isKind .image) owner))
      else if owner.tag.kind = .thumbnail then
        some (.thumbnail (outline.rank (isKind .thumbnail) owner))
      else none
  else if isInlineProperty frame.tag then some (.property (outline.rank isEntry frame))
  else if isInlineIccProfile frame.tag then
    some (.iccProfile (outline.rank (isKind .iccProfile) frame))
  else none

def decodedPlace (outline : HeaderOutline) (element : HeaderElement) : Option DecodedPlace :=
  placeAt outline element.toFrame element.ancestors

/-- The elements whose decoded bytes go to a place. -/
def writers (outline : HeaderOutline) (place : DecodedPlace) : List HeaderElement :=
  outline.elements.filter fun element => decodedPlace outline element = some place

/-- The encoding of an encoded block, base 64 or base 16. -/
def isBase64 (tag : XmlTag) : Bool :=
  if tag.kind = .data then tag.attributeOr "encoding" = lit "base64"
  else (tag.attr "location").any fun location =>
    (parseLocation location).raw = lit "inline:base64"

/-- What the place of an element holds: what the decoder has made of the content so
far, or what the content stands for. -/
def BlockHolds (outline : HeaderOutline) (state : XmlBuilder) (element : HeaderElement)
    (block : Bytes) : Prop :=
  if outline.opened.head? = some element.toFrame then
    state.embeddedEncoding = (if isBase64 element.tag then .base64 else .hex) ∧
      (Decoder.initial (isBase64 element.tag)).feedAll element.content =
        some (decoderOf state, block)
  else decodedText (isBase64 element.tag) element.content = some block

structure BlocksHold (outline : HeaderOutline) (state : XmlBuilder) : Prop where
  written : ∀ place block, storedBlock state place = some block →
    (writers outline place = [] ∧ block = []) ∨
      ∃ element, writers outline place = [element] ∧ BlockHolds outline state element block
  absent : ∀ place, storedBlock state place = none → writers outline place = []
  unseen : ∀ place, Unseen state place → writers outline place = []

section

variable {options : ReaderOptions} {platform : Platform} {outline : HeaderOutline}
  {state state' identified closed : XmlBuilder} {tag : XmlTag} {top : HeaderFrame}
  {below : List HeaderFrame} {element : HeaderElement} {place : DecodedPlace}

theorem isEncoded_of_decodedPlace (found : decodedPlace outline element = some place) :
    isEncoded element.tag = true := by
  unfold decodedPlace placeAt at found
  split at found
  · rename_i data
    simp [isEncoded, data]
  · split at found
    · rename_i property
      simp [isEncoded, property]
    · split at found
      · rename_i profile
        simp [isEncoded, profile]
      · cases found

/-- The block that is open is that of the innermost element. -/
theorem Shape.openPlace_eq (shape : Shape outline state) (opened : outline.opened = top :: below)
    (encoded : isEncoded top.tag = true) : placeAt outline top below = some (openPlace state) := by
  have place := shape.stacked.top opened
  obtain ⟨image, thumbnail, property, iccProfile, -, -⟩ := shape.encodes
  unfold placeAt openPlace
  rw [property, iccProfile, thumbnail, image, innermostIndex, innermostIndex, opened]
  by_cases data : top.tag.kind = .data
  · have notProperty : isInlineProperty top.tag = false := by simp [isInlineProperty, data]
    have notProfile : isInlineIccProfile top.tag = false := by simp [isInlineIccProfile, data]
    rw [data] at place
    have owners := place.known _ rfl
    cases below with
    | nil => exact absurd owners (by decide)
    | cons owner rest =>
        have either : owner.tag.kind = .image ∨ owner.tag.kind = .thumbnail := by
          simp only [pathKinds, objectPaths, List.map_cons, List.map_nil, List.mem_cons,
            List.cons.injEq, List.not_mem_nil, or_false] at owners
          tauto
        rcases either with kind | kind
        · simp [data, notProperty, notProfile, dataIndex, opened, kind, Option.filter_some]
        · simp [data, notProperty, notProfile, dataIndex, opened, kind, Option.filter_some]
  · cases inlineProperty : isInlineProperty top.tag with
    | true => simp [data, inlineProperty, Option.filter_some]
    | false =>
        cases inlineProfile : isInlineIccProfile top.tag with
        | true => simp [data, inlineProperty, inlineProfile, Option.filter_some]
        | false => simp [isEncoded, data, inlineProperty, inlineProfile] at encoded

/-! ## Writers -/

theorem decodedPlace_start (coherent : outline.Coherent) (member : element ∈ outline.elements) :
    decodedPlace (outline.start tag) element = decodedPlace outline element := by
  obtain ⟨i, there⟩ := List.getElem?_of_mem member
  have index := coherent.index i element there
  have small := (List.getElem?_eq_some_iff.mp there).1
  have own (kind : XmlTag → Bool) :
      (outline.start tag).rank kind element.toFrame = outline.rank kind element.toFrame :=
    Library.Outline.rank_start (by show element.index ≤ _; omega)
  unfold decodedPlace placeAt
  rw [own, own]
  cases around : element.ancestors with
  | nil => rfl
  | cons owner rest =>
      have before := (coherent.ancestors element member).lt_length owner
        (by rw [around]; exact List.mem_cons_self)
      rw [List.head?_cons, Option.bind_some, Option.bind_some,
        Library.Outline.rank_start (Nat.le_of_lt before),
        Library.Outline.rank_start (Nat.le_of_lt before)]

theorem writers_start (coherent : outline.Coherent) (place : DecodedPlace) :
    writers (outline.start tag) place = writers outline place ++
      if decodedPlace (outline.start tag) (outline.fresh tag) = some place then [outline.fresh tag]
      else [] := by
  rw [writers, Library.Outline.start_elements, List.filter_append, List.filter_singleton]
  congr 1
  · refine List.filter_congr fun element member => ?_
    rw [decodedPlace_start coherent member]
  · simp

theorem decodedPlace_append (text : Text) (index : Nat) :
    decodedPlace (outline.append text) (element.extendAt index text) =
    decodedPlace outline element := by
  unfold decodedPlace placeAt
  rw [Library.Outline.rank_append, Library.Outline.rank_append, Library.Outline.rank_append,
    Library.Outline.rank_append, Library.Element.extendAt_frame,
    Library.Element.extendAt_ancestors]

theorem writers_append (opened : outline.opened = top :: below) (text : Text)
    (place : DecodedPlace) : writers (outline.append text) place =
      (writers outline place).map (Library.Element.extendAt top.index text) := by
  unfold writers
  rw [Library.Outline.append_elements opened, List.filter_map]
  congr 1
  refine List.filter_congr fun element _ => ?_
  rw [Function.comp_apply, decodedPlace_append]

theorem mem_writers (member : element ∈ writers outline place) :
    element ∈ outline.elements ∧ isEncoded element.tag = true := by
  obtain ⟨inside, found⟩ := List.mem_filter.mp member
  exact ⟨inside, isEncoded_of_decodedPlace (of_decide_eq_true found)⟩

/-! ## What a start tag does to the blocks -/

/-- Places are added with nothing in them, and nothing else changes. -/
structure BlocksGrown (before after : XmlBuilder) : Prop where
  stored : ∀ place block, storedBlock before place = some block →
    storedBlock after place = some block
  fresh : ∀ place block, storedBlock before place = none →
    storedBlock after place = some block → block = []
  unseen : ∀ place, Unseen after place → Unseen before place ∨ storedBlock before place = none

/-- The block of an element is open, with nothing in it. -/
structure BlockOpened (tag : XmlTag) (before after : XmlBuilder) : Prop where
  empty : Unseen before (openPlace after) ∨ storedBlock before (openPlace after) = none
  seen : ¬ Unseen after (openPlace after)
  there : storedBlock after (openPlace after) ≠ none
  encoding : after.embeddedEncoding = if isBase64 tag then .base64 else .hex
  decoder : decoderOf after = Decoder.initial (isBase64 tag)

/-- The same records, or one more. -/
def Extended {α : Type} (fresh : α) (before after : List α) : Prop :=
  after = before ∨ after = before ++ [fresh]

theorem Extended.stored {before after : List Bytes} (extended : Extended [] before after) {i : Nat}
    {block : Bytes} (there : before[i]? = some block) : after[i]? = some block := by
  rcases extended with rfl | rfl
  · exact there
  · rw [List.getElem?_append_left (List.getElem?_eq_some_iff.mp there).1, there]

theorem Extended.fresh {before after : List Bytes} (extended : Extended [] before after) {i : Nat}
    {block : Bytes} (none : before[i]? = none) (found : after[i]? = some block) : block = [] := by
  rcases extended with rfl | rfl
  · rw [none] at found
    cases found
  · rw [List.getElem?_append_right (List.getElem?_eq_none_iff.mp none),
      List.getElem?_singleton] at found
    split at found
    · exact (Option.some.inj found).symm
    · cases found

theorem Extended.unseen {before after : List Bool} (extended : Extended false before after)
    {i : Nat} (unseen : after[i]? = some false) : before[i]? = some false ∨ before[i]? = none := by
  rcases extended with rfl | rfl
  · exact .inl unseen
  · cases found : before[i]? with
    | none => exact .inr rfl
    | some seen =>
        rw [List.getElem?_append_left (List.getElem?_eq_some_iff.mp found).1, found] at unseen
        exact .inl unseen

theorem BlocksGrown.of (counted : Counted outline identified)
    (embedded : Extended [] identified.embeddedBlocks state'.embeddedBlocks)
    (thumbnails : Extended [] identified.embeddedThumbnailBlocks state'.embeddedThumbnailBlocks)
    (properties : Extended [] identified.inlineMetadataBlocks state'.inlineMetadataBlocks)
    (iccProfiles : Extended [] identified.inlineIccProfileBlocks state'.inlineIccProfileBlocks)
    (imageSeen : Extended false identified.embeddedDataSeen state'.embeddedDataSeen)
    (thumbnailSeen : Extended false identified.embeddedThumbnailDataSeen
      state'.embeddedThumbnailDataSeen) : BlocksGrown identified state' := by
  refine ⟨?_, ?_, ?_⟩
  · intro place block
    cases place with
    | image i => exact embedded.stored
    | thumbnail i => exact thumbnails.stored
    | property i => exact properties.stored
    | iccProfile i => exact iccProfiles.stored
  · intro place block
    cases place with
    | image i => exact embedded.fresh
    | thumbnail i => exact thumbnails.fresh
    | property i => exact properties.fresh
    | iccProfile i => exact iccProfiles.fresh
  · intro place unseen
    cases place with
    | image i =>
        refine (imageSeen.unseen unseen).imp id fun none => ?_
        rw [storedBlock, List.getElem?_eq_none_iff, counted.embeddedBlocks]
        exact counted.embeddedDataSeen ▸ List.getElem?_eq_none_iff.mp none
    | thumbnail i =>
        refine (thumbnailSeen.unseen unseen).imp id fun none => ?_
        rw [storedBlock, List.getElem?_eq_none_iff, counted.embeddedThumbnailBlocks]
        exact counted.embeddedThumbnailDataSeen ▸ List.getElem?_eq_none_iff.mp none
    | property i => exact unseen.elim
    | iccProfile i => exact unseen.elim

theorem BlocksGrown.refl : BlocksGrown state state where
  stored _ _ found := found
  fresh := by
    intro place block absent found
    rw [absent] at found
    cases found
  unseen _ unseen := .inl unseen

theorem isEncoded_of_kind (data : tag.kind ≠ .data) (property : tag.kind ≠ .property)
    (profile : tag.kind ≠ .iccProfile) : isEncoded tag = false := by
  simp [isEncoded, isInlineProperty, isInlineIccProfile, data, property, profile]

/-- What each branch does to the blocks. -/
theorem Opened.blocks (counted : Counted outline identified)
    (none_open : isEncodedBlockOpen identified = false)
    (opened : Opened options platform identified (tag.context (parentName outline)) state') :
    BlocksGrown identified state' ∧
      (isEncoded tag = true → BlockOpened tag identified state') := by
  obtain ⟨noImage, noProperty, noProfile, noThumbnail⟩ := isEncodedBlockOpen_false.mp none_open
  have plain (kind : tag.kind ≠ .data ∧ tag.kind ≠ .property ∧ tag.kind ≠ .iccProfile)
      (grown : BlocksGrown identified state') : BlocksGrown identified state' ∧
      (isEncoded tag = true → BlockOpened tag identified state') := by
    refine ⟨grown, fun encoded => ?_⟩
    rw [isEncoded_of_kind kind.1 kind.2.1 kind.2.2] at encoded
    cases encoded
  have same {α : Type} (fresh : α) (records : List α) : Extended fresh records records := .inl rfl
  have more {α : Type} (fresh : α) (records : List α) :
      Extended fresh records (records ++ [fresh]) := .inr rfl
  cases opened with
  | unhandled unknown equal =>
      subst equal
      refine plain ?_ .refl
      rcases kind_of_unhandled unknown with kind | kind | kind | kind <;> simp [kind]
  | table isXisf named run =>
      obtain ⟨rows, columns, -, -, -, -, rfl⟩ := startTable_eq run
      exact plain (by simp [kind_of_name .table (by decide) isXisf named])
        (.of counted (same ..) (same ..) (same ..) (same ..) (same ..) (same ..))
  | tableStructure isXisf named run =>
      obtain ⟨-, -, ⟨-, -, rfl⟩ | ⟨-, -, -, rfl⟩⟩ := startStructure_eq run <;>
      exact plain (by simp [kind_of_name .tableStructure (by decide) isXisf named])
        (.of counted (same ..) (same ..) (same ..) (same ..) (same ..) (same ..))
  | field isXisf named run =>
      obtain ⟨-, -, -, -, rfl⟩ := startField_eq run
      exact plain (by simp [kind_of_name .field (by decide) isXisf named])
        (.of counted (same ..) (same ..) (same ..) (same ..) (same ..) (same ..))
  | row isXisf named run =>
      obtain ⟨-, -, -, -, rfl⟩ := startRow_eq run
      exact plain (by simp [kind_of_name .row (by decide) isXisf named])
        (.of counted (same ..) (same ..) (same ..) (same ..) (same ..) (same ..))
  | cell isXisf named run =>
      obtain ⟨block, form, length, rows, columns, -, -, -, -, -, -, -, -, rfl⟩ := startCell_eq run
      exact plain (by simp [kind_of_name .cell (by decide) isXisf named])
        (.of counted (same ..) (same ..) (same ..) (same ..) (same ..) (same ..))
  | ancillary isXisf which named run =>
      obtain ⟨-, -, -, -, -, rfl⟩ := startAncillary_eq run
      exact plain (by simp [XmlTag.kind_ancillary isXisf named])
        (.of counted (same ..) (same ..) (same ..) (same ..) (same ..) (same ..))
  | metadata isXisf named run =>
      obtain ⟨-, -, rfl⟩ := startMetadata_eq run
      exact plain (by simp [kind_of_name .metadata (by decide) isXisf named])
        (.of counted (same ..) (same ..) (same ..) (same ..) (same ..) (same ..))
  | thumbnail isXisf named run =>
      obtain ⟨location, image, -, -, -, -, -, -, rfl⟩ := startThumbnail_eq run
      exact plain (by simp [kind_of_name .thumbnail (by decide) isXisf named])
        (.of counted (same ..) (more ..) (same ..) (same ..) (same ..) (more ..))
  | image isXisf named run =>
      obtain ⟨location, image, -, -, -, -, -, rfl⟩ := startImage_eq run
      exact plain (by simp [kind_of_name .image (by decide) isXisf named])
        (.of counted (more ..) (same ..) (same ..) (same ..) (more ..) (same ..))
  | iccProfile isXisf named run =>
      have kind := kind_of_name .iccProfile (by decide) isXisf named
      obtain ⟨location, located, -, -, -, ⟨outside, rfl⟩ | ⟨inside, -, rfl⟩⟩ :=
        startIccProfile_eq run
      all_goals have found : tag.attr "location" = some location := located
      · refine ⟨.of counted (same ..) (same ..) (same ..) (more ..) (same ..) (same ..), ?_⟩
        intro encoded
        simp [isEncoded, isInlineProperty, isInlineIccProfile, hasInlineBlock, kind, found,
          outside] at encoded
      · refine ⟨.of counted (same ..) (same ..) (same ..) (more ..) (same ..) (same ..), ?_⟩
        intro encoded
        have place : openPlace (beginEncoding
            { addIccProfile identified (newIccProfile identified (tag.context (parentName outline))
                location) with inlineIccProfileIndex := some identified.iccProfiles.length }
            ((parseLocation location).raw = lit "inline:base64")) =
              .iccProfile identified.iccProfiles.length := by
          simp [openPlace, beginEncoding, addIccProfile, noProperty]
        refine ⟨?_, ?_, ?_, ?_, ?_⟩
        · rw [place]
          exact .inr (List.getElem?_eq_none (by rw [counted.inlineIccProfileBlocks]))
        · rw [place]
          exact id
        · rw [place]
          simp [storedBlock, beginEncoding, addIccProfile, ← counted.inlineIccProfileBlocks]
        · simp [beginEncoding, isBase64, kind, found]
        · by_cases base64 : (parseLocation location).raw = lit "inline:base64" <;>
            simp [decoderOf, beginEncoding, Decoder.initial, isBase64, kind, found, base64]
  | data isXisf named run =>
      have kind := kind_of_name .data (by decide) isXisf named
      obtain ⟨base64, encoding, ⟨index, owned, unseen, rfl⟩ | ⟨index, -, owned, unseen, rfl⟩⟩ :=
        startData_eq run
      all_goals
        have isBase64 : isBase64 tag = base64 := by
          have found : tag.attributeOr "encoding" = if base64 then lit "base64" else lit "hex" :=
            encoding
          rw [isBase64, if_pos kind, found]
          cases base64 <;> decide
      · have small : index < identified.embeddedDataSeen.length := by
          rw [counted.embeddedDataSeen]
          unfold dataImage at owned
          split at owned
          · have there := (Option.filter_eq_some_iff.mp owned).2
            by_contra beyond
            simp [List.getElem?_eq_none (Nat.not_lt.mp beyond)] at there
          · cases owned
        have there := List.getElem?_eq_getElem small
        rw [List.getD_eq_getElem?_getD, there, Option.getD_some] at unseen
        refine ⟨⟨fun place block found => by cases place <;> exact found, ?_, ?_⟩, fun _ => ?_⟩
        · intro place block absent found
          have before : storedBlock identified place = some block := by cases place <;> exact found
          rw [absent] at before
          cases before
        · intro place found
          cases place with
          | image i =>
              refine .inl ?_
              simp only [Unseen, beginEncoding, List.getElem?_set] at found ⊢
              split at found
              · simp at found
              · exact found
          | thumbnail i => exact .inl found
          | property i => exact found.elim
          | iccProfile i => exact found.elim
        · have place : openPlace (beginEncoding { identified with
              images := identified.images.modify index
                (adoptBlockAttributes (tag.context (parentName outline)))
              embeddedDataSeen := identified.embeddedDataSeen.set index true
              embeddedImageIndex := some index } base64) = .image index := by
            simp [openPlace, beginEncoding, noProperty, noProfile, noThumbnail]
          refine ⟨?_, ?_, ?_, ?_, ?_⟩
          · rw [place]
            exact .inl (there.trans (congrArg some unseen))
          · rw [place]
            simp [Unseen, beginEncoding, small]
          · rw [place]
            have inBlocks : index < identified.embeddedBlocks.length := by
              rw [counted.embeddedBlocks, ← counted.embeddedDataSeen]
              exact small
            simp [storedBlock, beginEncoding, inBlocks]
          · rw [isBase64]
            rfl
          · rw [isBase64]
            cases base64 <;> rfl
      · have small : index < identified.embeddedThumbnailDataSeen.length := by
          rw [counted.embeddedThumbnailDataSeen]
          unfold dataThumbnail at owned
          split at owned
          · have there := (Option.filter_eq_some_iff.mp owned).2
            by_contra beyond
            simp [List.getElem?_eq_none (Nat.not_lt.mp beyond)] at there
          · cases owned
        have there := List.getElem?_eq_getElem small
        rw [List.getD_eq_getElem?_getD, there, Option.getD_some] at unseen
        refine ⟨⟨fun place block found => by cases place <;> exact found, ?_, ?_⟩, fun _ => ?_⟩
        · intro place block absent found
          have before : storedBlock identified place = some block := by cases place <;> exact found
          rw [absent] at before
          cases before
        · intro place found
          cases place with
          | image i => exact .inl found
          | thumbnail i =>
              refine .inl ?_
              simp only [Unseen, beginEncoding, List.getElem?_set] at found ⊢
              split at found
              · simp at found
              · exact found
          | property i => exact found.elim
          | iccProfile i => exact found.elim
        · have place : openPlace (beginEncoding { identified with
              thumbnails := identified.thumbnails.modify index fun thumbnail =>
                { thumbnail with image :=
                    adoptBlockAttributes (tag.context (parentName outline)) thumbnail.image }
              embeddedThumbnailDataSeen := identified.embeddedThumbnailDataSeen.set index true
              embeddedThumbnailIndex := some index } base64) = .thumbnail index := by
            simp [openPlace, beginEncoding, noProperty, noProfile]
          refine ⟨?_, ?_, ?_, ?_, ?_⟩
          · rw [place]
            exact .inl (there.trans (congrArg some unseen))
          · rw [place]
            simp [Unseen, beginEncoding, small]
          · rw [place]
            have inBlocks : index < identified.embeddedThumbnailBlocks.length := by
              rw [counted.embeddedThumbnailBlocks, ← counted.embeddedThumbnailDataSeen]
              exact small
            simp [storedBlock, beginEncoding, inBlocks]
          · rw [isBase64]
            rfl
          · rw [isBase64]
            cases base64 <;> rfl
  | entry isXisf named run =>
      obtain ⟨entry, of, -, -, -, -, -, made⟩ := startMetadataEntry_eq run
      have notData : tag.kind ≠ .data := by
        rcases named with property | keyword
        · rw [kind_of_name .property (by decide) isXisf property]
          decide
        · rw [kind_of_name .fitsKeyword (by decide) isXisf keyword]
          decide
      have notProfile : isInlineIccProfile tag = false := by
        rcases named with property | keyword
        · simp [isInlineIccProfile, kind_of_name .property (by decide) isXisf property]
        · simp [isInlineIccProfile, kind_of_name .fitsKeyword (by decide) isXisf keyword]
      have inline (encoded : isEncoded tag = true) : tag.name = lit "Property" ∧
          entry.block.kind = .inlineData := by
        simp only [isEncoded, notData, decide_false, notProfile, Bool.or_false, Bool.false_or,
          isInlineProperty, Bool.and_eq_true, decide_eq_true_eq] at encoded
        have property := ((XmlTag.kind_eq (by decide)).mp encoded.1).2
        exact ⟨property, by simpa [of.inline property] using encoded.2⟩
      rcases made with ⟨isText, rfl⟩ | ⟨-, property, inside, -, rfl⟩ | ⟨-, outside, rfl⟩
      · refine ⟨.of counted (same ..) (same ..) (more ..) (same ..) (same ..) (same ..), ?_⟩
        intro encoded
        have noLocation : tag.attr "location" = none := by
          simp only [isTextProperty, Bool.and_eq_true, Option.isNone_iff_eq_none] at isText
          exact isText.2
        have found := of.inline (inline encoded).1
        simp [hasInlineBlock, noLocation, (inline encoded).2] at found
      · refine ⟨.of counted (same ..) (same ..) (more ..) (same ..) (same ..) (same ..), ?_⟩
        intro encoded
        have location : entry.block.raw = lit "inline:base64" ↔ isBase64 tag = true := by
          rw [of.block, entryLocation, if_pos (by exact property), isBase64, if_neg notData]
          show _ ↔ (tag.attr "location").any _ = true
          rw [show (tag.context (parentName outline)).attr "location" =
            tag.attr "location" from rfl]
          cases tag.attr "location" with
          | none => decide
          | some text => simp
        have place : openPlace (beginEncoding
            { addEntry identified (tag.context (parentName outline)) entry with
              inlineMetadataIndex := some identified.metadata.length }
            (entry.block.raw = lit "inline:base64")) = .property identified.metadata.length := by
          simp [openPlace, beginEncoding]
        refine ⟨?_, ?_, ?_, ?_, ?_⟩
        · rw [place]
          exact .inr (List.getElem?_eq_none (by rw [counted.inlineMetadataBlocks]))
        · rw [place]
          exact id
        · rw [place]
          simp [storedBlock, beginEncoding, addEntry, ← counted.inlineMetadataBlocks]
        · simp only [beginEncoding, location, decide_eq_true_eq]
        · cases base64 : isBase64 tag <;>
            simp [decoderOf, beginEncoding, Decoder.initial, location, base64]
      · refine ⟨.of counted (same ..) (same ..) (more ..) (same ..) (same ..) (same ..), ?_⟩
        intro encoded
        exact absurd (inline encoded) outside

/-! ## All elements -/

/-- The blocks, and what is known of the Data elements. -/
structure BlockPart where
  embedded : List Bytes
  thumbnails : List Bytes
  properties : List Bytes
  iccProfiles : List Bytes
  imageSeen : List Bool
  thumbnailSeen : List Bool

def blockPart (state : XmlBuilder) : BlockPart :=
  ⟨state.embeddedBlocks, state.embeddedThumbnailBlocks, state.inlineMetadataBlocks,
    state.inlineIccProfileBlocks, state.embeddedDataSeen, state.embeddedThumbnailDataSeen⟩

theorem storedBlock_congr {before after : XmlBuilder} (same : blockPart after = blockPart before) :
    storedBlock after = storedBlock before ∧ Unseen after = Unseen before := by
  simp only [blockPart, BlockPart.mk.injEq] at same
  obtain ⟨embedded, thumbnails, properties, iccProfiles, imageSeen, thumbnailSeen⟩ := same
  constructor
  · funext place
    cases place <;> simp [storedBlock, embedded, thumbnails, properties, iccProfiles]
  · funext place
    cases place <;> simp [Unseen, imageSeen, thumbnailSeen]

theorem Before.blocks {context : ElementContext}
    (before : Before options state context identified) :
    blockPart identified = blockPart state ∧
      isEncodedBlockOpen identified = isEncodedBlockOpen state := by
  obtain ⟨base, index, ranges, extended, ⟨-, rfl⟩ | ⟨-, identify⟩⟩ := before
  · cases extended <;> exact ⟨rfl, rfl⟩
  · cases extended <;> cases identify <;> exact ⟨rfl, rfl⟩

/-- The block of an element that has ended, or whose end is not next. -/
theorem blockHolds_of_other {block : Bytes} (other : outline.opened.head? ≠ some element.toFrame) :
    BlockHolds outline state element block ↔
      decodedText (isBase64 element.tag) element.content = some block := by
  rw [BlockHolds, if_neg other]

theorem BlocksHold.start (held : BlocksHold outline state) (shape : Shape outline state)
    (started : Started options platform state (tag.context (parentName outline)) state') :
    BlocksHold (outline.start tag) state' := by
  have shape' := shape.start started
  have noneOpen := shape.encodes.none_open shape.stacked started.encoded
  have coherent := shape.stacked.coherent
  obtain ⟨identified, before, opened⟩ := started.branch
  obtain ⟨sameBlocks, sameOpen⟩ := before.blocks
  obtain ⟨sameStored, sameUnseen⟩ := storedBlock_congr sameBlocks
  obtain ⟨grown, begun⟩ := opened.blocks (before.counted shape.counted)
    (sameOpen.trans started.encoded)
  -- the place that the new element writes to, if it is encoded
  have placeEq : decodedPlace (outline.start tag) (outline.fresh tag) =
      if isEncoded tag then some (openPlace state') else none := by
    cases encoded : isEncoded tag with
    | true => exact shape'.openPlace_eq rfl encoded
    | false =>
        rw [if_neg Bool.false_ne_true]
        by_contra some
        obtain ⟨place, found⟩ := Option.ne_none_iff_exists'.mp some
        have impossible : isEncoded tag = true := isEncoded_of_decodedPlace found
        rw [encoded] at impossible
        cases impossible
  have settled {place : DecodedPlace} {element : HeaderElement} {block : Bytes}
      (member : element ∈ writers outline place) (holds : BlockHolds outline state element block) :
      BlockHolds (outline.start tag) state' element block := by
    obtain ⟨inside, encoded⟩ := mem_writers member
    obtain ⟨i, there⟩ := List.getElem?_of_mem inside
    have index := coherent.index i element there
    have small := (List.getElem?_eq_some_iff.mp there).1
    have notHead : outline.opened.head? ≠ some element.toFrame := by
      intro head
      have plain := noneOpen element.toFrame (List.mem_of_mem_head? head)
      rw [encoded] at plain
      cases plain
    rw [blockHolds_of_other notHead] at holds
    refine (blockHolds_of_other ?_).mpr holds
    rw [Library.Outline.start_opened, List.head?_cons, ne_eq, Option.some.injEq]
    intro same
    have equal : outline.elements.length = element.index := congrArg Library.Frame.index same
    omega
  have writersOld {place : DecodedPlace}
      (other : isEncoded tag = false ∨ place ≠ openPlace state') :
      writers (outline.start tag) place = writers outline place := by
    rw [writers_start coherent, placeEq, if_neg, List.append_nil]
    rcases other with plain | apart
    · rw [plain, if_neg Bool.false_ne_true]
      exact nofun
    · split
      · rw [Option.some.injEq]
        exact fun same => apart same.symm
      · exact nofun
  have empty {place : DecodedPlace}
      (none : Unseen identified place ∨ storedBlock identified place = none) :
      writers outline place = [] := by
    rcases none with unseen | absent
    · exact held.unseen place (sameUnseen ▸ unseen)
    · exact held.absent place (sameStored ▸ absent)
  refine ⟨?_, ?_, ?_⟩
  · intro place block found
    by_cases here : isEncoded tag = true ∧ place = openPlace state'
    · obtain ⟨encoded, rfl⟩ := here
      obtain ⟨nothing, -, -, encoding, decoder⟩ := begun encoded
      have old := empty nothing
      have blank : block = [] := by
        cases stored : storedBlock identified (openPlace state') with
        | none => exact grown.fresh _ _ stored found
        | some other =>
            rw [grown.stored _ _ stored, Option.some.injEq] at found
            subst found
            rw [sameStored] at stored
            rcases held.written _ _ stored with ⟨-, blank⟩ | ⟨element, some, -⟩
            · exact blank
            · rw [old] at some
              cases some
      refine .inr ⟨outline.fresh tag, ?_, ?_⟩
      · rw [writers_start coherent, old, placeEq, if_pos encoded, if_pos rfl, List.nil_append]
      · rw [BlockHolds, Library.Outline.start_opened, List.head?_cons, if_pos rfl, blank]
        exact ⟨encoding, by rw [decoder]; rfl⟩
    · have other : isEncoded tag = false ∨ place ≠ openPlace state' := by
        rw [not_and_or, Bool.not_eq_true] at here
        exact here
      rw [writersOld other]
      cases stored : storedBlock identified place with
      | none => exact .inl ⟨empty (.inr stored), grown.fresh _ _ stored found⟩
      | some before =>
          rw [grown.stored _ _ stored, Option.some.injEq] at found
          subst found
          rw [sameStored] at stored
          refine (held.written _ _ stored).imp id ?_
          rintro ⟨element, one, holds⟩
          exact ⟨element, one, settled (by rw [one]; exact List.mem_singleton_self _) holds⟩
  · intro place absent
    have other : isEncoded tag = false ∨ place ≠ openPlace state' := by
      cases encoded : isEncoded tag with
      | false => exact .inl rfl
      | true =>
          refine .inr ?_
          rintro rfl
          exact (begun encoded).there absent
    rw [writersOld other]
    refine empty (.inr ?_)
    cases stored : storedBlock identified place with
    | none => rfl
    | some block =>
        rw [grown.stored _ _ stored] at absent
        cases absent
  · intro place unseen
    have other : isEncoded tag = false ∨ place ≠ openPlace state' := by
      cases encoded : isEncoded tag with
      | false => exact .inl rfl
      | true =>
          refine .inr ?_
          rintro rfl
          exact (begun encoded).seen unseen
    rw [writersOld other]
    exact empty (grown.unseen place unseen)

/-- A block ends with no sequence open. -/
theorem Closed.complete (shape : Shape outline state) (opened : outline.opened = top :: below)
    (encoded : isEncoded top.tag = true)
    (close : Closed state top.tag.isXisf top.tag.name closed) :
    isSequenceIncomplete state = false := by
  have kinds : top.tag.kind = .data ∨ isInlineProperty top.tag = true ∨
      isInlineIccProfile top.tag = true := by
    simpa [isEncoded, or_assoc] using encoded
  have property : isInlineProperty top.tag = true → state.inlineMetadataIndex ≠ none := by
    intro inline
    rw [shape.encodes.property, innermostIndex, opened]
    simp [Option.filter_some, inline]
  have profile : isInlineIccProfile top.tag = true → state.inlineIccProfileIndex ≠ none := by
    intro inline
    rw [shape.encodes.iccProfile, innermostIndex, opened]
    simp [Option.filter_some, inline]
  have other (kind : ElementKind) (is : top.tag.kind = kind)
      (apart : kind ≠ .data ∧ kind ≠ .property ∧ kind ≠ .iccProfile) : False := by
    rw [isEncoded_of_kind (is ▸ apart.1) (is ▸ apart.2.1) (is ▸ apart.2.2)] at encoded
    cases encoded
  cases close with
  | data xisf named complete => exact complete
  | inlineIccProfile xisf named inside complete => exact complete
  | inlineProperty xisf named inside complete => exact complete
  | unhandled unknown =>
      have none := closedKinds_of_unhandled unknown
      rcases kinds with data | inline | inline
      · exact absurd data (none _ (by decide))
      · exact absurd (isInlineProperty_kind _ inline).1 (none _ (by decide))
      · exact absurd (isInlineIccProfile_kind _ inline).1 (none _ (by decide))
  | iccProfile xisf named attached =>
      have kind := kind_of_name .iccProfile (by decide) xisf named
      simp only [kind, reduceCtorEq, isInlineProperty, decide_false, Bool.false_and,
        Bool.false_eq_true, false_or] at kinds
      exact absurd attached (profile kinds)
  | property xisf named attached =>
      have kind := kind_of_name .property (by decide) xisf named
      simp only [kind, reduceCtorEq, isInlineIccProfile, decide_false, Bool.false_and,
        Bool.false_eq_true, false_or, or_false] at kinds
      exact absurd attached (property kinds)
  | cell xisf named =>
      exact (other _ (kind_of_name .cell (by decide) xisf named) (by decide)).elim
  | row xisf named => exact (other _ (kind_of_name .row (by decide) xisf named) (by decide)).elim
  | tableStructure xisf named =>
      exact (other _ (kind_of_name .tableStructure (by decide) xisf named) (by decide)).elim
  | table xisf named =>
      exact (other _ (kind_of_name .table (by decide) xisf named) (by decide)).elim
  | thumbnail xisf named =>
      exact (other _ (kind_of_name .thumbnail (by decide) xisf named) (by decide)).elim
  | image xisf named =>
      exact (other _ (kind_of_name .image (by decide) xisf named) (by decide)).elim

theorem isIncomplete_decoderOf (open_ : state.embeddedEncoding ≠ .none)
    (complete : isSequenceIncomplete state = false) : (decoderOf state).isIncomplete = false := by
  cases encoding : state.embeddedEncoding with
  | none => exact absurd encoding open_
  | base64 =>
      simpa [isSequenceIncomplete, encoding, Decoder.isIncomplete, decoderOf] using complete
  | hex => simpa [isSequenceIncomplete, encoding, Decoder.isIncomplete, decoderOf] using complete

theorem BlocksHold.close (held : BlocksHold outline state) (shape : Shape outline state)
    (opened : outline.opened = top :: below)
    (close : Closed state top.tag.isXisf top.tag.name closed) :
    BlocksHold outline.finish (popElement closed) := by
  have same : blockPart (popElement closed) = blockPart state := by
    cases close <;> rfl
  obtain ⟨stored, unseen⟩ := storedBlock_congr same
  have leaf := shape.encodes.leaf
  rw [opened, List.tail_cons] at leaf
  refine ⟨?_, ?_, ?_⟩
  · rw [stored]
    intro place block found
    refine (held.written place block found).imp id ?_
    rintro ⟨element, one, holds⟩
    refine ⟨element, one, ?_⟩
    obtain ⟨-, encoded⟩ := mem_writers (show element ∈ writers outline place by
      rw [one]
      exact List.mem_singleton_self _)
    have notBelow : outline.finish.opened.head? ≠ some element.toFrame := by
      rw [Library.Outline.finish_opened, opened, List.tail_cons]
      intro head
      have plain := leaf element.toFrame (List.mem_of_mem_head? head)
      rw [encoded] at plain
      cases plain
    rw [blockHolds_of_other notBelow]
    rw [BlockHolds, opened, List.head?_cons] at holds
    split at holds
    · rename_i isTop
      rw [Option.some.injEq] at isTop
      subst isTop
      obtain ⟨encoding, fed⟩ := holds
      have complete := Closed.complete shape opened encoded close
      have open_ : state.embeddedEncoding ≠ .none := by
        rw [encoding]
        split <;> exact nofun
      refine Decoder.decoded_of_feedAll fed (isIncomplete_decoderOf open_ complete) ?_
      rw [decoderOf, encoding]
      cases isBase64 element.tag <;> rfl
    · exact holds
  · rw [stored]
    exact held.absent
  · rw [unseen]
    exact held.unseen

/-- Text changes the contents of the innermost element only, which is not encoded. -/
theorem BlocksHold.other (held : BlocksHold outline state) (coherent : outline.Coherent)
    (plain : ∀ top below, outline.opened = top :: below → isEncoded top.tag = false) (text : Text)
    (same : blockPart state' = blockPart state) : BlocksHold (outline.append text) state' := by
  obtain ⟨stored, unseen⟩ := storedBlock_congr same
  cases opened : outline.opened with
  | nil =>
      have unchanged : outline.append text = outline := by
        unfold Library.Outline.append
        rw [opened]
      rw [unchanged]
      refine ⟨?_, by rw [stored]; exact held.absent, by rw [unseen]; exact held.unseen⟩
      rw [stored]
      intro place block found
      refine (held.written place block found).imp id ?_
      rintro ⟨element, one, holds⟩
      refine ⟨element, one, ?_⟩
      have notHead : outline.opened.head? ≠ some element.toFrame := by
        rw [opened]
        exact nofun
      rw [blockHolds_of_other notHead] at holds ⊢
      exact holds
  | cons top below =>
      have notEncoded := plain top below opened
      have kept (place : DecodedPlace) :
          writers (outline.append text) place = writers outline place := by
        rw [writers_append opened]
        refine (List.map_congr_left fun element member => ?_).trans (List.map_id _)
        obtain ⟨inside, encoded⟩ := mem_writers member
        refine Library.Element.extendAt_other fun here => ?_
        have frame := coherent.frame_of_index (by rw [opened]; exact List.mem_cons_self) inside here
        rw [show element.tag = top.tag from congrArg Library.Frame.tag frame, notEncoded] at encoded
        cases encoded
      refine ⟨?_, ?_, ?_⟩
      · rw [stored]
        intro place block found
        rw [kept]
        refine (held.written place block found).imp id ?_
        rintro ⟨element, one, holds⟩
        refine ⟨element, one, ?_⟩
        obtain ⟨-, encoded⟩ := mem_writers (show element ∈ writers outline place by
          rw [one]
          exact List.mem_singleton_self _)
        have notHead : outline.opened.head? ≠ some element.toFrame := by
          rw [opened, List.head?_cons, ne_eq, Option.some.injEq]
          rintro rfl
          rw [notEncoded] at encoded
          cases encoded
        rw [blockHolds_of_other notHead] at holds
        refine (blockHolds_of_other ?_).mpr holds
        rwa [Library.Outline.append_opened]
      · rw [stored]
        intro place absent
        rw [kept]
        exact held.absent place absent
      · rw [unseen]
        intro place none
        rw [kept]
        exact held.unseen place none

theorem storedBlock_addBytes (bytes : Bytes) (place : DecodedPlace) :
    storedBlock (addBytes state bytes) place =
      if place = openPlace state then (storedBlock state place).map (· ++ bytes)
      else storedBlock state place := by
  cases property : state.inlineMetadataIndex with
  | some index =>
      cases place <;> simp [storedBlock, addBytes, openPlace, property, Library.getElem?_modify_ite]
  | none =>
      cases profile : state.inlineIccProfileIndex with
      | some index =>
          cases place <;>
            simp [storedBlock, addBytes, openPlace, property, profile, Library.getElem?_modify_ite]
      | none =>
          cases thumbnail : state.embeddedThumbnailIndex <;> cases place <;>
            simp [storedBlock, addBytes, openPlace, property, profile, thumbnail,
              Library.getElem?_modify_ite]

/-- Text of the open block changes no other. -/
theorem decodeEmbeddedText_blocks {text : Text}
    (run : decodeEmbeddedText options state text = .ok state') (apart : place ≠ openPlace state) :
    storedBlock state' place = storedBlock state place := by
  obtain ⟨decoder, bytes, -, -, added, count, ⟨-, rfl⟩, rfl⟩ := decodeEmbeddedText_eq run
  have same := @storedBlock_addBytes state bytes place
  rw [if_neg apart] at same
  rw [← same]
  cases place <;> rfl

theorem unseen_addBytes (bytes : Bytes) : Unseen (addBytes state bytes) = Unseen state := by
  funext place
  unfold addBytes
  split <;> cases place <;> rfl

/-- Text of the open block. -/
theorem BlocksHold.encoded (held : BlocksHold outline state) (shape : Shape outline state)
    (inside : isEncodedBlockOpen state = true) {text : Text}
    (run : decodeEmbeddedText options state text = .ok state') :
    BlocksHold (outline.append text) state' := by
  have coherent := shape.stacked.coherent
  obtain ⟨top, below, opened, encoded⟩ := shape.encodes.top_encoded inside
  obtain ⟨decoder, bytes, feeds, fed⟩ := decodeEmbeddedText_eq run
  have decoderEq := fed.decoderOf_eq
  obtain ⟨-, added, count, ⟨-, rfl⟩, rfl⟩ := fed
  have stored (place : DecodedPlace) :
      storedBlock (withDecoder (addBytes state bytes) decoder count) place =
        if place = openPlace state then (storedBlock state place).map (· ++ bytes)
        else storedBlock state place := by
    rw [← storedBlock_addBytes]
    cases place <;> rfl
  have unseen : Unseen (withDecoder (addBytes state bytes) decoder count) = Unseen state := by
    refine Eq.trans ?_ (unseen_addBytes bytes)
    funext place
    cases place <;> rfl
  have encoding : (withDecoder (addBytes state bytes) decoder count).embeddedEncoding =
      state.embeddedEncoding := by
    show (addBytes state bytes).embeddedEncoding = _
    unfold addBytes
    split <;> rfl
  -- the element that the text stands in is the one that writes to the open place
  have path := coherent.opened
  rw [opened] at path
  obtain ⟨⟨writer, there, frame, around⟩, -, -⟩ := path
  have here : decodedPlace outline writer = some (openPlace state) := by
    rw [decodedPlace, frame, around]
    exact shape.openPlace_eq opened encoded
  have isWriter : writer ∈ writers outline (openPlace state) :=
    List.mem_filter.mpr ⟨List.mem_of_getElem? there, decide_eq_true here⟩
  refine ⟨?_, ?_, ?_⟩
  · intro place block found
    rw [stored] at found
    rw [writers_append opened]
    split at found
    · rename_i same
      subst same
      obtain ⟨old, before, rfl⟩ := Option.map_eq_some_iff.mp found
      rcases held.written _ _ before with ⟨none, -⟩ | ⟨element, one, holds⟩
      · rw [none] at isWriter
        cases isWriter
      · rw [one, List.mem_singleton] at isWriter
        subst isWriter
        refine .inr ⟨writer.extendAt top.index text, by rw [one]; rfl, ?_⟩
        rw [BlockHolds, Library.Outline.append_opened, opened, List.head?_cons,
          Library.Element.extendAt_frame, frame, if_pos rfl, encoding,
          Library.Element.extendAt_same (congrArg Library.Frame.index frame)]
        rw [BlockHolds, opened, List.head?_cons, frame, if_pos rfl] at holds
        refine ⟨holds.1, ?_⟩
        rw [Decoder.feedAll_append, holds.2, Option.bind_some, feeds, Option.map_some, decoderEq]
    · rename_i apart
      refine (held.written place block found).imp (fun none => ⟨by rw [none.1]; rfl, none.2⟩) ?_
      rintro ⟨element, one, holds⟩
      have member : element ∈ writers outline place := by
        rw [one]
        exact List.mem_singleton_self _
      have notTop : element.toFrame ≠ top := by
        intro same
        obtain ⟨inside, at_⟩ := List.mem_filter.mp member
        obtain ⟨i, found⟩ := List.getElem?_of_mem inside
        have index := coherent.index i element found
        have same' : element.index = top.index := congrArg Library.Frame.index same
        rw [← same', index, found, Option.some.injEq] at there
        subst there
        rw [decide_eq_true_eq, here, Option.some.injEq] at at_
        exact apart at_.symm
      have notHead : outline.opened.head? ≠ some element.toFrame := by
        rw [opened, List.head?_cons, ne_eq, Option.some.injEq]
        exact fun same => notTop same.symm
      have kept : element.extendAt top.index text = element := by
        refine Library.Element.extendAt_other fun here => notTop ?_
        exact coherent.frame_of_index (by rw [opened]; exact List.mem_cons_self)
          (mem_writers member).1 here
      refine ⟨element, by rw [one, List.map_cons, kept]; rfl, ?_⟩
      rw [blockHolds_of_other notHead] at holds
      refine (blockHolds_of_other ?_).mpr holds
      rwa [Library.Outline.append_opened]
  · intro place absent
    rw [stored] at absent
    rw [writers_append opened]
    have before : storedBlock state place = none := by
      split at absent
      · exact Option.map_eq_none_iff.mp absent
      · exact absent
    rw [held.absent place before]
    rfl
  · rw [unseen]
    intro place none
    rw [writers_append opened, held.unseen place none]
    rfl

theorem preserved_blocksHold : Preserved options platform BlocksHold where
  empty := by
    refine ⟨?_, fun _ _ => rfl, fun _ _ => rfl⟩
    intro place block found
    cases place <;> cases found
  declared := by
    intro outline state held
    refine ⟨fun place block found => ?_, fun place absent => ?_, fun place unseen => ?_⟩
    · exact held.written place block (by cases place <;> exact found)
    · exact held.absent place (by cases place <;> exact absent)
    · exact held.unseen place (by cases place <;> exact unseen)
  start := by
    intro outline state state' tag shape held started
    exact held.start shape started
  close := by
    intro outline state closed top below shape held opened close
    exact held.close shape opened close
  text := by
    intro outline state state' text shape held taken
    have coherent := shape.stacked.coherent
    have plain (outside : isEncodedBlockOpen state = false) :
        ∀ top below, outline.opened = top :: below → isEncoded top.tag = false :=
      fun top below opened => shape.encodes.none_open shape.stacked outside top
        (by rw [opened]; exact List.mem_cons_self)
    cases taken with
    | empty none =>
        subst none
        rw [Library.Outline.append_nil]
        exact held
    | encoded _ inside run => exact held.encoded shape inside run
    | cell outside => exact held.other coherent (plain outside) text rfl
    | cellSpace outside => exact held.other coherent (plain outside) text rfl
    | extension outside => exact held.other coherent (plain outside) text rfl
    | property outside => exact held.other coherent (plain outside) text rfl
    | stray outside => exact held.other coherent (plain outside) text rfl

end

end Mmxisf.Reader
