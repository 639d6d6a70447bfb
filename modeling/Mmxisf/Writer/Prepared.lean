/-
# Writer.Prepared -- the blocks of a unit and their sizes

The images and the entries with a block are prepared one after another, each with
what remains of a limit.  `SizedBlocks` says of the blocks of one loop that they
take the outputs of the codecs in order, that each is within its own limit, and
that with the bytes before them they are within the limit of the loop, as numbers:
the counter of the loop never wraps.
-/
import Mmxisf.Writer.Sizes

namespace Mmxisf.Writer

set_option autoImplicit false

open Library (Accounts)

/-- The sizes of blocks whose codecs have these outputs. -/
def serializedSizes (options : WriterOptions) : List BlockSource → List Nat → List Nat
  | [], _ => []
  | source :: rest, outputs =>
      source.serialized (outputs.take (source.outputs options)) ::
        serializedSizes options rest (outputs.drop (source.outputs options))

/-- How many outputs blocks have. -/
def totalOutputs (options : WriterOptions) (sources : List BlockSource) : Nat :=
  (sources.map (BlockSource.outputs options)).sum

theorem serializedSizes_append {options : WriterOptions} {more : List BlockSource}
    {moreOutputs : List Nat} :
    ∀ {sources : List BlockSource} {outputs : List Nat}, outputs.length =
      totalOutputs options sources →
      serializedSizes options (sources ++ more) (outputs ++ moreOutputs) =
        serializedSizes options sources outputs ++ serializedSizes options more moreOutputs
  | [], outputs, count => by
      have none : outputs = [] := List.eq_nil_of_length_eq_zero count
      rw [none]
      rfl
  | source :: rest, outputs, count => by
      have first : source.outputs options ≤ outputs.length := by
        rw [count, totalOutputs, List.map_cons, List.sum_cons]
        exact Nat.le_add_right _ _
      have restCount : (outputs.drop (source.outputs options)).length =
          totalOutputs options rest := by
        rw [List.length_drop, count, totalOutputs, List.map_cons, List.sum_cons,
          Nat.add_sub_cancel_left]
        rfl
      rw [List.cons_append, serializedSizes, serializedSizes, List.take_append_of_le_length first,
        List.drop_append_of_le_length first, serializedSizes_append restCount, List.cons_append]

/-- Blocks of one loop, after `before` bytes of earlier ones. -/
structure SizedBlocks (options : WriterOptions) (each limit : Nat) (sources : List BlockSource)
    (before : Nat) (sizes outputs : List Nat) : Prop where
  count : outputs.length = totalOutputs options sources
  serialized : sizes = serializedSizes options sources outputs
  few : ∀ source ∈ sources, source.outputs options ≤ options.maxCompressionSubblocks
  each : ∀ size ∈ sizes, size ≤ each
  total : before ≤ limit → before + sizes.sum ≤ limit

namespace SizedBlocks

variable {options : WriterOptions} {each limit before : Nat} {sources : List BlockSource}
  {sizes outputs : List Nat}

theorem nil : SizedBlocks options each limit [] before [] [] where
  count := rfl
  serialized := rfl
  few := List.forall_mem_nil _
  each := List.forall_mem_nil _
  total := id

/-- A block, and those after it. -/
theorem cons {source : BlockSource} {block : PreparedBlock} {first : List Nat}
    {request : BlockPrepareRequest} (sized : SizedBlock request options source block first)
    (own : request.maxSerializedBytes = each) (within : before + block.serializedSize ≤ limit)
    (rest : SizedBlocks options each limit sources (before + block.serializedSize) sizes outputs) :
    SizedBlocks options each limit (source :: sources) before (block.serializedSize :: sizes)
      (first ++ outputs) where
  count := by
    rw [List.length_append, sized.count, rest.count, totalOutputs, totalOutputs, List.map_cons,
      List.sum_cons]
  serialized := by
    rw [serializedSizes, List.take_left' sized.count, List.drop_left' sized.count, ← sized.size,
      ← rest.serialized]
  few := by
    intro other member
    rcases List.mem_cons.mp member with rfl | later
    · exact sized.few
    · exact rest.few other later
  each := by
    intro size member
    rcases List.mem_cons.mp member with rfl | later
    · exact own ▸ sized.allowed.serialized
    · exact rest.each size later
  total := by
    intro _
    rw [List.sum_cons, ← Nat.add_assoc]
    exact rest.total within

end SizedBlocks

section

variable {platform : Platform} {call : WriteCall}

/-! ## The loops -/

/-- The names that a writer derives are apart from the temporary name. -/
theorem suffix_ne {path suffix rest : Text} {first : Byte}
    (spelled : suffix = lit ".mmxisf-" ++ first :: rest) (other : first ≠ ch 't') :
    path ++ suffix ≠ path ++ lit ".mmxisf-tmp" := by
  intro same
  have suffixes := List.append_cancel_left same
  rw [spelled, show lit ".mmxisf-tmp" = lit ".mmxisf-" ++ ch 't' :: lit "mp" from rfl] at suffixes
  have firsts := congrArg List.head? (List.append_cancel_left suffixes)
  rw [List.head?_cons, List.head?_cons, Option.some.injEq] at firsts
  exact other firsts

theorem prepareNext_accounts {cumulative limit : Nat} {message : String}
    {request : Nat → Result BlockPrepareRequest} {source : BlockSource} {each : Nat}
    (fits : limit ≤ u64Max) (eachFits : each ≤ u64Max)
    (made : ∀ remaining wanted, request remaining = .ok wanted →
      wanted.compression = source.compression ∧
      wanted.bytes.length = source.size ∧ source.size ≤ u64Max ∧ wanted.maxSerializedBytes = each ∧
      wanted.maxCumulativeRemaining = remaining ∧
      call.destinationOrScratch ++ wanted.spoolSuffix ≠ call.temporary) :
    Prepares call (fun prepared outputs => ∃ wanted : BlockPrepareRequest,
        SizedBlock wanted call.options source prepared.1 outputs ∧
        wanted.maxSerializedBytes = each ∧
        cumulative ≤ limit ∧ prepared.2 = cumulative + prepared.1.serializedSize ∧
        cumulative + prepared.1.serializedSize ≤ limit)
      (prepareNext platform call cumulative limit message request) := by
  apply Silent.bind (refuse_silent _ _ _)
  intro _ inside
  rw [Nat.not_lt] at inside
  rw [wrapSubtract_eq fits inside]
  apply Silent.bind Silent.result
  intro wanted wantedIs
  obtain ⟨compression, size, small, serialized, remaining, other⟩ := made _ _ wantedIs
  have typed : wanted.Typed := ⟨by omega, by omega, by omega⟩
  apply Silent.bind (allocate_silent _)
  intro _ _
  apply Accounts.bind (prepareBlock_accounts typed other) fun _ _ => trivial
  rw [compression, size]
  intro block outputs sized
  apply Accounts.bind Silent.result fun _ _ => trivial
  rintro next _ ⟨rfl, added⟩
  rw [orFail_eq_ok, Option.filter_eq_some_iff, decide_eq_true_eq] at added
  obtain ⟨sum, within⟩ := added
  obtain ⟨rfl, -⟩ := (checkedAdd_eq_some (by omega)).mp sum
  apply Accounts.pure
  rw [List.append_nil, List.append_nil]
  exact ⟨wanted, sized, serialized, inside, rfl, within⟩

/-- The block of an image. -/
def imageSource (image : ImageWriteView) : BlockSource := ⟨image.compression, image.pixels.length⟩

/-- The block of an entry. -/
def propertySource (entry : MetadataWriteEntry) : BlockSource :=
  ⟨entry.compression, entry.blockBytes.length⟩

/-- The limits of a call fit the source's types. -/
structure WriterOptions.Typed (options : WriterOptions) : Prop where
  attachmentAlignment : options.attachmentAlignment ≤ u64Max
  maxHeaderBytes : options.maxHeaderBytes ≤ kMaxHeaderLength
  maxImages : options.maxImages ≤ u64Max
  maxMetadataEntries : options.maxMetadataEntries ≤ u64Max
  maxMetadataValueBytes : options.maxMetadataValueBytes ≤ u64Max
  compressionSubblockBytes : options.compressionSubblockBytes ≤ u64Max
  maxCompressionSubblocks : options.maxCompressionSubblocks ≤ u64Max
  maxImageBytes : options.maxImageBytes ≤ u64Max
  maxCumulativeImageBytes : options.maxCumulativeImageBytes ≤ u64Max
  maxPropertyBytes : options.maxPropertyBytes ≤ u64Max
  maxCumulativePropertyBytes : options.maxCumulativePropertyBytes ≤ u64Max
  maxSerializedPropertyBytes : options.maxSerializedPropertyBytes ≤ u64Max
  maxCumulativeSerializedPropertyBytes : options.maxCumulativeSerializedPropertyBytes ≤ u64Max
  maxSerializedImageBytes : options.maxSerializedImageBytes ≤ u64Max
  maxCumulativeSerializedBytes : options.maxCumulativeSerializedBytes ≤ u64Max

/-- The serialized size of a block. -/
def blockSize {α : Type} (item : α × PlannedBlock) : Nat := item.2.prepared.serializedSize

theorem prepareImages_accounts (typed : call.options.Typed) :
    ∀ (images : List ImageWriteView) (index cumulative : Nat),
      (∀ image ∈ images, image.pixels.length ≤ u64Max) →
      Prepares call (fun planned outputs => planned.map Prod.fst = images ∧
          SizedBlocks call.options call.options.maxSerializedImageBytes
            call.options.maxCumulativeSerializedBytes (images.map imageSource) cumulative
            (planned.map blockSize) outputs)
        (prepareImages platform call index cumulative images)
  | [], _, _, _ => Accounts.pure ⟨rfl, .nil⟩
  | image :: rest, index, cumulative, small => by
      have first : ∀ remaining wanted, imageRequest call index image remaining = .ok wanted →
          wanted.compression = (imageSource image).compression ∧
            wanted.bytes.length = (imageSource image).size ∧ (imageSource image).size ≤ u64Max ∧
            wanted.maxSerializedBytes = call.options.maxSerializedImageBytes ∧
            wanted.maxCumulativeRemaining = remaining ∧
            call.destinationOrScratch ++ wanted.spoolSuffix ≠ call.temporary := by
        rintro remaining wanted ⟨⟩
        exact ⟨rfl, rfl, small image List.mem_cons_self, rfl, rfl,
          suffix_ne (List.append_assoc (lit ".mmxisf-block-") _ _) (show ch 'b' ≠ ch 't' by decide)⟩
      unfold prepareImages
      apply Accounts.bind (prepareNext_accounts typed.maxCumulativeSerializedBytes
        typed.maxSerializedImageBytes first) fun _ _ => trivial
      rintro ⟨block, next⟩ outputs ⟨wanted, sized, each, -, added, within⟩
      dsimp only at sized added within
      subst added
      apply Accounts.bind (prepareImages_accounts typed rest (index + 1) _
        fun image member => small image (List.mem_cons_of_mem _ member)) fun _ _ => trivial
      rintro planned more ⟨items, sizes⟩
      apply Accounts.pure
      rw [List.append_nil]
      constructor
      · rw [List.map_cons, items]
      · exact .cons sized each within sizes

theorem prepareMetadata_accounts (typed : call.options.Typed) :
    ∀ (metadata : List MetadataWriteEntry) (index cumulative : Nat),
      (∀ entry ∈ metadata, hasBlock entry = true → entry.blockBytes.length ≤ u64Max) →
      Prepares call (fun planned outputs => planned.map Prod.fst = metadata ∧
          SizedBlocks call.options call.options.maxSerializedPropertyBytes
            call.options.maxCumulativeSerializedPropertyBytes
            ((metadata.filter hasBlock).map propertySource) cumulative
            ((planned.filter fun entry => hasBlock entry.1).map blockSize) outputs)
        (prepareMetadata platform call index cumulative metadata)
  | [], _, _, _ => Accounts.pure ⟨rfl, .nil⟩
  | entry :: rest, index, cumulative, small => by
      have smallRest : ∀ entry ∈ rest, hasBlock entry = true → entry.blockBytes.length ≤ u64Max :=
        fun entry member => small entry (List.mem_cons_of_mem _ member)
      unfold prepareMetadata
      apply Accounts.ite
      · intro block
        have first : ∀ remaining wanted, propertyRequest call index entry remaining = .ok wanted →
            wanted.compression = (propertySource entry).compression ∧
              wanted.bytes.length = (propertySource entry).size ∧
              (propertySource entry).size ≤ u64Max ∧
              wanted.maxSerializedBytes = call.options.maxSerializedPropertyBytes ∧
              wanted.maxCumulativeRemaining = remaining ∧
              call.destinationOrScratch ++ wanted.spoolSuffix ≠ call.temporary := by
          intro remaining wanted asked
          simp only [propertyRequest, bind_eq_ok] at asked
          obtain ⟨layout, -, ⟨⟩⟩ := asked
          exact ⟨rfl, rfl, small entry List.mem_cons_self block, rfl, rfl,
            suffix_ne (List.append_assoc (lit ".mmxisf-property-block-") _ _)
              (show ch 'p' ≠ ch 't' by decide)⟩
        apply Accounts.bind (prepareNext_accounts typed.maxCumulativeSerializedPropertyBytes
          typed.maxSerializedPropertyBytes first) fun _ _ => trivial
        rintro ⟨prepared, next⟩ outputs ⟨wanted, sized, each, -, added, within⟩
        dsimp only at sized added within
        subst added
        apply Accounts.bind (prepareMetadata_accounts typed rest (index + 1) _ smallRest)
          fun _ _ => trivial
        rintro planned more ⟨items, sizes⟩
        apply Accounts.pure
        rw [List.append_nil]
        constructor
        · rw [List.map_cons, items]
        · have kept : ((entry, { prepared := prepared }) :: planned).filter
              (fun entry => hasBlock entry.1) =
              (entry, { prepared := prepared }) :: planned.filter fun entry => hasBlock entry.1 :=
            List.filter_cons_of_pos block
          rw [List.filter_cons_of_pos block, kept, List.map_cons, List.map_cons]
          exact .cons sized each within sizes
      · intro none
        apply Accounts.bind (prepareMetadata_accounts typed rest (index + 1) cumulative smallRest)
          fun _ _ => trivial
        rintro planned outputs ⟨items, sizes⟩
        apply Accounts.pure
        rw [List.append_nil]
        constructor
        · rw [List.map_cons, items]
        · have left : ((entry, ({} : PlannedBlock)) :: planned).filter
              (fun entry => hasBlock entry.1) = planned.filter fun entry => hasBlock entry.1 :=
            List.filter_cons_of_neg none
          rw [List.filter_cons_of_neg none, left]
          exact sizes

end

end Mmxisf.Writer
