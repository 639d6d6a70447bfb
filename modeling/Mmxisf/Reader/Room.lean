/-
# Reader.Room -- the room that limits leave

The smallest of a reader's limits is its *room*.  A computation of the reader passes
when it has one value, or the error of a limit, under every setting, and that value
under every setting with room enough.  A check of a limit passes with what it counts
as the bound.
-/
import Mmxisf.Reader.Limits

namespace Mmxisf

set_option autoImplicit false

namespace Reader

/-- Every limit of a reader. -/
def ReaderOptions.limits (options : ReaderOptions) : List Nat :=
  [options.maxHeaderBytes, options.maxXmlDepth, options.maxXmlNodes,
    options.maxAttributesPerElement, options.maxImages, options.maxMetadataEntries,
    options.maxMetadataValueBytes, options.maxExtensionElements, options.maxExtensionAttributes,
    options.maxExtensionBytes, options.maxAncillaryObjects, options.maxAncillaryAttributes,
    options.maxAncillaryBindings, options.maxAncillaryBytes, options.maxIccProfiles,
    options.maxIccProfileBindings, options.maxSerializedIccProfileBytes,
    options.maxDecodedIccProfileBytes, options.maxThumbnails, options.maxThumbnailBindings,
    options.maxThumbnailDimension, options.maxSerializedThumbnailBytes,
    options.maxDecodedThumbnailBytes, options.maxTableStructures, options.maxTables,
    options.maxTableFields, options.maxTableRows, options.maxTableCells, options.maxTableBindings,
    options.maxTableTextBytes, options.maxEncodedBlockBytes, options.maxSerializedImageBytes,
    options.maxSerializedPropertyBytes, options.maxDecodedPropertyBytes,
    options.maxUnusedSpaceBytes, options.maxCompressedSubblocks, options.maxDecompressionRatio,
    options.maxZstdWindowBytes, options.maxImageDimensions, options.maxInspectedChannels,
    options.maxDecodedChannels, options.maxSamplesPerImage, options.maxDecodedImageBytes]

/-- The smallest limit. -/
def ReaderOptions.room (options : ReaderOptions) : Nat :=
  options.limits.foldr min options.maxHeaderBytes

theorem ReaderOptions.room_le {options : ReaderOptions} {limit : Nat}
    (listed : limit ∈ options.limits) : options.room ≤ limit := by
  have least : ∀ (limits : List Nat) (start : Nat), ∀ limit ∈ limits,
      limits.foldr min start ≤ limit := by
    intro limits start
    induction limits with
    | nil => exact List.forall_mem_nil _
    | cons first rest ih =>
        rw [List.forall_mem_cons, List.foldr_cons]
        exact ⟨Nat.min_le_left ..,
          fun limit member => (Nat.min_le_right ..).trans (ih limit member)⟩
  exact least _ _ _ listed

/-- Limits that leave this much room. -/
def ReaderOptions.roomy (bound : Nat) : ReaderOptions where
  maxHeaderBytes := bound
  maxXmlDepth := bound
  maxXmlNodes := bound
  maxAttributesPerElement := bound
  maxImages := bound
  maxMetadataEntries := bound
  maxMetadataValueBytes := bound
  maxExtensionElements := bound
  maxExtensionAttributes := bound
  maxExtensionBytes := bound
  maxAncillaryObjects := bound
  maxAncillaryAttributes := bound
  maxAncillaryBindings := bound
  maxAncillaryBytes := bound
  maxIccProfiles := bound
  maxIccProfileBindings := bound
  maxSerializedIccProfileBytes := bound
  maxDecodedIccProfileBytes := bound
  maxThumbnails := bound
  maxThumbnailBindings := bound
  maxThumbnailDimension := bound
  maxSerializedThumbnailBytes := bound
  maxDecodedThumbnailBytes := bound
  maxTableStructures := bound
  maxTables := bound
  maxTableFields := bound
  maxTableRows := bound
  maxTableCells := bound
  maxTableBindings := bound
  maxTableTextBytes := bound
  maxEncodedBlockBytes := bound
  maxSerializedImageBytes := bound
  maxSerializedPropertyBytes := bound
  maxDecodedPropertyBytes := bound
  maxUnusedSpaceBytes := bound
  maxCompressedSubblocks := bound
  maxDecompressionRatio := bound
  maxZstdWindowBytes := bound
  maxImageDimensions := bound
  maxInspectedChannels := bound
  maxDecodedChannels := bound
  maxSamplesPerImage := bound
  maxDecodedImageBytes := bound

theorem ReaderOptions.room_roomy (bound : Nat) : (ReaderOptions.roomy bound).room = bound := by
  simp [ReaderOptions.room, ReaderOptions.limits, ReaderOptions.roomy]

/-- A computation has this value under every setting that leaves room, and nothing but
a limit stops it under the others. -/
abbrev Passes {ω α : Type} (settings : ω → ReaderOptions) (x : ω → Result α) (value : ω → α) :
    Prop :=
  Library.Passes IsLimit (fun o => (settings o).room) x value

/-- A computation has this value under every setting with limits like these or looser
ones, and nothing but a limit stops it under the others. -/
abbrev Suffices {ω α : Type} (need : ReaderOptions) (settings : ω → ReaderOptions)
    (x : ω → Result α) (value : ω → α) : Prop :=
  Library.Suffices IsLimit (fun o => Tighter need (settings o)) x value

/-- Room is room for everything. -/
theorem tighter_roomy {bound : Nat} {options : ReaderOptions} (roomy : bound ≤ options.room) :
    Tighter (.roomy bound) options := by
  constructor <;> exact roomy.trans (ReaderOptions.room_le (by simp [ReaderOptions.limits]))

end Reader

open Reader (ReaderOptions Passes Suffices Tighter)

variable {ω : Type} {settings : ω → ReaderOptions}

/-- A check of a limit. -/
theorem passes_limit (bound : Nat) {bad : ω → Prop} [∀ o, Decidable (bad o)] {message : String}
    {element attributeName : Text} (enough : ∀ o, bound ≤ (settings o).room → ¬ bad o) :
    Passes settings (fun o => reject (bad o) .resourceLimit message element attributeName)
      fun _ => () := by
  refine @Library.Passes.limit _ _ Reader.IsLimit _ _ _ _ bound (fun o => ?_) fun o roomy => ?_
  · by_cases beyond : bad o
    · rw [reject, if_pos beyond]
      exact .inr ⟨_, rfl, .inl rfl⟩
    · rw [reject, if_neg beyond]
      exact .inl rfl
  · rw [reject, if_neg (enough o roomy)]

/-- A count that must stay below a limit. -/
theorem passes_below {count : Nat} {limit : ReaderOptions → Nat}
    (listed : ∀ options, limit options ∈ options.limits) {message : String}
    {element attributeName : Text} :
    Passes settings (fun o => reject (count ≥ limit (settings o)) .resourceLimit message element
      attributeName) fun _ => () :=
  passes_limit (count + 1) fun _ roomy beyond =>
    absurd (roomy.trans (ReaderOptions.room_le (listed _))) (by omega)

/-- A size that must not exceed a limit. -/
theorem passes_atMost {size : Nat} {limit : ReaderOptions → Nat}
    (listed : ∀ options, limit options ∈ options.limits) {message : String}
    {element attributeName : Text} :
    Passes settings (fun o => reject (size > limit (settings o)) .resourceLimit message element
      attributeName) fun _ => () :=
  passes_limit size fun _ roomy beyond =>
    absurd (roomy.trans (ReaderOptions.room_le (listed _))) (by omega)

/-- A check that is no limit, and passes. -/
theorem passes_check {bad : Prop} [Decidable bad] (good : ¬ bad) {code : ErrorCode}
    {message : String} {element attributeName : Text} :
    Passes settings (fun _ => reject bad code message element attributeName) fun _ => () := by
  refine .of_eq fun _ => ?_
  rw [reject, if_neg good]

/-- A value that is there. -/
theorem passes_some {α : Type} {value : Option α} {found : α} (there : value = some found)
    {code : ErrorCode} {message : String} {element attributeName : Text} :
    Passes settings (fun _ => orFail value code message element attributeName) fun _ => found := by
  refine .of_eq fun _ => ?_
  rw [there]
  rfl

theorem passes_ok {α : Type} {value : ω → α} :
    Passes settings (fun o => Except.ok (value o)) value :=
  .of_eq fun _ => rfl

variable {need : ReaderOptions}

/-- A check of a limit that passes where there is what it needs. -/
theorem suffices_limit {bad : ω → Prop} [∀ o, Decidable (bad o)] {message : String}
    {element attributeName : Text} (enough : ∀ o, Tighter need (settings o) → ¬ bad o) :
    Suffices need settings
      (fun o => reject (bad o) .resourceLimit message element attributeName) fun _ => () := by
  refine .limit (fun o => ?_) fun o there => ?_
  · by_cases beyond : bad o
    · rw [reject, if_pos beyond]
      exact .inr ⟨_, rfl, .inl rfl⟩
    · rw [reject, if_neg beyond]
      exact .inl rfl
  · rw [reject, if_neg (enough o there)]

theorem suffices_below {count : Nat} {limit : ReaderOptions → Nat}
    (ordered : ∀ {low high}, Tighter low high → limit low ≤ limit high) (fits : count < limit need)
    {message : String} {element attributeName : Text} :
    Suffices need settings (fun o => reject (count ≥ limit (settings o)) .resourceLimit message
      element attributeName) fun _ => () :=
  suffices_limit fun _ there beyond => absurd (fits.trans_le (ordered there)) (by omega)

theorem suffices_atMost {size : Nat} {limit : ReaderOptions → Nat}
    (ordered : ∀ {low high}, Tighter low high → limit low ≤ limit high) (fits : size ≤ limit need)
    {message : String} {element attributeName : Text} :
    Suffices need settings (fun o => reject (size > limit (settings o)) .resourceLimit message
      element attributeName) fun _ => () :=
  suffices_limit fun _ there beyond => absurd (fits.trans (ordered there)) (by omega)

theorem suffices_check {bad : Prop} [Decidable bad] (good : ¬ bad) {code : ErrorCode}
    {message : String} {element attributeName : Text} :
    Suffices need settings (fun _ => reject bad code message element attributeName)
      fun _ => () := by
  refine .of_eq fun _ => ?_
  rw [reject, if_neg good]

theorem suffices_some {α : Type} {value : Option α} {found : α} (there : value = some found)
    {code : ErrorCode} {message : String} {element attributeName : Text} :
    Suffices need settings (fun _ => orFail value code message element attributeName)
      fun _ => found := by
  refine .of_eq fun _ => ?_
  rw [there]
  rfl

theorem suffices_ok {α : Type} {value : ω → α} :
    Suffices need settings (fun o => Except.ok (value o)) value :=
  .of_eq fun _ => rfl

end Mmxisf
