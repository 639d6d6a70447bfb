/-
# Writer.Layouts -- what planning leaves, and where it puts the blocks

Planning changes nothing but the places of the attached blocks, and these are
stacked: the loop over the images and the loop over the entries are one loop over
their sizes (`Stacks`), which ends with the last of them.
-/
import Mmxisf.Library.Stacking
import Mmxisf.Writer.Prepared

namespace Mmxisf.Writer

set_option autoImplicit false

open Library (roundUp stacked stackEnd)

/-! ## Alignment -/

theorem alignUp_eq_ok {value alignment aligned : Nat} (power : isPowerOfTwo alignment = true)
    (small : value ≤ u64Max) :
    alignUp value alignment = .ok aligned ↔
      aligned = roundUp alignment value ∧ roundUp alignment value ≤ u64Max := by
  simp only [isPowerOfTwo, ne_eq, Bool.and_eq_true, decide_eq_true_eq, decide_not,
    Bool.not_eq_true',
    decide_eq_false_iff_not] at power
  obtain ⟨k, rfl⟩ := (Nat.ne_zero_and_sub_one_eq_zero_iff_isPowerOfTwo).mp power
  have masked : value &&& (2 ^ k - 1) = value % 2 ^ k := Nat.and_two_pow_sub_one_eq_mod value k
  unfold alignUp roundUp
  rw [masked]
  by_cases whole : value % 2 ^ k = 0
  · simp only [whole, if_true, Except.ok.injEq]
    constructor
    · rintro rfl
      exact ⟨rfl, small⟩
    · rintro ⟨rfl, -⟩
      rfl
  · simp only [whole, if_false]
    rw [orFail_eq_ok, checkedAdd_eq_some small]

/-! ## The order of the blocks -/

/-- The place of a block. -/
def placeOf (range : Nat × Nat) : BlockLocation :=
  ⟨.attachment, range.1, range.2, attachmentLocation range.1 range.2⟩

/-- Blocks of these sizes are placed one after another. -/
inductive Stacks (alignment totalBlocks : Nat) :
    Layout → List Nat → List BlockLocation → Layout → Prop
  | nil (layout : Layout) : Stacks alignment totalBlocks layout [] [] layout
  | cons {layout next final : Layout} {size : Nat} {location : BlockLocation} {sizes : List Nat}
      {locations : List BlockLocation}
      (one : planOne alignment totalBlocks layout size = .ok (location, next))
      (rest : Stacks alignment totalBlocks next sizes locations final) :
      Stacks alignment totalBlocks layout (size :: sizes) (location :: locations) final

theorem Stacks.append {alignment totalBlocks : Nat} {layout middle final : Layout}
    {sizes more : List Nat} {locations moreLocations : List BlockLocation}
    (first : Stacks alignment totalBlocks layout sizes locations middle)
    (rest : Stacks alignment totalBlocks middle more moreLocations final) :
    Stacks alignment totalBlocks layout (sizes ++ more) (locations ++ moreLocations) final := by
  induction first with
  | nil _ => exact rest
  | cons one _ ih => exact .cons one (ih rest)

/-- The last block was placed, or there are more. -/
def Layout.Going (totalBlocks : Nat) (layout : Layout) : Prop :=
  layout.finished = none ∧ layout.planned < totalBlocks ∨
    layout.finished.isSome = true ∧ layout.planned = totalBlocks

theorem planOne_going {alignment totalBlocks size : Nat} {layout next : Layout}
    {location : BlockLocation} (more : layout.planned < totalBlocks) (none : layout.finished = none)
    (one : planOne alignment totalBlocks layout size = .ok (location, next)) :
    next.Going totalBlocks ∧ next.planned = layout.planned + 1 := by
  simp only [planOne, bind_eq_ok, orFail_eq_ok] at one
  obtain ⟨finish, -, one⟩ := one
  obtain ⟨last, one⟩ | ⟨others, one⟩ := ite_eq_ok one
  · cases one
    exact ⟨.inr ⟨rfl, last⟩, rfl⟩
  · simp only [bind_eq_ok] at one
    obtain ⟨offset, -, one⟩ := one
    cases one
    exact ⟨.inl ⟨none, by dsimp only; omega⟩, rfl⟩

section

variable {α : Type} {attached : α → Bool} {alignment totalBlocks : Nat}

/-- An item with what was prepared for it. -/
def preparedItem (item : α × PlannedBlock) : α × PreparedBlock := (item.1, item.2.prepared)

/-- What either loop of `plan_blocks` does. -/
structure PlansEach (attached : α → Bool) (alignment totalBlocks : Nat) (layout : Layout)
    (items planned : List (α × PlannedBlock)) (final : Layout) : Prop where
  kept : planned.map preparedItem = items.map preparedItem
  placed : Stacks alignment totalBlocks layout
    ((items.filter fun item => attached item.1).map blockSize)
    ((planned.filter fun item => attached item.1).map (·.2.location)) final
  going : final.Going totalBlocks
  count : final.planned = layout.planned + items.countP fun item => attached item.1

theorem planEach_plans :
    ∀ (items : List (α × PlannedBlock)) {layout final : Layout} {planned : List (α × PlannedBlock)},
      layout.Going totalBlocks →
      layout.planned + items.countP (fun item => attached item.1) ≤ totalBlocks →
      planEach attached alignment totalBlocks layout items = .ok (planned, final) →
      PlansEach attached alignment totalBlocks layout items planned final
  | [], layout, _, _, going, _, run => by
      cases run
      exact ⟨rfl, .nil layout, going, rfl⟩
  | (item, block) :: rest, layout, final, planned, going, room, run => by
      unfold planEach at run
      cases isAttached : attached item with
      | false =>
          simp only [List.countP_cons, isAttached, Bool.false_eq_true, if_false,
            Nat.add_zero] at room
          simp only [isAttached, or_true, if_true, bind_eq_ok] at run
          obtain ⟨⟨later, after⟩, plans, run⟩ := run
          cases run
          obtain ⟨kept, placed, goingOn, count⟩ := planEach_plans rest going room plans
          refine ⟨?_, ?_, goingOn, ?_⟩
          · rw [List.map_cons, List.map_cons, kept]
          · simp only [List.filter_cons, isAttached, Bool.false_eq_true, if_false]
            exact placed
          · simp only [List.countP_cons, isAttached, Bool.false_eq_true, if_false, Nat.add_zero]
            exact count
      | true =>
          simp only [List.countP_cons, isAttached, if_true] at room
          obtain ⟨none, more⟩ : layout.finished = none ∧ layout.planned < totalBlocks := by
            rcases going with more | ⟨-, full⟩
            · exact more
            · omega
          simp only [isAttached, none, Option.isSome_none, Bool.false_eq_true, Bool.true_eq_false,
            or_self, if_false, bind_eq_ok] at run
          obtain ⟨⟨location, next⟩, one, ⟨later, after⟩, plans, run⟩ := run
          cases run
          obtain ⟨nextGoing, added⟩ := planOne_going more none one
          obtain ⟨kept, placed, goingOn, count⟩ := planEach_plans rest nextGoing (by omega) plans
          refine ⟨?_, ?_, goingOn, ?_⟩
          · rw [List.map_cons, List.map_cons, kept]
            rfl
          · simp only [List.filter_cons, isAttached, if_true, List.map_cons]
            exact .cons one placed
          · simp only [List.countP_cons, isAttached, if_true]
            omega

end

/-! ## The places -/

/-- The places are the stacked ranges, and nothing wraps. -/
theorem Stacks.places {alignment totalBlocks : Nat} (power : isPowerOfTwo alignment = true) :
    ∀ {sizes : List Nat} {layout final : Layout} {locations : List BlockLocation},
      Stacks alignment totalBlocks layout sizes locations final → layout.offset ≤ u64Max →
      layout.planned + sizes.length = totalBlocks →
      locations = (stacked alignment layout.offset sizes).map placeOf ∧
        stackEnd alignment layout.offset sizes ≤ u64Max ∧
        (sizes ≠ [] → final.finished = some (stackEnd alignment layout.offset sizes))
  | [], _, _, _, .nil _, small, _ => ⟨rfl, small, fun some => absurd rfl some⟩
  | size :: rest, layout, final, _, .cons one later, small, count => by
      simp only [planOne, bind_eq_ok, orFail_eq_ok] at one
      obtain ⟨finish, ends, one⟩ := one
      obtain ⟨rfl, endSmall⟩ := (checkedAdd_eq_some small).mp ends
      rw [List.length_cons] at count
      cases rest with
      | nil =>
          rw [List.length_nil] at count
          rw [if_pos count] at one
          cases one
          cases later
          exact ⟨rfl, endSmall, fun _ => rfl⟩
      | cons next rest =>
          rw [List.length_cons] at count
          rw [if_neg (by omega)] at one
          simp only [bind_eq_ok] at one
          obtain ⟨offset, aligns, one⟩ := one
          obtain ⟨rfl, offsetSmall⟩ := (alignUp_eq_ok power endSmall).mp aligns
          cases one
          obtain ⟨rfl, lastSmall, finished⟩ := Stacks.places power later offsetSmall
            (by rw [List.length_cons]; dsimp only; omega)
          exact ⟨rfl, lastSmall, fun _ => finished (List.cons_ne_nil _ _)⟩

/-- The sizes of the blocks of a unit, images first. -/
def UnitPlan.sizes (plan : UnitPlan) : List Nat :=
  plan.images.map blockSize ++
    (plan.metadata.filter fun entry => hasBlock entry.1).map blockSize

/-- The places of the blocks of a unit. -/
def UnitPlan.locations (plan : UnitPlan) : List BlockLocation :=
  plan.images.map (·.2.location) ++
    (plan.metadata.filter fun entry => hasBlock entry.1).map (·.2.location)

/-- Two plans of one unit, with the same prepared blocks. -/
structure UnitPlan.SameBlocks (plan other : UnitPlan) : Prop where
  images : other.images.map preparedItem = plan.images.map preparedItem
  metadata : other.metadata.map preparedItem = plan.metadata.map preparedItem

namespace UnitPlan.SameBlocks

variable {plan other third : UnitPlan}

theorem refl (plan : UnitPlan) : plan.SameBlocks plan := ⟨rfl, rfl⟩

theorem trans (first : plan.SameBlocks other) (second : other.SameBlocks third) :
    plan.SameBlocks third :=
  ⟨second.images.trans first.images, second.metadata.trans first.metadata⟩

theorem imageItems (same : plan.SameBlocks other) :
    other.images.map Prod.fst = plan.images.map Prod.fst := by
  have firsts := congrArg (List.map Prod.fst) same.images
  rw [List.map_map, List.map_map] at firsts
  exact firsts

theorem metadataItems (same : plan.SameBlocks other) :
    other.metadata.map Prod.fst = plan.metadata.map Prod.fst := by
  have firsts := congrArg (List.map Prod.fst) same.metadata
  rw [List.map_map, List.map_map] at firsts
  exact firsts

theorem imageSizes (same : plan.SameBlocks other) :
    other.images.map blockSize = plan.images.map blockSize := by
  have sizes := congrArg (List.map fun item => item.2.serializedSize) same.images
  rw [List.map_map, List.map_map] at sizes
  exact sizes

theorem metadataSizes (same : plan.SameBlocks other) :
    (other.metadata.filter fun entry => hasBlock entry.1).map blockSize =
      (plan.metadata.filter fun entry => hasBlock entry.1).map blockSize := by
  have attached := congrArg (List.filter fun item => hasBlock item.1) same.metadata
  rw [List.filter_map, List.filter_map] at attached
  have sizes := congrArg (List.map fun item => item.2.serializedSize) attached
  rw [List.map_map, List.map_map] at sizes
  exact sizes

theorem sizes (same : plan.SameBlocks other) : other.sizes = plan.sizes := by
  unfold UnitPlan.sizes
  rw [same.imageSizes, same.metadataSizes]

theorem nonempty (same : plan.SameBlocks other) (some : plan.images ≠ []) : other.images ≠ [] := by
  intro none
  have images := same.images
  rw [none, List.map_nil, eq_comm, List.map_eq_nil_iff] at images
  exact some images

end UnitPlan.SameBlocks

/-- The blocks of a plan are stacked from this offset on, and the file ends with the
last of them. -/
structure UnitPlan.Stacked (alignment firstOffset : Nat) (plan : UnitPlan) : Prop where
  locations : plan.locations = (stacked alignment firstOffset plan.sizes).map placeOf
  fileSize : plan.fileSize = stackEnd alignment firstOffset plan.sizes
  small : plan.fileSize ≤ u64Max

theorem planBlocks_stacked {alignment firstOffset : Nat} {plan planned : UnitPlan}
    (power : isPowerOfTwo alignment = true) (some : plan.images ≠ []) (small : firstOffset ≤ u64Max)
    (run : planBlocks alignment plan firstOffset = .ok planned) :
    plan.SameBlocks planned ∧ planned.Stacked alignment firstOffset := by
  simp only [planBlocks, bind_eq_ok, orFail_eq_ok] at run
  obtain ⟨⟨images, middle⟩, planImages, ⟨metadata, final⟩, planMetadata, fileSize, finished, run⟩ :=
    run
  cases run
  have imageCount : plan.images.countP (fun _ => true) = plan.images.length :=
    List.countP_eq_length.mpr fun _ _ => rfl
  have positive : 0 < plan.images.length := List.length_pos_of_ne_nil some
  have imagesPlanned := planEach_plans plan.images (.inl ⟨rfl, by dsimp only; omega⟩)
    (by rw [imageCount]; dsimp only; omega) planImages
  have count := imagesPlanned.count
  rw [imageCount] at count
  have metadataPlanned := planEach_plans plan.metadata imagesPlanned.going
    (by rw [count]; dsimp only; omega) planMetadata
  have both := imagesPlanned.placed.append metadataPlanned.placed
  rw [List.filter_true, List.filter_true] at both
  have same : plan.SameBlocks { images, metadata, fileSize } :=
    ⟨imagesPlanned.kept, metadataPlanned.kept⟩
  obtain ⟨places, endSmall, ends⟩ := both.places power small (by
    rw [List.length_append, List.length_map, List.length_map, ← List.countP_eq_length_filter]
    dsimp only
    omega)
  have nonempty : plan.sizes ≠ [] := by
    intro none
    rw [UnitPlan.sizes, List.append_eq_nil_iff, List.map_eq_nil_iff] at none
    exact some none.1
  have last := (Option.some.inj ((ends nonempty).symm.trans finished)).symm
  refine ⟨same, ⟨?_, ?_, ?_⟩⟩
  · rw [same.sizes]
    exact places
  · rw [same.sizes]
    exact last
  · show fileSize ≤ u64Max
    rw [last]
    exact endSmall

/-- These sizes are the blocks still to be placed, and there is room for them. -/
structure Layout.Room (alignment totalBlocks : Nat) (sizes : List Nat) (layout : Layout) :
    Prop where
  more : sizes ≠ [] → layout.finished = none ∧ layout.planned + sizes.length = totalBlocks ∧
    layout.offset ≤ u64Max ∧ stackEnd alignment layout.offset sizes ≤ u64Max
  last : sizes = [] → layout.finished.isSome = true

theorem planOne_room {alignment totalBlocks size : Nat} {rest : List Nat} {layout : Layout}
    (power : isPowerOfTwo alignment = true)
    (room : layout.Room alignment totalBlocks (size :: rest)) :
    ∃ location next, planOne alignment totalBlocks layout size = .ok (location, next) ∧
      next.Room alignment totalBlocks rest := by
  obtain ⟨none, count, small, fits⟩ := room.more (List.cons_ne_nil _ _)
  have inside := (@Library.stacked_within alignment layout.offset (size :: rest)
    (layout.offset, size) List.mem_cons_self).2
  have endSmall : layout.offset + size ≤ u64Max := Nat.le_trans inside fits
  have ends := (checkedAdd_eq_some small).mpr ⟨rfl, endSmall⟩
  rw [List.length_cons] at count
  simp only [planOne, bind_eq_ok, orFail_eq_ok]
  cases rest with
  | nil =>
      rw [List.length_nil] at count
      refine ⟨placeOf (layout.offset, size), { layout with
        planned := layout.planned + 1
        finished := some (layout.offset + size) }, ⟨_, ends, ?_⟩,
        ⟨fun some => absurd rfl some, fun _ => rfl⟩⟩
      rw [if_pos count]
      rfl
  | cons next rest =>
      rw [List.length_cons] at count
      have further := (@Library.stacked_within alignment (roundUp alignment (layout.offset + size))
        (next :: rest) (roundUp alignment (layout.offset + size), next) List.mem_cons_self).2
      have aligned : roundUp alignment (layout.offset + size) ≤ u64Max :=
        Nat.le_trans (Nat.le_add_right _ _) (Nat.le_trans further fits)
      refine ⟨placeOf (layout.offset, size), { layout with
        offset := roundUp alignment (layout.offset + size)
        planned := layout.planned + 1 }, ⟨_, ends, ?_⟩, ⟨fun _ => ⟨none, ?_, aligned, fits⟩,
        fun empty => absurd empty (List.cons_ne_nil _ _)⟩⟩
      · rw [if_neg (by omega), bind_eq_ok]
        exact ⟨_, (alignUp_eq_ok power endSmall).mpr ⟨rfl, aligned⟩, rfl⟩
      · rw [List.length_cons]
        dsimp only
        omega

/-- A loop over items with room for their blocks, and for more blocks after them. -/
theorem planEach_room {α : Type} {attached : α → Bool} {alignment totalBlocks : Nat}
    {more : List Nat} (power : isPowerOfTwo alignment = true) :
    ∀ (items : List (α × PlannedBlock)) {layout : Layout},
      layout.Room alignment totalBlocks
        ((items.filter fun item => attached item.1).map blockSize ++ more) →
      ∃ planned final, planEach attached alignment totalBlocks layout items =
        .ok (planned, final) ∧ final.Room alignment totalBlocks more
  | [], layout, room => ⟨[], layout, rfl, room⟩
  | (item, block) :: rest, layout, room => by
      rw [planEach]
      cases isAttached : attached item with
      | false =>
          rw [List.filter_cons_of_neg (by rw [isAttached]; exact Bool.false_ne_true)] at room
          obtain ⟨planned, final, plans, left⟩ := planEach_room power rest room
          rw [if_pos (.inr rfl), plans]
          exact ⟨_, final, rfl, left⟩
      | true =>
          simp only [List.filter_cons, isAttached, if_true, List.map_cons, List.cons_append] at room
          have going := (room.more (List.cons_ne_nil _ _)).1
          obtain ⟨location, next, one, later⟩ := planOne_room power room
          obtain ⟨planned, final, plans, left⟩ := planEach_room power rest later
          rw [if_neg (by simp [going])]
          simp only [bind_eq_ok]
          exact ⟨_, final, ⟨_, one, _, plans, rfl⟩, left⟩

/-- Blocks that have room are planned. -/
theorem planBlocks_room {alignment firstOffset : Nat} {plan : UnitPlan}
    (power : isPowerOfTwo alignment = true) (some : plan.images ≠ [])
    (fits : stackEnd alignment firstOffset plan.sizes ≤ u64Max) :
    ∃ planned, planBlocks alignment plan firstOffset = .ok planned := by
  have nonempty : plan.sizes ≠ [] := by
    intro none
    rw [UnitPlan.sizes, List.append_eq_nil_iff, List.map_eq_nil_iff] at none
    exact some none.1
  have small : firstOffset ≤ u64Max := by
    obtain ⟨size, rest, sizes⟩ := List.exists_cons_of_ne_nil nonempty
    rw [sizes] at fits
    exact Nat.le_trans (Nat.le_add_right _ _) (Nat.le_trans (Library.stacked_within
      (firstOffset, size) List.mem_cons_self).2 fits)
  have room : Layout.Room alignment
      (plan.images.length + plan.metadata.countP fun entry => hasBlock entry.1)
      ((plan.images.filter fun _ => true).map blockSize ++
        (plan.metadata.filter fun entry => hasBlock entry.1).map blockSize)
      { offset := firstOffset } := by
    rw [List.filter_true]
    refine ⟨fun _ => ⟨rfl, ?_, small, fits⟩, fun none => absurd none nonempty⟩
    rw [List.length_append, List.length_map, List.length_map, List.countP_eq_length_filter,
      Nat.zero_add]
  obtain ⟨images, middle, planImages, left⟩ :=
    @planEach_room _ (fun _ => true) _ _ _ power plan.images _ room
  rw [← List.append_nil (List.map _ _)] at left
  obtain ⟨metadata, final, planMetadata, done⟩ := planEach_room power plan.metadata left
  obtain ⟨fileSize, finished⟩ := Option.isSome_iff_exists.mp (done.last rfl)
  unfold planBlocks
  simp only [bind_eq_ok, orFail_eq_ok]
  exact ⟨_, _, planImages, _, planMetadata, fileSize, finished, rfl⟩

/-! ## The settled layout -/

/-- What the layout loop ends with: the header of its own plan, and the plan of its
own header. -/
structure SettledUnit.Agrees (platform : Platform) (options : WriterOptions)
    (settled : SettledUnit) :
    Prop where
  header : makeHeader platform options settled.plan = .ok settled.header
  offset : settled.attachmentOffset =
    roundUp options.attachmentAlignment (16 + settled.header.length)
  stacked : settled.plan.Stacked options.attachmentAlignment settled.attachmentOffset

theorem settleLayout_agrees {platform : Platform} {options : WriterOptions}
    (power : isPowerOfTwo options.attachmentAlignment = true) :
    ∀ (iterations : Nat) {offset : Nat} {plan : UnitPlan} {settled : SettledUnit},
      plan.images ≠ [] → plan.Stacked options.attachmentAlignment offset →
      settleLayout platform options iterations offset plan = .ok settled →
      plan.SameBlocks settled.plan ∧ settled.Agrees platform options
  | 0, _, _, _, _, _, run => by cases run
  | iterations + 1, offset, plan, settled, nonempty, placed, run => by
      simp only [settleLayout, bind_eq_ok, orFail_eq_ok] at run
      obtain ⟨header, made, headerEnd, ends, aligned, aligns, run⟩ := run
      obtain ⟨rfl, endSmall⟩ := (checkedAdd_eq_some (by decide)).mp ends
      obtain ⟨rfl, alignedSmall⟩ := (alignUp_eq_ok power endSmall).mp aligns
      obtain ⟨same, run⟩ | ⟨-, run⟩ := ite_eq_ok run
      · cases run
        exact ⟨.refl plan, made, same.symm, placed⟩
      · rw [bind_eq_ok] at run
        obtain ⟨next, plans, run⟩ := run
        obtain ⟨kept, nextPlaced⟩ := planBlocks_stacked power nonempty alignedSmall plans
        obtain ⟨later, agrees⟩ :=
          settleLayout_agrees power iterations (kept.nonempty nonempty) nextPlaced run
        exact ⟨kept.trans later, agrees⟩

/-- What `write_impl` knows of its layout before it writes. -/
theorem layoutUnit_agrees {platform : Platform} {options : WriterOptions} {plan : UnitPlan}
    {settled : SettledUnit} (power : isPowerOfTwo options.attachmentAlignment = true)
    (small : options.attachmentAlignment ≤ u64Max) (some : plan.images ≠ [])
    (run : layoutUnit platform options plan = .ok settled) :
    plan.SameBlocks settled.plan ∧ settled.Agrees platform options ∧
      settled.header.length ≤ options.maxHeaderBytes ∧ settled.header.length ≤
      kMaxHeaderLength := by
  simp only [layoutUnit, bind_eq_ok, reject_eq_ok, not_or, Nat.not_lt] at run
  obtain ⟨first, plans, found, settles, _, ⟨budget, length⟩, _, -, _, -, run⟩ := run
  cases run
  obtain ⟨kept, placed⟩ := planBlocks_stacked power some small plans
  obtain ⟨later, agrees⟩ :=
    settleLayout_agrees power kLayoutIterations (kept.nonempty some) placed settles
  exact ⟨kept.trans later, agrees, budget, length⟩

end Mmxisf.Writer
