/-
# LayoutRounds -- when the layout loop of a writer ends

Where the blocks of a unit start depends on the length of its header, and this on the digits
of the offsets of the blocks.  A round of the layout loop is one step on numbers, from where
the blocks start to where they start after a header with these offsets (`nextStart`).  The
step is monotone and the first start is the least, so the starts climb until one stays where
it is; if that takes more rounds than the loop has, it gives up (`layoutUnit_gives_up`).
-/
import Mathlib.Algebra.Order.BigOperators.Group.List
import Mathlib.Order.Iterate
import Mmxisf.BareHeaders
import Mmxisf.DefaultOpening

namespace Mmxisf

set_option autoImplicit false

open Library (roundUp stacked stackEnd le_roundUp roundUp_lt dvd_roundUp roundUp_mono
  le_stackEnd stackEnd_mono)
open Writer (ImageWriteView MetadataWriteEntry PlannedBlock WriterOptions UnitPlan SettledUnit
  TypedCall onePixel)

/-! ## The steps of the starts -/

section

variable {alignment : Nat}

/-- Where the blocks start after the header of a layout that starts them here; without its
offsets, but for one digit each, it has so many bytes. -/
def nextStart (alignment bareLength : Nat) (sizes : List Nat) (start : Nat) : Nat :=
  roundUp alignment (16 + bareLength + extraDigits alignment start sizes)

/-- The start of each round. -/
def roundStart (alignment bareLength : Nat) (sizes : List Nat) (round : Nat) : Nat :=
  (nextStart alignment bareLength sizes)^[round] alignment

theorem extraDigits_mono (positive : 0 < alignment) :
    ∀ (sizes : List Nat), Monotone fun start => extraDigits alignment start sizes
  | [], _, _, _ => Nat.le_refl _
  | size :: rest, start, later, le => by
      have digits := decimal_length_mono le
      have after := extraDigits_mono positive rest
        (roundUp_mono positive (Nat.add_le_add_right le size))
      simp only [extraDigits, stacked, List.map_cons, List.sum_cons] at after ⊢
      omega

theorem nextStart_mono (positive : 0 < alignment) (bareLength : Nat) (sizes : List Nat) :
    Monotone (nextStart alignment bareLength sizes) :=
  fun _ _ le => roundUp_mono positive (Nat.add_le_add_left (extraDigits_mono positive sizes le) _)

variable {bareLength : Nat} {sizes : List Nat}

theorem roundStart_succ (round : Nat) : roundStart alignment bareLength sizes (round + 1) =
    nextStart alignment bareLength sizes (roundStart alignment bareLength sizes round) :=
  Function.iterate_succ_apply' ..

theorem dvd_roundStart (positive : 0 < alignment) :
    ∀ round, alignment ∣ roundStart alignment bareLength sizes round
  | 0 => Nat.dvd_refl _
  | round + 1 => by
      rw [roundStart_succ]
      exact dvd_roundUp positive

/-- The blocks never start earlier than in the round before. -/
theorem roundStart_mono (positive : 0 < alignment) :
    Monotone (roundStart alignment bareLength sizes) := by
  refine (nextStart_mono positive bareLength sizes).monotone_iterate_of_le_map ?_
  have filled : 0 < nextStart alignment bareLength sizes alignment :=
    Nat.lt_of_lt_of_le (by omega) le_roundUp
  exact Nat.le_of_dvd filled (dvd_roundUp positive)

/-- Offsets of two digits at least. -/
theorem length_le_extraDigits {start : Nat} (least : 10 ≤ start) :
    sizes.length ≤ extraDigits alignment start sizes := by
  have each : ∀ range ∈ stacked alignment start sizes, 1 ≤ (Writer.decimal range.1).length - 1 := by
    intro range member
    have above := (Library.stacked_within range member).1
    have many : ¬ (Writer.decimal range.1).length ≤ 1 := by
      rw [decimal_length_le Nat.one_pos]
      omega
    omega
  have total := List.card_nsmul_le_sum _ 1 (List.forall_mem_map.mpr each)
  rw [List.length_map, Library.stacked_length, Nat.nsmul_eq_mul, Nat.mul_one] at total
  exact total

/-- Offsets of 64-bit numbers have 20 digits at most. -/
theorem extraDigits_le {start : Nat} (small : stackEnd alignment start sizes ≤ u64Max) :
    extraDigits alignment start sizes ≤ 19 * sizes.length := by
  have each : ∀ range ∈ stacked alignment start sizes,
      (Writer.decimal range.1).length - 1 ≤ 19 := by
    intro range member
    have below := (Library.stacked_within range member).2
    have few := (decimal_length_le (by decide : 0 < 20)).mpr (show range.1 < 10 ^ 20 by
      unfold u64Max at small
      omega)
    omega
  have total := List.sum_le_card_nsmul _ 19 (List.forall_mem_map.mpr each)
  rw [List.length_map, Library.stacked_length, Nat.nsmul_eq_mul, Nat.mul_comm] at total
  exact total

end

/-! ## The loop -/

/-- The error of a layout that did not settle in its rounds. -/
def unstableLayout : Error :=
  makeError .internalError "Writer could not stabilize its attachment layout"

/-- A step that does not end with that error. -/
def Steady {α : Type} (x : Result α) : Prop := x ≠ .error unstableLayout

section

variable {α β : Type}

theorem steady_ok (value : α) : Steady (.ok value : Result α) := nofun

theorem Steady.bind {x : Result α} {next : α → Result β} (first : Steady x)
    (rest : ∀ value, x = .ok value → Steady (next value)) : Steady (x >>= next) := by
  cases x with
  | error e => exact fun same => first (congrArg Except.error (Except.error.inj same))
  | ok value => exact rest value rfl

theorem steady_fail {code : ErrorCode} {message : String}
    (other : code ≠ .internalError ∨
      lit message ≠ lit "Writer could not stabilize its attachment layout") :
    Steady (Mmxisf.fail code (lit message) : Result α) := by
  intro same
  have same := Except.error.inj same
  rcases other with other | other
  · exact other (congrArg Error.code same)
  · exact other (congrArg Error.message same)

theorem steady_reject {bad : Prop} [Decidable bad] {code : ErrorCode} {message : String}
    (other : code ≠ .internalError) : Steady (reject bad code message) := by
  unfold reject
  split
  · exact steady_fail (.inl other)
  · exact steady_ok ()

theorem steady_orFail {value : Option α} {code : ErrorCode} {message : String}
    (other : code ≠ .internalError ∨
      lit message ≠ lit "Writer could not stabilize its attachment layout") :
    Steady (orFail value code message) := by
  cases value with
  | none => exact steady_fail other
  | some found => exact steady_ok found

theorem Steady.mapM {f : α → Result β} (each : ∀ item, Steady (f item)) :
    ∀ items : List α, Steady (items.mapM f)
  | [] => steady_ok []
  | item :: rest => by
      rw [List.mapM_cons]
      exact (each item).bind fun _ _ => (Steady.mapM each rest).bind fun _ _ => steady_ok _

theorem escapeXml_steady (text : Text) (inAttribute : Bool) :
    Steady (Writer.escapeXml text inAttribute) :=
  (steady_reject (by decide)).bind fun _ _ => steady_ok _

theorem entryXml_steady (item : MetadataWriteEntry × PlannedBlock) :
    Steady (Writer.entryXml item) := by
  unfold Writer.entryXml Writer.makeMetadataXml
  refine (escapeXml_steady _ _).bind fun _ _ => (escapeXml_steady _ _).bind fun _ _ => ?_
  split
  · exact (escapeXml_steady _ _).bind fun _ _ => steady_ok _
  · dsimp only
    split
    · split
      · exact steady_ok _
      · split
        · exact steady_fail (.inr (by decide))
        · exact (escapeXml_steady _ _).bind fun _ _ => steady_ok _
    · split
      · exact steady_ok _
      · exact steady_ok _

theorem makeHeader_steady (platform : Platform) (options : WriterOptions) (plan : UnitPlan) :
    Steady (Writer.makeHeader platform options plan) := by
  have bound (value : Double) : Steady (Writer.formatBound platform value) :=
    (steady_reject (by decide)).bind fun _ _ => steady_ok _
  have bounds (view : ImageWriteView) : Steady (Writer.boundsAttribute platform view) := by
    unfold Writer.boundsAttribute
    split
    · exact (bound _).bind fun _ _ => (bound _).bind fun _ _ => steady_ok _
    · exact steady_ok []
  have image (item) : Steady (Writer.imageXml platform plan.metadata item) :=
    (escapeXml_steady _ _).bind fun _ _ => (bounds _).bind fun _ _ =>
      (Steady.mapM entryXml_steady _).bind fun _ _ => steady_ok _
  exact (escapeXml_steady _ _).bind fun _ _ => (Steady.mapM image _).bind fun _ _ =>
    (Steady.mapM entryXml_steady _).bind fun _ _ => steady_ok _

theorem alignUp_steady (value alignment : Nat) : Steady (Writer.alignUp value alignment) := by
  unfold Writer.alignUp
  dsimp only
  split
  · exact steady_ok _
  · exact steady_orFail (.inl (by decide))

theorem planEach_steady {attached : α → Bool} {alignment totalBlocks : Nat} :
    ∀ (layout : Writer.Layout) (items : List (α × PlannedBlock)),
      Steady (Writer.planEach attached alignment totalBlocks layout items)
  | _, [] => steady_ok _
  | layout, (item, block) :: rest => by
      rw [Writer.planEach]
      split
      · exact (planEach_steady layout rest).bind fun _ _ => steady_ok _
      · have one : Steady (Writer.planOne alignment totalBlocks layout
            block.prepared.serializedSize) := by
          refine (steady_orFail (.inl (by decide))).bind fun _ _ => ?_
          dsimp only
          split
          · exact steady_ok _
          · exact (alignUp_steady _ _).bind fun _ _ => steady_ok _
        exact one.bind fun _ _ => (planEach_steady _ rest).bind fun _ _ => steady_ok _

theorem planBlocks_steady (alignment : Nat) (plan : UnitPlan) (firstOffset : Nat) :
    Steady (Writer.planBlocks alignment plan firstOffset) :=
  (planEach_steady _ _).bind fun _ _ => (planEach_steady _ _).bind fun _ _ =>
    (steady_orFail (.inr (by decide))).bind fun _ _ => steady_ok _

end

section

variable {platform : Platform} {options : WriterOptions} {original plan : UnitPlan}

/-- The length of the header without offsets, but for one digit each. -/
def bareLength (platform : Platform) (options : WriterOptions) (plan : UnitPlan) : Nat :=
  match Writer.makeHeader platform options (bareUnit plan) with
  | .ok header => header.length
  | .error _ => 0

/-- The start of the blocks of a unit in each round. -/
abbrev layoutStart (platform : Platform) (options : WriterOptions) (plan : UnitPlan)
    (round : Nat) : Nat :=
  roundStart options.attachmentAlignment (bareLength platform options plan) plan.sizes round

theorem header_length {start : Nat} {header : Text}
    (accepted : AcceptedUnit options (original.images.map Prod.fst)
      (original.metadata.map Prod.fst)) (same : original.SameBlocks plan)
    (placed : plan.Stacked options.attachmentAlignment start)
    (made : Writer.makeHeader platform options plan = .ok header) :
    header.length = bareLength platform options original +
      extraDigits options.attachmentAlignment start original.sizes := by
  rw [← same.imageItems, ← same.metadataItems] at accepted
  obtain ⟨short, isShort, length⟩ := (makeHeader_bares accepted placed).shorter made
  rw [bareUnit_same same] at isShort
  rw [bareLength, isShort, ← same.sizes]
  exact length

/-- How the loop over these rounds ends: well, in a round that leaves the start where it
is, or without settling, when every round has moved it. -/
def EndsRounds (alignment bareLength : Nat) (sizes : List Nat) (first last : Nat) :
    Result SettledUnit → Prop
  | .ok settled => ∃ round, first ≤ round ∧ round < last ∧
      roundStart alignment bareLength sizes (round + 1) =
        roundStart alignment bareLength sizes round ∧
      settled.attachmentOffset = roundStart alignment bareLength sizes round
  | .error e => e = unstableLayout →
      (∀ round, first ≤ round → round < last →
        roundStart alignment bareLength sizes (round + 1) ≠
          roundStart alignment bareLength sizes round) ∧
      stackEnd alignment (roundStart alignment bareLength sizes last) sizes ≤ u64Max

theorem EndsRounds.bind {α : Type} {alignment bareLength : Nat} {sizes : List Nat}
    {first last : Nat} {x : Result α} {next : α → Result SettledUnit} (steady : Steady x)
    (rest : ∀ value, x = .ok value →
      EndsRounds alignment bareLength sizes first last (next value)) :
    EndsRounds alignment bareLength sizes first last (x >>= next) := by
  cases x with
  | error e => exact fun same => absurd (congrArg Except.error same) steady
  | ok value => exact rest value rfl

/-- What follows the loop changes nothing. -/
theorem EndsRounds.andThen {alignment bareLength : Nat} {sizes : List Nat} {first last : Nat}
    {x : Result SettledUnit} {next : SettledUnit → Result SettledUnit}
    (ends : EndsRounds alignment bareLength sizes first last x)
    (steady : ∀ settled, Steady (next settled))
    (kept : ∀ settled found, next settled = .ok found → found = settled) :
    EndsRounds alignment bareLength sizes first last (x >>= next) := by
  cases x with
  | error e => exact ends
  | ok settled =>
      show EndsRounds alignment bareLength sizes first last (next settled)
      cases run : next settled with
      | error e =>
          exact fun same => absurd (run.trans (congrArg Except.error same)) (steady settled)
      | ok found =>
          rw [kept settled found run]
          exact ends

/-- One round, and the rounds after it. -/
theorem settleLayout_rounds (power : Writer.isPowerOfTwo options.attachmentAlignment = true)
    (some : original.images ≠ []) (accepted : AcceptedUnit options
      (original.images.map Prod.fst) (original.metadata.map Prod.fst)) :
    ∀ (iterations round : Nat) {plan : UnitPlan}, original.SameBlocks plan →
      plan.Stacked options.attachmentAlignment (layoutStart platform options original round) →
      EndsRounds options.attachmentAlignment (bareLength platform options original)
        original.sizes round (round + iterations) (Writer.settleLayout platform options iterations
          (layoutStart platform options original round) plan)
  | 0, round, plan, same, placed => by
      have small := placed.small
      rw [placed.fileSize, same.sizes] at small
      exact fun _ => ⟨fun later since before => absurd before (Nat.not_lt.mpr since), small⟩
  | iterations + 1, round, plan, same, placed => by
      rw [Writer.settleLayout]
      refine .bind (makeHeader_steady platform options plan) fun header made => ?_
      refine .bind (steady_orFail (.inl (by decide))) fun headerEnd ends => ?_
      refine .bind (alignUp_steady _ _) fun aligned aligns => ?_
      rw [orFail_eq_ok] at ends
      obtain ⟨rfl, endSmall⟩ := (checkedAdd_eq_some (by decide)).mp ends
      obtain ⟨isAligned, alignedSmall⟩ := (Writer.alignUp_eq_ok power endSmall).mp aligns
      rw [← isAligned] at alignedSmall
      have next : aligned = layoutStart platform options original (round + 1) := by
        rw [isAligned, header_length accepted same placed made, ← Nat.add_assoc]
        exact (roundStart_succ round).symm
      split
      next settles => exact ⟨round, Nat.le_refl _, by omega, next.symm.trans settles, rfl⟩
      next moves =>
        refine .bind (planBlocks_steady _ _ _) fun later plans => ?_
        obtain ⟨kept, laterPlaced⟩ := Writer.planBlocks_stacked power (same.nonempty some)
          alignedSmall plans
        rw [next] at laterPlaced moves ⊢
        have rest := settleLayout_rounds power some accepted iterations (round + 1)
          (same.trans kept) laterPlaced
        rw [show round + (iterations + 1) = round + 1 + iterations by omega]
        generalize Writer.settleLayout platform options iterations _ later = result at rest
        cases result with
        | ok settled =>
            obtain ⟨found, since, before, stays, offset⟩ := rest
            exact ⟨found, by omega, by omega, stays, offset⟩
        | error e =>
            intro unstable
            obtain ⟨later, small⟩ := rest unstable
            refine ⟨fun other since before => ?_, small⟩
            rcases Nat.eq_or_lt_of_le since with rfl | since
            · exact moves
            · exact later other since before

/-- A round that moves the blocks. -/
theorem settleLayout_next {iterations offset aligned : Nat} {plan next : UnitPlan} {header : Text}
    (made : Writer.makeHeader platform options plan = .ok header)
    (small : 16 + header.length ≤ u64Max)
    (aligns : Writer.alignUp (16 + header.length) options.attachmentAlignment = .ok aligned)
    (moves : aligned ≠ offset)
    (plans : Writer.planBlocks options.attachmentAlignment plan aligned = .ok next) :
    Writer.settleLayout platform options (iterations + 1) offset plan =
      Writer.settleLayout platform options iterations aligned next := by
  have ends : checkedAdd 16 header.length = some (16 + header.length) :=
    (checkedAdd_eq_some (by decide)).mpr ⟨rfl, small⟩
  rw [Writer.settleLayout, made]
  show (orFail (checkedAdd 16 header.length) .overflow _ >>= _) = _
  rw [ends]
  show (Writer.alignUp (16 + header.length) _ >>= _) = _
  rw [aligns]
  show (if aligned = offset then _ else _) = _
  rw [if_neg moves, plans]
  rfl

/-- Rounds that all move the blocks, to where there is room for them. -/
theorem settleLayout_moves (power : Writer.isPowerOfTwo options.attachmentAlignment = true)
    (positive : 0 < options.attachmentAlignment) (some : original.images ≠ [])
    (accepted : AcceptedUnit options (original.images.map Prod.fst)
      (original.metadata.map Prod.fst))
    (made : ∃ header, Writer.makeHeader platform options (bareUnit original) = .ok header) :
    ∀ (iterations round : Nat) {plan : UnitPlan}, original.SameBlocks plan →
      plan.Stacked options.attachmentAlignment (layoutStart platform options original round) →
      (∀ later, round ≤ later → later < round + iterations →
        layoutStart platform options original (later + 1) ≠
          layoutStart platform options original later) →
      stackEnd options.attachmentAlignment
        (layoutStart platform options original (round + iterations)) original.sizes ≤ u64Max →
      Writer.settleLayout platform options iterations (layoutStart platform options original round)
        plan = .error unstableLayout
  | 0, _, _, _, _, _, _ => rfl
  | iterations + 1, round, plan, same, placed, moves, fits => by
      have own : AcceptedUnit options (plan.images.map Prod.fst) (plan.metadata.map Prod.fst) :=
        same.imageItems.symm ▸ same.metadataItems.symm ▸ accepted
      obtain ⟨short, isShort⟩ := made
      rw [← bareUnit_same same] at isShort
      obtain ⟨header, isHeader⟩ := (makeHeader_bares own placed).made isShort
      have length := header_length accepted same placed isHeader
      have next : roundUp options.attachmentAlignment (16 + header.length) =
          layoutStart platform options original (round + 1) := by
        rw [length, ← Nat.add_assoc]
        exact (roundStart_succ round).symm
      have later : layoutStart platform options original (round + 1) ≤
          layoutStart platform options original (round + (iterations + 1)) :=
        roundStart_mono positive (by omega)
      have nextFits := Nat.le_trans (stackEnd_mono positive original.sizes later) fits
      have nextSmall : layoutStart platform options original (round + 1) ≤ u64Max :=
        Nat.le_trans le_stackEnd nextFits
      have small : 16 + header.length ≤ u64Max :=
        Nat.le_trans le_roundUp (Nat.le_trans (Nat.le_of_eq next) nextSmall)
      have room : stackEnd options.attachmentAlignment
          (layoutStart platform options original (round + 1)) plan.sizes ≤ u64Max := by
        rw [same.sizes]
        exact nextFits
      obtain ⟨planned, plans⟩ := Writer.planBlocks_room power (same.nonempty some) room
      obtain ⟨kept, plannedPlaced⟩ := Writer.planBlocks_stacked power (same.nonempty some)
        nextSmall plans
      rw [settleLayout_next isHeader small
        ((Writer.alignUp_eq_ok power small).mpr ⟨next.symm, next.symm ▸ nextSmall⟩)
        (moves round (Nat.le_refl _) (by omega)) plans]
      rw [show round + (iterations + 1) = round + 1 + iterations by omega] at moves fits
      exact settleLayout_moves power positive some accepted ⟨short, bareUnit_same same ▸ isShort⟩
        iterations (round + 1) (same.trans kept) plannedPlaced
        (fun other since before => moves other (by omega) before) fits

end

/-! ## The layout of a unit -/

/-- Starts that move four times move by more than the digits of a few offsets. -/
theorem rounds_digits {alignment bareLength : Nat} {sizes : List Nat} (least : 16 ≤ alignment)
    (moves : ∀ round < 4, roundStart alignment bareLength sizes round <
      roundStart alignment bareLength sizes (round + 1))
    (small : stackEnd alignment (roundStart alignment bareLength sizes 3) sizes ≤ u64Max) :
    alignment < 9 * sizes.length := by
  have positive : 0 < alignment := by omega
  have step {round : Nat} (below : round < 4) : roundStart alignment bareLength sizes round +
      alignment ≤ roundStart alignment bareLength sizes (round + 1) := by
    have between := Nat.le_of_dvd (Nat.sub_pos_of_lt (moves round below))
      (Nat.dvd_sub (dvd_roundStart positive _) (dvd_roundStart positive _))
    have moved := moves round below
    omega
  have second : _ ≤ roundStart alignment bareLength sizes 2 := @step 1 (by decide)
  have third : _ ≤ roundStart alignment bareLength sizes 3 := @step 2 (by decide)
  have fourth : _ ≤ roundStart alignment bareLength sizes 4 := @step 3 (by decide)
  have first : 16 + bareLength + extraDigits alignment alignment sizes ≤
      roundStart alignment bareLength sizes 1 := le_roundUp
  have last : roundStart alignment bareLength sizes 4 < 16 + bareLength +
      extraDigits alignment (roundStart alignment bareLength sizes 3) sizes + alignment := by
    rw [roundStart_succ]
    exact roundUp_lt positive
  have low := @length_le_extraDigits alignment sizes alignment (by omega)
  have high := extraDigits_le small
  omega

section

variable {platform : Platform} {call : TypedCall} {total : Nat} {plan : UnitPlan}

/-- The layout of the blocks of a call, whatever was prepared for them. -/
theorem layoutUnit_rounds
    (checked : Writer.checkUnit call.call.options call.call.images call.call.metadata = .ok total)
    (images : plan.images.map Prod.fst = call.call.images)
    (metadata : plan.metadata.map Prod.fst = call.call.metadata) :
    EndsRounds call.call.options.attachmentAlignment
      (bareLength platform call.call.options plan) plan.sizes 0 Writer.kLayoutIterations
      (Writer.layoutUnit platform call.call.options plan) := by
  have accepted : AcceptedUnit call.call.options (plan.images.map Prod.fst)
      (plan.metadata.map Prod.fst) := images ▸ metadata ▸ acceptedUnit_of_run checked
  obtain ⟨-, nonempty, power⟩ := Writer.checkUnit_within call.typed checked
  have some : plan.images ≠ [] := fun none => nonempty (by rw [← images, none]; rfl)
  refine .bind (planBlocks_steady _ _ _) fun first plans => ?_
  obtain ⟨same, placed⟩ :=
    Writer.planBlocks_stacked power some call.typed.attachmentAlignment plans
  refine (settleLayout_rounds power some accepted _ 0 same placed).andThen
    (fun settled => ?_) fun settled found run => ?_
  · exact (steady_reject (by decide)).bind fun _ _ => (steady_orFail (.inl (by decide))).bind
      fun _ _ => (steady_reject (by decide)).bind fun _ _ => steady_ok settled
  · simp only [bind_eq_ok] at run
    obtain ⟨_, -, _, -, _, -, same⟩ := run
    cases same
    rfl

/-- The loop gives up exactly when its header is made, its four rounds all move the blocks,
and there is room where the last one moves them. -/
theorem layoutUnit_gives_up
    (checked : Writer.checkUnit call.call.options call.call.images call.call.metadata = .ok total)
    (images : plan.images.map Prod.fst = call.call.images)
    (metadata : plan.metadata.map Prod.fst = call.call.metadata) :
    Writer.layoutUnit platform call.call.options plan = .error unstableLayout ↔
      (∃ header, Writer.makeHeader platform call.call.options (bareUnit plan) = .ok header) ∧
      (∀ round < Writer.kLayoutIterations, layoutStart platform call.call.options plan round <
        layoutStart platform call.call.options plan (round + 1)) ∧
      stackEnd call.call.options.attachmentAlignment
        (layoutStart platform call.call.options plan Writer.kLayoutIterations) plan.sizes ≤
          u64Max := by
  have accepted : AcceptedUnit call.call.options (plan.images.map Prod.fst)
      (plan.metadata.map Prod.fst) := images ▸ metadata ▸ acceptedUnit_of_run checked
  obtain ⟨-, nonempty, power⟩ := Writer.checkUnit_within call.typed checked
  have some : plan.images ≠ [] := fun none => nonempty (by rw [← images, none]; rfl)
  have least := Writer.checkUnit_alignment checked
  have positive : 0 < call.call.options.attachmentAlignment := by omega
  constructor
  · intro stops
    have ends := @layoutUnit_rounds platform call total plan checked images metadata
    rw [stops] at ends
    obtain ⟨moves, small⟩ := ends rfl
    refine ⟨?_, fun round below => Nat.lt_of_le_of_ne
      (roundStart_mono positive (Nat.le_succ round)) (moves round (Nat.zero_le _) below).symm,
      small⟩
    cases bare : Writer.makeHeader platform call.call.options (bareUnit plan) with
    | ok header => exact ⟨header, rfl⟩
    | error e =>
        -- without a header the first round ends with another error
        have steady : Steady (Writer.layoutUnit platform call.call.options plan) := by
          refine (planBlocks_steady _ _ _).bind fun first plans => ?_
          obtain ⟨same, placed⟩ :=
            Writer.planBlocks_stacked power some call.typed.attachmentAlignment plans
          have own : AcceptedUnit call.call.options (first.images.map Prod.fst)
              (first.metadata.map Prod.fst) :=
            same.imageItems.symm ▸ same.metadataItems.symm ▸ accepted
          refine Steady.bind ?_ fun settled _ => (steady_reject (by decide)).bind fun _ _ =>
            (steady_orFail (.inl (by decide))).bind fun _ _ => (steady_reject (by decide)).bind
              fun _ _ => steady_ok settled
          refine (makeHeader_steady platform _ first).bind fun header made => ?_
          obtain ⟨short, isShort, -⟩ := (makeHeader_bares own placed).shorter made
          rw [bareUnit_same same, bare] at isShort
          cases isShort
        exact absurd stops steady
  · rintro ⟨made, moves, small⟩
    have startSmall : layoutStart platform call.call.options plan 0 ≤
        layoutStart platform call.call.options plan Writer.kLayoutIterations :=
      roundStart_mono positive (Nat.zero_le _)
    obtain ⟨first, plans⟩ : ∃ first, Writer.planBlocks call.call.options.attachmentAlignment plan
        call.call.options.attachmentAlignment = .ok first :=
      Writer.planBlocks_room power some
        (Nat.le_trans (stackEnd_mono positive plan.sizes startSmall) small)
    obtain ⟨same, placed⟩ :=
      Writer.planBlocks_stacked power some call.typed.attachmentAlignment plans
    have loops := settleLayout_moves power positive some accepted made Writer.kLayoutIterations 0
      same placed (fun later _ before => (moves later (by omega)).ne') (by
        rw [Nat.zero_add]
        exact small)
    have start : layoutStart platform call.call.options plan 0 =
        call.call.options.attachmentAlignment := rfl
    rw [start] at loops
    rw [Writer.layoutUnit, plans]
    show (Writer.settleLayout platform call.call.options Writer.kLayoutIterations _ first >>= _) = _
    rw [loops]
    rfl

end

/-- How the layout of a unit ends: where a round leaves the start of the blocks where it
is, and without settling only when none does. -/
structure LayoutSettles (platform : Platform) (options : WriterOptions) (plan : UnitPlan) :
    Prop where
  /-- Of the header, a layout changes nothing but the digits of its offsets. -/
  header : ∀ {other planned : UnitPlan} {start : Nat} {header : Text}, plan.SameBlocks other →
    start ≤ u64Max → Writer.planBlocks options.attachmentAlignment other start = .ok planned →
    Writer.makeHeader platform options planned = .ok header →
    header.length = bareLength platform options plan +
      extraDigits options.attachmentAlignment start plan.sizes
  forward : Monotone (layoutStart platform options plan)
  settles : ∀ {settled : SettledUnit}, Writer.layoutUnit platform options plan = .ok settled →
    (∃ round < Writer.kLayoutIterations,
      layoutStart platform options plan (round + 1) = layoutStart platform options plan round ∧
      settled.attachmentOffset = layoutStart platform options plan round) ∧
    settled.attachmentOffset =
      roundUp options.attachmentAlignment (16 + settled.header.length)
  givesUp : Writer.layoutUnit platform options plan = .error unstableLayout ↔
    (∃ header, Writer.makeHeader platform options (bareUnit plan) = .ok header) ∧
    (∀ round < Writer.kLayoutIterations,
      layoutStart platform options plan round < layoutStart platform options plan (round + 1)) ∧
    stackEnd options.attachmentAlignment
      (layoutStart platform options plan Writer.kLayoutIterations) plan.sizes ≤ u64Max
  few : 9 * plan.sizes.length ≤ options.attachmentAlignment →
    Writer.layoutUnit platform options plan ≠ .error unstableLayout

theorem layoutSettles (platform : Platform) (call : TypedCall) (total : Nat) (plan : UnitPlan)
    (checked : Writer.checkUnit call.call.options call.call.images call.call.metadata = .ok total)
    (images : plan.images.map Prod.fst = call.call.images)
    (metadata : plan.metadata.map Prod.fst = call.call.metadata) :
    LayoutSettles platform call.call.options plan := by
  have accepted : AcceptedUnit call.call.options (plan.images.map Prod.fst)
      (plan.metadata.map Prod.fst) := images ▸ metadata ▸ acceptedUnit_of_run checked
  obtain ⟨-, nonempty, power⟩ := Writer.checkUnit_within call.typed checked
  have some : plan.images ≠ [] := fun none => nonempty (by rw [← images, none]; rfl)
  have least := Writer.checkUnit_alignment checked
  have positive : 0 < call.call.options.attachmentAlignment := by omega
  have ends := @layoutUnit_rounds platform call total plan checked images metadata
  have givesUp := @layoutUnit_gives_up platform call total plan checked images metadata
  constructor
  · intro other planned start header same small plans made
    obtain ⟨kept, placed⟩ := Writer.planBlocks_stacked power (same.nonempty some) small plans
    exact header_length accepted (same.trans kept) placed made
  · exact roundStart_mono positive
  · intro settled settles
    rw [settles] at ends
    obtain ⟨round, -, below, stays, offset⟩ := ends
    obtain ⟨-, agrees, -⟩ := Writer.layoutUnit_agrees power call.typed.attachmentAlignment some
      settles
    exact ⟨⟨round, below, stays, offset⟩, agrees.offset⟩
  · exact givesUp
  · intro few stops
    obtain ⟨-, moves, small⟩ := givesUp.mp stops
    have before : layoutStart platform call.call.options plan 3 ≤
        layoutStart platform call.call.options plan Writer.kLayoutIterations :=
      roundStart_mono positive (by decide)
    have many := rounds_digits least moves
      (Nat.le_trans (stackEnd_mono positive plan.sizes before) small)
    omega

theorem onePixel_settles : LayoutSettles referencePlatform onePixel.call.options
    (Writer.plainPlan onePixel.call) :=
  layoutSettles referencePlatform onePixel 1 (Writer.plainPlan onePixel.call) (by decide) rfl rfl

/-! ## A layout that does not settle -/

section

variable {platform : Platform} {options : WriterOptions} {creator : Text}

/-- The name of the creator is one text of the header. -/
theorem makeHeader_creator {plan : UnitPlan} {short : Text}
    (plain : creator.flatMap (Writer.escapeCharacter false) = creator)
    (legal : Writer.isValidXmlUtf8 creator = true)
    (made : Writer.makeHeader platform { options with creatorApplication := [] } plan =
      .ok short) :
    ∃ header, Writer.makeHeader platform { options with creatorApplication := creator } plan =
        .ok header ∧ header.length = short.length + creator.length := by
  have escapes : Writer.escapeXml creator false = .ok creator := by
    unfold Writer.escapeXml
    rw [legal, plain]
    rfl
  simp only [Writer.makeHeader, bind_eq_ok] at made ⊢
  obtain ⟨_, none, images, areImages, entries, areEntries, same⟩ := made
  cases none
  cases same
  refine ⟨_, ⟨creator, escapes, images, areImages, entries, areEntries, rfl⟩, ?_⟩
  simp only [List.length_append, List.flatMap_nil, List.length_nil]
  omega

theorem checkUnit_creator {other : Text} {images : List ImageWriteView}
    {metadata : List MetadataWriteEntry} {total : Nat} (some : creator ≠ [])
    (within : creator.length ≤ options.maxMetadataValueBytes)
    (checked : Writer.checkUnit { options with creatorApplication := other } images metadata =
      .ok total) :
    Writer.checkUnit { options with creatorApplication := creator } images metadata =
      .ok total := by
  simp only [Writer.checkUnit, bind_eq_ok, reject_eq_ok] at checked ⊢
  obtain ⟨a, nonempty, b, count, c, entries, d, power, e, chunk, f, chunks, g, time, -, -, -, -,
    rest⟩ := checked
  exact ⟨a, nonempty, b, count, c, entries, d, power, e, chunk, f, chunks, g, time, (), some, (),
    Nat.not_lt.mpr within, rest⟩

end

/-- The options for a creator of this name. -/
def crowdedOptions (creator : Text) : WriterOptions :=
  { onePixel.call.options with creatorApplication := creator }

/-- One pixel and 105 vectors of one byte, at the smallest alignment. -/
def crowdedCall (creator : Text) : Writer.WriteCall :=
  { onePixel.call with
    destinationOrScratch := []
    writesFile := false
    metadata := (List.range 105).map oneByte
    options := crowdedOptions creator }

/-- A name of a length for which no round is the last. -/
@[irreducible] def longName : Text := List.replicate 91178 (ch 'x')

theorem longName_length : longName.length = 91178 := by
  unfold longName
  exact List.length_replicate

theorem longName_tidy : Tidy longName := by
  unfold longName
  exact tidy_iff.mpr fun c member => by
    rw [List.eq_of_mem_replicate member]
    decide

def crowded : TypedCall where
  call := crowdedCall longName
  typed := by constructor <;> decide

theorem crowded_plain : Writer.PlainCall crowded.call where
  external := Bool.false_ne_true
  checked := by
    have checks : (Writer.checkUnit (crowdedOptions (lit "x")) crowded.call.images
        crowded.call.metadata).isOk = true := by
      decide +kernel
    refine ⟨_, checkUnit_creator ?_ ?_ (Reader.valueOf_eq _ checks)⟩
    · intro none
      have length := longName_length
      rw [none] at length
      cases length
    · rw [longName_length]
      decide
  images := by
    intro image member
    rw [List.mem_singleton.mp member]
    exact ⟨rfl, rfl, by decide⟩
  entries := by
    intro entry member _
    obtain ⟨index, -, rfl⟩ := List.mem_map.mp member
    exact ⟨⟨_, rfl⟩, rfl, rfl, show 1 ≤ 256 * 1024 * 1024 by decide⟩
  imageTotal := by decide
  entryTotal := by decide +kernel

/-- The plan of its blocks, which the name is no part of. -/
def crowdedPlan : UnitPlan := Writer.plainPlan (crowdedCall [])

theorem crowdedPlan_eq (creator : Text) :
    Writer.plainPlan (crowdedCall creator) = crowdedPlan := rfl

theorem plainPlan_metadata (call : Writer.WriteCall) :
    (Writer.plainPlan call).metadata.map Prod.fst = call.metadata := by
  rw [Writer.plainPlan, List.map_map]
  exact List.map_id _

theorem crowdedPlan_sizes : crowdedPlan.sizes = List.replicate 106 1 := by
  decide +kernel

/-- The header without offsets, but for the name. -/
theorem crowded_bare : ((Writer.makeHeader referencePlatform (crowdedOptions [])
    (bareUnit crowdedPlan)).map List.length).toOption = some 8172 := by
  decide +kernel

theorem crowded_header :
    ∃ header, Writer.makeHeader referencePlatform (crowdedOptions longName) (bareUnit crowdedPlan) =
      .ok header ∧ header.length = 99350 := by
  have plain : longName.flatMap (Writer.escapeCharacter false) = longName := by
    rw [List.flatMap_congr fun c member => Writer.escapeCharacter_of_not
      (isTidy_parts (tidy_iff.mp longName_tidy c member)).2]
    exact List.flatMap_singleton' longName
  have bare := crowded_bare
  cases made : Writer.makeHeader referencePlatform (crowdedOptions []) (bareUnit crowdedPlan) with
  | error e =>
      rw [made] at bare
      cases bare
  | ok short =>
      rw [made] at bare
      obtain ⟨header, isHeader, length⟩ := makeHeader_creator plain longName_tidy.legal made
      rw [longName_length, show short.length = 8172 from Option.some.inj bare] at length
      exact ⟨header, isHeader, length⟩

theorem extraDigits_eq (alignment start : Nat) (sizes : List Nat) :
    extraDigits alignment start sizes =
      ((stacked alignment start sizes).map fun range =>
        (Nat.toDigits 10 range.1).length - 1).sum := by
  simp only [extraDigits, decimal_length]

/-- Where the blocks start in its rounds. -/
theorem crowded_starts :
    nextStart 16 99350 (List.replicate 106 1) 16 = 99616 ∧
      nextStart 16 99350 (List.replicate 106 1) 99616 = 99872 ∧
      nextStart 16 99350 (List.replicate 106 1) 99872 = 99888 ∧
      nextStart 16 99350 (List.replicate 106 1) 99888 = 99904 := by
  simp only [nextStart, extraDigits_eq]
  decide +kernel

theorem crowded_layout :
    Writer.layoutUnit referencePlatform crowded.call.options (Writer.plainPlan crowded.call) =
      .error unstableLayout := by
  obtain ⟨total, checked⟩ := crowded_plain.checked
  obtain ⟨header, isHeader, length⟩ := crowded_header
  have images : crowdedPlan.images.map Prod.fst = crowded.call.images := rfl
  have metadata : crowdedPlan.metadata.map Prod.fst = crowded.call.metadata :=
    plainPlan_metadata (crowdedCall [])
  have bare : bareLength referencePlatform crowded.call.options crowdedPlan = 99350 := by
    rw [bareLength, show Writer.makeHeader referencePlatform crowded.call.options _ = _ from
      isHeader]
    exact length
  have start (round : Nat) : layoutStart referencePlatform crowded.call.options crowdedPlan round =
      roundStart 16 99350 (List.replicate 106 1) round := by
    rw [layoutStart, bare, crowdedPlan_sizes]
    rfl
  obtain ⟨toSecond, toThird, toFourth, toLast⟩ := crowded_starts
  have first : roundStart 16 99350 (List.replicate 106 1) 0 = 16 := rfl
  have second : roundStart 16 99350 (List.replicate 106 1) 1 = 99616 := by
    rw [roundStart_succ, first, toSecond]
  have third : roundStart 16 99350 (List.replicate 106 1) 2 = 99872 := by
    rw [roundStart_succ, second, toThird]
  have fourth : roundStart 16 99350 (List.replicate 106 1) 3 = 99888 := by
    rw [roundStart_succ, third, toFourth]
  have last : roundStart 16 99350 (List.replicate 106 1) 4 = 99904 := by
    rw [roundStart_succ, fourth, toLast]
  rw [show Writer.plainPlan crowded.call = crowdedPlan from crowdedPlan_eq longName]
  refine (layoutUnit_gives_up checked images metadata).mpr ⟨⟨header, isHeader⟩, ?_, ?_⟩
  · intro round below
    rw [start, start]
    have cases : round = 0 ∨ round = 1 ∨ round = 2 ∨ round = 3 := by
      simp only [Writer.kLayoutIterations] at below
      omega
    rcases cases with rfl | rfl | rfl | rfl
    · rw [first, second]
      decide
    · rw [second, third]
      decide
    · rw [third, fourth]
      decide
    · rw [fourth, last]
      decide
  · rw [start, crowdedPlan_sizes, show Writer.kLayoutIterations = 4 from rfl, last]
    decide +kernel

/-- The preparation of a call with default budgets may end without a layout. -/
theorem crowded_unsettled : ¬ ∀ (platform : Platform) (codecs : Writer.Codecs) (call : TypedCall),
    Library.Routine.wp (Writer.ofCall codecs Writer.Ordinary (call.call.goal platform codecs))
      (Writer.prepareUnit platform call.call)
      (fun result _ _ => result ≠ .error unstableLayout) {} {} := by
  intro settles
  have prepares : Writer.CanGive storingCodecs Writer.Ordinary
      (crowded.call.goal referencePlatform storingCodecs)
      (Writer.prepareUnit referencePlatform crowded.call) (.error unstableLayout) :=
    crowded_layout ▸ Writer.prepareUnit_plain crowded.typed crowded_plain
  obtain ⟨result, m, s, run, isError, -⟩ := Library.Routine.may_iff_run.mp (prepares {})
  exact Library.Routine.run_of_wp (settles referencePlatform storingCodecs crowded) run isError

end Mmxisf
