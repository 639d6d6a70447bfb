/-
# Reader.PlanLimits -- a plan under other limits

A block that can be planned under some limits can be planned under any others that its
plan fits: its sizes, its ratio, its subblocks, and for an image its channels and samples
(`ImageReadPlan.Within`, `PropertyReadPlan.Within`).  Of an image's plan the number of samples
is within the limit in every case.
-/
import Mmxisf.Reader.PlanFacts

namespace Mmxisf.Reader

set_option autoImplicit false

/-- The limits that the plan of a block is held to. -/
structure CompressionPlan.Within (plan : CompressionPlan) (serializedBytes : Nat)
    (options : ReaderOptions) (maxSerializedBytes maxDecodedBytes : Nat) : Prop where
  serialized : serializedBytes ≤ maxSerializedBytes
  decoded : plan.uncompressedSize ≤ maxDecodedBytes
  ratio : plan.codec ≠ .none → plan.uncompressedSize ≤
    (checkedMultiply serializedBytes options.maxDecompressionRatio).getD u64Max
  subblocks : plan.subblocks.length ≤ options.maxCompressedSubblocks

section

variable {options other : ReaderOptions}

/-- Subblocks that are few enough. -/
theorem parseSubblocks_within : ∀ {pairs : List Text} {count compressed uncompressed : Nat}
    {subblocks : List CompressionSubblock} {totals : Nat × Nat},
    parseSubblocks options count compressed uncompressed pairs = .ok (subblocks, totals) →
    count + subblocks.length ≤ other.maxCompressedSubblocks →
    parseSubblocks other count compressed uncompressed pairs = .ok (subblocks, totals)
  | [], _, _, _, _, _, run, _ => run
  | pair :: rest, count, compressed, uncompressed, subblocks, totals, run, few => by
      simp only [parseSubblocks, bind_eq_ok, orFail_eq_ok, reject_eq_ok, pure, Except.pure,
        Except.ok.injEq, Prod.mk.injEq] at run ⊢
      obtain ⟨_, -, subblock, parsed, nextCompressed, sum, nextUncompressed, sumBefore,
        ⟨later, totals⟩, run, rfl, rfl⟩ := run
      rw [List.length_cons] at few
      dsimp only at few
      exact ⟨(), by omega, subblock, parsed, nextCompressed, sum, nextUncompressed, sumBefore,
        (later, totals), parseSubblocks_within run (by omega), rfl, rfl⟩

variable {compression subblocks : Text} {serializedBytes itemSize : Nat}
  {expectedBytes : Option Nat} {maxSerializedBytes maxDecodedBytes otherSerialized
    otherDecoded : Nat}
  {plan : CompressionPlan}

theorem parseCompressionPlan_within
    (run : parseCompressionPlan compression subblocks serializedBytes expectedBytes options itemSize
      maxSerializedBytes maxDecodedBytes = .ok plan)
    (within : plan.Within serializedBytes other otherSerialized otherDecoded) :
    ∃ planned, parseCompressionPlan compression subblocks serializedBytes expectedBytes other
      itemSize otherSerialized otherDecoded = .ok planned := by
  obtain ⟨serialized, decoded, ratio, few⟩ := within
  simp only [parseCompressionPlan, bind_eq_ok, reject_eq_ok, Nat.not_lt] at run ⊢
  obtain ⟨_, -, _, small, run⟩ := run
  obtain ⟨none, run⟩ | ⟨some, run⟩ := ite_eq_ok run
  · simp only [parseUncompressedPlan, bind_eq_ok, reject_eq_ok, pure, Except.pure,
      Except.ok.injEq, Nat.not_lt] at run
    obtain ⟨_, noSubblocks, _, expected, _, -, rfl⟩ := run
    rw [if_pos none]
    simp only [parseUncompressedPlan, bind_eq_ok, reject_eq_ok, pure, Except.pure,
      Except.ok.injEq, Nat.not_lt]
    exact ⟨_, (), serialized, (), small, (), noSubblocks, (), expected, (), decoded, rfl⟩
  · simp only [bind_eq_ok, orFail_eq_ok, reject_eq_ok, pure, Except.pure, not_or,
      Nat.not_lt] at run
    obtain ⟨_, three, ⟨codec, byteShuffled⟩, named, _, count, uncompressedSize, sized, _, expected,
      item, declared, _, nonempty, _, -, _, ⟨-, addressable⟩, run⟩ := run
    have coded : codec ≠ .none := compressionCodec_ne_none named
    rw [if_neg some]
    simp only [bind_eq_ok, orFail_eq_ok, reject_eq_ok, pure, Except.pure, not_or, Nat.not_lt]
    obtain ⟨single, run⟩ | ⟨several, run⟩ := ite_eq_ok run
    · rw [Except.ok.injEq] at run
      subst run
      exact ⟨_, (), serialized, (), small, (), three, _, named, (), count, _, sized, (), expected,
        _, declared, (), nonempty, (), ratio coded, (), ⟨decoded, addressable⟩, if_pos single⟩
    · simp only [bind_eq_ok, reject_eq_ok, Except.ok.injEq] at run
      obtain ⟨⟨parsed, totals⟩, subblocksParsed, _, same, rfl⟩ := run
      have parsed := @parseSubblocks_within _ other _ _ _ _ _ _ subblocksParsed
        ((Nat.zero_add _).le.trans few)
      exact ⟨_, (), serialized, (), small, (), three, _, named, (), count, _, sized, (), expected,
        _, declared, (), nonempty, (), ratio coded, (), ⟨decoded, addressable⟩,
        (if_neg several).trans (bind_eq_ok.mpr ⟨_, parsed,
          bind_eq_ok.mpr ⟨(), reject_eq_ok.mpr same, rfl⟩⟩)⟩

end

/-! ## Images -/

/-- The limits that the plan of an image is held to. -/
structure ImageReadPlan.Within (plan : ImageReadPlan) (options : ReaderOptions) : Prop where
  channels : plan.channels ≤ options.maxDecodedChannels
  samples : plan.sampleCount ≤ options.maxSamplesPerImage
  bytes : plan.expectedBytes ≤ options.maxDecodedImageBytes
  compression : plan.compression.Within plan.serializedBytes options
    options.maxSerializedImageBytes options.maxDecodedImageBytes

/-- The limits that the plan of a block Property is held to. -/
abbrev PropertyReadPlan.Within (plan : PropertyReadPlan) (options : ReaderOptions) : Prop :=
  plan.compression.Within plan.serializedBytes options options.maxSerializedPropertyBytes
    options.maxDecodedPropertyBytes

section

variable {document : Document} {options other : ReaderOptions} {blocks : List Bytes} {index : Nat}

theorem planImageRead_within {plan : ImageReadPlan}
    (run : planImageRead document options blocks index = .ok plan) (within : plan.Within other) :
    ∃ planned, planImageRead document other blocks index = .ok planned := by
  obtain ⟨channels, samples, bytes, compression⟩ := within
  unfold planImageRead at run ⊢
  cases there : document.images[index]? with
  | none =>
      rw [there] at run
      cases run
  | some image =>
      rw [there] at run
      simp only [planImageBlock, bind_eq_ok, orFail_eq_ok, reject_eq_ok, pure, Except.pure,
        Except.ok.injEq, not_or, Nat.not_lt] at run ⊢
      obtain ⟨_, kind, _, three, _, space, sampleSize, sample, componentSize, component, _, -,
        ⟨sampleCount, expectedBytes⟩, extent, _, -, _, ⟨-, addressable⟩, coding, parsed, checksum,
        digest, _, inside, rfl⟩ := run
      obtain ⟨planned, parsed⟩ := parseCompressionPlan_within parsed compression
      exact ⟨_, (), kind, (), three, (), space, _, sample, _, component, (), channels, _, extent,
        (), samples, (), ⟨bytes, addressable⟩, planned, parsed, checksum, digest, (), inside, rfl⟩

/-- An image that is planned has samples within the limit. -/
theorem planImageRead_samples {plan : ImageReadPlan}
    (run : planImageRead document options blocks index = .ok plan) :
    plan.sampleCount ≤ options.maxSamplesPerImage := by
  unfold planImageRead at run
  split at run
  · cases run
  · simp only [planImageBlock, bind_eq_ok, orFail_eq_ok, reject_eq_ok, pure, Except.pure,
      Except.ok.injEq, Nat.not_lt] at run
    obtain ⟨_, -, _, -, _, -, _, -, _, -, _, -, _, -, _, samples, _, -, _, -, _, -, _, -,
      rfl⟩ := run
    exact samples

theorem planPropertyRead_within {plan : PropertyReadPlan}
    (run : planPropertyRead document options blocks index = .ok plan)
    (within : plan.Within other) :
    ∃ planned, planPropertyRead document other blocks index = .ok planned := by
  unfold planPropertyRead at run ⊢
  cases there : document.metadata[index]? with
  | none =>
      rw [there] at run
      cases run
  | some property =>
      rw [there] at run
      simp only [bind_eq_ok, orFail_eq_ok, reject_eq_ok, pure, Except.pure,
        Except.ok.injEq] at run ⊢
      obtain ⟨_, isBlock, _, kind, layout, known, typed, extent, ⟨inlineBlock, serializedBytes⟩,
        located, coding, parsed, checksum, digest, rfl⟩ := run
      obtain ⟨planned, parsed⟩ := parseCompressionPlan_within parsed within
      exact ⟨_, (), isBlock, (), kind, layout, known, typed, extent, _, located, planned, parsed,
        checksum, digest, rfl⟩

end

end Mmxisf.Reader
