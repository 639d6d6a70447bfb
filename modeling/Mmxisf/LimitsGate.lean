/-
# LimitsGate -- limits only gate

Opening a unit with tighter limits is opening it with looser ones, except that a limit
may stop it: then the error is `resource_limit` or `header_too_large`.  The header
checks are gated one by one (`Tighter.parseHeader`); here the preamble and the gaps
are, and with them the whole of `open_source` over a source that keeps its bytes.
-/
import Mmxisf.Reader.Limits
import Mmxisf.Reader.Opening

namespace Mmxisf.Reader

set_option autoImplicit false

open Library.Routine (EndsWith)

/-! ## Pairs of limits -/

/-- Two sets of limits, each limit of the first at most that of the second. -/
structure LimitPair where
  low : ReaderOptions
  high : ReaderOptions
  tighter : Tighter low high

example : LimitPair := ⟨{ maxImages := 1 }, {}, by constructor <;> decide⟩

/-- How a unit that opens under the looser limits opens under the tighter ones, and
the other way round. -/
structure OnlyGates (tight loose : Result Impl) : Prop where
  lowered : ∀ impl, loose = .ok impl →
    (∃ impl', tight = .ok impl' ∧ impl'.contents = impl.contents) ∨
      ∃ e, tight = .error e ∧ IsLimit e
  raised : ∀ impl, tight = .ok impl → ∃ impl', loose = .ok impl' ∧ impl'.contents = impl.contents
  otherwise : ∀ e, tight = .error e → ¬ IsLimit e → loose = .error e

/-! ## The checks of a file -/

section

variable {low high : ReaderOptions}

namespace Tighter

theorem checkPreamble (tighter : Tighter low high) (size : Nat) (preamble : Bytes) :
    Gated (checkPreamble low size preamble) (checkPreamble high size preamble) := by
  unfold Reader.checkPreamble
  refine .after (fun _ => .after (fun _ => ?_) _) _
  refine .bind ?_ fun _ => .refl _
  have within := tighter.maxHeaderBytes
  by_cases beyond : readLeU32 (preamble.drop 8) = 0 ∨
      readLeU32 (preamble.drop 8) > low.maxHeaderBytes
  · rw [reject, if_pos beyond]
    exact .stopped (.inr rfl)
  · rw [reject, reject, if_neg beyond, if_neg (by omega)]
    exact .refl _

theorem gapOf (tighter : Tighter low high) (file : Bytes) (validated offset size : Nat) :
    Gated (gapOf low file validated offset size) (gapOf high file validated offset size) := by
  unfold Reader.gapOf
  exact .bind (gated_available tighter.maxUnusedSpaceBytes ..) fun _ => .refl _

theorem gapsOf (tighter : Tighter low high) (file : Bytes) (cursor validated : Nat)
    (ranges : List AttachedRange) :
    Gated (gapsOf low file cursor validated ranges) (gapsOf high file cursor validated ranges) := by
  induction ranges generalizing cursor validated with
  | nil => exact .refl _
  | cons range rest ih =>
      rw [Reader.gapsOf, Reader.gapsOf]
      refine .bind ?_ fun _ => ih _ _
      exact .ite (fun _ => tighter.gapOf ..) fun _ => .refl _

theorem unusedOf (tighter : Tighter low high) (file : Bytes) (headerEnd : Nat)
    (ranges : List AttachedRange) :
    Gated (unusedOf low file headerEnd ranges) (unusedOf high file headerEnd ranges) := by
  unfold Reader.unusedOf
  refine .bind (tighter.gapsOf ..) fun last => ?_
  obtain ⟨cursor, validated⟩ := last
  refine .ite (fun _ => ?_) fun _ => .refl _
  exact .bind (tighter.gapOf ..) fun _ => .refl _

theorem openFile (tighter : Tighter low high) (platform : Platform) (file : Bytes) :
    Gated (openFile platform low file) (openFile platform high file) := by
  unfold Reader.openFile
  refine .after (fun _ => ?_) _
  refine .bind (tighter.checkPreamble ..) fun _ => ?_
  refine .bind (tighter.parseHeader platform ..) fun _ => ?_
  exact .bind (tighter.unusedOf ..) fun _ => .refl _

end Tighter

/-- From a source that keeps its bytes, opening has one end. -/
theorem SourceFile.openSource_ends (file : SourceFile) (platform : Platform)
    (options : ReaderOptions) : ∃ result : Result Impl,
      result.map Impl.contents =
        (openFile platform options file.bytes).map ParsedHeader.contents ∧
      ∀ {L : Type} (l : L) (s : Trace),
        EndsWith ((Environment.stable file.bytes).world platform)
          (openSource platform options) l s result := by
  let size := UInt64.ofNat file.bytes.length
  have same : size.toNat = file.bytes.length :=
    UInt64.toNat_ofNat_of_lt (Nat.lt_succ_of_le file.small)
  refine ⟨openImpl platform options file.bytes size.toNat (Nat.le_of_lt_succ size.toNat_lt),
    openImpl_contents _ same, fun l s => ?_⟩
  refine Library.Routine.endsWith_of_wp (Environment.stable_live file.small) ?_
  refine Library.Routine.wp_mono ?_ (openSource_computes same l s)
  rintro result m t ⟨-, outcome, -⟩
  rcases outcome with same | ⟨e, -, stopped, -⟩
  · exact same
  · cases stopped

theorem onlyGates_of_gated {tight loose : Result Impl}
    (gates : Gated (tight.map Impl.contents) (loose.map Impl.contents)) :
    OnlyGates tight loose := by
  constructor
  case lowered =>
    rintro impl rfl
    rcases gates.of_loose rfl with passed | ⟨e, stopped, limit⟩
    · exact .inl (map_eq_ok.mp passed)
    · refine .inr ⟨e, ?_, limit⟩
      cases tight with
      | error e' => exact congrArg Except.error (Except.error.inj stopped)
      | ok impl' => cases stopped
  case raised =>
    rintro impl rfl
    exact map_eq_ok.mp (gates.ok_loose rfl)
  case otherwise =>
    rintro e rfl notLimit
    rcases gates with same | ⟨e', same, limit⟩
    · cases loose with
      | error e' => exact congrArg Except.error (Except.error.inj same).symm
      | ok impl => cases same
    · cases same
      exact absurd limit notLimit

end

/-! ## The theorem -/

/-- From a source that keeps its bytes, `open_source` has one end under each set of
limits, and the tighter limits do nothing but stop it. -/
theorem limitsOnlyGate {L : Type} (platform : Platform) (file : SourceFile) (limits : LimitPair) :
    ∃ tight loose : Result Impl,
      (∀ (l : L) (s : Trace), EndsWith ((Environment.stable file.bytes).world platform)
        (openSource platform limits.low) l s tight) ∧
      (∀ (l : L) (s : Trace), EndsWith ((Environment.stable file.bytes).world platform)
        (openSource platform limits.high) l s loose) ∧
      OnlyGates tight loose := by
  obtain ⟨tight, ofTight, endsTight⟩ := file.openSource_ends platform limits.low
  obtain ⟨loose, ofLoose, endsLoose⟩ := file.openSource_ends platform limits.high
  refine ⟨tight, loose, fun l s => endsTight l s, fun l s => endsLoose l s, ?_⟩
  apply onlyGates_of_gated
  rw [ofTight, ofLoose]
  exact (limits.tighter.openFile platform file.bytes).map _

end Mmxisf.Reader
