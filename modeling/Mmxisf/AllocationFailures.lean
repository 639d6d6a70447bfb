/-
# AllocationFailures -- where running out of memory leaves files

An allocation may fail anywhere.  After most failures the disk is as it was
(`allocationFailures`).  Three places are different: the sink object of a file is
allocated when the file is there, a path is copied and kept when its file is there,
and the summary is made when the link is there.  A run that fails at the last of
these has published its file and returns an error (`failedSummary_published`).
-/
import Mmxisf.Publication

namespace Mmxisf.Writer

set_option autoImplicit false

open Library (Program World Disk)

/-- The allocation that a reply reports as failed. -/
def failedSite : (op : WriteOp) → op.Reply → List AllocationSite
  | .allocate site, reply => bif (reply : Bool) then [] else [site]
  | _, _ => []

/-- A disk on which any allocation may fail, with those that have. -/
def observed (codecs : Codecs) :
    World WriteOp WriteOp.Reply (Disk Path Byte × List AllocationSite) :=
  (shared codecs fun _ => True).watched failedSite

/-- A call that returned an error has changed no name and no file. -/
def Unpublished (before after : Disk Path Byte) (result : Result WriteSummary) : Prop :=
  ∀ e, result = .error e → after.names = before.names ∧
    ∀ file held, before.contents file = some held → after.contents file = some held

theorem shared_smaller {codecs : Codecs} {mayFail : AllocationSite → Prop}
    {disk after : Disk Path Byte}
    {op : WriteOp} {reply : op.Reply}
    (replied : (shared codecs fun _ => True).reply disk op reply after)
    (all : ∀ site ∈ failedSite op reply, mayFail site) :
    (shared codecs mayFail).reply disk op reply after := by
  cases op with
  | allocate site =>
      refine ⟨?_, replied.2⟩
      rintro rfl
      exact all site (List.mem_singleton.mpr rfl)
  | _ => exact replied

/-- Where no allocation fails but those that no file depends on, an error means that
nothing was published and nothing was left. -/
theorem allocationFailures (platform : Platform) (codecs : Codecs) (call : TypedCall)
    (before : Disk Path Byte) :
    Program.wp (observed codecs) (write platform call.call)
      (fun result t => (∀ site ∈ t.2, Ordinary site) → Unpublished before t.1 result)
      (before, []) := by
  have alone : Program.wp (shared codecs Ordinary) (write platform call.call)
      (fun result after => Unpublished before after result) before := by
    apply Program.wp_mono _ (write_together platform codecs call before)
    rintro _ after ⟨part, together, ended⟩ e rfl
    cases ended with
    | failed names =>
        exact ⟨together.same_names names,
          fun _ _ there => together.contents.holds (i := none) there⟩
  exact Program.wp_watched (fun _ _ => trivial) (fun _ _ _ _ => shared_smaller) _ _ _ alone

/-! ## A failure after the link -/

/-- Every allocation succeeds but that of the summary. -/
def summaryFails (s : Disk Path Byte × List AllocationSite) :
    (op : WriteOp) → op.Reply × (Disk Path Byte × List AllocationSite)
  | .allocate site =>
      if site = .summary then (false, (s.1, s.2 ++ [.summary])) else (true, s)
  | op => ((reliable s.1 op).1, ((reliable s.1 op).2, s.2))

def noCodecs : Codecs where
  outputs _ _ _ := False
  nonempty := by rintro _ _ _ ⟨⟩

theorem summaryFails_answers (s : Disk Path Byte × List AllocationSite) (op : WriteOp) :
    (observed noCodecs).reply s op (summaryFails s op).1 (summaryFails s op).2 := by
  obtain ⟨disk, seen⟩ := s
  cases op with
  | allocate site =>
      by_cases summary : site = .summary
      · have fails : summaryFails (disk, seen) (.allocate site) =
          (false, (disk, seen ++ [.summary])) :=
          if_pos summary
        rw [fails, summary]
        exact ⟨⟨fun _ => trivial, rfl⟩, rfl⟩
      · have allocates : summaryFails (disk, seen) (.allocate site) = (true, (disk, seen)) :=
          if_neg summary
        rw [allocates]
        exact ⟨⟨fun _ => trivial, rfl⟩, (List.append_nil seen).symm⟩
  | _ => exact ⟨reliable_answers disk _, (List.append_nil seen).symm⟩

/-- The call returns an error, and its file is there. -/
theorem failedSummary_published :
    ¬ Program.wp (observed noCodecs) (write barePlatform onePixel.call)
      (fun result t => Unpublished .empty t.1 result) (.empty, []) := by
  intro every
  have run := Program.run_answered summaryFails_answers
    (write barePlatform onePixel.call) (.empty, [])
  have unpublished := Program.run_of_wp every run
  have error : ((write barePlatform onePixel.call).answered summaryFails (.empty, [])).1.toOption =
      none := by
    decide +kernel
  have published : (((write barePlatform onePixel.call).answered summaryFails
      (.empty, [])).2.1.names
      (lit "a")).isSome = true := by
    decide +kernel
  generalize (write barePlatform onePixel.call).answered summaryFails (.empty, []) = ended at *
  obtain ⟨_ | summary, after⟩ := ended
  · obtain ⟨names, -⟩ := unpublished _ rfl
    rw [names] at published
    cases published
  · cases error

end Mmxisf.Writer
