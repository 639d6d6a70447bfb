/-
# Library.Log -- programs and the log of what they called

The world of a log lets everything through and writes down every call with its
reply; what replies there can be may depend on the log so far, so that a file
system or a peer is a function of the log and not a state of its own.

`Accounts` says of a routine what its part of the log adds up to: every event is
`fine`, and what is measured of the events stands in a relation to the value, or to
nothing more than the failure.  It has a rule for each way to build a routine, and
measures of a sequence are appended.

A world that is `watched` keeps its state, and a list of what was seen of its replies.
A run in which only fine things were seen is one of the world with fine replies only.
-/
import Mmxisf.Library.Executions

namespace Mmxisf.Library

set_option autoImplicit false

/-- A call with its reply. -/
abbrev Event (Op : Type) (Reply : Op → Type) : Type := (op : Op) × Reply op

/-- The world that writes everything down. -/
def World.logged {Op : Type} {Reply : Op → Type}
    (possible : List (Event Op Reply) → (op : Op) → Reply op → Prop) :
    World Op Reply (List (Event Op Reply)) where
  allowed _ _ := True
  reply s op reply t := t = s ++ [⟨op, reply⟩] ∧ possible s op reply

/-- What is known of an end. -/
inductive Ended {ε α M : Type} (value : α → M → Prop) (failed : M → Prop) : Except ε α → M → Prop
  | ok {a : α} {seen : M} (known : value a seen) : Ended value failed (.ok a) seen
  | error {e : ε} {seen : M} (known : failed seen) : Ended value failed (.error e) seen

theorem Ended.mono {ε α M : Type} {value value' : α → M → Prop} {failed failed' : M → Prop}
    {result : Except ε α} {seen : M} (weaker : ∀ a seen, value a seen → value' a seen)
    (weakerFailed : ∀ seen, failed seen → failed' seen) (ended : Ended value failed result seen) :
    Ended value' failed' result seen := by
  cases ended with
  | ok known => exact .ok (weaker _ _ known)
  | error known => exact .error (weakerFailed _ known)

section

variable {Op : Type} {Reply : Op → Type} {L ε α β M : Type}

/-- What a routine adds to the log. -/
def Accounts (possible : List (Event Op Reply) → (op : Op) → Reply op → Prop)
    (fine : Event Op Reply → Prop) (measure : Event Op Reply → List M)
    (value : α → List M → Prop) (failed : List M → Prop) (x : Routine Op Reply L ε α) : Prop :=
  ∀ l s, Routine.wp (World.logged possible) x
    (fun result _ t => ∃ events, t = s ++ events ∧ (∀ event ∈ events, fine event) ∧
      Ended value failed result (events.flatMap measure)) l s

namespace Accounts

variable {possible : List (Event Op Reply) → (op : Op) → Reply op → Prop}
  {fine : Event Op Reply → Prop} {measure : Event Op Reply → List M}
  {value value' : α → List M → Prop} {failed failed' : List M → Prop} {x : Routine Op Reply L ε α}

/-- Nothing was called. -/
theorem silent {s : List (Event Op Reply)} {result : Except ε α}
    (known : Ended value failed result []) :
    ∃ events, s = s ++ events ∧ (∀ event ∈ events, fine event) ∧
      Ended value failed result (events.flatMap measure) :=
  ⟨[], (List.append_nil s).symm, List.forall_mem_nil fine, known⟩

/-- Whatever a routine does, it only adds to the log. -/
theorem any (x : Routine Op Reply L ε α) :
    Accounts possible (fun _ => True) measure (fun _ _ => True) (fun _ => True) x := by
  intro l s
  unfold Routine.wp
  generalize x l = p
  induction p generalizing s with
  | done ended =>
      obtain ⟨_ | a, m⟩ := ended
      · exact silent (.error trivial)
      · exact silent (.ok trivial)
  | call op next ih =>
      refine ⟨trivial, ?_⟩
      rintro reply _ ⟨rfl, -⟩
      have later := ih reply (s ++ [(⟨op, reply⟩ : Event Op Reply)])
      refine Program.wp_mono ?_ later
      rintro ⟨result, m⟩ _ ⟨events, rfl, -, ended⟩
      refine ⟨⟨op, reply⟩ :: events, List.append_assoc _ _ _, fun _ _ => trivial, ?_⟩
      cases ended with
      | ok _ => exact .ok trivial
      | error _ => exact .error trivial

theorem mono (weaker : ∀ a seen, value a seen → value' a seen)
    (weakerFailed : ∀ seen, failed seen → failed' seen)
    (accounts : Accounts possible fine measure value failed x) :
    Accounts possible fine measure value' failed' x := by
  intro l s
  apply Routine.wp_mono _ (accounts l s)
  rintro result m t ⟨events, added, all, ended⟩
  exact ⟨events, added, all, ended.mono weaker weakerFailed⟩

theorem pure {a : α} (known : value a []) :
    Accounts possible fine measure value failed (Pure.pure a : Routine Op Reply L ε α) :=
  fun _ _ => silent (.ok known)

theorem fail {e : ε} (known : failed []) :
    Accounts possible fine measure value failed (Routine.fail e : Routine Op Reply L ε α) :=
  fun _ _ => silent (.error known)

theorem ofExcept {result : Except ε α} (known : ∀ a, result = .ok a → value a [])
    (knownFailed : failed []) :
    Accounts possible fine measure value failed
      (Routine.ofExcept result : Routine Op Reply L ε α) := by
  cases result with
  | error e => exact fail knownFailed
  | ok a => exact pure (known a rfl)

theorem request {op : Op} {value : Reply op → List M → Prop}
    (known : ∀ s reply, possible s op reply →
      fine ⟨op, reply⟩ ∧ value reply (measure ⟨op, reply⟩)) :
    Accounts possible fine measure value failed
      (Routine.request op : Routine Op Reply L ε (Reply op)) := by
  intro l s
  refine ⟨trivial, ?_⟩
  rintro reply _ ⟨rfl, can⟩
  obtain ⟨fineEvent, valued⟩ := known s reply can
  refine ⟨[⟨op, reply⟩], rfl, ?_, .ok ?_⟩
  · intro event member
    rw [List.mem_singleton] at member
    exact member ▸ fineEvent
  · rw [List.flatMap_singleton]
    exact valued

theorem modifyStore {f : L → L} {value : Unit → List M → Prop} (known : value () []) :
    Accounts possible fine measure value failed
      (Routine.modifyStore f : Routine Op Reply L ε Unit) :=
  fun _ _ => silent (.ok known)

/-- A sequence: what the first part has added comes before. -/
theorem bind {f : α → Routine Op Reply L ε β} {later : β → List M → Prop}
    {failedLater : List M → Prop} (first : Accounts possible fine measure value failed x)
    (stops : ∀ seen, failed seen → failedLater seen)
    (rest : ∀ a seen, value a seen → Accounts possible fine measure
      (fun b more => later b (seen ++ more)) (fun more => failedLater (seen ++ more)) (f a)) :
    Accounts possible fine measure later failedLater (x >>= f) := by
  intro l s
  rw [Routine.wp_bind]
  apply Routine.wp_mono _ (first l s)
  rintro result m t ⟨events, rfl, all, ended⟩
  cases ended with
  | error known => exact ⟨events, rfl, all, .error (stops _ known)⟩
  | ok known =>
      rw [Routine.continueWith_ok]
      apply Routine.wp_mono _ (rest _ _ known m (s ++ events))
      rintro result' m' t' ⟨more, rfl, allMore, endedMore⟩
      refine ⟨events ++ more, List.append_assoc _ _ _, ?_, ?_⟩
      · intro event member
        rcases List.mem_append.mp member with early | late
        · exact all event early
        · exact allMore event late
      · rw [List.flatMap_append]
        cases endedMore with
        | ok knownMore => exact .ok knownMore
        | error knownMore => exact .error knownMore

theorem ite {condition : Prop} [Decidable condition] {yes no : Routine Op Reply L ε α}
    (first : condition → Accounts possible fine measure value failed yes)
    (second : ¬ condition → Accounts possible fine measure value failed no) :
    Accounts possible fine measure value failed (if condition then yes else no) := by
  by_cases holds : condition
  · rw [if_pos holds]
    exact first holds
  · rw [if_neg holds]
    exact second holds

/-- A cleanup that nothing is measured of leaves the account. -/
theorem ensuring {cleanup : L → Program Op Reply L}
    (accounts : Accounts possible fine measure value failed x)
    (quiet : ∀ m s, Program.wp (World.logged possible) (cleanup m)
      (fun _ t => ∃ events, t = s ++ events ∧ (∀ event ∈ events, fine event) ∧
        events.flatMap measure = []) s) :
    Accounts possible fine measure value failed (Routine.ensuring x cleanup) := by
  intro l s
  rw [Routine.wp_ensuring]
  apply Routine.wp_mono _ (accounts l s)
  rintro result m t ⟨events, rfl, all, ended⟩
  apply Program.wp_mono _ (quiet m (s ++ events))
  rintro m' t' ⟨more, rfl, allMore, nothing⟩
  refine ⟨events ++ more, List.append_assoc _ _ _, ?_, ?_⟩
  · intro event member
    rcases List.mem_append.mp member with early | late
    · exact all event early
    · exact allMore event late
  · rw [List.flatMap_append, nothing, List.append_nil]
    exact ended

end Accounts

end

/-! ## Writing down -/

section

variable {Op : Type} {Reply : Op → Type} {S α : Type} {world : World Op Reply S}
  {possible : List (Event Op Reply) → (op : Op) → Reply op → Prop}
  {post : α → S → Prop} {written : α → List (Event Op Reply) → Prop}

/-- What holds of every log holds of the log of a run in a world. -/
theorem Program.wp_logged
    (keeps : ∀ {s op reply t log}, world.reply s op reply t → possible log op reply) :
    ∀ {p : Program Op Reply α} {s : S} {log : List (Event Op Reply)}, Program.wp world p post s →
      Program.wp (World.logged possible) p written log →
      Program.wp world p (fun value t => post value t ∧ ∃ log, written value log) s
  | .done _, _, log, holds, logged => ⟨holds, log, logged⟩
  | .call _ _, _, _, holds, logged => ⟨holds.1, fun reply t step =>
      wp_logged keeps (holds.2 reply t step) (logged.2 reply _ ⟨rfl, keeps step⟩)⟩

end

/-! ## Watching -/

section

variable {Op : Type} {Reply : Op → Type} {S α X : Type}

/-- A world with what was seen of its replies. -/
def World.watched (world : World Op Reply S) (see : (op : Op) → Reply op → List X) :
    World Op Reply (S × List X) where
  allowed s op := world.allowed s.1 op
  reply s op reply t := world.reply s.1 op reply t.1 ∧ t.2 = s.2 ++ see op reply

variable {world small : World Op Reply S} {see : (op : Op) → Reply op → List X} {fine : X → Prop}
  {post : α → S → Prop}

/-- What was seen once was seen in the end. -/
theorem Program.wp_seen (lets : ∀ s op, world.allowed s op) {x : X} (bad : ¬ fine x) :
    ∀ (p : Program Op Reply α) (s : S × List X), x ∈ s.2 →
      Program.wp (world.watched see) p
        (fun value t => (∀ x ∈ t.2, fine x) → post value t.1) s
  | .done _, _, seen => fun all => absurd (all x seen) bad
  | .call op next, s, seen => by
      refine ⟨lets s.1 op, ?_⟩
      rintro reply t ⟨-, log⟩
      refine wp_seen lets bad (next reply) t ?_
      rw [log]
      exact List.mem_append_left _ seen

/-- A run in which only fine things are seen is one of the smaller world. -/
theorem Program.wp_watched (lets : ∀ s op, world.allowed s op)
    (smaller : ∀ s op reply t, world.reply s op reply t → (∀ x ∈ see op reply, fine x) →
      small.reply s op reply t) :
    ∀ (p : Program Op Reply α) (s : S) (log : List X), Program.wp small p post s →
      Program.wp (world.watched see) p
        (fun value t => (∀ x ∈ t.2, fine x) → post value t.1) (s, log)
  | .done _, _, _, safe => fun _ => safe
  | .call op next, s, log, safe => by
      refine ⟨lets s op, ?_⟩
      rintro reply ⟨t, seen⟩ ⟨replied, rfl⟩
      by_cases all : ∀ x ∈ see op reply, fine x
      · exact wp_watched lets smaller (next reply) t _
          (safe.2 reply t (smaller s op reply t replied all))
      · simp only [not_forall] at all
        obtain ⟨x, member, bad⟩ := all
        exact wp_seen lets bad (next reply) _ (List.mem_append_right _ member)

end

end Mmxisf.Library
