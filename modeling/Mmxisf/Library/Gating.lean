/-
# Library.Gating -- computations that a limit may stop

A computation with tight limits is compared with the same one under loose limits.
It is *gated* when the limits can do one thing only: stop it, with an error of a
class of their own.  Where they do not, the results are equal, so what tight limits
let through loose limits let through, and an error of another class is an error
under both.

The relation is closed under sequences (`Gates.bind`), so a computation is gated
when each of its checks is.

A computation *passes* when under every setting of the limits it has one value or is
stopped, and there is room enough for it: from some bound on nothing stops it.  This
too is closed under sequences, with the larger of two bounds (`Passes.andThen`).  Where
it is said what is enough, that is *sufficient* (`Suffices`).
-/
import Mathlib.Tactic.Common

namespace Mmxisf.Library

set_option autoImplicit false

variable {ε α β : Type} {stops : ε → Prop}

/-- The tight result is the loose one, unless a limit stopped it. -/
def Gates (stops : ε → Prop) (tight loose : Except ε α) : Prop :=
  tight = loose ∨ ∃ e, tight = .error e ∧ stops e

namespace Gates

variable {tight loose : Except ε α}

theorem refl (result : Except ε α) : Gates stops result result := .inl rfl

theorem stopped {e : ε} (stop : stops e) : Gates stops (.error e) loose := .inr ⟨e, rfl, stop⟩

theorem bind {next next' : α → Except ε β} (first : Gates stops tight loose)
    (rest : ∀ a, Gates stops (next a) (next' a)) :
    Gates stops (tight >>= next) (loose >>= next') := by
  rcases first with rfl | ⟨e, rfl, stop⟩
  · cases tight with
    | error e => exact refl _
    | ok a => exact rest a
  · exact stopped stop

/-- A sequence whose first part has this value unless it is stopped. -/
theorem andThen {x : Except ε α} {a : α} {next : α → Except ε β} {result : Except ε β}
    (first : Gates stops x (.ok a)) (rest : Gates stops (next a) result) :
    Gates stops (x >>= next) result := by
  rcases first with rfl | ⟨e, rfl, stop⟩
  · exact rest
  · exact stopped stop

/-- A sequence whose first part has no limits. -/
theorem after {next next' : α → Except ε β} (rest : ∀ a, Gates stops (next a) (next' a))
    (result : Except ε α) : Gates stops (result >>= next) (result >>= next') :=
  (refl result).bind rest

theorem map (f : α → β) (gates : Gates stops tight loose) :
    Gates stops (tight.map f) (loose.map f) := by
  rcases gates with rfl | ⟨e, rfl, stop⟩
  · exact refl _
  · exact stopped stop

theorem ite {condition : Prop} [Decidable condition] {tight' loose' : Except ε α}
    (yes : condition → Gates stops tight loose) (no : ¬ condition → Gates stops tight' loose') :
    Gates stops (if condition then tight else tight') (if condition then loose else loose') := by
  by_cases holds : condition
  · rw [if_pos holds, if_pos holds]
    exact yes holds
  · rw [if_neg holds, if_neg holds]
    exact no holds

/-- What is let through under tight limits is let through under loose ones. -/
theorem ok_loose {a : α} (gates : Gates stops tight loose) (passed : tight = .ok a) :
    loose = .ok a := by
  rcases gates with rfl | ⟨e, rfl, -⟩
  · exact passed
  · cases passed

/-- What is let through under loose limits is stopped by a tight one, or let through. -/
theorem of_loose {a : α} (gates : Gates stops tight loose) (passed : loose = .ok a) :
    tight = .ok a ∨ ∃ e, tight = .error e ∧ stops e :=
  gates.imp_left fun same => same.trans passed

theorem mono {stops' : ε → Prop} (also : ∀ e, stops e → stops' e)
    (gates : Gates stops tight loose) :
    Gates stops' tight loose :=
  gates.imp_right fun ⟨e, stopped, stop⟩ => ⟨e, stopped, also e stop⟩

end Gates

/-! ## Room -/

section

variable {ω : Type}

/-- An error of a limit, under a setting that has less room than the bound. -/
def Cramped (stops : ε → Prop) (room : ω → Nat) (bound : Nat) (o : ω) (e : ε) : Prop :=
  stops e ∧ room o < bound

theorem Cramped.mono {room : ω → Nat} {bound bound' : Nat} (within : bound ≤ bound') {o : ω} {e : ε}
    (cramped : Cramped stops room bound o e) : Cramped stops room bound' o e :=
  ⟨cramped.1, Nat.lt_of_lt_of_le cramped.2 within⟩

/-- Under each setting the value or a stop, and the value where there is room enough. -/
def Passes (stops : ε → Prop) (room : ω → Nat) (x : ω → Except ε α) (value : ω → α) : Prop :=
  ∃ bound, ∀ o, Gates (Cramped stops room bound o) (x o) (.ok (value o))

namespace Passes

variable {room : ω → Nat} {x : ω → Except ε α} {a : ω → α}

theorem of_eq (same : ∀ o, x o = .ok (a o)) : Passes stops room x a :=
  ⟨0, fun o => .inl (same o)⟩

/-- A check of a limit: there is room enough for what it counts. -/
theorem limit {bound : Nat} (stopped : ∀ o, x o = .ok (a o) ∨ ∃ e, x o = .error e ∧ stops e)
    (enough : ∀ o, bound ≤ room o → x o = .ok (a o)) : Passes stops room x a := by
  refine ⟨bound, fun o => ?_⟩
  by_cases roomy : bound ≤ room o
  · exact .inl (enough o roomy)
  · exact (stopped o).imp_right fun ⟨e, failed, stop⟩ => ⟨e, failed, stop, Nat.lt_of_not_le roomy⟩

/-- A sequence passes when its parts do. -/
theorem andThen {next : ω → α → Except ε β} {result : ω → β} (first : Passes stops room x a)
    (rest : Passes stops room (fun o => next o (a o)) result) :
    Passes stops room (fun o => x o >>= next o) result := by
  obtain ⟨bound, gates⟩ := first
  obtain ⟨bound', gates'⟩ := rest
  refine ⟨max bound bound', fun o => .andThen ((gates o).mono ?_) ((gates' o).mono ?_)⟩
  · exact fun _ => .mono (Nat.le_max_left ..)
  · exact fun _ => .mono (Nat.le_max_right ..)

theorem ifTrue {condition : Prop} [Decidable condition] {y : ω → Except ε α} (holds : condition)
    (passes : Passes stops room x a) :
    Passes stops room (fun o => if condition then x o else y o) a := by
  simpa only [if_pos holds] using passes

theorem ifFalse {condition : Prop} [Decidable condition] {y : ω → Except ε α} (holds : ¬ condition)
    (passes : Passes stops room x a) :
    Passes stops room (fun o => if condition then y o else x o) a := by
  simpa only [if_neg holds] using passes

/-- The value is the only one. -/
theorem of_ok {a' : ω → α} (passes : Passes stops room x a)
    (only : ∀ o b, x o = .ok b → b = a' o) : Passes stops room x a' := by
  obtain ⟨bound, gates⟩ := passes
  refine ⟨bound, fun o => ?_⟩
  rcases gates o with same | stopped
  · rw [same, only o _ same]
    exact .refl _
  · exact .inr stopped

end Passes

end

/-! ## Needs -/

section

variable {ω : Type}

/-- An error of a limit, under a setting that has not enough. -/
def Short (stops : ε → Prop) (enough : ω → Prop) (o : ω) (e : ε) : Prop := stops e ∧ ¬ enough o

/-- Under each setting the value or a stop, and the value where there is enough. -/
def Suffices (stops : ε → Prop) (enough : ω → Prop) (x : ω → Except ε α) (value : ω → α) : Prop :=
  ∀ o, Gates (Short stops enough o) (x o) (.ok (value o))

namespace Suffices

variable {enough : ω → Prop} {x : ω → Except ε α} {a : ω → α}

theorem of_eq (same : ∀ o, x o = .ok (a o)) : Suffices stops enough x a := fun o => .inl (same o)

/-- A check of a limit that lets through what is enough. -/
theorem limit (stopped : ∀ o, x o = .ok (a o) ∨ ∃ e, x o = .error e ∧ stops e)
    (passed : ∀ o, enough o → x o = .ok (a o)) : Suffices stops enough x a := by
  intro o
  by_cases there : enough o
  · exact .inl (passed o there)
  · exact (stopped o).imp_right fun ⟨e, failed, stop⟩ => ⟨e, failed, stop, there⟩

/-- What is enough for both parts is enough for a sequence. -/
theorem andThen {next : ω → α → Except ε β} {result : ω → β} (first : Suffices stops enough x a)
    (rest : Suffices stops enough (fun o => next o (a o)) result) :
    Suffices stops enough (fun o => x o >>= next o) result :=
  fun o => (first o).andThen (rest o)

theorem ifTrue {condition : Prop} [Decidable condition] {y : ω → Except ε α} (holds : condition)
    (sufficient : Suffices stops enough x a) :
    Suffices stops enough (fun o => if condition then x o else y o) a := by
  simpa only [if_pos holds] using sufficient

theorem ifFalse {condition : Prop} [Decidable condition] {y : ω → Except ε α}
    (holds : ¬ condition) (sufficient : Suffices stops enough x a) :
    Suffices stops enough (fun o => if condition then y o else x o) a := by
  simpa only [if_neg holds] using sufficient

/-- The value is the only one. -/
theorem of_ok {a' : ω → α} (sufficient : Suffices stops enough x a)
    (only : ∀ o b, x o = .ok b → b = a' o) : Suffices stops enough x a' := by
  intro o
  rcases sufficient o with same | stopped
  · rw [same, only o _ same]
    exact .refl _
  · exact .inr stopped

/-- Room for all that is needed is enough. -/
theorem passes {room : ω → Nat} {bound : Nat} (roomy : ∀ o, bound ≤ room o → enough o)
    (sufficient : Suffices stops enough x a) : Passes stops room x a :=
  ⟨bound, fun o => (sufficient o).mono fun _ ⟨stop, short⟩ =>
    ⟨stop, Nat.lt_of_not_le fun large => short (roomy o large)⟩⟩

theorem only {o : ω} {b : α} (sufficient : Suffices stops enough x a) (run : x o = .ok b) :
    b = a o := by
  rcases sufficient o with same | ⟨_, failed, -⟩
  · exact Except.ok.inj (run.symm.trans same)
  · cases run.symm.trans failed

theorem ok {o : ω} (sufficient : Suffices stops enough x a) (there : enough o) :
    x o = .ok (a o) := by
  rcases sufficient o with same | ⟨_, -, -, short⟩
  · exact same
  · exact absurd there short

end Suffices

end

/-- Such a value, or the error of a limit. -/
def Yields (stops : ε → Prop) (good : α → Prop) (result : Except ε α) : Prop :=
  (∃ a, result = .ok a ∧ good a) ∨ ∃ e, result = .error e ∧ stops e

theorem Gates.yields {tight : Except ε α} {a : α} (gates : Gates stops tight (.ok a)) :
    Yields stops (· = a) tight := by
  rcases gates with rfl | stopped
  · exact .inl ⟨a, rfl, rfl⟩
  · exact .inr stopped

end Mmxisf.Library
