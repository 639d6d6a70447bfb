/-
# Library.Pool -- programs that share an environment

The programs of a pool go on in any order, one call of one program after another,
and all of them change the one state.  What is proved of a program alone, against a
world of its own, is so of it in the pool where a relation joins the states of its
own with the shared one: whatever the shared world replies to a call that the
program's own world lets through, the own world may reply too, and the states stay
joined (`Owns`).  The other programs are not mentioned.
-/
import Mathlib.Logic.Function.Basic
import Mmxisf.Library.Log

namespace Mmxisf.Library

set_option autoImplicit false

section

variable {ι Op : Type} {Reply : Op → Type} {G S α : Type} [DecidableEq ι]

/-- The calls that were made, with who made them. -/
abbrev History (ι Op : Type) (Reply : Op → Type) : Type := List (ι × Event Op Reply)

structure Pool (ι Op : Type) (Reply : Op → Type) (α S : Type) where
  programs : ι → Program Op Reply α
  state : S
  history : History ι Op Reply := []

namespace Pool

/-- One program makes its next call. -/
inductive Step (world : World Op Reply S) (pool : Pool ι Op Reply α S) :
    ι → Event Op Reply → Pool ι Op Reply α S → Prop
  | call {i : ι} {op : Op} {next : Reply op → Program Op Reply α} {reply : Reply op} {t : S}
      (calls : pool.programs i = .call op next) (replies : world.reply pool.state op reply t) :
      Step world pool i ⟨op, reply⟩
        ⟨Function.update pool.programs i (next reply), t, pool.history ++ [(i, ⟨op, reply⟩)]⟩

/-- What any order of steps leads to. -/
inductive Reaches (world : World Op Reply S) (start : Pool ι Op Reply α S) :
    Pool ι Op Reply α S → Prop
  | start : Reaches world start start
  | step {pool next : Pool ι Op Reply α S} {i : ι} {event : Event Op Reply}
      (before : Reaches world start pool) (step : Step world pool i event next) :
      Reaches world start next

theorem Reaches.trans {world : World Op Reply S} {start pool later : Pool ι Op Reply α S}
    (first : Reaches world start pool) (rest : Reaches world pool later) :
    Reaches world start later := by
  induction rest with
  | start => exact first
  | step _ step ih => exact .step ih step

/-- A program has returned. -/
def Returned (pool : Pool ι Op Reply α S) (i : ι) (value : α) : Prop :=
  pool.programs i = .done value

/-- What one program does is an order of steps, in which no other takes one. -/
theorem Reaches.of_run {world : World Op Reply S} {p : Program Op Reply α} {s t : S} {value : α}
    (run : Program.Run world p s value t) {i : ι} : ∀ pool : Pool ι Op Reply α S,
      pool.programs i = p → pool.state = s →
        ∃ later, Reaches world pool later ∧ later.Returned i value ∧ later.state = t := by
  induction run with
  | done value s => exact fun pool here there => ⟨pool, .start, here, there⟩
  | @call op next _ t _ reply _ replies _ ih =>
      rintro pool here rfl
      have step := Step.call here replies
      obtain ⟨later, reaches, ended⟩ := ih ⟨Function.update pool.programs i (next reply), t,
        pool.history ++ [(i, ⟨op, reply⟩)]⟩ (Function.update_self ..) rfl
      exact ⟨later, (Reaches.step .start step).trans reaches, ended⟩

theorem Step.returned {world : World Op Reply S} {pool next : Pool ι Op Reply α S} {i j : ι}
    {event : Event Op Reply} {value : α} (step : Step world pool i event next)
    (returned : pool.Returned j value) : next.Returned j value ∧ j ≠ i := by
  cases step with
  | call calls _ =>
      have other : j ≠ i := by
        rintro rfl
        cases returned.symm.trans calls
      exact ⟨(Function.update_of_ne other _ _).trans returned, other⟩

end Pool

/-- The shared world is each program's own, as far as the program can see and change
it. -/
structure Owns (own : ι → World Op Reply G) (shared : World Op Reply S)
    (joint : History ι Op Reply → (ι → G) → S → Prop) : Prop where
  call : ∀ {history : History ι Op Reply} {parts : ι → G} {s t : S} {i : ι} {op : Op}
    {reply : Reply op}, joint history parts s → (own i).allowed (parts i) op →
    shared.reply s op reply t → ∃ part, (own i).reply (parts i) op reply part ∧
      joint (history ++ [(i, ⟨op, reply⟩)]) (Function.update parts i part) t

/-- Every program of a pool is safe where it is. -/
structure Pool.Safe (own : ι → World Op Reply G) (joint : History ι Op Reply → (ι → G) → S → Prop)
    (posts : ι → α → G → Prop) (pool : Pool ι Op Reply α S) (parts : ι → G) : Prop where
  joint : joint pool.history parts pool.state
  each : ∀ i, Program.wp (own i) (pool.programs i) (posts i) (parts i)

namespace Owns

variable {own : ι → World Op Reply G} {shared : World Op Reply S}
  {joint : History ι Op Reply → (ι → G) → S → Prop} {posts : ι → α → G → Prop}
  {parts : ι → G}

/-- A step keeps the pool safe, and only the program that makes it moves. -/
theorem step {pool next : Pool ι Op Reply α S} {i : ι} {event : Event Op Reply}
    (owns : Owns own shared joint) (safe : pool.Safe own joint posts parts)
    (step : pool.Step shared i event next) :
    ∃ part, next.Safe own joint posts (Function.update parts i part) := by
  cases step with
  | @call op rest reply t calls replies =>
      have here := safe.each i
      rw [calls] at here
      obtain ⟨part, answered, joined⟩ := owns.call safe.joint here.1 replies
      refine ⟨part, joined, ?_⟩
      intro j
      by_cases mine : j = i
      · subst mine
        simp only [Function.update_self]
        exact here.2 reply part answered
      · simp only [Function.update_of_ne mine]
        exact safe.each j

/-- A call that a safe program is about to make is let through. -/
theorem lets {pool next : Pool ι Op Reply α S} {i : ι} {event : Event Op Reply}
    (safe : pool.Safe own joint posts parts) (step : pool.Step shared i event next) :
    (own i).allowed (parts i) event.1 := by
  cases step with
  | call calls _ =>
      have here := safe.each i
      rw [calls] at here
      exact here.1

/-- In every order of steps the pool stays safe; a program that has returned keeps
what it has. -/
theorem reaches {start pool : Pool ι Op Reply α S} (owns : Owns own shared joint)
    (safe : start.Safe own joint posts parts) (reaches : start.Reaches shared pool) :
    ∃ now, pool.Safe own joint posts now ∧
      ∀ i value, start.Returned i value → pool.Returned i value ∧ now i = parts i := by
  induction reaches with
  | start => exact ⟨parts, safe, fun i value returned => ⟨returned, rfl⟩⟩
  | step _ step ih =>
      obtain ⟨now, safeNow, kept⟩ := ih
      obtain ⟨part, safeNext⟩ := owns.step safeNow step
      refine ⟨_, safeNext, ?_⟩
      intro i value returned
      obtain ⟨here, same⟩ := kept i value returned
      obtain ⟨there, other⟩ := step.returned here
      exact ⟨there, (Function.update_of_ne other _ _).trans same⟩

omit [DecidableEq ι] in
/-- A program that has returned ended as it should. -/
theorem ended {pool : Pool ι Op Reply α S} (safe : pool.Safe own joint posts parts) {i : ι}
    {value : α} (returned : pool.Returned i value) : posts i value (parts i) := by
  have here := safe.each i
  rw [show pool.programs i = .done value from returned] at here
  exact here

/-- One program alone: the parts of the others do not move. -/
theorem alone {p : Program Op Reply α} {post : α → G → Prop} {i : ι} {s : S}
    {history : History ι Op Reply} (owns : Owns own shared joint)
    (lets : ∀ s op, shared.allowed s op) (joined : joint history parts s)
    (safe : Program.wp (own i) p post (parts i)) :
    Program.wp shared p (fun value t => ∃ history part,
      joint history (Function.update parts i part) t ∧ post value part) s := by
  induction p generalizing parts s history with
  | done value => exact ⟨history, parts i, by rwa [Function.update_eq_self], safe⟩
  | call op next ih =>
      refine ⟨lets s op, ?_⟩
      intro reply t replies
      obtain ⟨part, answered, joined⟩ := owns.call joined safe.1 replies
      have later := ih reply joined (by
        rw [Function.update_self]
        exact safe.2 reply part answered)
      refine Program.wp_mono ?_ later
      rintro value u ⟨more, last, together, ended⟩
      rw [Function.update_idem] at together
      exact ⟨more, last, together, ended⟩

end Owns

end

end Mmxisf.Library
