/-
# Library.Executions -- what some execution does, and what every execution keeps

`Library.Program` asks what holds at the end of every execution.  Three more
things are said here of programs and routines:

* `may`: some execution ends with `post`.  It has the rules of `wp`, with "some
  reply" for "every reply", so that an execution is built along the program text;
* `answered`: the one execution in which the environment answers by a function,
  which is computed;
* `Keeps`: an invariant of the store and the world that no execution breaks,
  whether it ends with a value or with an error.

`ensuring` runs a cleanup that cannot fail after a routine, as destructors do.
-/
import Mmxisf.Library.Program

namespace Mmxisf.Library

set_option autoImplicit false

namespace Program

variable {Op : Type} {Reply : Op → Type} {S α β : Type} {world : World Op Reply S}

/-- Some execution ends with `post`. -/
def may (world : World Op Reply S) : Program Op Reply α → (α → S → Prop) → S → Prop
  | .done value, post, s => post value s
  | .call op next, post, s => ∃ reply t, world.reply s op reply t ∧ may world (next reply) post t

theorem may_iff_run {p : Program Op Reply α} {post : α → S → Prop} {s : S} :
    may world p post s ↔ ∃ value t, Run world p s value t ∧ post value t := by
  induction p generalizing s with
  | done value =>
      constructor
      · intro holds
        exact ⟨value, s, .done value s, holds⟩
      · rintro ⟨_, _, run, holds⟩
        cases run
        exact holds
  | call op next ih =>
      constructor
      · rintro ⟨reply, t, step, later⟩
        obtain ⟨value, u, run, holds⟩ := (ih reply).mp later
        exact ⟨value, u, .call step run, holds⟩
      · rintro ⟨value, u, run, holds⟩
        cases run with
        | call step rest => exact ⟨_, _, step, (ih _).mpr ⟨value, u, rest, holds⟩⟩

theorem may_mono {p : Program Op Reply α} {post post' : α → S → Prop} {s : S}
    (weaker : ∀ value t, post value t → post' value t) (holds : may world p post s) :
    may world p post' s := by
  rw [may_iff_run] at holds ⊢
  obtain ⟨value, t, run, ended⟩ := holds
  exact ⟨value, t, run, weaker value t ended⟩

theorem may_bind (p : Program Op Reply α) (next : α → Program Op Reply β)
    (post : β → S → Prop) (s : S) :
    may world (p.bind next) post s ↔
      may world p (fun value t => may world (next value) post t) s := by
  induction p generalizing s with
  | done value => rfl
  | call op rest ih =>
      show (∃ reply t, _ ∧ may world ((rest reply).bind next) post t) ↔ ∃ reply t, _ ∧ _
      simp only [ih]

/-- The execution in which the environment answers by a function. -/
def answered (answer : S → (op : Op) → Reply op × S) : Program Op Reply α → S → α × S
  | .done value, s => (value, s)
  | .call op next, s => answered answer (next (answer s op).1) (answer s op).2

theorem run_answered {answer : S → (op : Op) → Reply op × S}
    (allowed : ∀ s op, world.reply s op (answer s op).1 (answer s op).2)
    (p : Program Op Reply α) (s : S) :
    Run world p s (p.answered answer s).1 (p.answered answer s).2 := by
  induction p generalizing s with
  | done value => exact .done value s
  | call op next ih => exact .call (allowed s op) (ih _ _)

end Program

namespace Routine

variable {Op : Type} {Reply : Op → Type} {S L ε α β : Type} {world : World Op Reply S}

/-! ## Some execution -/

/-- Some execution of a routine ends with `post`. -/
def may (world : World Op Reply S) (x : Routine Op Reply L ε α)
    (post : Except ε α → L → S → Prop) (l : L) (s : S) : Prop :=
  Program.may world (x l) (fun result t => post result.1 result.2 t) s

section

variable {post : Except ε α → L → S → Prop} {l : L} {s : S}

theorem may_iff_run {x : Routine Op Reply L ε α} :
    may world x post l s ↔ ∃ result m t, Run world x l s result m t ∧ post result m t := by
  unfold may
  rw [Program.may_iff_run]
  constructor
  · rintro ⟨⟨result, m⟩, t, run, holds⟩
    exact ⟨result, m, t, run, holds⟩
  · rintro ⟨result, m, t, run, holds⟩
    exact ⟨(result, m), t, run, holds⟩

@[simp] theorem may_pure (value : α) :
    may world (pure value : Routine Op Reply L ε α) post l s ↔ post (.ok value) l s := Iff.rfl

@[simp] theorem may_ofExcept (result : Except ε α) :
    may world (ofExcept result : Routine Op Reply L ε α) post l s ↔ post result l s := by
  cases result <;> rfl

@[simp] theorem may_request (op : Op) {post : Except ε (Reply op) → L → S → Prop} :
    may world (request op : Routine Op Reply L ε (Reply op)) post l s ↔
      ∃ reply t, world.reply s op reply t ∧ post (.ok reply) l t := Iff.rfl

@[simp] theorem may_modifyStore (f : L → L) {post : Except ε Unit → L → S → Prop} :
    may world (modifyStore f : Routine Op Reply L ε Unit) post l s ↔ post (.ok ()) (f l) s :=
    Iff.rfl

theorem may_mono {x : Routine Op Reply L ε α} {post' : Except ε α → L → S → Prop}
    (weaker : ∀ result m t, post result m t → post' result m t)
    (holds : may world x post l s) : may world x post' l s := by
  unfold may at holds ⊢
  exact Program.may_mono (fun result t ended => weaker result.1 result.2 t ended) holds

/-- What holds of every execution holds of one that may be. -/
theorem may_and {x : Routine Op Reply L ε α} {post' : Except ε α → L → S → Prop}
    (holds : may world x post l s) (always : wp world x post' l s) :
    may world x (fun result m t => post result m t ∧ post' result m t) l s := by
  rw [may_iff_run] at holds ⊢
  obtain ⟨result, m, t, run, ended⟩ := holds
  exact ⟨result, m, t, run, ended, run_of_wp always run⟩

/-- What follows a routine with result `result`, in some execution. -/
def mayContinue (world : World Op Reply S) (next : α → Routine Op Reply L ε β)
    (post : Except ε β → L → S → Prop) (result : Except ε α) (l : L) (s : S) : Prop :=
  match result with
  | .ok value => may world (next value) post l s
  | .error e => post (.error e) l s

theorem may_bind (x : Routine Op Reply L ε α) (next : α → Routine Op Reply L ε β)
    {post : Except ε β → L → S → Prop} :
    may world (x >>= next) post l s ↔ may world x (mayContinue world next post) l s := by
  change Program.may world ((x l).bind _) _ s ↔ _
  rw [Program.may_bind]
  unfold may
  apply iff_of_eq
  congr 1
  funext result t
  obtain ⟨value | e, m⟩ := result <;> rfl

end

/-! ## Cleaning up -/

/-- Run `x`, then `cleanup`, whatever `x` ends with. -/
def ensuring (x : Routine Op Reply L ε α) (cleanup : L → Program Op Reply L) :
    Routine Op Reply L ε α := fun l =>
  (x l).bind fun result => (cleanup result.2).bind fun m => .done (result.1, m)

theorem wp_ensuring {x : Routine Op Reply L ε α} {cleanup : L → Program Op Reply L}
    {post : Except ε α → L → S → Prop} {l : L} {s : S} :
    wp world (ensuring x cleanup) post l s ↔
      wp world x (fun result m t => Program.wp world (cleanup m) (post result) t) l s := by
  unfold wp ensuring
  rw [Program.wp_bind]
  simp only [Program.wp_bind, Program.wp_done]

theorem may_ensuring {x : Routine Op Reply L ε α} {cleanup : L → Program Op Reply L}
    {post : Except ε α → L → S → Prop} {l : L} {s : S} :
    may world (ensuring x cleanup) post l s ↔
      may world x (fun result m t => Program.may world (cleanup m) (post result) t) l s := by
  unfold may ensuring
  rw [Program.may_bind]
  simp only [Program.may_bind, Program.may]

/-! ## Invariants -/

/-- No execution of `x` breaks the invariant. -/
def Keeps (world : World Op Reply S) (invariant : L → S → Prop) (x : Routine Op Reply L ε α) :
    Prop :=
  ∀ l s, invariant l s → wp world x (fun _ m t => invariant m t) l s

namespace Keeps

variable {invariant : L → S → Prop}

theorem pure (value : α) : Keeps world invariant (Pure.pure value : Routine Op Reply L ε α) :=
  fun _ _ holds => holds

theorem fail (e : ε) : Keeps world invariant (Routine.fail e : Routine Op Reply L ε α) :=
  fun _ _ holds => holds

theorem ofExcept (result : Except ε α) :
    Keeps world invariant (Routine.ofExcept result : Routine Op Reply L ε α) := by
  cases result with
  | error e => exact fail e
  | ok value => exact pure value

theorem bind {x : Routine Op Reply L ε α} {next : α → Routine Op Reply L ε β}
    (first : Keeps world invariant x) (rest : ∀ value, Keeps world invariant (next value)) :
    Keeps world invariant (x >>= next) := by
  intro l s holds
  rw [wp_bind]
  refine wp_mono ?_ (first l s holds)
  rintro (e | value) m t kept
  · exact kept
  · exact rest value m t kept

theorem request {op : Op}
    (step : ∀ l s, invariant l s →
      world.allowed s op ∧ ∀ reply t, world.reply s op reply t → invariant l t) :
    Keeps world invariant (Routine.request op : Routine Op Reply L ε (Reply op)) := step

theorem modifyStore {f : L → L} (step : ∀ l s, invariant l s → invariant (f l) s) :
    Keeps world invariant (Routine.modifyStore f : Routine Op Reply L ε Unit) := step

theorem ite {condition : Prop} [Decidable condition] {yes no : Routine Op Reply L ε α}
    (first : condition → Keeps world invariant yes)
    (second : ¬ condition → Keeps world invariant no) :
    Keeps world invariant (if condition then yes else no) := by
  by_cases holds : condition
  · rw [if_pos holds]
    exact first holds
  · rw [if_neg holds]
    exact second holds

end Keeps

end Routine

end Mmxisf.Library
