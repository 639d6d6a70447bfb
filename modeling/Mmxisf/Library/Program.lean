/-
# Library.Program -- programs that call their environment

A `Program` is a finite tree: it is done with a value, or it calls an operation
and continues with the reply.  Nothing is said about the environment: a `World`
gives the operations it lets through and the replies it may make, as a relation
on a state of its own, so one program is run against a file system, against a
source that keeps its bytes, or against an adversary that never repeats itself.

A `Routine` is a program with a local store and errors.  The store survives an
error: what a routine had written when it failed is still there.

`wp` is the weakest precondition of both; `Run` is what one complete execution
is.  The rules below are the only facts later proofs use:

* `Program.wp_bind`, `Routine.wp_bind`: a sequence is its parts;
* `Routine.wp_request`: one call of the environment;
* `Routine.wp_within`: a routine with a store of its own;
* `Routine.wp_collect`: a loop that fills a buffer of known size;
* `Program.run_of_wp`, `Routine.run_of_wp`: every execution ends as `wp` says.
-/
import Mathlib.Logic.Basic
import Mathlib.Tactic.Common

namespace Mmxisf.Library

set_option autoImplicit false

/-- A program over the operations `Op`, each with the type of its reply. -/
inductive Program (Op : Type) (Reply : Op → Type) (α : Type) : Type
  | done (value : α)
  | call (op : Op) (next : Reply op → Program Op Reply α)

/-- An environment: the operations it lets through in a state, and the replies
it may make with the state that follows. -/
structure World (Op : Type) (Reply : Op → Type) (S : Type) where
  allowed : S → Op → Prop
  reply : S → (op : Op) → Reply op → S → Prop

/-- Every operation has a reply in every state. -/
def World.Live {Op : Type} {Reply : Op → Type} {S : Type} (world : World Op Reply S) : Prop :=
  ∀ s op, ∃ reply t, world.reply s op reply t

namespace Program

variable {Op : Type} {Reply : Op → Type} {S α β γ : Type}

/-- Continue `p` with `next` at its value. -/
def bind : Program Op Reply α → (α → Program Op Reply β) → Program Op Reply β
  | .done value, next => next value
  | .call op rest, next => .call op fun reply => bind (rest reply) next

instance : Monad (Program Op Reply) where
  pure := .done
  bind := bind

@[simp] theorem bind_done (value : α) (next : α → Program Op Reply β) :
    (Program.done value).bind next = next value := rfl

@[simp] theorem bind_call (op : Op) (rest : Reply op → Program Op Reply α)
    (next : α → Program Op Reply β) :
    (Program.call op rest).bind next = .call op fun reply => (rest reply).bind next := rfl

/-- Weakest precondition: every operation is let through, and every execution
ends with `post`. -/
def wp (world : World Op Reply S) :
    Program Op Reply α → (α → S → Prop) → S → Prop
  | .done value, post, s => post value s
  | .call op next, post, s =>
      world.allowed s op ∧ ∀ reply t, world.reply s op reply t → wp world (next reply) post t

/-- One complete execution, from `s` with value `value` in `t`. -/
inductive Run (world : World Op Reply S) : Program Op Reply α → S → α → S → Prop
  | done (value : α) (s : S) : Run world (.done value) s value s
  | call {op : Op} {next : Reply op → Program Op Reply α} {s t u : S} {reply : Reply op}
      {value : α} (step : world.reply s op reply t) (rest : Run world (next reply) t value u) :
      Run world (.call op next) s value u

variable {world : World Op Reply S}

@[simp] theorem wp_done (value : α) (post : α → S → Prop) (s : S) :
    wp world (.done value) post s ↔ post value s := Iff.rfl

@[simp] theorem wp_call (op : Op) (next : Reply op → Program Op Reply α)
    (post : α → S → Prop) (s : S) :
    wp world (.call op next) post s ↔
      world.allowed s op ∧ ∀ reply t, world.reply s op reply t → wp world (next reply) post t :=
  Iff.rfl

theorem wp_mono {p : Program Op Reply α} {post post' : α → S → Prop}
    (weaker : ∀ value t, post value t → post' value t) {s : S}
    (holds : wp world p post s) : wp world p post' s := by
  induction p generalizing s with
  | done value => exact weaker value s holds
  | call op next ih => exact ⟨holds.1, fun reply t step => ih reply (holds.2 reply t step)⟩

theorem wp_bind (p : Program Op Reply α) (next : α → Program Op Reply β)
    (post : β → S → Prop) (s : S) :
    wp world (p.bind next) post s ↔
      wp world p (fun value t => wp world (next value) post t) s := by
  induction p generalizing s with
  | done value => rfl
  | call op rest ih =>
      simp only [bind_call, wp_call]
      exact and_congr_right fun _ =>
        forall_congr' fun reply => forall_congr' fun t => imp_congr_right fun _ => ih reply t

theorem wp_and {p : Program Op Reply α} {post post' : α → S → Prop} {s : S}
    (left : wp world p post s) (right : wp world p post' s) :
    wp world p (fun value t => post value t ∧ post' value t) s := by
  induction p generalizing s with
  | done value => exact ⟨left, right⟩
  | call op next ih =>
      exact ⟨left.1, fun reply t step => ih reply (left.2 reply t step) (right.2 reply t step)⟩

/-- Every execution ends as the weakest precondition says. -/
theorem run_of_wp {p : Program Op Reply α} {post : α → S → Prop} {s t : S} {value : α}
    (holds : wp world p post s) (run : Run world p s value t) : post value t := by
  induction run with
  | done value s => exact holds
  | call step rest ih => exact ih (holds.2 _ _ step)

/-- Where every operation has a reply, some execution ends. -/
theorem exists_run (live : world.Live) (p : Program Op Reply α) (s : S) :
    ∃ value t, Run world p s value t := by
  induction p generalizing s with
  | done value => exact ⟨value, s, .done value s⟩
  | call op next ih =>
      obtain ⟨reply, t, step⟩ := live s op
      obtain ⟨value, u, rest⟩ := ih reply t
      exact ⟨value, u, .call step rest⟩

end Program

/-- A program with a local store `L` and errors `ε`; the store survives an
error. -/
def Routine (Op : Type) (Reply : Op → Type) (L ε α : Type) : Type :=
  L → Program Op Reply (Except ε α × L)

namespace Routine

variable {Op : Type} {Reply : Op → Type} {S L M ε α β : Type}

protected def pure (value : α) : Routine Op Reply L ε α := fun l => .done (.ok value, l)

/-- Continue with `next` at the value; an error ends the routine. -/
protected def bind (x : Routine Op Reply L ε α) (next : α → Routine Op Reply L ε β) :
    Routine Op Reply L ε β := fun l =>
  (x l).bind fun result =>
    match result with
    | (.ok value, m) => next value m
    | (.error e, m) => .done (.error e, m)

instance : Monad (Routine Op Reply L ε) where
  pure := Routine.pure
  bind := Routine.bind

/-- Stop with an error. -/
def fail (e : ε) : Routine Op Reply L ε α := fun l => .done (.error e, l)

/-- A result that is already there. -/
def ofExcept : Except ε α → Routine Op Reply L ε α
  | .ok value => Routine.pure value
  | .error e => fail e

/-- One call of the environment. -/
def request (op : Op) : Routine Op Reply L ε (Reply op) := fun l =>
  .call op fun reply => .done (.ok reply, l)

def getStore : Routine Op Reply L ε L := fun l => .done (.ok l, l)

def setStore (l : L) : Routine Op Reply L ε Unit := fun _ => .done (.ok (), l)

def modifyStore (f : L → L) : Routine Op Reply L ε Unit := fun l => .done (.ok (), f l)

/-- Run `x` on a store of its own, starting as `init`; its final store is part
of the value. -/
def within (init : M) (x : Routine Op Reply M ε α) : Routine Op Reply L ε (α × M) := fun l =>
  (x init).bind fun result =>
    match result with
    | (.ok value, m) => .done (.ok (value, m), l)
    | (.error e, _) => .done (.error e, l)

/-- Weakest precondition of a routine. -/
def wp (world : World Op Reply S) (x : Routine Op Reply L ε α)
    (post : Except ε α → L → S → Prop) (l : L) (s : S) : Prop :=
  Program.wp world (x l) (fun result t => post result.1 result.2 t) s

/-- One complete execution of a routine. -/
def Run (world : World Op Reply S) (x : Routine Op Reply L ε α) (l : L) (s : S)
    (result : Except ε α) (m : L) (t : S) : Prop :=
  Program.Run world (x l) s (result, m) t

variable {world : World Op Reply S} {post : Except ε α → L → S → Prop} {l : L} {s : S}

@[simp] theorem wp_pure (value : α) :
    wp world (pure value : Routine Op Reply L ε α) post l s ↔ post (.ok value) l s := Iff.rfl

@[simp] theorem wp_fail (e : ε) :
    wp world (fail e : Routine Op Reply L ε α) post l s ↔ post (.error e) l s := Iff.rfl

@[simp] theorem wp_ofExcept (result : Except ε α) :
    wp world (ofExcept result : Routine Op Reply L ε α) post l s ↔ post result l s := by
  cases result <;> rfl

@[simp] theorem wp_request (op : Op) {post : Except ε (Reply op) → L → S → Prop} :
    wp world (request op : Routine Op Reply L ε (Reply op)) post l s ↔
      world.allowed s op ∧ ∀ reply t, world.reply s op reply t → post (.ok reply) l t := Iff.rfl

@[simp] theorem wp_getStore {post : Except ε L → L → S → Prop} :
    wp world (getStore : Routine Op Reply L ε L) post l s ↔ post (.ok l) l s := Iff.rfl

@[simp] theorem wp_setStore (m : L) {post : Except ε Unit → L → S → Prop} :
    wp world (setStore m : Routine Op Reply L ε Unit) post l s ↔ post (.ok ()) m s := Iff.rfl

@[simp] theorem wp_modifyStore (f : L → L) {post : Except ε Unit → L → S → Prop} :
    wp world (modifyStore f : Routine Op Reply L ε Unit) post l s ↔ post (.ok ()) (f l) s := Iff.rfl

/-- What follows a routine with result `result`. -/
def continueWith (world : World Op Reply S) (next : α → Routine Op Reply L ε β)
    (post : Except ε β → L → S → Prop) (result : Except ε α) (l : L) (s : S) : Prop :=
  match result with
  | .ok value => wp world (next value) post l s
  | .error e => post (.error e) l s

@[simp] theorem continueWith_ok (next : α → Routine Op Reply L ε β)
    (post : Except ε β → L → S → Prop) (value : α) :
    continueWith world next post (.ok value) l s ↔ wp world (next value) post l s := Iff.rfl

@[simp] theorem continueWith_error (next : α → Routine Op Reply L ε β)
    (post : Except ε β → L → S → Prop) (e : ε) :
    continueWith world next post (.error e) l s ↔ post (.error e) l s := Iff.rfl

@[simp] theorem wp_bind (x : Routine Op Reply L ε α) (next : α → Routine Op Reply L ε β)
    {post : Except ε β → L → S → Prop} :
    wp world (x >>= next) post l s ↔ wp world x (continueWith world next post) l s := by
  change Program.wp world ((x l).bind _) _ s ↔ _
  rw [Program.wp_bind]
  unfold wp
  apply iff_of_eq
  congr 1
  funext result t
  obtain ⟨value | e, m⟩ := result <;> rfl

@[simp] theorem wp_within (init : M) (x : Routine Op Reply M ε α)
    {post : Except ε (α × M) → L → S → Prop} :
    wp world (within init x : Routine Op Reply L ε (α × M)) post l s ↔
      wp world x (fun result m t => post (result.map fun value => (value, m)) l t) init s := by
  change Program.wp world ((x init).bind _) _ s ↔ _
  rw [Program.wp_bind]
  unfold wp
  apply iff_of_eq
  congr 1
  funext result t
  obtain ⟨value | e, m⟩ := result <;> rfl

theorem ofExcept_ok_bind (value : α) (next : α → Routine Op Reply L ε β) :
    (ofExcept (.ok value) : Routine Op Reply L ε α) >>= next = next value := rfl

theorem ofExcept_error_bind (e : ε) (next : α → Routine Op Reply L ε β) :
    (ofExcept (.error e) : Routine Op Reply L ε α) >>= next = fail e := rfl

theorem wp_mono {x : Routine Op Reply L ε α} {post' : Except ε α → L → S → Prop}
    (weaker : ∀ result m t, post result m t → post' result m t)
    (holds : wp world x post l s) : wp world x post' l s := by
  unfold wp at holds ⊢
  refine Program.wp_mono ?_ holds
  intro result t ended
  exact weaker result.1 result.2 t ended

theorem wp_and {x : Routine Op Reply L ε α} {post' : Except ε α → L → S → Prop}
    (left : wp world x post l s) (right : wp world x post' l s) :
    wp world x (fun result m t => post result m t ∧ post' result m t) l s := by
  unfold wp at left right ⊢
  exact Program.wp_and left right

/-- Every execution of a routine ends as the weakest precondition says. -/
theorem run_of_wp {x : Routine Op Reply L ε α} {result : Except ε α} {m : L} {t : S}
    (holds : wp world x post l s) (run : Run world x l s result m t) : post result m t := by
  unfold wp at holds
  exact @Program.run_of_wp _ _ _ _ _ _ _ _ _ (result, m) holds run

/-- Some execution ends, and every execution ends with this result. -/
def EndsWith (world : World Op Reply S) (x : Routine Op Reply L ε α) (l : L) (s : S)
    (result : Except ε α) : Prop :=
  wp world x (fun ended _ _ => ended = result) l s ∧ ∃ m t, Run world x l s result m t

theorem endsWith_of_wp {x : Routine Op Reply L ε α} {result : Except ε α} (live : world.Live)
    (ends : wp world x (fun ended _ _ => ended = result) l s) : EndsWith world x l s result := by
  obtain ⟨⟨ended, m⟩, t, run⟩ := Program.exists_run live (x l) s
  obtain rfl := run_of_wp ends run
  exact ⟨ends, m, t, run⟩

/-- What holds of every execution holds of the result that it ends with. -/
theorem EndsWith.holds {x : Routine Op Reply L ε α} {result : Except ε α}
    {post : Except ε α → Prop} (ends : EndsWith world x l s result)
    (every : wp world x (fun ended _ _ => post ended) l s) : post result := by
  obtain ⟨m, t, run⟩ := ends.2
  exact run_of_wp every run

/-! ## Loops -/

section Collect

variable {β : Type}

/-- `while (total < size) total += step(total)`: the pieces that `step` yields,
in order.  `fuel` bounds the rounds. -/
def collectFrom (step : Nat → Routine Op Reply L ε (List β)) (size : Nat) :
    Nat → Nat → Routine Op Reply L ε (List β)
  | 0, _ => pure []
  | fuel + 1, total =>
      if total < size then do
        let piece ← step total
        let rest ← collectFrom step size fuel (total + piece.length)
        pure (piece ++ rest)
      else pure []

/-- The loop from the start.  Every piece has an element, so `size` rounds are
enough. -/
def collect (step : Nat → Routine Op Reply L ε (List β)) (size : Nat) :
    Routine Op Reply L ε (List β) :=
  collectFrom step size size 0

variable {step : Nat → Routine Op Reply L ε (List β)} {size : Nat}
  {invariant : List β → L → S → Prop} {failed : ε → L → S → Prop}

/-- What one round must do: a nonempty piece that fits, keeping the invariant of
what was collected. -/
def KeepsCollecting (world : World Op Reply S) (step : Nat → Routine Op Reply L ε (List β))
    (size : Nat) (invariant : List β → L → S → Prop) (failed : ε → L → S → Prop) : Prop :=
  ∀ got l s, invariant got l s → got.length < size →
    wp world (step got.length)
      (fun result m t =>
        match result with
        | .ok piece => piece ≠ [] ∧ got.length + piece.length ≤ size ∧ invariant (got ++ piece) m t
        | .error e => failed e m t) l s

theorem wp_collectFrom (keeps : KeepsCollecting world step size invariant failed) :
    ∀ fuel got l s, invariant got l s → got.length ≤ size → size - got.length ≤ fuel →
      wp world (collectFrom step size fuel got.length)
        (fun result m t =>
          match result with
          | .ok rest => got.length + rest.length = size ∧ invariant (got ++ rest) m t
          | .error e => failed e m t) l s := by
  intro fuel
  induction fuel with
  | zero =>
      intro got l s holds within enough
      simp only [collectFrom, wp_pure, List.length_nil, List.append_nil]
      exact ⟨by omega, holds⟩
  | succ fuel ih =>
      intro got l s holds within enough
      unfold collectFrom
      by_cases more : got.length < size
      · rw [if_pos more, wp_bind]
        refine wp_mono ?_ (keeps got l s holds more)
        rintro (e | piece) m t ended
        · exact ended
        · obtain ⟨nonempty, fits, kept⟩ := ended
          have grows : 0 < piece.length := List.length_pos_iff.mpr nonempty
          rw [continueWith_ok, wp_bind, ← List.length_append]
          refine wp_mono ?_ (ih (got ++ piece) m t kept ?_ ?_)
          · rintro (e | rest) n u finished
            · exact finished
            · obtain ⟨total, final⟩ := finished
              rw [List.length_append] at total
              rw [List.append_assoc] at final
              simp only [continueWith_ok, wp_pure, List.length_append]
              exact ⟨by omega, final⟩
          · simpa only [List.length_append] using fits
          · simp only [List.length_append]
            omega
      · rw [if_neg more]
        simp only [wp_pure, List.length_nil, List.append_nil]
        exact ⟨by omega, holds⟩

/-- The loop collects exactly `size` elements, and what each round keeps holds
of all of them. -/
theorem wp_collect (keeps : KeepsCollecting world step size invariant failed)
    (start : invariant [] l s) :
    wp world (collect step size)
      (fun result m t =>
        match result with
        | .ok all => all.length = size ∧ invariant all m t
        | .error e => failed e m t) l s := by
  refine wp_mono ?_ (wp_collectFrom keeps size [] l s start (Nat.zero_le _) (Nat.sub_le _ _))
  rintro (e | all) m t ended
  · exact ended
  · simpa only [List.length_nil, Nat.zero_add, List.nil_append] using ended

end Collect

end Routine

end Mmxisf.Library
