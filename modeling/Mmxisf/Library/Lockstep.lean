/-
# Library.Lockstep -- programs that make the same calls

Two programs are in lockstep when they call the same operations, one after the
other, whatever the replies are, and end with related values.  A program that
returns what it computes and one that stores it elsewhere are compared this way:
what every run of the first ends with, every run of the second ends with too,
up to the relation (`Program.Lockstep.wp`).

`Routine.Tracks` is the same of routines that end alike, both with a value or
both with one error.  A sequence (`Tracks.bind`), a call that does not see the
store (`Tracks.aside`) and a loop that counts what the other collects
(`Tracks.collect`) are all that later proofs use.
-/
import Mmxisf.Library.Program

namespace Mmxisf.Library

set_option autoImplicit false

/-- The world that lets everything through and may make any reply. -/
def World.free {Op : Type} (Reply : Op → Type) : World Op Reply Unit where
  allowed _ _ := True
  reply _ _ _ _ := True

namespace Program

variable {Op : Type} {Reply : Op → Type} {S α β γ δ : Type}

/-- The same calls, and related values at the end. -/
inductive Lockstep (R : α → β → Prop) : Program Op Reply α → Program Op Reply β → Prop
  | done {a : α} {b : β} (related : R a b) : Lockstep R (.done a) (.done b)
  | call {op : Op} {left : Reply op → Program Op Reply α} {right : Reply op → Program Op Reply β}
      (next : ∀ reply, Lockstep R (left reply) (right reply)) :
      Lockstep R (.call op left) (.call op right)

namespace Lockstep

variable {R : α → β → Prop} {p : Program Op Reply α} {q : Program Op Reply β}

theorem bind {R' : γ → δ → Prop} {f : α → Program Op Reply γ} {g : β → Program Op Reply δ}
    (first : Lockstep R p q) (rest : ∀ a b, R a b → Lockstep R' (f a) (g b)) :
    Lockstep R' (p.bind f) (q.bind g) := by
  induction first with
  | done related => exact rest _ _ related
  | call next ih => exact .call ih

/-- The first may still change its value. -/
theorem bind_left {R' : γ → β → Prop} {f : α → Program Op Reply γ} (first : Lockstep R p q)
    (rest : ∀ a b, R a b → Lockstep R' (f a) (.done b)) : Lockstep R' (p.bind f) q := by
  induction first with
  | done related => exact rest _ _ related
  | call next ih => exact .call ih

/-- The second may still change its value. -/
theorem bind_right {R' : α → δ → Prop} {g : β → Program Op Reply δ} (first : Lockstep R p q)
    (rest : ∀ a b, R a b → Lockstep R' (.done a) (g b)) : Lockstep R' p (q.bind g) := by
  induction first with
  | done related => exact rest _ _ related
  | call next ih => exact .call ih

/-- What the first ends with, the second ends with. -/
theorem wp {world : World Op Reply S} {post : α → S → Prop} {s : S} (same : Lockstep R p q)
    (holds : Program.wp world p post s) :
    Program.wp world q (fun b t => ∃ a, R a b ∧ post a t) s := by
  induction same generalizing s with
  | done related => exact ⟨_, related, holds⟩
  | call next ih =>
      constructor
      · exact holds.1
      · intro reply t step
        exact ih reply (holds.2 reply t step)

/-- What holds of the values of the first whatever the replies are. -/
theorem strengthen {P : α → Prop} (same : Lockstep R p q)
    (holds : Program.wp (World.free Reply) p (fun a _ => P a) ()) :
    Lockstep (fun a b => R a b ∧ P a) p q := by
  induction same with
  | done related => exact .done ⟨related, holds⟩
  | call next ih => exact .call fun reply => ih reply (holds.2 reply () trivial)

/-- A program and what follows it with a call of its own. -/
theorem map_right {f : α → β} (p : Program Op Reply α) (related : ∀ a, R a (f a)) :
    Lockstep R p (p.bind fun a => .done (f a)) := by
  induction p with
  | done a => exact .done (related a)
  | call op next ih => exact .call ih

end Lockstep

end Program

namespace Routine

variable {Op : Type} {Reply : Op → Type} {S L M ε α β γ δ : Type}

/-- Run `x` on a store of its own that nothing looks at afterwards. -/
def aside (init : L) (x : Routine Op Reply L ε α) : Routine Op Reply M ε α := fun m =>
  (x init).bind fun result => .done (result.1, m)

@[simp] theorem wp_aside {world : World Op Reply S} {init : L} {x : Routine Op Reply L ε α}
    {post : Except ε α → M → S → Prop} {m : M} {s : S} :
    wp world (aside init x) post m s ↔ wp world x (fun result _ t => post result m t) init s := by
  change Program.wp world ((x init).bind _) _ s ↔ _
  rw [Program.wp_bind]
  exact Iff.rfl

/-- Both with a value, or both with one error. -/
inductive EndAlike (ok : α → β → L → M → Prop) (failed : L → M → Prop) :
    Except ε α × L → Except ε β × M → Prop
  | ok {a : α} {b : β} {l : L} {m : M} (related : ok a b l m) :
      EndAlike ok failed (.ok a, l) (.ok b, m)
  | error {e : ε} {l : L} {m : M} (left : failed l m) :
      EndAlike ok failed (.error e, l) (.error e, m)

/-- `y` makes the calls that `x` makes and ends as `x` does. -/
def Tracks (x : Routine Op Reply L ε α) (y : Routine Op Reply M ε β)
    (ok : α → β → L → M → Prop) (failed : L → M → Prop) (l : L) (m : M) : Prop :=
  Program.Lockstep (EndAlike ok failed) (x l) (y m)

namespace Tracks

variable {x : Routine Op Reply L ε α} {y : Routine Op Reply M ε β}
  {ok : α → β → L → M → Prop} {failed : L → M → Prop} {l : L} {m : M}

theorem pure {a : α} {b : β} (related : ok a b l m) :
    Tracks (Pure.pure a : Routine Op Reply L ε α) (Pure.pure b : Routine Op Reply M ε β) ok failed
      l m :=
  .done (.ok related)

theorem fail {e : ε} (left : failed l m) :
    Tracks (Routine.fail e : Routine Op Reply L ε α) (Routine.fail e : Routine Op Reply M ε β) ok
      failed l m :=
  .done (.error left)

theorem bind {f : α → Routine Op Reply L ε γ} {g : β → Routine Op Reply M ε δ}
    {ok' : γ → δ → L → M → Prop} (first : Tracks x y ok failed l m)
    (rest : ∀ a b l' m', ok a b l' m' → Tracks (f a) (g b) ok' failed l' m') :
    Tracks (x >>= f) (y >>= g) ok' failed l m := by
  refine Program.Lockstep.bind first ?_
  rintro _ _ ended
  cases ended with
  | ok related => exact rest _ _ _ _ related
  | error left => exact .done (.error left)

/-- The first may still change its value. -/
theorem bind_left {f : α → Routine Op Reply L ε γ} {ok' : γ → β → L → M → Prop}
    (first : Tracks x y ok failed l m)
    (rest : ∀ a b l' m', ok a b l' m' →
      Tracks (f a) (Pure.pure b : Routine Op Reply M ε β) ok' failed l' m') :
    Tracks (x >>= f) y ok' failed l m := by
  refine Program.Lockstep.bind_left first ?_
  rintro _ _ ended
  cases ended with
  | ok related => exact rest _ _ _ _ related
  | error left => exact .done (.error left)

/-- The second may still change its value. -/
theorem bind_right {g : β → Routine Op Reply M ε δ} {ok' : α → δ → L → M → Prop}
    (first : Tracks x y ok failed l m)
    (rest : ∀ a b l' m', ok a b l' m' →
      Tracks (Pure.pure a : Routine Op Reply L ε α) (g b) ok' failed l' m') :
    Tracks x (y >>= g) ok' failed l m := by
  refine Program.Lockstep.bind_right first ?_
  rintro _ _ ended
  cases ended with
  | ok related => exact rest _ _ _ _ related
  | error left => exact .done (.error left)

theorem mono {ok' : α → β → L → M → Prop} {failed' : L → M → Prop}
    (values : ∀ a b l m, ok a b l m → ok' a b l m) (errors : ∀ l m, failed l m → failed' l m)
    (tracks : Tracks x y ok failed l m) : Tracks x y ok' failed' l m := by
  unfold Tracks at tracks ⊢
  generalize x l = p at tracks ⊢
  generalize y m = q at tracks ⊢
  induction tracks with
  | done ended =>
      cases ended with
      | ok related => exact .done (.ok (values _ _ _ _ related))
      | error left => exact .done (.error (errors _ _ left))
  | call next ih => exact .call ih

/-- A call that does not see the store leaves it. -/
theorem aside (x : Routine Op Reply L ε α) :
    Tracks x (Routine.aside l x : Routine Op Reply M ε α) (fun a b _ m' => b = a ∧ m' = m)
      (fun _ m' => m' = m) l m := by
  apply Program.Lockstep.map_right
  rintro ⟨_ | a, l'⟩
  · exact .error rfl
  · exact .ok ⟨rfl, rfl⟩

/-- A check or a call aside, and then both go on. -/
theorem aside_bind {c : Routine Op Reply L ε γ} {f : γ → Routine Op Reply L ε α}
    {g : γ → Routine Op Reply M ε β} (kept : ∀ l', failed l' m)
    (rest : ∀ a l', Tracks (f a) (g a) ok failed l' m) :
    Tracks (c >>= f) (Routine.aside l c >>= g) ok failed l m := by
  have first : Tracks c (Routine.aside l c) (fun a b _ m' => b = a ∧ m' = m) failed l m := by
    refine (Tracks.aside c).mono (fun _ _ _ _ same => same) ?_
    rintro l' _ rfl
    exact kept l'
  apply first.bind
  rintro a _ l' _ ⟨rfl, rfl⟩
  exact rest _ l'

/-- A change of the second store. -/
theorem modify_bind {f : M → M} {g : Unit → Routine Op Reply M ε β}
    (rest : Tracks x (g ()) ok failed l (f m)) :
    Tracks x (modifyStore f >>= g) ok failed l m :=
  rest

/-- What holds of the values of the first whatever the replies are. -/
theorem strengthen {P : α → Prop} (tracks : Tracks x y ok failed l m)
    (holds : Routine.wp (World.free Reply) x (fun result _ _ => ∀ a, result = .ok a → P a) l ()) :
    Tracks x y (fun a b l m => ok a b l m ∧ P a) failed l m := by
  have both := Program.Lockstep.strengthen tracks holds
  unfold Tracks
  generalize x l = p at both
  generalize y m = q at both
  induction both with
  | done ended =>
      obtain ⟨alike, value⟩ := ended
      cases alike with
      | ok related => exact .done (.ok ⟨related, value _ rfl⟩)
      | error left => exact .done (.error left)
  | call next ih => exact .call ih

/-- What every run of the first ends with, every run of the second ends with. -/
theorem wp {world : World Op Reply S} {post : Except ε α → L → S → Prop} {s : S}
    (tracks : Tracks x y ok failed l m) (holds : Routine.wp world x post l s) :
    Routine.wp world y (fun result m' t =>
      match result with
      | .ok b => ∃ a l', ok a b l' m' ∧ post (.ok a) l' t
      | .error e => ∃ l', failed l' m' ∧ post (.error e) l' t) m s := by
  unfold Routine.wp at holds ⊢
  refine Program.wp_mono ?_ (Program.Lockstep.wp tracks holds)
  rintro _ t ⟨_, ended, reached⟩
  cases ended with
  | ok related => exact ⟨_, _, related, reached⟩
  | error left => exact ⟨_, left, reached⟩

end Tracks

/-! ## A loop that counts -/

/-- `while (total < size) total += step(total)`, when `step` stores its piece
elsewhere and returns its length. -/
def countFrom (step : Nat → Routine Op Reply M ε Nat) (size : Nat) :
    Nat → Nat → Routine Op Reply M ε Nat
  | 0, total => pure total
  | fuel + 1, total =>
      if total < size then do
        let count ← step total
        countFrom step size fuel (total + count)
      else pure total

def count (step : Nat → Routine Op Reply M ε Nat) (size : Nat) : Routine Op Reply M ε Nat :=
  countFrom step size size 0

variable {collects : Nat → Routine Op Reply L ε (List β)} {counts : Nat → Routine Op Reply M ε Nat}
  {size : Nat} {stored : List β → L → M → Prop} {failed : L → M → Prop}

/-- One round stores the piece that the other returns. -/
def TracksRounds (collects : Nat → Routine Op Reply L ε (List β))
    (counts : Nat → Routine Op Reply M ε Nat) (size : Nat) (stored : List β → L → M → Prop)
    (failed : L → M → Prop) : Prop :=
  ∀ got l m, stored got l m → got.length < size →
    Tracks (collects got.length) (counts got.length)
      (fun piece number l' m' => number = piece.length ∧ stored (got ++ piece) l' m') failed l m

theorem Tracks.collectFrom (rounds : TracksRounds collects counts size stored failed) :
    ∀ fuel got l m, stored got l m →
      Tracks (Routine.collectFrom collects size fuel got.length)
        (countFrom counts size fuel got.length)
        (fun rest total l' m' => total = got.length + rest.length ∧ stored (got ++ rest) l' m')
        failed l m := by
  intro fuel
  induction fuel with
  | zero =>
      intro got l m holds
      apply Tracks.pure
      rw [List.append_nil]
      exact ⟨rfl, holds⟩
  | succ fuel ih =>
      intro got l m holds
      unfold Routine.collectFrom countFrom
      by_cases more : got.length < size
      · rw [if_pos more, if_pos more]
        apply (rounds got l m holds more).bind
        rintro piece _ l' m' ⟨rfl, kept⟩
        have later := ih (got ++ piece) l' m' kept
        rw [List.length_append] at later
        -- the first still puts its pieces together, the second has counted them already
        apply later.bind_left
        rintro rest total l'' m'' ⟨rfl, final⟩
        apply Tracks.pure
        rw [List.append_assoc] at final
        refine ⟨?_, final⟩
        rw [List.length_append, Nat.add_assoc]
      · rw [if_neg more, if_neg more]
        apply Tracks.pure
        rw [List.append_nil]
        exact ⟨rfl, holds⟩

/-- The loop stores what the other collects. -/
theorem Tracks.collect {l : L} {m : M} (rounds : TracksRounds collects counts size stored failed)
    (start : stored [] l m) :
    Tracks (Routine.collect collects size) (count counts size)
      (fun all total l' m' => total = all.length ∧ stored all l' m') failed l m := by
  refine (Tracks.collectFrom rounds size [] l m start).mono ?_ fun _ _ left => left
  rintro all total l' m' ⟨same, holds⟩
  rw [List.length_nil, Nat.zero_add] at same
  exact ⟨same, holds⟩

end Routine

end Mmxisf.Library
