/-
# Library.Guarded -- routines that may meet a fault

A guarded routine ends with a value, with an error, or with a fault: a sum that
wraps, a division by zero, an index outside its buffer, a branch that was said to
be unreachable.  A fault is no outcome that the program could handle, so it is
not an error of the routine: it is the missing value of an `OptionT`.

`Guards` compares a routine with a guarded one: the same calls, the same end, and
no fault.  Every run of the guarded routine is then a run of the other
(`Guards.run_iff`).  The exact operations are those of unsigned arithmetic up to a
bound, with a fault where the machine's result is not the number's.
-/
import Mmxisf.Library.Lockstep

namespace Mmxisf.Library

set_option autoImplicit false

/-! ## Exact arithmetic -/

namespace Exact

variable (limit : Nat)

def add (left right : Nat) : Option Nat :=
    if left + right ≤ limit then some (left + right) else none

def multiply (left right : Nat) : Option Nat :=
  if left * right ≤ limit then some (left * right) else none

def subtract (left right : Nat) : Option Nat := if right ≤ left then some (left - right) else none

def divide (left right : Nat) : Option Nat := if right = 0 then none else some (left / right)

def remainder (left right : Nat) : Option Nat := if right = 0 then none else some (left % right)

/-- A fault unless the condition holds. -/
def require (condition : Prop) [Decidable condition] : Option Unit :=
  if condition then some () else none

variable {limit : Nat} {left right : Nat}

theorem add_eq (fits : left + right ≤ limit) : add limit left right = some (left + right) :=
    if_pos fits

theorem multiply_eq (fits : left * right ≤ limit) :
    multiply limit left right = some (left * right) := if_pos fits

theorem subtract_eq (fits : right ≤ left) : subtract left right = some (left - right) := if_pos fits

theorem divide_eq (positive : 0 < right) : divide left right = some (left / right) :=
  if_neg (Nat.ne_of_gt positive)

theorem remainder_eq (positive : 0 < right) : remainder left right = some (left % right) :=
  if_neg (Nat.ne_of_gt positive)

theorem require_eq {condition : Prop} [Decidable condition] (holds : condition) :
    require condition = some () := if_pos holds

end Exact

namespace Program

variable {Op : Type} {Reply : Op → Type} {S α β : Type}

/-- A run of the second is one of the first. -/
theorem Lockstep.run {R : α → β → Prop} {p : Program Op Reply α} {q : Program Op Reply β}
    {world : World Op Reply S} {s t : S} {b : β} (same : Lockstep R p q)
    (run : Run world q s b t) : ∃ a, R a b ∧ Run world p s a t := by
  induction same generalizing s with
  | done related =>
      cases run
      exact ⟨_, related, .done _ _⟩
  | call next ih =>
      cases run with
      | call step rest =>
          obtain ⟨a, related, earlier⟩ := ih _ rest
          exact ⟨a, related, .call step earlier⟩

/-- A run of the first is one of the second. -/
theorem Lockstep.run_left {R : α → β → Prop} {p : Program Op Reply α} {q : Program Op Reply β}
    {world : World Op Reply S} {s t : S} {a : α} (same : Lockstep R p q)
    (run : Run world p s a t) : ∃ b, R a b ∧ Run world q s b t := by
  induction same generalizing s with
  | done related =>
      cases run
      exact ⟨_, related, .done _ _⟩
  | call next ih =>
      cases run with
      | call step rest =>
          obtain ⟨b, related, later⟩ := ih _ rest
          exact ⟨b, related, .call step later⟩

end Program

/-! ## Routines that leave the store -/

/-- The store stays as it is, and a value is as `known` says, whatever the
replies are. -/
def Leaves {Op : Type} {Reply : Op → Type} {L ε α : Type} (x : Routine Op Reply L ε α)
    (known : α → Prop) : Prop :=
  ∀ l, Routine.wp (World.free Reply) x
    (fun result m _ => m = l ∧ ∀ a, result = .ok a → known a) l ()

namespace Leaves

variable {Op : Type} {Reply : Op → Type} {L ε α β : Type} {x : Routine Op Reply L ε α}
  {known known' : α → Prop}

theorem mono (weaker : ∀ a, known a → known' a) (leaves : Leaves x known) : Leaves x known' := by
  intro l
  apply Routine.wp_mono _ (leaves l)
  rintro result m _ ⟨same, value⟩
  exact ⟨same, fun a ended => weaker a (value a ended)⟩

theorem pure {a : α} (holds : known a) : Leaves (Pure.pure a : Routine Op Reply L ε α) known := by
  intro l
  refine ⟨rfl, ?_⟩
  rintro _ ⟨⟩
  exact holds

theorem fail (e : ε) : Leaves (Routine.fail e : Routine Op Reply L ε α) known := by
  intro l
  refine ⟨rfl, ?_⟩
  rintro _ ⟨⟩

theorem ofExcept {result : Except ε α} (holds : ∀ a, result = .ok a → known a) :
    Leaves (Routine.ofExcept result : Routine Op Reply L ε α) known := by
  cases result with
  | error e => exact fail e
  | ok a => exact pure (holds a rfl)

theorem request (op : Op) :
    Leaves (Routine.request op : Routine Op Reply L ε (Reply op)) fun _ => True :=
  fun _ => ⟨trivial, fun _ _ _ => ⟨rfl, fun _ _ => trivial⟩⟩

theorem bind {f : α → Routine Op Reply L ε β} {later : β → Prop} (first : Leaves x known)
    (rest : ∀ a, known a → Leaves (f a) later) : Leaves (x >>= f) later := by
  intro l
  rw [Routine.wp_bind]
  apply Routine.wp_mono _ (first l)
  rintro (e | a) m _ ⟨rfl, value⟩
  · refine ⟨rfl, ?_⟩
    rintro _ ⟨⟩
  · exact rest a (value a rfl) m

theorem ite {condition : Prop} [Decidable condition] {yes no : Routine Op Reply L ε α}
    (first : condition → Leaves yes known) (second : ¬ condition → Leaves no known) :
    Leaves (if condition then yes else no) known := by
  by_cases holds : condition
  · rw [if_pos holds]
    exact first holds
  · rw [if_neg holds]
    exact second holds

/-- A loop whose rounds yield pieces that fit. -/
theorem collect {step : Nat → Routine Op Reply L ε (List β)} {size : Nat}
    (round : ∀ total, total < size →
      Leaves (step total) fun piece => piece ≠ [] ∧ total + piece.length ≤ size) :
    Leaves (Routine.collect step size) fun all => all.length = size := by
  intro l
  have collected := @Routine.wp_collect _ _ _ _ _ (World.free Reply) l () _ step size
    (fun _ m _ => m = l) (fun _ m _ => m = l)
    (by
      rintro got m _ rfl more
      apply Routine.wp_mono _ (round got.length more m)
      rintro (e | piece) m' _ ⟨rfl, value⟩
      · rfl
      · exact ⟨(value piece rfl).1, (value piece rfl).2, rfl⟩)
    rfl
  apply Routine.wp_mono _ collected
  rintro (e | all) m _ ended
  · refine ⟨ended, ?_⟩
    rintro _ ⟨⟩
  · refine ⟨ended.2, ?_⟩
    rintro _ ⟨⟩
    exact ended.1

end Leaves

/-- A routine that may meet a fault instead of a value. -/
abbrev Guarded (Op : Type) (Reply : Op → Type) (L ε α : Type) : Type :=
  OptionT (Routine Op Reply L ε) α

namespace Guarded

variable {Op : Type} {Reply : Op → Type} {S L M ε α β : Type}

/-- A step that meets no fault. -/
def lift (x : Routine Op Reply L ε α) : Guarded Op Reply L ε α := OptionT.lift x

/-- A computation that may meet one. -/
def exactly (value : Option α) : Guarded Op Reply L ε α := OptionT.mk (pure value)

/-- A routine with a store of its own. -/
def within (init : M) (x : Guarded Op Reply M ε α) : Guarded Op Reply L ε (α × M) :=
  OptionT.mk fun l => (x.run init).bind fun result =>
    match result with
    | (.ok value, m) => .done (.ok (value.map fun value => (value, m)), l)
    | (.error e, _) => .done (.error e, l)

end Guarded

/-- `y` makes the calls of `x` and ends as `x` does, without a fault; then
`holds` is true of its value and store. -/
def Guards {Op : Type} {Reply : Op → Type} {L ε α : Type} (x : Routine Op Reply L ε α)
    (y : Guarded Op Reply L ε α) (holds : α → L → Prop) (l : L) : Prop :=
  Routine.Tracks x y.run (fun a b l m => b = some a ∧ m = l ∧ holds a l) (fun l m => m = l) l l

namespace Guards

open Routine (Tracks)

variable {Op : Type} {Reply : Op → Type} {S L M ε α β : Type} {x : Routine Op Reply L ε α}
  {y : Guarded Op Reply L ε α} {holds holds' : α → L → Prop} {l m : L}

theorem mono (weaker : ∀ a m, holds a m → holds' a m) (guards : Guards x y holds l) :
    Guards x y holds' l := by
  apply Tracks.mono _ (fun _ _ same => same) guards
  rintro a b l m ⟨same, store, left⟩
  exact ⟨same, store, weaker a l left⟩

theorem pure {a : α} (left : holds a l) :
    Guards (Pure.pure a : Routine Op Reply L ε α) (Pure.pure a) holds l :=
  Tracks.pure ⟨rfl, rfl, left⟩

/-- A step that is lifted is what it was; what is known of it holds. -/
theorem lift (known : Routine.wp (World.free Reply) x
    (fun result m _ => ∀ a, result = .ok a → holds a m) l ()) :
    Guards x (Guarded.lift x) holds l := by
  change Program.wp _ (x l) _ () at known
  change Program.Lockstep _ (x l) ((x l).bind _)
  generalize x l = p at known
  induction p with
  | done ended =>
      obtain ⟨_ | a, m⟩ := ended
      · exact .done (.error rfl)
      · exact .done (.ok ⟨rfl, rfl, known a rfl⟩)
  | call op next ih => exact .call fun reply => ih reply (known.2 reply () trivial)

/-- A step that leaves the store. -/
theorem call {known : α → Prop} (leaves : Leaves x known) :
    Guards x (Guarded.lift x) (fun a m => l = m ∧ known a) l := by
  apply lift
  apply Routine.wp_mono _ (leaves l)
  rintro result m _ ⟨same, value⟩
  exact fun a ended => ⟨same.symm, value a ended⟩

theorem bind {f : α → Routine Op Reply L ε β} {g : α → Guarded Op Reply L ε β}
    {later : β → L → Prop} (first : Guards x y holds l)
    (rest : ∀ a m, holds a m → Guards (f a) (g a) later m) :
    Guards (x >>= f) (y >>= g) later l := by
  apply Tracks.bind first
  rintro a _ _ _ ⟨rfl, rfl, left⟩
  exact rest a _ left

/-- A computation that meets no fault comes before the rest. -/
theorem exactly {value : Option α} {a : α} {x : Routine Op Reply L ε β}
    {g : α → Guarded Op Reply L ε β} {later : β → L → Prop} (same : value = some a)
    (rest : Guards x (g a) later l) : Guards x (Guarded.exactly value >>= g) later l := by
  subst same
  exact rest

/-- The store is read by the guarded routine only. -/
theorem reads {g : L → Guarded Op Reply L ε α} (rest : Guards x (g l) holds l) :
    Guards x (Guarded.lift Routine.getStore >>= g) holds l :=
  rest

/-- Both read the store. -/
theorem get {f : L → Routine Op Reply L ε α} {g : L → Guarded Op Reply L ε α}
    (rest : Guards (f l) (g l) holds l) :
    Guards (Routine.getStore >>= f) (Guarded.lift Routine.getStore >>= g) holds l :=
  rest

/-- Both store the same. -/
theorem set {f : Unit → Routine Op Reply L ε α} {g : Unit → Guarded Op Reply L ε α}
    (rest : Guards (f ()) (g ()) holds m) :
    Guards (Routine.setStore m >>= f) (Guarded.lift (Routine.setStore m) >>= g) holds l :=
  rest

/-- The other changes the store to what is stored here. -/
theorem stores {change : L → L} {f : Unit → Routine Op Reply L ε α}
    {g : Unit → Guarded Op Reply L ε α}
    (same : change l = m) (rest : Guards (f ()) (g ()) holds m) :
    Guards (Routine.modifyStore change >>= f) (Guarded.lift (Routine.setStore m) >>= g)
      holds l := by
  subst same
  exact rest

theorem stored {change : L → L} {holds : Unit → L → Prop} (same : change l = m)
    (left : holds () m) :
    Guards (Routine.modifyStore change : Routine Op Reply L ε Unit)
      (Guarded.lift (Routine.setStore m)) holds l := by
  subst same
  exact .done (.ok ⟨rfl, rfl, left⟩)

/-- A check of the other that passes. -/
theorem passes {c : Routine Op Reply L ε α} {a : α} {f : α → Routine Op Reply L ε β}
    {y : Guarded Op Reply L ε β} {later : β → L → Prop} (passed : c = Pure.pure a)
    (rest : Guards (f a) y later l) : Guards (c >>= f) y later l := by
  subst passed
  exact rest

theorem within {init : M} {x : Routine Op Reply M ε α} {y : Guarded Op Reply M ε α}
    {holds : α → M → Prop} (guards : Guards x y holds init) :
    Guards (Routine.within init x : Routine Op Reply L ε (α × M)) (Guarded.within init y)
      (fun both _ => holds both.1 both.2) l := by
  apply Program.Lockstep.bind guards
  rintro _ _ ended
  cases ended with
  | ok related =>
      obtain ⟨rfl, rfl, left⟩ := related
      exact .done (.ok ⟨rfl, rfl, left⟩)
  | error left => exact .done (.error rfl)

/-- The runs of the guarded routine are those of the other, so none meets a
fault. -/
theorem run_iff {world : World Op Reply S} {s t : S} {result : Except ε (Option α)}
    (guards : Guards x y holds l) :
    Routine.Run world y.run l s result m t ↔
      ∃ ended, result = ended.map some ∧ Routine.Run world x l s ended m t := by
  constructor
  · intro run
    obtain ⟨⟨ended, l'⟩, alike, earlier⟩ := Program.Lockstep.run guards run
    cases alike with
    | ok related =>
        obtain ⟨rfl, rfl, -⟩ := related
        exact ⟨_, rfl, earlier⟩
    | error left =>
        subst left
        exact ⟨_, rfl, earlier⟩
  · rintro ⟨ended, rfl, run⟩
    obtain ⟨⟨guardedEnd, l'⟩, alike, later⟩ := Program.Lockstep.run_left guards run
    cases alike with
    | ok related =>
        obtain ⟨rfl, rfl, -⟩ := related
        exact later
    | error left =>
        subst left
        exact later

end Guards

end Mmxisf.Library
