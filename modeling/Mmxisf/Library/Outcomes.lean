/-
# Library.Outcomes -- what is so where a routine ends

`Routine.Ends` says of a routine what is so of its value, its store and the world
when it returns, and what is so of the store and the world when it fails.  It has a
rule for each way to build a routine; a sequence weakens what the first part fails
with and goes on from what it returns with.
-/
import Mmxisf.Library.Executions

namespace Mmxisf.Library

set_option autoImplicit false

/-- One of the two ends. -/
inductive Outcome {ε α L S : Type} (value : α → L → S → Prop) (failed : L → S → Prop) :
    Except ε α → L → S → Prop
  | ok {a : α} {l : L} {s : S} (known : value a l s) : Outcome value failed (.ok a) l s
  | error {e : ε} {l : L} {s : S} (known : failed l s) : Outcome value failed (.error e) l s

namespace Routine

variable {Op : Type} {Reply : Op → Type} {S L ε α β : Type} {world : World Op Reply S}

/-- What is so where `x` ends. -/
def Ends (world : World Op Reply S) (x : Routine Op Reply L ε α) (value : α → L → S → Prop)
    (failed : L → S → Prop) (l : L) (s : S) : Prop :=
  wp world x (Outcome value failed) l s

namespace Ends

variable {x : Routine Op Reply L ε α} {value value' : α → L → S → Prop}
  {failed failed' : L → S → Prop} {l : L} {s : S}

theorem mono (ends : Ends world x value failed l s)
    (weaker : ∀ a m t, value a m t → value' a m t)
    (weakerFailed : ∀ m t, failed m t → failed' m t) : Ends world x value' failed' l s := by
  refine wp_mono ?_ ends
  rintro result m t (known | known)
  · exact .ok (weaker _ m t known)
  · exact .error (weakerFailed m t known)

theorem pure {a : α} (known : value a l s) :
    Ends world (Pure.pure a : Routine Op Reply L ε α) value failed l s :=
  Outcome.ok known

theorem fail {e : ε} (known : failed l s) :
    Ends world (Routine.fail e : Routine Op Reply L ε α) value failed l s :=
  Outcome.error known

theorem ofExcept {result : Except ε α} (known : ∀ a, result = .ok a → value a l s)
    (knownFailed : failed l s) :
    Ends world (Routine.ofExcept result : Routine Op Reply L ε α) value failed l s := by
  cases result with
  | error e => exact fail knownFailed
  | ok a => exact pure (known a rfl)

theorem request {op : Op} {value : Reply op → L → S → Prop} (lets : world.allowed s op)
    (known : ∀ reply t, world.reply s op reply t → value reply l t) :
    Ends world (Routine.request op : Routine Op Reply L ε (Reply op)) value failed l s :=
  ⟨lets, fun reply t step => Outcome.ok (known reply t step)⟩

theorem modifyStore {f : L → L} {value : Unit → L → S → Prop} (known : value () (f l) s) :
    Ends world (Routine.modifyStore f : Routine Op Reply L ε Unit) value failed l s :=
  Outcome.ok known

/-- A change of the store, and what follows it. -/
theorem modify {f : L → L} {next : Unit → Routine Op Reply L ε β} {later : β → L → S → Prop}
    (rest : Ends world (next ()) later failed (f l) s) :
    Ends world (Routine.modifyStore f >>= next) later failed l s := by
  unfold Ends
  rw [wp_bind]
  exact rest

/-- A sequence. -/
theorem bind {next : α → Routine Op Reply L ε β} {later : β → L → S → Prop}
    {stopped : L → S → Prop} (first : Ends world x value failed l s)
    (stops : ∀ m t, failed m t → stopped m t)
    (rest : ∀ a m t, value a m t → Ends world (next a) later stopped m t) :
    Ends world (x >>= next) later stopped l s := by
  unfold Ends
  rw [wp_bind]
  refine wp_mono ?_ first
  rintro result m t (known | known)
  · exact rest _ m t known
  · exact Outcome.error (stops m t known)

theorem ite {condition : Prop} [Decidable condition] {yes no : Routine Op Reply L ε α}
    (first : condition → Ends world yes value failed l s)
    (second : ¬ condition → Ends world no value failed l s) :
    Ends world (if condition then yes else no) value failed l s := by
  by_cases holds : condition
  · rw [if_pos holds]
    exact first holds
  · rw [if_neg holds]
    exact second holds

/-- A cleanup comes after either end. -/
theorem ensuring {cleanup : L → Program Op Reply L} {later : α → L → S → Prop}
    {stopped : L → S → Prop} (first : Ends world x value failed l s)
    (cleans : ∀ a m t, value a m t → Program.wp world (cleanup m) (later a) t)
    (cleansFailed : ∀ m t, failed m t → Program.wp world (cleanup m) stopped t) :
    Ends world (Routine.ensuring x cleanup) later stopped l s := by
  unfold Ends
  rw [wp_ensuring]
  refine wp_mono ?_ first
  rintro result m t (known | known)
  · exact Program.wp_mono (fun n u ended => Outcome.ok ended) (cleans _ m t known)
  · exact Program.wp_mono (fun n u ended => Outcome.error ended) (cleansFailed m t known)

end Ends

end Routine

end Mmxisf.Library
