/-
# Trimming -- a text and the whitespace around it

The value grammars are of a text without the whitespace around it.  Here that is
said without the function that trims: `Trimmed text core` holds when `text` is
`core` between whitespace and `core` neither begins nor ends with whitespace.
There is one such core (`trim_iff`), and it is what `trimXmlWhitespace` returns.
-/
import Mmxisf.Values

namespace Mmxisf

set_option autoImplicit false

/-- Nothing but whitespace. -/
def IsBlank (text : Text) : Prop := ∀ c ∈ text, isXmlWhitespace c = true

/-- No whitespace at either end. -/
structure IsTight (core : Text) : Prop where
  first : ∀ c, core.head? = some c → isXmlWhitespace c = false
  last : ∀ c, core.getLast? = some c → isXmlWhitespace c = false

/-- A text is `core` with whitespace around it. -/
structure Trimmed (text core : Text) : Prop where
  around : ∃ before after, text = before ++ core ++ after ∧ IsBlank before ∧ IsBlank after
  tight : IsTight core

theorem isBlank_takeWhile (text : Text) : IsBlank (text.takeWhile isXmlWhitespace) :=
  fun c member => List.all_eq_true.mp List.all_takeWhile c member

theorem IsBlank.reverse {text : Text} (blank : IsBlank text) : IsBlank text.reverse :=
  fun c member => blank c (List.mem_reverse.mp member)

/-- What stands before a text that begins otherwise is dropped. -/
theorem dropWhile_blank {before rest : Text} (blank : IsBlank before)
    (first : ∀ c, rest.head? = some c → isXmlWhitespace c = false) :
    (before ++ rest).dropWhile isXmlWhitespace = rest := by
  induction before with
  | nil =>
      cases rest with
      | nil => rfl
      | cons c rest =>
          rw [List.nil_append, List.dropWhile_cons_of_neg]
          rw [first c rfl]
          decide
  | cons c before ih =>
      rw [List.cons_append, List.dropWhile_cons_of_pos (blank c List.mem_cons_self)]
      exact ih fun d member => blank d (List.mem_cons_of_mem _ member)

/-- A text that is blank after its front is dropped is blank altogether. -/
theorem dropWhile_isBlank {text : Text} (blank : IsBlank text) :
    text.dropWhile isXmlWhitespace = [] := by
  have dropped := @dropWhile_blank text [] blank (by simp)
  rwa [List.append_nil] at dropped

theorem trimmed_trim (text : Text) : Trimmed text (trimXmlWhitespace text) := by
  let front := text.dropWhile isXmlWhitespace
  have headFront (c : Byte) (head : front.head? = some c) : isXmlWhitespace c = false := by
    have first := List.head?_dropWhile_not isXmlWhitespace text
    rw [show (text.dropWhile isXmlWhitespace).head? = some c from head] at first
    simpa using first
  have core : trimXmlWhitespace text = (front.reverse.dropWhile isXmlWhitespace).reverse := rfl
  have split : front = trimXmlWhitespace text ++
      (front.reverse.takeWhile isXmlWhitespace).reverse := by
    rw [core, ← List.reverse_append, List.takeWhile_append_dropWhile, List.reverse_reverse]
  constructor
  · refine ⟨text.takeWhile isXmlWhitespace, (front.reverse.takeWhile isXmlWhitespace).reverse,
      ?_, isBlank_takeWhile text, (isBlank_takeWhile _).reverse⟩
    rw [List.append_assoc, ← split]
    exact (List.takeWhile_append_dropWhile).symm
  · constructor
    · intro c head
      apply headFront c
      rw [split, List.head?_append, head]
      rfl
    · intro c last
      rw [core, List.getLast?_reverse] at last
      have first := List.head?_dropWhile_not isXmlWhitespace front.reverse
      rw [last] at first
      simpa using first

theorem Trimmed.eq {text core : Text} (trimmed : Trimmed text core) :
    trimXmlWhitespace text = core := by
  obtain ⟨⟨before, after, rfl, blank, blankAfter⟩, tight⟩ := trimmed
  unfold trimXmlWhitespace
  cases core with
  | nil =>
      have blankAll : IsBlank (before ++ after) := by
        intro c member
        rcases List.mem_append.mp member with front | back
        · exact blank c front
        · exact blankAfter c back
      rw [List.append_nil, dropWhile_isBlank blankAll]
      rfl
  | cons c rest =>
      rw [List.append_assoc, dropWhile_blank blank (by simpa using tight.first),
        List.reverse_append,
        dropWhile_blank blankAfter.reverse, List.reverse_reverse]
      intro d head
      rw [List.head?_reverse] at head
      exact tight.last d head

/-- There is one core, and it is what trimming leaves. -/
theorem trim_iff {text core : Text} : trimXmlWhitespace text = core ↔ Trimmed text core := by
  constructor
  · rintro rfl
    exact trimmed_trim text
  · exact Trimmed.eq

/-- A property of the core is one of what trimming leaves. -/
theorem exists_trimmed_iff {text : Text} {Grammar : Text → Prop} :
    (∃ core, Trimmed text core ∧ Grammar core) ↔ Grammar (trimXmlWhitespace text) := by
  simp only [← trim_iff, exists_eq_left']

end Mmxisf
