/-
# Library.Files -- a file system, and the parts of it that its users own

A disk names files and keeps what they hold; a file may have several names, or none
any more.  A call of it may fail; one that succeeds does what it says, and creating
and linking need a free name.

A part of a disk is a disk.  `Splits` says that a disk is the parts of several users,
no two of which share a name, a file or a reader.  Whatever a user does with what is
in its own part, it does on its part alone: every call on the whole is the same call
on the part, and the other parts stay as they are.
-/
import Mathlib.Data.List.Infix
import Mathlib.Logic.Function.Basic
import Mathlib.Tactic.Common

namespace Mmxisf.Library

set_option autoImplicit false

open Function (update)

/-! ## Partial maps in parts -/

section

variable {κ X Y : Type}

/-- A partial map that is the union of others with no argument in common. -/
structure Joins (parts : κ → X → Option Y) (whole : X → Option Y) : Prop where
  holds : ∀ {i x y}, parts i x = some y → whole x = some y
  covered : ∀ {x y}, whole x = some y → ∃ i, parts i x = some y
  apart : ∀ {i j x}, (parts i x).isSome = true → (parts j x).isSome = true → i = j

variable {parts : κ → X → Option Y} {whole : X → Option Y}

theorem Joins.free (joins : Joins parts whole) {x : X} (free : whole x = none) (i : κ) :
    parts i x = none := by
  cases there : parts i x with
  | none => rfl
  | some y =>
      have held := joins.holds there
      rw [free] at held
      cases held

/-- What a part has is what the whole has there. -/
theorem Joins.whole_eq (joins : Joins parts whole) {i : κ} {x : X}
    (own : (parts i x).isSome = true) : whole x = parts i x := by
  cases there : parts i x with
  | none =>
      rw [there] at own
      cases own
  | some y => exact joins.holds there

/-- What one part has, no other part has. -/
theorem Joins.elsewhere (joins : Joins parts whole) {i j : κ} {x : X} {y : Y}
    (here : parts i x = some y) (other : j ≠ i) : parts j x = none := by
  cases there : parts j x with
  | none => rfl
  | some z =>
      have first : (parts j x).isSome = true := there ▸ rfl
      have second : (parts i x).isSome = true := here ▸ rfl
      exact absurd (joins.apart first second) other

theorem Joins.same [DecidableEq κ] (joins : Joins parts whole) (i : κ) :
    Joins (update parts i (parts i)) whole := by
  rwa [Function.update_eq_self]

/-- A part changes where the argument is its own, or no one's. -/
theorem Joins.set [DecidableEq κ] [DecidableEq X] (joins : Joins parts whole) {i : κ} {x : X}
    (own : (parts i x).isSome = true ∨ whole x = none) (o : Option Y) :
    Joins (update parts i (update (parts i) x o)) (update whole x o) := by
  have others : ∀ j, j ≠ i → parts j x = none := by
    intro j other
    rcases own with own | free
    · cases there : parts j x with
      | none => rfl
      | some y => exact absurd (joins.apart (there ▸ rfl) own) other
    · exact joins.free free j
  constructor
  · intro j z y there
    by_cases mine : j = i
    · subst mine
      rw [Function.update_self] at there
      by_cases same : z = x
      · subst same
        rwa [Function.update_self] at there ⊢
      · rw [Function.update_of_ne same] at there ⊢
        exact joins.holds there
    · rw [Function.update_of_ne mine] at there
      have different : z ≠ x := by
        rintro rfl
        rw [others j mine] at there
        cases there
      rw [Function.update_of_ne different]
      exact joins.holds there
  · intro z y there
    by_cases same : z = x
    · subst same
      rw [Function.update_self] at there
      refine ⟨i, ?_⟩
      rwa [Function.update_self, Function.update_self]
    · rw [Function.update_of_ne same] at there
      obtain ⟨j, held⟩ := joins.covered there
      refine ⟨j, ?_⟩
      by_cases mine : j = i
      · subst mine
        rwa [Function.update_self, Function.update_of_ne same]
      · rwa [Function.update_of_ne mine]
  · intro j k z first second
    have where_x : ∀ m, (update parts i (update (parts i) x o) m z).isSome = true →
        z = x ∧ m = i ∨ z ≠ x ∧ (parts m z).isSome = true := by
      intro m some
      by_cases mine : m = i
      · subst mine
        rw [Function.update_self] at some
        by_cases same : z = x
        · exact .inl ⟨same, rfl⟩
        · rw [Function.update_of_ne same] at some
          exact .inr ⟨same, some⟩
      · rw [Function.update_of_ne mine] at some
        refine .inr ⟨?_, some⟩
        rintro rfl
        rw [others m mine] at some
        cases some
    rcases where_x j first with ⟨same, rfl⟩ | ⟨different, here⟩
    · rcases where_x k second with ⟨-, rfl⟩ | ⟨different, -⟩
      · rfl
      · exact absurd same different
    · rcases where_x k second with ⟨same, -⟩ | ⟨-, there⟩
      · exact absurd same different
      · exact joins.apart here there

end

/-! ## Disks -/

/-- Names of files, what the files hold, and the readers with their places; a name
is that of a file, and a reader reads one. -/
@[ext] structure Disk (Name Cell : Type) where
  names : Name → Option Nat
  contents : Nat → Option (List Cell)
  readers : Nat → Option (Nat × Nat)
  named : ∀ {name file}, names name = some file → (contents file).isSome = true
  reading : ∀ {reader file position}, readers reader = some (file, position) →
    (contents file).isSome = true

namespace Disk

variable {Name Cell : Type}

def empty : Disk Name Cell where
  names _ := none
  contents _ := none
  readers _ := none
  named := by rintro _ _ ⟨⟩
  reading := by rintro _ _ _ ⟨⟩

/-- What a name leads to. -/
def lookup (disk : Disk Name Cell) (name : Name) : Option (List Cell) :=
  (disk.names name).bind disk.contents

/-- A file holds this from now on. -/
def hold (disk : Disk Name Cell) (file : Nat) (held : List Cell) : Disk Name Cell where
  names := disk.names
  contents := update disk.contents file (some held)
  readers := disk.readers
  named := by
    intro name other there
    by_cases same : other = file
    · rw [same, Function.update_self]
      rfl
    · rw [Function.update_of_ne same]
      exact disk.named there
  reading := by
    intro reader other position there
    by_cases same : other = file
    · rw [same, Function.update_self]
      rfl
    · rw [Function.update_of_ne same]
      exact disk.reading there

def append (disk : Disk Name Cell) (file : Nat) (cells : List Cell) : Disk Name Cell :=
  disk.hold file ((disk.contents file).getD [] ++ cells)

/-- A reader is at a place of a file. -/
def place (disk : Disk Name Cell) (reader file position : Nat)
    (there : (disk.contents file).isSome = true) : Disk Name Cell where
  names := disk.names
  contents := disk.contents
  readers := update disk.readers reader (some (file, position))
  named := disk.named
  reading := by
    intro other found position placed
    by_cases same : other = reader
    · rw [same, Function.update_self, Option.some.injEq, Prod.mk.injEq] at placed
      rwa [← placed.1]
    · rw [Function.update_of_ne same] at placed
      exact disk.reading placed

section

variable {disk : Disk Name Cell} {file : Nat}

@[simp] theorem append_names (cells : List Cell) : (disk.append file cells).names = disk.names :=
    rfl

@[simp] theorem append_self (cells : List Cell) :
    (disk.append file cells).contents file = some ((disk.contents file).getD [] ++ cells) :=
  Function.update_self file _ _

theorem append_of_ne {other : Nat} (different : other ≠ file) (cells : List Cell) :
    (disk.append file cells).contents other = disk.contents other :=
  Function.update_of_ne different _ _

theorem append_append (first second : List Cell) :
    (disk.append file first).append file second = disk.append file (first ++ second) := by
  ext1
  · rfl
  · show update (update disk.contents file _) file
      (some (((disk.append file first).contents file).getD [] ++ second)) = _
    rw [append_self, Function.update_idem, Option.getD_some, List.append_assoc]
    rfl
  · rfl

theorem append_nil (there : (disk.contents file).isSome = true) : disk.append file [] = disk := by
  ext1
  · rfl
  · show update disk.contents file (some ((disk.contents file).getD [] ++ [])) = _
    obtain ⟨held, content⟩ := Option.isSome_iff_exists.mp there
    rw [List.append_nil, content, Option.getD_some, ← content, Function.update_eq_self]
  · rfl

end

section

variable [DecidableEq Name]

/-- A name leads nowhere from now on, or to a file. -/
def rename (disk : Disk Name Cell) (name : Name) (file : Option Nat)
    (there : ∀ found, file = some found → (disk.contents found).isSome = true) :
    Disk Name Cell where
  names := update disk.names name file
  contents := disk.contents
  readers := disk.readers
  named := by
    intro other found named
    by_cases same : other = name
    · rw [same, Function.update_self] at named
      exact there found named
    · rw [Function.update_of_ne same] at named
      exact disk.named named
  reading := disk.reading

def create (disk : Disk Name Cell) (name : Name) (file : Nat) : Disk Name Cell :=
  (disk.hold file []).rename name (some file) (by
    rintro _ ⟨⟩
    exact congrArg Option.isSome (Function.update_self file (some []) disk.contents))

def link (disk : Disk Name Cell) (name other : Name) : Disk Name Cell :=
  disk.rename other (disk.names name) fun _ there => disk.named there

def remove (disk : Disk Name Cell) (name : Name) : Disk Name Cell :=
  disk.rename name none (by rintro _ ⟨⟩)

/-! ## Calls -/

inductive Creates (disk : Disk Name Cell) (name : Name) : Option Nat → Disk Name Cell → Prop
  | failed : Creates disk name none disk
  | created {file : Nat} (free : disk.names name = none) (fresh : disk.contents file = none) :
      Creates disk name (some file) (disk.create name file)

/-- A write that fails may have written some of it. -/
inductive Appends (disk : Disk Name Cell) (file : Nat) (cells : List Cell) :
    Option Nat → Disk Name Cell → Prop
  | failed (count : Nat) : Appends disk file cells none (disk.append file (cells.take count))
  | appended (count : Nat) : Appends disk file cells (some count)
      (disk.append file (cells.take count))

inductive Opens (disk : Disk Name Cell) (name : Name) : Option Nat → Disk Name Cell → Prop
  | failed : Opens disk name none disk
  | opened {file reader : Nat} (there : disk.names name = some file)
      (fresh : disk.readers reader = none) :
      Opens disk name (some reader) (disk.place reader file 0 (disk.named there))

/-- A read may yield less than there is, and one that fails yields nothing. -/
inductive Reads (disk : Disk Name Cell) (reader : Nat) : List Cell → Disk Name Cell → Prop
  | failed : Reads disk reader [] disk
  | read {file position : Nat} {held cells : List Cell}
      (opened : disk.readers reader = some (file, position))
      (there : disk.contents file = some held) (some : cells <+: held.drop position) :
      Reads disk reader cells
        (disk.place reader file (position + cells.length) (disk.reading opened))

inductive Links (disk : Disk Name Cell) (name other : Name) : Bool → Disk Name Cell → Prop
  | failed : Links disk name other false disk
  | linked (there : (disk.names name).isSome = true) (free : disk.names other = none) :
      Links disk name other true (disk.link name other)

end

/-! ## Parts -/

/-- A disk in parts. -/
structure Splits {κ : Type} (parts : κ → Disk Name Cell) (whole : Disk Name Cell) : Prop where
  names : Joins (fun i => (parts i).names) whole.names
  contents : Joins (fun i => (parts i).contents) whole.contents
  readers : Joins (fun i => (parts i).readers) whole.readers

namespace Splits

variable {κ : Type} [DecidableEq κ] {parts : κ → Disk Name Cell} {whole after : Disk Name Cell}
  {i : κ}

/-- A part and the whole change alike. -/
theorem changed {part : Disk Name Cell}
    (names : Joins (update (fun j => (parts j).names) i part.names) after.names)
    (contents : Joins (update (fun j => (parts j).contents) i part.contents) after.contents)
    (readers : Joins (update (fun j => (parts j).readers) i part.readers) after.readers) :
    Splits (update parts i part) after := by
  have each {Z : Type} (get : Disk Name Cell → Z) : (fun j => get (update parts i part j)) =
      update (fun j => get (parts j)) i (get part) := by
    funext j
    exact Function.apply_update (fun _ => get) parts i part j
  constructor
  · rwa [each Disk.names]
  · rwa [each Disk.contents]
  · rwa [each Disk.readers]

theorem same (splits : Splits parts whole) : Splits (Function.update parts i (parts i)) whole := by
  rwa [Function.update_eq_self]

theorem append (splits : Splits parts whole) {file : Nat}
    (own : ((parts i).contents file).isSome = true) (cells : List Cell) :
    Splits (Function.update parts i ((parts i).append file cells)) (whole.append file cells) := by
  refine .changed (splits.names.same i) ?_ (splits.readers.same i)
  show Joins _ (Function.update whole.contents file _)
  rw [splits.contents.whole_eq own]
  exact splits.contents.set (.inl own) _

theorem appends (splits : Splits parts whole) {file : Nat} {cells : List Cell}
    {reply : Option Nat} (own : ((parts i).contents file).isSome = true)
    (step : whole.Appends file cells reply after) :
    ∃ part, (parts i).Appends file cells reply part ∧
      Splits (Function.update parts i part) after := by
  cases step with
  | failed count => exact ⟨_, .failed count, splits.append own _⟩
  | appended count => exact ⟨_, .appended count, splits.append own _⟩

theorem opens (splits : Splits parts whole) {name : Name} {reply : Option Nat}
    (own : ((parts i).names name).isSome = true) (step : whole.Opens name reply after) :
    ∃ part, (parts i).Opens name reply part ∧ Splits (Function.update parts i part) after := by
  cases step with
  | failed => exact ⟨parts i, .failed, splits.same⟩
  | @opened file reader there fresh =>
      rw [splits.names.whole_eq own] at there
      refine ⟨_, .opened there (splits.readers.free fresh i), ?_⟩
      exact .changed (splits.names.same i) (splits.contents.same i)
        (splits.readers.set (.inr fresh) _)

theorem reads (splits : Splits parts whole) {reader : Nat} {cells : List Cell}
    (own : ((parts i).readers reader).isSome = true)
    (step : whole.Reads reader cells after) :
    ∃ part, (parts i).Reads reader cells part ∧ Splits (Function.update parts i part) after := by
  cases step with
  | failed => exact ⟨parts i, .failed, splits.same⟩
  | @read file position all cells opened there some =>
      rw [splits.readers.whole_eq own] at opened
      rw [splits.contents.whole_eq ((parts i).reading opened)] at there
      refine ⟨_, .read opened there some, ?_⟩
      exact .changed (splits.names.same i) (splits.contents.same i)
        (splits.readers.set (.inl own) _)

section

variable [DecidableEq Name]

theorem creates (splits : Splits parts whole) {name : Name} {reply : Option Nat}
    (step : whole.Creates name reply after) :
    ∃ part, (parts i).Creates name reply part ∧ Splits (Function.update parts i part) after := by
  cases step with
  | failed => exact ⟨parts i, .failed, splits.same⟩
  | @created file free fresh =>
      refine ⟨_, .created (splits.names.free free i) (splits.contents.free fresh i), ?_⟩
      exact .changed (splits.names.set (.inr free) _) (splits.contents.set (.inr fresh) _)
        (splits.readers.same i)

theorem links (splits : Splits parts whole) {name other : Name} {reply : Bool}
    (own : ((parts i).names name).isSome = true) (step : whole.Links name other reply after) :
    ∃ part, (parts i).Links name other reply part ∧
      Splits (Function.update parts i part) after := by
  cases step with
  | failed => exact ⟨parts i, .failed, splits.same⟩
  | linked there free =>
      refine ⟨_, .linked own (splits.names.free free i), ?_⟩
      refine .changed ?_ (splits.contents.same i) (splits.readers.same i)
      show Joins _ (Function.update whole.names other (whole.names name))
      rw [splits.names.whole_eq own]
      exact splits.names.set (.inr free) _

theorem removes (splits : Splits parts whole) {name : Name}
    (own : ((parts i).names name).isSome = true) :
    Splits (Function.update parts i ((parts i).remove name)) (whole.remove name) :=
  .changed (splits.names.set (.inl own) _) (splits.contents.same i) (splits.readers.same i)

end

end Splits

end Disk

end Mmxisf.Library
