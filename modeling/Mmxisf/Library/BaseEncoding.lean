/-
# Library.BaseEncoding -- bytes as text in base 64 and base 16

The two encodings over any alphabet.  An `Alphabet` of a given size carries that
it reads back the digits it writes, and that padding is no digit; `decode` takes
canonical text only: the bits that no byte uses are zero, padding ends the text,
and nothing else than digits and padding is read.  Where the alphabet reads no
two characters as one digit (`IsExact`), what decodes is an encoding.
-/
import Mathlib.Tactic.Common

namespace Mmxisf.Library

set_option autoImplicit false

/-- Digits for the numbers below `size`. -/
structure Alphabet (size : Nat) where
  digit : Nat → UInt8
  value : UInt8 → Option Nat
  padding : UInt8
  value_digit : ∀ n < size, value (digit n) = some n
  value_padding : value padding = none

namespace Alphabet

theorem digit_ne_padding {size : Nat} (alphabet : Alphabet size) {n : Nat} (small : n < size) :
    alphabet.digit n ≠ alphabet.padding := by
  intro same
  have found := alphabet.value_digit n small
  rw [same, alphabet.value_padding] at found
  cases found

/-- No two characters are read as one digit. -/
def IsExact {size : Nat} (alphabet : Alphabet size) : Prop :=
  ∀ c n, alphabet.value c = some n → n < size ∧ alphabet.digit n = c

/-! ## Base 64 -/

section

variable (alphabet : Alphabet 64)

def encode64 : List UInt8 → List UInt8
  | [] => []
  | [a] =>
      [alphabet.digit (a.toNat / 4), alphabet.digit (a.toNat % 4 * 16), alphabet.padding,
        alphabet.padding]
  | [a, b] =>
      [alphabet.digit (a.toNat / 4), alphabet.digit (a.toNat % 4 * 16 + b.toNat / 16),
        alphabet.digit (b.toNat % 16 * 4), alphabet.padding]
  | a :: b :: c :: rest =>
      alphabet.digit (a.toNat / 4) :: alphabet.digit (a.toNat % 4 * 16 + b.toNat / 16) ::
        alphabet.digit (b.toNat % 16 * 4 + c.toNat / 64) :: alphabet.digit (c.toNat % 64) ::
          encode64 rest

def decode64 : List UInt8 → Option (List UInt8)
  | [] => some []
  | a :: b :: c :: d :: rest => do
      let x ← alphabet.value a
      let y ← alphabet.value b
      if c = alphabet.padding then
        if d = alphabet.padding ∧ y % 16 = 0 ∧ rest = [] then
          some [UInt8.ofNat (x * 4 + y / 16)]
        else none
      else do
        let z ← alphabet.value c
        if d = alphabet.padding then
          if z % 4 = 0 ∧ rest = [] then
            some [UInt8.ofNat (x * 4 + y / 16), UInt8.ofNat (y * 16 + z / 4)]
          else none
        else do
          let w ← alphabet.value d
          let bytes ← decode64 rest
          some (UInt8.ofNat (x * 4 + y / 16) :: UInt8.ofNat (y * 16 + z / 4) ::
            UInt8.ofNat (z * 64 + w) :: bytes)
  | _ => none

/-- The three bytes of four digits. -/
theorem first_byte (a : UInt8) {y : Nat} (high : y / 16 = a.toNat % 4) :
    UInt8.ofNat (a.toNat / 4 * 4 + y / 16) = a := by
  rw [high, show a.toNat / 4 * 4 + a.toNat % 4 = a.toNat by omega, UInt8.ofNat_toNat]

theorem second_byte (b : UInt8) {y z : Nat} (low : y % 16 = b.toNat / 16)
    (high : z / 4 = b.toNat % 16) : UInt8.ofNat (y * 16 + z / 4) = b := by
  apply UInt8.toNat_inj.mp
  have small := b.toNat_lt
  rw [UInt8.toNat_ofNat']
  omega

theorem third_byte (c : UInt8) {z : Nat} (low : z % 4 = c.toNat / 64) :
    UInt8.ofNat (z * 64 + c.toNat % 64) = c := by
  apply UInt8.toNat_inj.mp
  have small := c.toNat_lt
  rw [UInt8.toNat_ofNat']
  omega

theorem decode64_encode64 (bytes : List UInt8) :
    alphabet.decode64 (alphabet.encode64 bytes) = some bytes := by
  induction bytes using encode64.induct with
  | case1 => rfl
  | case2 a =>
      have small := a.toNat_lt
      simp only [encode64, decode64, alphabet.value_digit (a.toNat / 4) (by omega),
        alphabet.value_digit (a.toNat % 4 * 16) (by omega), Option.bind_eq_bind,
        Option.bind_some, if_true, true_and, and_true]
      rw [if_pos (by omega), first_byte a (by omega)]
  | case3 a b =>
      have small := a.toNat_lt
      have small' := b.toNat_lt
      simp only [encode64, decode64, alphabet.value_digit (a.toNat / 4) (by omega),
        alphabet.value_digit (a.toNat % 4 * 16 + b.toNat / 16) (by omega),
        alphabet.value_digit (b.toNat % 16 * 4) (by omega),
        alphabet.digit_ne_padding (n := b.toNat % 16 * 4) (by omega), Option.bind_eq_bind,
        Option.bind_some, if_true, if_false, and_true]
      rw [if_pos (by omega), first_byte a (by omega), second_byte b (by omega) (by omega)]
  | case4 a b c rest ih =>
      have small := a.toNat_lt
      have small' := b.toNat_lt
      have small'' := c.toNat_lt
      simp only [encode64, decode64, alphabet.value_digit (a.toNat / 4) (by omega),
        alphabet.value_digit (a.toNat % 4 * 16 + b.toNat / 16) (by omega),
        alphabet.value_digit (b.toNat % 16 * 4 + c.toNat / 64) (by omega),
        alphabet.value_digit (c.toNat % 64) (by omega),
        alphabet.digit_ne_padding (n := b.toNat % 16 * 4 + c.toNat / 64) (by omega),
        alphabet.digit_ne_padding (n := c.toNat % 64) (by omega), Option.bind_eq_bind,
        Option.bind_some, if_false, ih]
      rw [first_byte a (by omega), second_byte b (by omega) (by omega), third_byte c (by omega)]

variable {alphabet}

theorem toNat_byte {n : Nat} (small : n < 256) : (UInt8.ofNat n).toNat = n := by
  rw [UInt8.toNat_ofNat']
  exact Nat.mod_eq_of_lt small

/-- The second and third byte of four digits, whose high bits are cut off. -/
theorem toNat_second {y z : Nat} (small : z < 64) :
    (UInt8.ofNat (y * 16 + z / 4)).toNat = y % 16 * 16 + z / 4 := by
  rw [UInt8.toNat_ofNat']
  omega

theorem toNat_third {z w : Nat} (small : w < 64) :
    (UInt8.ofNat (z * 64 + w)).toNat = z % 4 * 64 + w := by
  rw [UInt8.toNat_ofNat']
  omega

/-- A text that decodes is the encoding of its bytes. -/
theorem encode64_of_decode64 (exactly : alphabet.IsExact) {text bytes : List UInt8}
    (decoded : alphabet.decode64 text = some bytes) : alphabet.encode64 bytes = text := by
  induction text using decode64.induct generalizing bytes with
  | case1 =>
      cases decoded
      rfl
  | case2 a b c d rest ih =>
      rw [decode64] at decoded
      simp only [Option.bind_eq_bind, Option.bind_eq_some_iff] at decoded
      obtain ⟨x, valueA, y, valueB, decoded⟩ := decoded
      obtain ⟨smallX, digitX⟩ := exactly a x valueA
      obtain ⟨smallY, digitY⟩ := exactly b y valueB
      have first : (UInt8.ofNat (x * 4 + y / 16)).toNat = x * 4 + y / 16 := toNat_byte (by omega)
      have digitA : alphabet.digit ((x * 4 + y / 16) / 4) = a := by
        rw [show (x * 4 + y / 16) / 4 = x by omega, digitX]
      split at decoded
      · rename_i paddedC
        split at decoded
        · rename_i padded
          obtain ⟨paddedD, zero, rfl⟩ := padded
          cases decoded
          rw [encode64, first, digitA, show (x * 4 + y / 16) % 4 * 16 = y by omega, digitY,
            paddedC, paddedD]
        · cases decoded
      · simp only [Option.bind_eq_some_iff] at decoded
        obtain ⟨z, valueC, decoded⟩ := decoded
        obtain ⟨smallZ, digitZ⟩ := exactly c z valueC
        have second := @toNat_second y z smallZ
        have digitB : alphabet.digit ((x * 4 + y / 16) % 4 * 16 + (y % 16 * 16 + z / 4) / 16) =
            b := by
          rw [show (x * 4 + y / 16) % 4 * 16 + (y % 16 * 16 + z / 4) / 16 = y by omega, digitY]
        split at decoded
        · rename_i paddedD
          split at decoded
          · rename_i padded
            obtain ⟨zero, rfl⟩ := padded
            cases decoded
            rw [encode64, first, second, digitA, digitB,
              show (y % 16 * 16 + z / 4) % 16 * 4 = z by omega, digitZ, paddedD]
          · cases decoded
        · simp only [Option.bind_eq_some_iff, Option.some.injEq] at decoded
          obtain ⟨w, valueD, later, decoded, rfl⟩ := decoded
          obtain ⟨smallW, digitW⟩ := exactly d w valueD
          have third := @toNat_third z w smallW
          rw [encode64, first, second, third, digitA, digitB,
            show (y % 16 * 16 + z / 4) % 16 * 4 + (z % 4 * 64 + w) / 64 = z by omega, digitZ,
            show (z % 4 * 64 + w) % 64 = w by omega, digitW, ih decoded]
  | case3 text short shorter =>
      rw [decode64] at decoded
      · cases decoded
      · exact short
      · exact shorter

end

/-! ## Base 16 -/

section

variable (alphabet : Alphabet 16)

def encode16 : List UInt8 → List UInt8
  | [] => []
  | a :: rest =>
      alphabet.digit (a.toNat / 16) :: alphabet.digit (a.toNat % 16) :: encode16 rest

def decode16 : List UInt8 → Option (List UInt8)
  | [] => some []
  | a :: b :: rest => do
      let x ← alphabet.value a
      let y ← alphabet.value b
      let bytes ← decode16 rest
      some (UInt8.ofNat (x * 16 + y) :: bytes)
  | _ => none

theorem decode16_encode16 (bytes : List UInt8) :
    alphabet.decode16 (alphabet.encode16 bytes) = some bytes := by
  induction bytes with
  | nil => rfl
  | cons a rest ih =>
      have small := a.toNat_lt
      have same : UInt8.ofNat (a.toNat / 16 * 16 + a.toNat % 16) = a := by
        rw [show a.toNat / 16 * 16 + a.toNat % 16 = a.toNat by omega, UInt8.ofNat_toNat]
      simp only [encode16, decode16, alphabet.value_digit (a.toNat / 16) (by omega),
        alphabet.value_digit (a.toNat % 16) (by omega), Option.bind_eq_bind, Option.bind_some, ih,
        same]

variable {alphabet}

theorem encode16_of_decode16 (exactly : alphabet.IsExact) {text bytes : List UInt8}
    (decoded : alphabet.decode16 text = some bytes) : alphabet.encode16 bytes = text := by
  induction text using decode16.induct generalizing bytes with
  | case1 =>
      cases decoded
      rfl
  | case2 a b rest ih =>
      rw [decode16] at decoded
      simp only [Option.bind_eq_bind, Option.bind_eq_some_iff, Option.some.injEq] at decoded
      obtain ⟨x, valueA, y, valueB, later, decoded, rfl⟩ := decoded
      obtain ⟨smallX, digitX⟩ := exactly a x valueA
      obtain ⟨smallY, digitY⟩ := exactly b y valueB
      rw [encode16, toNat_byte (by omega), show (x * 16 + y) / 16 = x by omega, digitX,
        show (x * 16 + y) % 16 = y by omega, digitY, ih decoded]
  | case3 text short shorter =>
      rw [decode16] at decoded
      · cases decoded
      · exact short
      · exact shorter

end

end Alphabet

end Mmxisf.Library
