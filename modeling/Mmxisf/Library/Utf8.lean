/-
# Library.Utf8 -- the bytes of an encoded character as numbers

`String.utf8EncodeChar` in the four ranges of code points, without the
arithmetic of bytes.  A list of bytes is determined by its numbers
(`bytes_inj`), so a decoder that computes with numbers is compared with the
encoder by these.
-/
import Mathlib.Data.List.Basic

namespace Mmxisf.Library

set_option autoImplicit false

section

variable {c : Char}

theorem bytes_inj {bytes other : List UInt8}
    (same : bytes.map UInt8.toNat = other.map UInt8.toNat) : bytes = other :=
  List.map_injective_iff.mpr (fun _ _ equal => UInt8.toNat_inj.mp equal) same

/-- No code point is beyond the last, and the surrogates are none. -/
theorem codePoint_bounds (c : Char) : c.toNat < 0xd800 ∨ 0xdfff < c.toNat ∧ c.toNat < 0x110000 :=
  c.valid

theorem encode_one (range : c.toNat < 0x80) :
    (String.utf8EncodeChar c).map UInt8.toNat = [c.toNat] := by
  have small : c.val.toNat ≤ 0x7f := by
    change c.toNat ≤ 0x7f
    omega
  simp only [String.utf8EncodeChar, small, if_true, List.map_cons, List.map_nil, UInt8.toNat_ofNat']
  congr 1
  exact Nat.mod_eq_of_lt (by omega)

theorem encode_two (range : 0x80 ≤ c.toNat ∧ c.toNat < 0x800) :
    (String.utf8EncodeChar c).map UInt8.toNat = [c.toNat / 64 + 0xc0, c.toNat % 64 + 0x80] := by
  change 0x80 ≤ c.val.toNat ∧ c.val.toNat < 0x800 at range
  change _ = [c.val.toNat / 64 + 0xc0, c.val.toNat % 64 + 0x80]
  have large : ¬ c.val.toNat ≤ 0x7f := by omega
  have small : c.val.toNat ≤ 0x7ff := by omega
  simp only [String.utf8EncodeChar, large, small, if_true, if_false, List.map_cons, List.map_nil,
    UInt8.toNat_ofNat', List.cons.injEq, and_true]
  omega

theorem encode_three (range : 0x800 ≤ c.toNat ∧ c.toNat < 0x10000) :
    (String.utf8EncodeChar c).map UInt8.toNat =
      [c.toNat / 4096 + 0xe0, c.toNat / 64 % 64 + 0x80, c.toNat % 64 + 0x80] := by
  change 0x800 ≤ c.val.toNat ∧ c.val.toNat < 0x10000 at range
  change _ = [c.val.toNat / 4096 + 0xe0, c.val.toNat / 64 % 64 + 0x80, c.val.toNat % 64 + 0x80]
  have large : ¬ c.val.toNat ≤ 0x7f := by omega
  have larger : ¬ c.val.toNat ≤ 0x7ff := by omega
  have small : c.val.toNat ≤ 0xffff := by omega
  simp only [String.utf8EncodeChar, large, larger, small, if_true, if_false, List.map_cons,
    List.map_nil, UInt8.toNat_ofNat', List.cons.injEq, and_true]
  omega

theorem encode_four (range : 0x10000 ≤ c.toNat) :
    (String.utf8EncodeChar c).map UInt8.toNat =
      [c.toNat / 262144 + 0xf0, c.toNat / 4096 % 64 + 0x80, c.toNat / 64 % 64 + 0x80,
        c.toNat % 64 + 0x80] := by
  have last := codePoint_bounds c
  change c.val.toNat < _ ∨ _ < c.val.toNat ∧ c.val.toNat < _ at last
  change 0x10000 ≤ c.val.toNat at range
  change _ = [c.val.toNat / 262144 + 0xf0, c.val.toNat / 4096 % 64 + 0x80,
    c.val.toNat / 64 % 64 + 0x80, c.val.toNat % 64 + 0x80]
  have large : ¬ c.val.toNat ≤ 0x7f := by omega
  have larger : ¬ c.val.toNat ≤ 0x7ff := by omega
  have largest : ¬ c.val.toNat ≤ 0xffff := by omega
  simp only [String.utf8EncodeChar, large, larger, largest, if_false, List.map_cons, List.map_nil,
    UInt8.toNat_ofNat', List.cons.injEq, and_true]
  omega

/-- The character of a code point that is no surrogate. -/
theorem exists_char {codePoint : Nat}
    (valid : codePoint < 0xd800 ∨ 0xdfff < codePoint ∧ codePoint < 0x110000) :
    ∃ c : Char, c.toNat = codePoint := by
  have fits : codePoint < 4294967296 := by omega
  have same : (UInt32.ofNat codePoint).toNat = codePoint := UInt32.toNat_ofNat_of_lt' fits
  refine ⟨⟨UInt32.ofNat codePoint, ?_⟩, same⟩
  show Nat.isValidChar (UInt32.ofNat codePoint).toNat
  rw [same]
  exact valid

end

end Mmxisf.Library
