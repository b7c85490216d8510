import Mathlib.Algebra.Group.Nat.Defs
import Unparse.Literal.Quoted

/-! Characters by their code points: the hexadecimal digits of an escape denote the character they
were written for. -/
namespace Unparse

namespace Text

theorem hexValue?_hexDigit (n : Nat) : hexValue? (hexDigit n) = some (n % 16) := by
  have hdigits : ∀ k < 16, hexValue? ((Nat.toDigits 16 k).headD '0') = some k := by decide
  exact hdigits (n % 16) (Nat.mod_lt n (by decide))

@[simp] theorem length_hex (width n : Nat) : (hex width n).length = width := by
  induction width generalizing n with
  | zero => rfl
  | succ width ih => rw [hex, List.length_append, ih, List.length_singleton]

theorem hexNumber?_hex (width n : Nat) : hexNumber? (hex width n) = some (n % 16 ^ width) := by
  induction width generalizing n with
  | zero => simp [hex, hexNumber?, Nat.mod_one]
  | succ width ih =>
    have hlow : n % 16 ^ (width + 1) = 16 * (n / 16 % 16 ^ width) + n % 16 := by
      rw [Nat.pow_succ, Nat.mul_comm, Nat.mod_mul]
      omega
    unfold hexNumber? at ih ⊢
    rw [hex, List.foldlM_append, ih, hlow]
    simp [hexValue?_hexDigit]

end Text

namespace Literal

def charOf? (n : Nat) : Option Char :=
  if n.isValidChar then some (Char.ofNat n) else none

theorem charOf?_toNat (c : Char) : charOf? c.toNat = some c := by
  have hvalid : c.toNat.isValidChar := c.valid
  rw [charOf?, if_pos hvalid, Char.ofNat_toNat]

theorem toNat_lt_eight_digits (c : Char) : c.toNat < 16 ^ 8 := by
  have hvalid := c.valid
  simp only [UInt32.isValidChar, Nat.isValidChar] at hvalid
  change c.val.toNat < 16 ^ 8
  omega

end Literal

end Unparse
