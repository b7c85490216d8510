import Mathlib.Algebra.Order.Ring.Int
import Mathlib.Data.List.Basic
import Unparse.Json.Reader

/-! Number tokens. A token is read off its parts: sign, whole digits, fraction, exponent. The
written form of an integer is read back, and a run of digits is an integer only within 64 bits. -/
namespace Unparse

namespace Text

/-- What holds of ten characters holds of every digit. -/
theorem of_isDigit {P : Char → Prop} (hP : ∀ n < 10, P (Nat.digitChar n)) {c : Char}
    (h : c.isDigit = true) : P c := by
  obtain ⟨hlow, hhigh⟩ := Char.isDigit_iff_toNat.mp h
  have hzero : '0'.toNat = 48 := rfl
  have hnine : '9'.toNat = 57 := rfl
  have hchar : ∀ n < 10, Nat.digitChar n = Char.ofNat (48 + n) := by decide
  have hc : c = Nat.digitChar (c.toNat - 48) := by
    rw [hchar _ (by omega), Nat.add_sub_cancel' (by omega), Char.ofNat_toNat]
  rw [hc]
  exact hP _ (by omega)

theorem digits?_eq_some {cs : List Char} (hne : cs ≠ []) (hcs : ∀ c ∈ cs, c.isDigit = true) :
    digits? cs = some (Nat.ofDigitChars 10 cs 0) := by
  have hempty : cs.isEmpty = false := by simpa using hne
  simp [digits?, hempty, List.all_eq_true.mpr hcs]

theorem isDigit_of_mem_toDigits {n : Nat} {c : Char} (h : c ∈ Nat.toDigits 10 n) :
    c.isDigit = true :=
  Nat.isDigit_of_mem_toDigits (by decide) (by decide) h

theorem digits?_toDigits (n : Nat) : digits? (Nat.toDigits 10 n) = some n := by
  rw [digits?_eq_some Nat.toDigits_ne_nil fun _ => isDigit_of_mem_toDigits,
    Nat.ofDigitChars_ten_toDigits]

/-- No number but zero is written with a zero in front. -/
theorem head?_toDigits_ne {n : Nat} (hn : n ≠ 0) : (Nat.toDigits 10 n).head? ≠ some '0' := by
  induction n using Nat.strongRecOn with
  | ind n ih =>
    rw [Nat.toDigits_eq_if (by decide)]
    split
    next hlt => simpa using hn
    next hge =>
      have hsmaller : n / 10 < n := Nat.div_lt_self (by omega) (by decide)
      have hhead := ih (n / 10) hsmaller (by omega)
      rw [List.head?_append_of_ne_nil _ Nat.toDigits_ne_nil]
      exact hhead

end Text

namespace Json.Numeral

/-- Digits with a sign before them. -/
def signed (negative : Bool) (cs : List Char) : List Char :=
  if negative then '-' :: cs else cs

/-- The integer that digits with a sign denote. -/
def integer (negative : Bool) (digits : List Char) : Int :=
  if negative then -(Nat.ofDigitChars 10 digits 0 : Int) else Nat.ofDigitChars 10 digits 0

/-- The integers that are kept as such; a negated zero is none of them. -/
def isKept (negative : Bool) (i : Int) : Bool :=
  isWordSized i && !(negative && i == 0)

/-- The text does not begin with a digit. -/
def Ends (cs : List Char) : Prop :=
  cs.head?.all (!·.isDigit) = true

section Parts

variable {digits rest : List Char} (hdigits : ∀ c ∈ digits, c.isDigit = true)

include hdigits

theorem takeWhile_digits (hrest : Ends rest) :
    (digits ++ rest).takeWhile Char.isDigit = digits := by
  rw [List.takeWhile_append_of_pos hdigits]
  cases rest with
  | nil => simp
  | cons c rest =>
    have hc : c.isDigit = false := by simpa [Ends] using hrest
    simp [hc]

theorem dropWhile_digits (hrest : Ends rest) :
    (digits ++ rest).dropWhile Char.isDigit = rest := by
  rw [List.dropWhile_append_of_pos hdigits]
  cases rest with
  | nil => simp
  | cons c rest =>
    have hc : c.isDigit = false := by simpa [Ends] using hrest
    simp [hc]

theorem sign_signed (negative : Bool) (hne : digits ≠ []) :
    sign (signed negative (digits ++ rest)) = (negative, digits ++ rest) := by
  cases negative with
  | true => rfl
  | false =>
    cases digits with
    | nil => exact absurd rfl hne
    | cons c digits =>
      have hc : c ≠ '-' := by
        rintro rfl
        exact absurd (hdigits '-' (List.mem_cons_self ..)) (by decide)
      simp only [signed, Bool.false_eq_true, ↓reduceIte, List.cons_append]
      unfold sign
      split
      next heq => exact absurd (List.cons.inj heq).1 hc
      next => rfl

/-- A token is read after its whole digits have been. -/
theorem ofChars?_signed (negative : Bool) (hne : digits ≠ []) (hrest : Ends rest) :
    ofChars? (signed negative (digits ++ rest)) =
      if isWhole digits then
        (fraction? rest).bind fun (fraction, tail) =>
          (tail? tail).map fun e => ⟨negative, digits, fraction, e, rest.isEmpty⟩
      else none := by
  unfold ofChars?
  rw [sign_signed hdigits negative hne]
  dsimp only
  rw [takeWhile_digits hdigits hrest, dropWhile_digits hdigits hrest]

theorem fraction?_digits (hne : digits ≠ []) (hrest : Ends rest) :
    fraction? ('.' :: (digits ++ rest)) = some (digits, rest) := by
  simp [fraction?, takeWhile_digits hdigits hrest, dropWhile_digits hdigits hrest, hne]

/-- A run of digits is an integer if that fits into 64 bits and is no negated zero, and otherwise
the nearest double. -/
theorem number?_signed (negative : Bool) (hne : digits ≠ []) :
    number? (signed negative digits) =
      if isWhole digits then
        if isKept negative (integer negative digits) then some (int (integer negative digits))
        else (Binary64.ofDecimal? negative (integer negative digits).natAbs 0).map float
      else none := by
  have hread : ofChars? (signed negative (digits ++ [])) = _ :=
    ofChars?_signed hdigits negative hne rfl
  rw [List.append_nil] at hread
  have hmagnitude : (integer negative digits).natAbs = Nat.ofDigitChars 10 digits 0 := by
    unfold integer
    split <;> omega
  rw [number?, hread, hmagnitude]
  cases isWhole digits with
  | false => rfl
  | true =>
    simp only [fraction?, tail?, Option.bind_some, Option.map_some, ↓reduceIte, value?, float?,
      magnitude, List.append_nil, List.isEmpty_nil, Bool.true_and, List.length_nil, isKept]
    rfl

end Parts

theorem isWhole_toDigits (n : Nat) : isWhole (Nat.toDigits 10 n) = true := by
  by_cases hn : n = 0
  · subst hn
    decide
  · have hempty : (Nat.toDigits 10 n).isEmpty = false := by simp
    have hhead := Text.head?_toDigits_ne hn
    simp [isWhole, hempty, hhead]

end Json.Numeral

namespace Json

open Numeral

theorem toList_signedDecimal (i : Int) :
    (Text.signedDecimal i).toList = signed (i < 0) (Nat.toDigits 10 i.natAbs) := by
  cases i with
  | ofNat n => simp [Text.signedDecimal, Text.decimal, signed]
  | negSucc n => simp [Text.signedDecimal, Text.decimal, signed]

/-- An integer of 64 bits is read back from its digits. -/
theorem number?_signedDecimal {i : Int} (hi : isWordSized i = true) :
    number? (Text.signedDecimal i).toList = some (int i) := by
  rw [toList_signedDecimal, number?_signed (fun _ => Text.isDigit_of_mem_toDigits) _
    Nat.toDigits_ne_nil, isWhole_toDigits, if_pos rfl]
  have hvalue : integer (i < 0) (Nat.toDigits 10 i.natAbs) = i := by
    simp only [integer, Nat.ofDigitChars_ten_toDigits, decide_eq_true_eq]
    split <;> omega
  have hkept : isKept (i < 0) i = true := by
    have hsign : (decide (i < 0) && i == 0) = false := by
      by_cases h : i = 0 <;> simp [h]
    simp [isKept, hi, hsign]
  rw [hvalue, hkept]
  rfl

end Json

end Unparse
