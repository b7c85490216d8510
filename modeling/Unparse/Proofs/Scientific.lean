import Mathlib.Algebra.Field.Rat
import Mathlib.Tactic.NormNum
import Mathlib.Tactic.Ring
import Unparse.Proofs.Json.Numeral
import Unparse.Scientific

/-! Scientific forms as number tokens. Whatever the layout, the written form is a token with a
fraction or an exponent, and it denotes the same number. -/
namespace Unparse

namespace Json.Numeral

/-- The number that a token denotes, apart from its sign. -/
def value (n : Numeral) : ℚ :=
  n.magnitude * 10 ^ (n.exponent - n.fraction.length)

theorem isWhole_append {digits : List Char} (hne : digits ≠ []) (hhead : digits.head? ≠ some '0')
    (more : List Char) : isWhole (digits ++ more) = true := by
  have hempty : (digits ++ more).isEmpty = false := by simp [hne]
  have hsame : (digits ++ more).head? = digits.head? := List.head?_append_of_ne_nil _ hne
  simp [isWhole, hempty, hsame, hhead]

theorem isWhole_singleton (d : Char) : isWhole [d] = true := by
  by_cases h : d = '0' <;> simp [isWhole, h]

section Tokens

variable {whole fraction tail : List Char} (negative : Bool)
  (hwhole : ∀ c ∈ whole, c.isDigit = true) (hisWhole : isWhole whole = true)

include hisWhole

theorem whole_ne_nil : whole ≠ [] := by
  rintro rfl
  cases hisWhole

include hwhole

/-- A token with a point. -/
theorem ofChars?_fraction (hfraction : ∀ c ∈ fraction, c.isDigit = true) (hne : fraction ≠ [])
    (htail : Ends tail) :
    ofChars? (signed negative (whole ++ '.' :: (fraction ++ tail))) =
      (tail? tail).map fun e => ⟨negative, whole, fraction, e, false⟩ := by
  have hends : Ends ('.' :: (fraction ++ tail)) := rfl
  rw [ofChars?_signed hwhole negative (whole_ne_nil hisWhole) hends, if_pos hisWhole,
    fraction?_digits hfraction hne htail]
  rfl

/-- A token with an exponent only. -/
theorem ofChars?_exponent :
    ofChars? (signed negative (whole ++ 'e' :: tail)) =
      (exponent? tail).map fun e => ⟨negative, whole, [], e, false⟩ := by
  have hends : Ends ('e' :: tail) := rfl
  rw [ofChars?_signed hwhole negative (whole_ne_nil hisWhole) hends, if_pos hisWhole]
  rfl

end Tokens

end Json.Numeral

namespace Scientific

open Json (Numeral)
open Json.Numeral (signed)

/-- The number that a scientific form denotes. -/
def value (s : Scientific) : ℚ :=
  Nat.ofDigitChars 10 s.digits 0 * 10 ^ (s.exponent + 1 - s.digits.length)

/-- There are digits, and the first of them is a zero only in the form of zero. -/
structure IsNormal (s : Scientific) : Prop where
  isDigit : ∀ c ∈ s.digits, c.isDigit = true
  nonempty : s.digits ≠ []
  leading : s.digits.head? ≠ some '0' ∨ s = ⟨['0'], 0⟩

theorem isNormal_zero : IsNormal ⟨['0'], 0⟩ where
  isDigit := by simp
  nonempty := by simp
  leading := Or.inr rfl

theorem value_zero : value ⟨['0'], 0⟩ = 0 := by
  have hdigits : Nat.ofDigitChars 10 ['0'] 0 = 0 := rfl
  simp [value, hdigits]

/-- A text is a token that denotes the number, with a fraction or an exponent. -/
def Denotes (negative : Bool) (text : List Char) (q : ℚ) : Prop :=
  ∃ n, Numeral.ofChars? (signed negative text) = some n ∧ n.negative = negative ∧
    n.integral = false ∧ n.value = q

theorem isDigit_of_mem_zeros {n : Nat} {c : Char} (h : c ∈ zeros n) : c.isDigit = true := by
  rw [(List.mem_replicate.mp h).2]
  decide

theorem ofDigitChars_zeros (digits : List Char) (n : Nat) :
    Nat.ofDigitChars 10 (digits ++ zeros n) 0 = 10 ^ n * Nat.ofDigitChars 10 digits 0 := by
  rw [Nat.ofDigitChars_append, zeros, Nat.ofDigitChars_replicate_zero]

theorem ofDigitChars_zeros_append (n : Nat) (digits : List Char) :
    Nat.ofDigitChars 10 (zeros n ++ digits) 0 = Nat.ofDigitChars 10 digits 0 := by
  rw [Nat.ofDigitChars_append, zeros, Nat.ofDigitChars_replicate_zero, Nat.mul_zero]

theorem denotes_fraction {negative : Bool} {whole fraction tail : List Char} {q : ℚ} {e : Int}
    (hwhole : ∀ c ∈ whole, c.isDigit = true) (hisWhole : Numeral.isWhole whole = true)
    (hfraction : ∀ c ∈ fraction, c.isDigit = true) (hne : fraction ≠ [])
    (htail : Numeral.Ends tail) (he : Numeral.tail? tail = some e)
    (hvalue : (Nat.ofDigitChars 10 (whole ++ fraction) 0 : ℚ) * 10 ^ (e - fraction.length) = q) :
    Denotes negative (whole ++ '.' :: (fraction ++ tail)) q := by
  refine ⟨⟨negative, whole, fraction, e, false⟩, ?_, rfl, rfl, hvalue⟩
  rw [Numeral.ofChars?_fraction negative hwhole hisWhole hfraction hne htail, he]
  rfl

theorem denotes_exponent {negative : Bool} {whole tail : List Char} {q : ℚ} {e : Int}
    (hwhole : ∀ c ∈ whole, c.isDigit = true) (hisWhole : Numeral.isWhole whole = true)
    (he : Numeral.tail? ('e' :: tail) = some e)
    (hvalue : (Nat.ofDigitChars 10 whole 0 : ℚ) * 10 ^ e = q) :
    Denotes negative (whole ++ 'e' :: tail) q := by
  have he' : Numeral.exponent? tail = some e := he
  refine ⟨⟨negative, whole, [], e, false⟩, ?_, rfl, rfl, ?_⟩
  · rw [Numeral.ofChars?_exponent negative hwhole hisWhole, he']
    rfl
  · simpa [Numeral.value, Numeral.magnitude] using hvalue

/-- Zeros behind the digits move the point. -/
theorem shifted_value {n k : Nat} {i j : Int} (h : k + i = j) :
    ((10 ^ k * n : Nat) : ℚ) * 10 ^ i = n * 10 ^ j := by
  rw [← h, zpow_add₀ (by norm_num), zpow_natCast]
  push_cast
  ring

theorem tail?_exponent (e : Int) (width : Nat) :
    Numeral.tail? ('e' :: (if e < 0 then '-' else '+') ::
      (zeros width ++ Nat.toDigits 10 e.natAbs)) = some e := by
  have hdigits : Text.digits? (zeros width ++ Nat.toDigits 10 e.natAbs) = some e.natAbs := by
    rw [Text.digits?_eq_some (by simp), ofDigitChars_zeros_append, Nat.ofDigitChars_ten_toDigits]
    exact List.forall_mem_append.mpr
      ⟨fun _ => isDigit_of_mem_zeros, fun _ => Text.isDigit_of_mem_toDigits⟩
  change Numeral.exponent? _ = _
  split
  next he =>
    have hnegated : -(e.natAbs : Int) = e := by omega
    simp only [Numeral.exponent?, hdigits]
    exact congrArg some hnegated
  next he =>
    have hkept : (e.natAbs : Int) = e := by omega
    simp only [Numeral.exponent?, hdigits, Option.map_some]
    exact congrArg some hkept

variable {s : Scientific} (hs : s.IsNormal) (negative : Bool)

include hs

theorem padded_denotes (he : 0 ≤ s.exponent) (hlength : s.digits.length ≤ s.exponent.toNat + 1) :
    Denotes negative (s.digits ++ zeros (s.exponent.toNat + 1 - s.digits.length) ++ ['.', '0'])
      s.value := by
  have hwhole : ∀ c ∈ s.digits ++ zeros (s.exponent.toNat + 1 - s.digits.length),
      c.isDigit = true :=
    List.forall_mem_append.mpr ⟨hs.isDigit, fun _ => isDigit_of_mem_zeros⟩
  have hisWhole : Numeral.isWhole
      (s.digits ++ zeros (s.exponent.toNat + 1 - s.digits.length)) = true := by
    rcases hs.leading with hhead | rfl
    · exact Numeral.isWhole_append hs.nonempty hhead _
    · rfl
  have hpoint : ['.', '0'] = '.' :: (zeros 1 ++ []) := rfl
  rw [hpoint]
  refine denotes_fraction hwhole hisWhole (fun _ => isDigit_of_mem_zeros) (by simp [zeros])
    rfl rfl ?_
  rw [List.append_assoc, zeros, zeros, List.replicate_append_replicate, ← zeros, ofDigitChars_zeros]
  apply shifted_value
  simp only [List.length_replicate]
  omega

theorem divided_denotes (he : 0 ≤ s.exponent) (hlength : s.exponent.toNat + 1 < s.digits.length) :
    Denotes negative (s.digits.take (s.exponent.toNat + 1) ++
      '.' :: s.digits.drop (s.exponent.toNat + 1)) s.value := by
  have hisWhole : Numeral.isWhole (s.digits.take (s.exponent.toNat + 1)) = true := by
    rcases hs.leading with hhead | rfl
    · have hsame : (s.digits.take (s.exponent.toNat + 1)).head? = s.digits.head? := by
        simp [List.head?_take]
      have hne : s.digits.take (s.exponent.toNat + 1) ≠ [] := by simp [hs.nonempty]
      have happend := Numeral.isWhole_append hne (hsame ▸ hhead) []
      rwa [List.append_nil] at happend
    · rfl
  rw [← List.append_nil (s.digits.drop _)]
  refine denotes_fraction (fun c hc => hs.isDigit c (List.mem_of_mem_take hc)) hisWhole
    (fun c hc => hs.isDigit c (List.mem_of_mem_drop hc)) (by simpa using hlength) rfl rfl ?_
  rw [List.take_append_drop, List.length_drop, value]
  congr 2
  omega

theorem leadingZeros_denotes (he : s.exponent < 0) :
    Denotes negative ('0' :: '.' :: (zeros ((-s.exponent).toNat - 1) ++ s.digits)) s.value := by
  have hfraction : ∀ c ∈ zeros ((-s.exponent).toNat - 1) ++ s.digits, c.isDigit = true :=
    List.forall_mem_append.mpr ⟨fun _ => isDigit_of_mem_zeros, hs.isDigit⟩
  rw [← List.append_nil (zeros _ ++ s.digits)]
  change Denotes negative (zeros 1 ++ '.' :: _) s.value
  refine denotes_fraction (fun _ => isDigit_of_mem_zeros) rfl hfraction (by simp [hs.nonempty])
    rfl rfl ?_
  rw [ofDigitChars_zeros_append, ofDigitChars_zeros_append, value]
  congr 2
  simp only [zeros, List.length_append, List.length_replicate]
  omega

theorem positional_denotes : Denotes negative s.positional s.value := by
  unfold positional
  split
  next he =>
    dsimp only
    split
    next hlength => exact padded_denotes hs negative he hlength
    next hlength => exact divided_denotes hs negative he (Nat.lt_of_not_le hlength)
  next he => exact leadingZeros_denotes hs negative (Int.lt_of_not_ge he)

theorem exponential_denotes (width : Nat) : Denotes negative (s.exponential width) s.value := by
  have htail := tail?_exponent s.exponent (width - (Nat.toDigits 10 s.exponent.natAbs).length)
  have hends : Numeral.Ends ('e' :: (if s.exponent < 0 then '-' else '+') ::
      (zeros (width - (Nat.toDigits 10 s.exponent.natAbs).length) ++
        Nat.toDigits 10 s.exponent.natAbs)) := rfl
  have hdigit := hs.isDigit
  unfold exponential mantissa value
  dsimp only
  match hdigits : s.digits with
  | [] => exact absurd hdigits hs.nonempty
  | [d] =>
    rw [hdigits] at hdigit
    refine denotes_exponent hdigit (Numeral.isWhole_singleton d) htail ?_
    simp
  | d :: c :: more =>
    rw [hdigits] at hdigit
    have hfirst : ∀ x ∈ [d], x.isDigit = true := fun x hx =>
      hdigit x (List.mem_singleton.mp hx ▸ List.mem_cons_self ..)
    refine denotes_fraction hfirst (Numeral.isWhole_singleton d)
      (fun x hx => hdigit x (List.mem_cons_of_mem _ hx)) (by simp) hends htail ?_
    simp only [List.singleton_append, List.length_cons]
    congr 2
    omega

/-- The written form denotes the number. -/
theorem written_denotes (layout : Layout) : Denotes negative (s.written layout) s.value := by
  unfold written
  split
  · exact positional_denotes hs negative
  · exact exponential_denotes hs negative _

end Scientific

end Unparse
