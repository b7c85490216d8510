import Mathlib.Algebra.Order.Floor.Semifield
import Mathlib.Data.List.TakeWhile
import Mathlib.Data.Nat.Cast.Order.Field
import Unparse.Proofs.Binary64.Rounding
import Unparse.Proofs.Scientific

/-! The decimal that is found for a double. Seventeen digits are enough to reach into the interval
of the double, so the search always ends with a decimal of the interval, and the scientific form is
that decimal. -/
namespace Unparse.Binary64

theorem holds_iff {i : Interval} (hi : 0 < i.den) {n d : Nat} (hd : 0 < d) :
    i.holds n d = true ↔ i.Contains (n / d) := by
  have hi' : (0 : ℚ) < i.den := by exact_mod_cast hi
  have hd' : (0 : ℚ) < d := by exact_mod_cast hd
  unfold Interval.holds Interval.Contains
  split
  · rw [Bool.and_eq_true, decide_eq_true_eq, decide_eq_true_eq, div_le_div_iff₀ hi' hd',
      div_le_div_iff₀ hd' hi']
    norm_cast
  · rw [Bool.and_eq_true, decide_eq_true_eq, decide_eq_true_eq, div_lt_div_iff₀ hi' hd',
      div_lt_div_iff₀ hd' hi']
    norm_cast

theorem contains_of_lt {i : Interval} {q : ℚ} (hlow : (i.low : ℚ) / i.den < q)
    (hhigh : q < i.high / i.den) : i.Contains q := by
  unfold Interval.Contains
  split
  · exact ⟨hlow.le, hhigh.le⟩
  · exact ⟨hlow, hhigh⟩

section Grid

variable {i : Interval} (hi : 0 < i.den) (tie : Tie) (grid : Int)

include hi

theorem holds_scaled_iff (k : Nat) :
    i.holds (scaled 10 k 1 grid).1 (scaled 10 k 1 grid).2 = true ↔ i.Contains (k * 10 ^ grid) := by
  obtain ⟨hpositive, hvalue⟩ := scaled_value (by norm_num : 0 < 10) one_pos k grid
  rw [holds_iff hi hpositive, hvalue]
  norm_num

theorem contains_of_onGrid? {k : Nat} (h : i.onGrid? tie grid = some k) :
    i.Contains (k * 10 ^ grid) := by
  unfold Interval.onGrid? at h
  dsimp only at h
  split at h
  next hdown hup =>
    rw [← Option.some.inj h]
    exact iteInduction (motive := fun k : Nat => i.Contains (k * 10 ^ grid))
      (fun _ => (holds_scaled_iff hi grid _).mp hup)
      (fun _ => (holds_scaled_iff hi grid _).mp hdown)
  next hdown _ => exact Option.some.inj h ▸ (holds_scaled_iff hi grid _).mp hdown
  next _ hup => exact Option.some.inj h ▸ (holds_scaled_iff hi grid _).mp hup
  next => cases h

/-- The decimal below the middle of the interval, and the one above it. -/
theorem down_bounds :
    ((i.mid / i.den : ℚ) / 10 ^ grid - 1 <
        ((scaled 10 i.mid i.den (-grid)).1 / (scaled 10 i.mid i.den (-grid)).2 : Nat)) ∧
      (((scaled 10 i.mid i.den (-grid)).1 / (scaled 10 i.mid i.den (-grid)).2 : Nat) : ℚ) ≤
        (i.mid / i.den : ℚ) / 10 ^ grid := by
  obtain ⟨hpositive, hvalue⟩ := scaled_value (by norm_num : 0 < 10) hi i.mid (-grid)
  have hratio : (i.mid / i.den : ℚ) / 10 ^ grid =
      ((scaled 10 i.mid i.den (-grid)).1 : ℚ) / (scaled 10 i.mid i.den (-grid)).2 := by
    rw [hvalue, zpow_neg, ← div_eq_mul_inv, Nat.cast_ofNat]
  rw [hratio]
  constructor
  · have hfloor := Nat.lt_floor_add_one
      (((scaled 10 i.mid i.den (-grid)).1 : ℚ) / (scaled 10 i.mid i.den (-grid)).2)
    rw [Nat.floor_div_eq_div] at hfloor
    linarith
  · exact Nat.cast_div_le

/-- A grid that is finer than the interval has a decimal of the interval next to its middle. -/
theorem onGrid?_ne_none (hlow : i.low < i.mid) (hhigh : i.mid < i.high)
    (hgrid : (10 : ℚ) ^ grid < i.high / i.den - i.low / i.den) : i.onGrid? tie grid ≠ none := by
  intro h
  have hi' : (0 : ℚ) < i.den := by exact_mod_cast hi
  have hspacing : (0 : ℚ) < 10 ^ grid := by positivity
  have hleft : (i.low : ℚ) / i.den < i.mid / i.den := by gcongr
  have hright : (i.mid : ℚ) / i.den < i.high / i.den := by gcongr
  obtain ⟨hnext, hdown⟩ := down_bounds hi grid
  rw [sub_lt_iff_lt_add, div_lt_iff₀ hspacing] at hnext
  rw [le_div_iff₀ hspacing] at hdown
  unfold Interval.onGrid? at h
  dsimp only at h
  split at h
  next => cases h
  next => cases h
  next => cases h
  next hnotDown hnotUp =>
    have hoff : ¬ i.Contains _ := fun hc =>
      Bool.false_ne_true (hnotDown.symm.trans ((holds_scaled_iff hi grid _).mpr hc))
    have hbelow := not_lt.mp fun hlt => hoff (contains_of_lt hlt (lt_of_le_of_lt hdown hright))
    -- If the decimal below the middle is not in the interval, the next one does not leave it.
    have hc : i.Contains _ := contains_of_lt (hleft.trans hnext) (by linarith)
    rw [(holds_scaled_iff hi grid _).mpr (by exact_mod_cast hc)] at hnotUp
    cases hnotUp

/-- A search that comes to a grid which is fine enough ends with a decimal of the interval. -/
theorem contains_search {fuel : Nat} {grid : Int} {steps : Nat} (hsteps : steps < fuel)
    (h : i.onGrid? tie (grid - steps) ≠ none) :
    i.Contains ((i.search tie fuel grid).1 * 10 ^ (i.search tie fuel grid).2) := by
  induction fuel generalizing grid steps with
  | zero => omega
  | succ fuel ih =>
    unfold Interval.search
    split
    next n hfound => exact contains_of_onGrid? hi tie grid hfound
    next hnone =>
      cases steps with
      | zero => simp [hnone] at h
      | succ steps =>
        apply ih (Nat.lt_of_succ_lt_succ hsteps)
        rw [sub_sub, add_comm 1]
        exact_mod_cast h

end Grid

/-- The decimal exponent of a fraction is not above that of its leading digit. -/
theorem decimalExponent_le {num den : Nat} (hnum : 0 < num) (hden : 0 < den) :
    (10 : ℚ) ^ decimalExponent num den ≤ num / den := by
  have hden' : (0 : ℚ) < den := by exact_mod_cast hden
  unfold decimalExponent
  split
  next hle =>
    have hquotient : 0 < num / den := Nat.div_pos hle hden
    have hlength : 0 < (Nat.toDigits 10 (num / den)).length :=
      List.length_pos_of_ne_nil Nat.toDigits_ne_nil
    have hexponent : ((Nat.toDigits 10 (num / den)).length : Int) - 1 =
        ((Nat.toDigits 10 (num / den)).length - 1 : Nat) := by omega
    rw [hexponent, zpow_natCast]
    calc (10 : ℚ) ^ ((Nat.toDigits 10 (num / den)).length - 1)
        ≤ (num / den : Nat) := by exact_mod_cast pow_length_toDigits_le hquotient
      _ ≤ num / den := Nat.cast_div_le
  next hlt =>
    have hpower := lt_pow_length_toDigits ((den - 1) / num)
    have hless : den - 1 < num * ((den - 1) / num + 1) := Nat.lt_mul_div_succ _ hnum
    have hproduct : num * ((den - 1) / num + 1) ≤
        num * 10 ^ (Nat.toDigits 10 ((den - 1) / num)).length := Nat.mul_le_mul_left num hpower
    have hbound : (den : ℚ) ≤ num * 10 ^ (Nat.toDigits 10 ((den - 1) / num)).length := by
      have hnat : den ≤ num * 10 ^ (Nat.toDigits 10 ((den - 1) / num)).length := by omega
      exact_mod_cast hnat
    rw [zpow_neg, zpow_natCast, inv_le_iff_one_le_mul₀ (by positivity), div_mul_eq_mul_div,
      one_le_div₀ hden']
    exact hbound

section Doubles

variable {x : Binary64} (hx : 0 < x.significand)

theorem unit_pos (x : Binary64) : 0 < (scaled 2 1 1 (x.scale - 2)).1 := by
  rw [Nat.pos_iff_ne_zero]
  intro hzero
  have hunit := unit_eq x
  rw [hzero, Nat.cast_zero, zero_div] at hunit
  have hpositive : (0 : ℚ) < 2 ^ x.scale / 4 := by positivity
  exact hpositive.ne hunit

theorem mid_lt_high (x : Binary64) : x.interval.mid < x.interval.high :=
  Nat.mul_lt_mul_of_pos_right (by omega) x.unit_pos

/-- The significand has fewer than sixteen digits for each quarter that the interval is wide. -/
theorem significand_lt_width (x : Binary64) :
    (x.significand : ℚ) < 10 ^ 16 * (1 / 2 + x.below / 4) := by
  unfold below
  split
  next h =>
    rw [significand_eq_of_fraction h.1 h.2]
    norm_num
  next =>
    have hsignificand : (x.significand : ℚ) < 2 ^ 53 := by exact_mod_cast x.significand_lt
    norm_num at hsignificand ⊢
    linarith

include hx

theorem low_lt_mid : x.interval.low < x.interval.mid := by
  have hbelow : 0 < x.below := by
    unfold below
    split <;> decide
  exact Nat.mul_lt_mul_of_pos_right (Nat.sub_lt (by omega) hbelow) x.unit_pos

/-- Seventeen digits are enough. -/
theorem finest_lt_width {e : Int} (he : (10 : ℚ) ^ e ≤ x.value) :
    (10 : ℚ) ^ (e - 16) < x.interval.high / x.interval.den - x.interval.low / x.interval.den := by
  have hunit : (0 : ℚ) < 2 ^ x.scale := by positivity
  have hwidth : (x.interval.high : ℚ) / x.interval.den - x.interval.low / x.interval.den =
      (1 / 2 + x.below / 4) * 2 ^ x.scale := by
    rw [high_eq, low_eq x hx]
    ring
  rw [hwidth, zpow_sub₀ (by norm_num), div_lt_iff₀ (by positivity), zpow_ofNat]
  calc (10 : ℚ) ^ e ≤ x.significand * 2 ^ x.scale := he
    _ < 10 ^ 16 * (1 / 2 + x.below / 4) * 2 ^ x.scale :=
      mul_lt_mul_of_pos_right x.significand_lt_width hunit
    _ = (1 / 2 + x.below / 4) * 2 ^ x.scale * 10 ^ 16 := by ring

/-- The decimal that is found lies in the interval of the double. -/
theorem contains_decimal (tie : Tie) :
    x.interval.Contains
      ((x.interval.search tie longest (decimalExponent x.interval.mid x.interval.den)).1 *
        10 ^ (x.interval.search tie longest
          (decimalExponent x.interval.mid x.interval.den)).2) := by
  have hleading : (10 : ℚ) ^ decimalExponent x.interval.mid x.interval.den ≤ x.value := by
    rw [← mid_eq]
    exact decimalExponent_le (Nat.zero_lt_of_lt (low_lt_mid hx)) x.den_pos
  apply contains_search x.den_pos tie (by decide : 16 < longest)
  exact onGrid?_ne_none x.den_pos tie _ (low_lt_mid hx) x.mid_lt_high (finest_lt_width hx hleading)

end Doubles

open Scientific (zeros)

/-- Only zeros are dropped, and not all of the digits. -/
theorem eq_dropZeros_append {digits : List Char} (hne : digits ≠ [])
    (hhead : digits.head? ≠ some '0') :
    ∃ n, digits = dropZeros digits ++ zeros n ∧ dropZeros digits ≠ [] := by
  obtain ⟨kept, hkept⟩ : ∃ kept, kept = (digits.reverse.dropWhile (· == '0')).reverse := ⟨_, rfl⟩
  obtain ⟨n, hsplit⟩ : ∃ n, digits = kept ++ zeros n := by
    have hzeros : digits.reverse.takeWhile (· == '0') =
        zeros (digits.reverse.takeWhile (· == '0')).length := by
      apply List.eq_replicate_of_mem
      intro c hc
      simpa using List.mem_takeWhile_imp hc
    refine ⟨(digits.reverse.takeWhile (· == '0')).length, ?_⟩
    rw [hkept, zeros, ← List.reverse_replicate, ← zeros, ← hzeros, ← List.reverse_append,
      List.takeWhile_append_dropWhile, List.reverse_reverse]
  have hsome : kept ≠ [] := by
    rintro rfl
    cases n with
    | zero => exact hne hsplit
    | succ n => exact hhead (hsplit ▸ rfl)
  have hdrop : dropZeros digits = kept := by
    unfold dropZeros
    rw [← hkept]
    cases kept with
    | nil => exact absurd rfl hsome
    | cons c kept => rfl
  exact ⟨n, hdrop ▸ hsplit, hdrop ▸ hsome⟩

theorem significand_pos_iff (x : Binary64) : 0 < x.significand ↔ x.isZero = false := by
  have hexponent : x.exponent = 0 ↔ x.exponent.val = 0 := Fin.ext_iff
  have hfraction : x.fraction = 0 ↔ x.fraction.val = 0 := Fin.ext_iff
  simp only [isZero, Bool.and_eq_false_iff, beq_eq_false_iff_ne, ne_eq, hexponent, hfraction,
    significand, fractionCount]
  split <;> omega

section Scientific

variable {x : Binary64} (hx : 0 < x.significand) (tie : Tie)

include hx

/-- The digits of the decimal, its trailing zeros left out, are the scientific form. -/
theorem scientific_eq : ∃ (n : Nat) (grid : Int), 0 < n ∧ x.interval.Contains (n * 10 ^ grid) ∧
    x.scientific tie = ⟨dropZeros (Nat.toDigits 10 n),
      grid + ((Nat.toDigits 10 n).length - 1 : Nat)⟩ := by
  have hcontains := contains_decimal hx tie
  refine ⟨_, _, ?_, hcontains, ?_⟩
  · rw [Nat.pos_iff_ne_zero]
    intro hzero
    rw [hzero] at hcontains
    exact absurd (contains_pos hx hcontains) (by simp)
  · rw [scientific, (significand_pos_iff x).mp hx]
    rfl

theorem isNormal_scientific : (x.scientific tie).IsNormal := by
  obtain ⟨n, grid, hn, -, heq⟩ := scientific_eq hx tie
  have hhead := Text.head?_toDigits_ne hn.ne'
  obtain ⟨k, hdigits, hne⟩ := eq_dropZeros_append Nat.toDigits_ne_nil hhead
  rw [heq]
  refine ⟨fun c hc => ?_, hne, Or.inl ?_⟩
  · apply Text.isDigit_of_mem_toDigits
    rw [hdigits]
    exact List.mem_append_left _ hc
  · rw [hdigits, List.head?_append_of_ne_nil _ hne] at hhead
    exact hhead

theorem contains_scientific : x.interval.Contains (x.scientific tie).value := by
  obtain ⟨n, grid, hn, hcontains, heq⟩ := scientific_eq hx tie
  obtain ⟨k, hdigits, hne⟩ := eq_dropZeros_append Nat.toDigits_ne_nil
    (Text.head?_toDigits_ne hn.ne')
  have hvalue : 10 ^ k * Nat.ofDigitChars 10 (dropZeros (Nat.toDigits 10 n)) 0 = n := by
    rw [← Scientific.ofDigitChars_zeros, ← hdigits, Nat.ofDigitChars_ten_toDigits]
  have hlength : (Nat.toDigits 10 n).length = (dropZeros (Nat.toDigits 10 n)).length + k := by
    have hsum := congrArg List.length hdigits
    rwa [List.length_append, zeros, List.length_replicate] at hsum
  have hpositive := List.length_pos_of_ne_nil hne
  rw [← hvalue, Scientific.shifted_value rfl] at hcontains
  rw [heq, Scientific.value]
  convert hcontains using 3
  dsimp only
  omega

end Scientific

end Unparse.Binary64
