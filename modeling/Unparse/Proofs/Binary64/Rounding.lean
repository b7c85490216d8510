import Mathlib.Algebra.Order.Field.Power
import Mathlib.Data.Rat.Floor
import Mathlib.Tactic.FieldSimp
import Mathlib.Tactic.Linarith
import Mathlib.Tactic.Positivity
import Mathlib.Tactic.Ring
import Unparse.Binary64.Shortest

/-! Rounding to doubles. A rational number that lies in the interval of a double, half the way to
its neighbours, is rounded to that double, and so is a decimal number. -/
namespace Unparse.Binary64

/-- A fraction that has been scaled has a positive denominator and the scaled value. -/
theorem scaled_value {base den : Nat} (hbase : 0 < base) (hden : 0 < den) (num : Nat) (k : Int) :
    0 < (scaled base num den k).2 ∧
      ((scaled base num den k).1 : ℚ) / (scaled base num den k).2 = num / den * (base : ℚ) ^ k := by
  have hbase' : (base : ℚ) ≠ 0 := by exact_mod_cast hbase.ne'
  have hden' : (den : ℚ) ≠ 0 := by exact_mod_cast hden.ne'
  unfold scaled
  split
  next hk =>
    lift k to Nat using hk
    refine ⟨hden, ?_⟩
    simp only [Int.toNat_natCast, Nat.pow_eq, Nat.cast_mul, Nat.cast_pow, zpow_natCast]
    ring
  next hk =>
    obtain ⟨j, rfl⟩ : ∃ j : Nat, k = -j := ⟨(-k).toNat, by omega⟩
    refine ⟨Nat.mul_pos hden (Nat.pow_pos hbase), ?_⟩
    simp only [neg_neg, Int.toNat_natCast, Nat.pow_eq, Nat.cast_mul, Nat.cast_pow, zpow_neg,
      zpow_natCast]
    field_simp

/-- The lengths of numerator and denominator give the binary exponent up to one. -/
theorem log2_bounds {num den : Nat} (hnum : 0 < num) (hden : 0 < den) {estimate : Int}
    (hestimate : estimate = (num.log2 : Int) - den.log2) :
    (2 : ℚ) ^ (estimate - 1) ≤ num / den ∧ (num : ℚ) / den < 2 ^ (estimate + 1) := by
  have hden' : (0 : ℚ) < den := by exact_mod_cast hden
  have hnumLow : (2 : ℚ) ^ (num.log2 : Int) ≤ num := by
    exact_mod_cast Nat.log2_self_le hnum.ne'
  have hnumHigh : (num : ℚ) < 2 ^ ((num.log2 : Int) + 1) := by
    exact_mod_cast Nat.lt_log2_self
  have hdenLow : (2 : ℚ) ^ (den.log2 : Int) ≤ den := by
    exact_mod_cast Nat.log2_self_le hden.ne'
  have hdenHigh : (den : ℚ) ≤ 2 ^ ((den.log2 : Int) + 1) := by
    exact_mod_cast Nat.lt_log2_self.le
  rw [le_div_iff₀ hden', div_lt_iff₀ hden']
  constructor
  · calc (2 : ℚ) ^ (estimate - 1) * den
        ≤ 2 ^ (estimate - 1) * 2 ^ ((den.log2 : Int) + 1) := by gcongr
      _ = 2 ^ (num.log2 : Int) := by
        rw [← zpow_add₀ two_ne_zero]
        congr 1
        omega
      _ ≤ num := hnumLow
  · calc (num : ℚ) < 2 ^ ((num.log2 : Int) + 1) := hnumHigh
      _ = 2 ^ (estimate + 1) * 2 ^ (den.log2 : Int) := by
        rw [← zpow_add₀ two_ne_zero]
        congr 1
        omega
      _ ≤ 2 ^ (estimate + 1) * den := by gcongr

/-- The binary exponent of a fraction is that of its leading bit. -/
theorem binaryExponent_bounds {num den : Nat} (hnum : 0 < num) (hden : 0 < den) :
    (2 : ℚ) ^ binaryExponent num den ≤ num / den ∧
      (num : ℚ) / den < 2 ^ (binaryExponent num den + 1) := by
  obtain ⟨estimate, hestimate⟩ : ∃ e : Int, e = (num.log2 : Int) - den.log2 := ⟨_, rfl⟩
  obtain ⟨hlow, hhigh⟩ := log2_bounds hnum hden hestimate
  obtain ⟨hpositive, hvalue⟩ := scaled_value two_pos hden num (-estimate)
  have hpositive' : (0 : ℚ) < (scaled 2 num den (-estimate)).2 := by exact_mod_cast hpositive
  have hcompare : (scaled 2 num den (-estimate)).2 ≤ (scaled 2 num den (-estimate)).1 ↔
      (2 : ℚ) ^ estimate ≤ num / den := by
    rw [← Nat.cast_le (α := ℚ), ← one_le_div₀ hpositive', hvalue, Nat.cast_ofNat, zpow_neg,
      ← div_eq_mul_inv, one_le_div₀ (by positivity)]
  have hexponent : binaryExponent num den =
      if (scaled 2 num den (-estimate)).2 ≤ (scaled 2 num den (-estimate)).1 then estimate
      else estimate - 1 := by
    subst hestimate
    rfl
  rw [hexponent]
  split
  next h => exact ⟨hcompare.mp h, hhigh⟩
  next h =>
    -- The estimate was too large by one.
    refine ⟨hlow, ?_⟩
    rw [sub_add_cancel]
    exact not_le.mp fun hle => h (hcompare.mpr hle)

/-- A number rounds to an integer that is less than a half away, or a half if the integer is
even. -/
def RoundsTo (q : ℚ) (m : Nat) : Prop :=
  (m : ℚ) - 1 / 2 ≤ q ∧ q ≤ m + 1 / 2 ∧
    (m % 2 = 1 → (m : ℚ) - 1 / 2 < q ∧ q < m + 1 / 2)

theorem RoundsTo.bounds {n d m : Nat} (hd : 0 < d) (h : RoundsTo (n / d) m) :
    2 * (m * d) ≤ 2 * n + d ∧ 2 * n ≤ 2 * (m * d) + d ∧
      (m % 2 = 1 → 2 * (m * d) < 2 * n + d ∧ 2 * n < 2 * (m * d) + d) := by
  have hd' : (0 : ℚ) < d := by exact_mod_cast hd
  obtain ⟨hlow, hhigh, hodd⟩ := h
  rw [le_div_iff₀ hd'] at hlow
  rw [div_le_iff₀ hd'] at hhigh
  rw [lt_div_iff₀ hd', div_lt_iff₀ hd'] at hodd
  rw [← Nat.cast_le (α := ℚ), ← Nat.cast_le (α := ℚ), ← Nat.cast_lt (α := ℚ),
    ← Nat.cast_lt (α := ℚ)]
  push_cast
  refine ⟨by linarith, by linarith, fun hm => ⟨?_, ?_⟩⟩
  · linarith [(hodd hm).1]
  · linarith [(hodd hm).2]

theorem roundHalfEven_eq {n d m : Nat} (hd : 0 < d) (h : RoundsTo (n / d) m) :
    roundHalfEven n d = m := by
  obtain ⟨hlow, hhigh, hodd⟩ := h.bounds hd
  obtain ⟨whole, hwhole⟩ : ∃ w, w = n / d := ⟨_, rfl⟩
  obtain ⟨left, hleft⟩ : ∃ r, r = n % d := ⟨_, rfl⟩
  have hn : whole * d + left = n := by rw [hwhole, hleft, Nat.div_add_mod']
  have hlt : left < d := hleft ▸ Nat.mod_lt n hd
  have hround : roundHalfEven n d =
      if 2 * left < d then whole else if d < 2 * left then whole + 1
      else whole + whole % 2 := by
    rw [hwhole, hleft]
    rfl
  have hlower : whole ≤ m := by
    by_contra hgreater
    have hproduct : (m + 1) * d ≤ whole * d := Nat.mul_le_mul_right d (Nat.lt_of_not_le hgreater)
    rw [Nat.add_one_mul] at hproduct
    omega
  have hupper : m ≤ whole + 1 := by
    by_contra hgreater
    have hproduct : (whole + 1 + 1) * d ≤ m * d :=
      Nat.mul_le_mul_right d (Nat.lt_of_not_le hgreater)
    rw [Nat.add_one_mul, Nat.add_one_mul] at hproduct
    omega
  rw [hround]
  rcases Nat.eq_or_lt_of_le hlower with rfl | hgreater
  · split
    · rfl
    · split <;> omega
  · obtain rfl : m = whole + 1 := by omega
    have hproduct : (whole + 1) * d = whole * d + d := Nat.add_one_mul whole d
    split
    · omega
    · split <;> omega

/-- The magnitudes of doubles as one number. -/
def magnitude (x : Binary64) : Nat :=
  x.exponent.val * fractionCount + x.fraction.val

theorem fraction_lt (x : Binary64) : x.fraction.val < 0x10000000000000 :=
  x.fraction.isLt

theorem ofMagnitude_magnitude (x : Binary64) : ofMagnitude x.negative x.magnitude = x := by
  have hfraction := x.fraction_lt
  have hquotient : x.magnitude / fractionCount = x.exponent := by
    simp only [magnitude, fractionCount]
    omega
  have hremainder : x.magnitude % fractionCount = x.fraction := by
    simp only [magnitude, fractionCount]
    omega
  have hexponent : Fin.ofNat 2048 (x.magnitude / fractionCount) = x.exponent := by
    apply Fin.ext
    rw [Fin.val_ofNat, hquotient, Nat.mod_eq_of_lt x.exponent.isLt]
  have hfraction : Fin.ofNat fractionCount x.magnitude = x.fraction := by
    apply Fin.ext
    rw [Fin.val_ofNat, hremainder]
  rw [ofMagnitude, hexponent, hfraction]

theorem magnitude_lt {x : Binary64} (h : x.isFinite = true) : x.magnitude < infiniteMagnitude := by
  have hfraction := x.fraction_lt
  have hexponent : x.exponent ≠ 2047 := by simpa [isFinite] using h
  have hne : x.exponent.val ≠ 2047 := fun heq => hexponent (Fin.ext heq)
  simp only [magnitude, infiniteMagnitude, fractionCount]
  omega

theorem magnitude_eq (x : Binary64) :
    x.magnitude = (x.scale + 1074).toNat * fractionCount + x.significand := by
  simp only [magnitude, scale, significand, fractionCount]
  split <;> omega

/-- What the interval of a double holds. -/
def Interval.Contains (i : Interval) (q : ℚ) : Prop :=
  if i.closed then (i.low : ℚ) / i.den ≤ q ∧ q ≤ i.high / i.den
  else (i.low : ℚ) / i.den < q ∧ q < i.high / i.den

/-- The value of a finite number, apart from its sign. -/
def value (x : Binary64) : ℚ :=
  x.significand * 2 ^ x.scale

section Intervals

variable (x : Binary64)

theorem den_pos : 0 < x.interval.den :=
  (scaled_value two_pos one_pos 1 (x.scale - 2)).1

/-- How far the interval reaches downwards, in quarters of a unit. -/
def below : Nat :=
  if x.fraction.val = 0 ∧ 1 < x.exponent.val then 1 else 2

theorem unit_eq : ((scaled 2 1 1 (x.scale - 2)).1 : ℚ) / x.interval.den = 2 ^ x.scale / 4 := by
  have hvalue := (scaled_value two_pos one_pos 1 (x.scale - 2)).2
  rw [zpow_sub₀ (by norm_num)] at hvalue
  norm_num at hvalue
  exact hvalue

theorem mid_eq : (x.interval.mid : ℚ) / x.interval.den = x.value := by
  have hmid : x.interval.mid = 4 * x.significand * (scaled 2 1 1 (x.scale - 2)).1 := rfl
  rw [hmid, Nat.cast_mul, mul_div_assoc, unit_eq, value]
  push_cast
  ring

theorem high_eq :
    (x.interval.high : ℚ) / x.interval.den = (x.significand + 1 / 2) * 2 ^ x.scale := by
  have hhigh : x.interval.high = (4 * x.significand + 2) * (scaled 2 1 1 (x.scale - 2)).1 := rfl
  rw [hhigh, Nat.cast_mul, mul_div_assoc, unit_eq]
  push_cast
  ring

theorem low_eq (hx : 0 < x.significand) :
    (x.interval.low : ℚ) / x.interval.den = (x.significand - x.below / 4) * 2 ^ x.scale := by
  have hlow : x.interval.low = (4 * x.significand - x.below) * (scaled 2 1 1 (x.scale - 2)).1 :=
    rfl
  have hbelow : x.below ≤ 4 * x.significand := by
    unfold below
    split <;> omega
  rw [hlow, Nat.cast_mul, mul_div_assoc, unit_eq, Nat.cast_sub hbelow]
  push_cast
  ring

end Intervals

theorem significand_lt (x : Binary64) : x.significand < 2 ^ 53 := by
  have hfraction := x.fraction_lt
  simp only [significand, fractionCount]
  split <;> omega

theorem significand_eq_of_fraction {x : Binary64} (hfraction : x.fraction.val = 0)
    (hexponent : 1 < x.exponent.val) : x.significand = 2 ^ 52 := by
  simp only [significand, fractionCount]
  split <;> omega

/-- The interval in units of the last place, and which ends belong to it. -/
theorem contains_bounds {x : Binary64} (hx : 0 < x.significand) {q : ℚ}
    (h : x.interval.Contains q) :
    (x.significand - x.below / 4 : ℚ) * 2 ^ x.scale ≤ q ∧
      q ≤ (x.significand + 1 / 2 : ℚ) * 2 ^ x.scale ∧
      (x.significand % 2 = 1 → (x.significand - x.below / 4 : ℚ) * 2 ^ x.scale < q ∧
        q < (x.significand + 1 / 2 : ℚ) * 2 ^ x.scale) := by
  have hclosed : x.interval.closed = (x.significand % 2 == 0) := rfl
  unfold Interval.Contains at h
  rw [low_eq x hx, high_eq, hclosed] at h
  split at h
  next heven =>
    refine ⟨h.1, h.2, fun hodd => ?_⟩
    rw [hodd] at heven
    cases heven
  next => exact ⟨h.1.le, h.2.le, fun _ => h⟩

theorem nearestMagnitude_of_shift {num den m : Nat} (hnum : 0 < num) (hden : 0 < den) {shift : Int}
    (hshift : max (binaryExponent num den - 52) (-1074) = shift)
    (h : RoundsTo (num / den * 2 ^ (-shift)) m) :
    nearestMagnitude num den = (shift + 1074).toNat * fractionCount + m := by
  obtain ⟨hpositive, hvalue⟩ := scaled_value two_pos hden num (-shift)
  have hround : roundHalfEven (scaled 2 num den (-shift)).1 (scaled 2 num den (-shift)).2 = m := by
    apply roundHalfEven_eq hpositive
    rw [hvalue]
    exact_mod_cast h
  unfold nearestMagnitude
  rw [if_neg hnum.ne', hshift]
  exact congrArg _ hround

section Nearest

variable {x : Binary64} {q : ℚ}

theorem below_le (x : Binary64) : (x.below : ℚ) ≤ 2 := by
  unfold below
  split <;> norm_num

theorem below_eq_one (hfraction : x.fraction.val = 0) (hexponent : 1 < x.exponent.val) :
    x.below = 1 :=
  if_pos ⟨hfraction, hexponent⟩

theorem exponent_lt {e k : Int} (hlow : (2 : ℚ) ^ e ≤ q) (hhigh : q < 2 ^ k) : e < k :=
  (zpow_lt_zpow_iff_right₀ one_lt_two).mp (lt_of_le_of_lt hlow hhigh)

theorem roundsTo_significand (hx : 0 < x.significand) (h : x.interval.Contains q) :
    RoundsTo (q * 2 ^ (-x.scale)) x.significand := by
  obtain ⟨hlow, hhigh, hodd⟩ := contains_bounds hx h
  have hbelow := below_le x
  have hunit : (0 : ℚ) < 2 ^ x.scale := by positivity
  have hends : (x.significand - 1 / 2 : ℚ) * 2 ^ x.scale ≤
      (x.significand - x.below / 4) * 2 ^ x.scale :=
    mul_le_mul_of_nonneg_right (by linarith) hunit.le
  rw [zpow_neg, ← div_eq_mul_inv]
  refine ⟨?_, ?_, fun hm => ⟨?_, ?_⟩⟩
  · exact (le_div_iff₀ hunit).mpr (hends.trans hlow)
  · exact (div_le_iff₀ hunit).mpr hhigh
  · exact (lt_div_iff₀ hunit).mpr (lt_of_le_of_lt hends (hodd hm).1)
  · exact (div_lt_iff₀ hunit).mpr (hodd hm).2

/-- Just below a power of two the last place is finer, and rounding carries into the next. -/
theorem roundsTo_carry (hfraction : x.fraction.val = 0) (hexponent : 1 < x.exponent.val)
    (h : x.interval.Contains q) (hq : q < 2 ^ (52 + x.scale)) :
    RoundsTo (q * 2 ^ (-(x.scale - 1))) (2 ^ 53) := by
  have hsignificand := significand_eq_of_fraction hfraction hexponent
  have hlow := (contains_bounds (by rw [hsignificand]; norm_num) h).1
  have hunit : (0 : ℚ) < 2 ^ x.scale := by positivity
  rw [hsignificand, below_eq_one hfraction hexponent] at hlow
  rw [zpow_add₀ two_ne_zero] at hq
  rw [neg_sub, zpow_sub₀ two_ne_zero, mul_div_assoc']
  refine ⟨?_, ?_, fun hodd => ?_⟩
  · rw [le_div_iff₀ hunit]
    push_cast at hlow ⊢
    linarith
  · rw [div_le_iff₀ hunit]
    push_cast at hq ⊢
    linarith
  · norm_num at hodd

theorem contains_pos (hx : 0 < x.significand) (h : x.interval.Contains q) : 0 < q := by
  have hlow := (contains_bounds hx h).1
  have hbelow := below_le x
  have hone : (1 : ℚ) ≤ x.significand := by exact_mod_cast hx
  refine lt_of_lt_of_le ?_ hlow
  exact mul_pos (by linarith) (by positivity)

section Shift

variable {e : Int} (hleading : (2 : ℚ) ^ e ≤ q) (hnext : q < 2 ^ (e + 1))

include hleading hnext

theorem shift_carry (hfraction : x.fraction.val = 0) (hexponent : 1 < x.exponent.val)
    (h : x.interval.Contains q) (hless : q < 2 ^ (52 + x.scale)) :
    max (e - 52) (-1074) = x.scale - 1 := by
  have hsignificand := significand_eq_of_fraction hfraction hexponent
  have hlow := (contains_bounds (by rw [hsignificand]; norm_num) h).1
  rw [hsignificand, below_eq_one hfraction hexponent] at hlow
  have hscale : x.scale = x.exponent.val - 1075 := if_neg (by omega)
  have hupper : e < 52 + x.scale := exponent_lt hleading hless
  have hlower : 51 + x.scale < e + 1 := by
    refine exponent_lt ?_ hnext
    refine le_trans ?_ hlow
    rw [zpow_add₀ two_ne_zero]
    exact mul_le_mul_of_nonneg_right (by norm_num) (by positivity)
  omega

theorem shift_scale (hx : 0 < x.significand) (h : x.interval.Contains q)
    (hcarry : x.fraction.val = 0 → 1 < x.exponent.val → 2 ^ (52 + x.scale) ≤ q) :
    max (e - 52) (-1074) = x.scale := by
  obtain ⟨hlow, hhigh, -⟩ := contains_bounds hx h
  have hbelow := below_le x
  have hunit : (0 : ℚ) < 2 ^ x.scale := by positivity
  have hupper : e < 53 + x.scale := by
    have hsignificand : (x.significand : ℚ) + 1 ≤ 2 ^ 53 := by exact_mod_cast x.significand_lt
    apply exponent_lt hleading
    refine lt_of_le_of_lt hhigh ?_
    rw [zpow_add₀ two_ne_zero]
    exact mul_lt_mul_of_pos_right (by linarith) hunit
  by_cases hexponent : 1 < x.exponent.val
  · have hscale : x.scale = x.exponent.val - 1075 := if_neg (by omega)
    have hpower : (2 : ℚ) ^ (52 + x.scale) ≤ q := by
      by_cases hfraction : x.fraction.val = 0
      · exact hcarry hfraction hexponent
      · have hsignificand : (2 ^ 52 + 1 : ℚ) ≤ x.significand := by
          have hnat : 2 ^ 52 + 1 ≤ x.significand := by
            simp only [significand, fractionCount]
            split <;> omega
          exact_mod_cast hnat
        refine le_trans ?_ hlow
        rw [zpow_add₀ two_ne_zero, zpow_ofNat]
        exact mul_le_mul_of_nonneg_right (by linarith) hunit.le
    have hlower := exponent_lt hpower hnext
    omega
  · have hscale : x.scale = -1074 := by
      unfold scale
      split <;> omega
    omega

end Shift

/-- A rational number in the interval of a double is rounded to that double. -/
theorem nearestMagnitude_eq (hx : 0 < x.significand) {num den : Nat} (hden : 0 < den)
    (h : x.interval.Contains (num / den)) : nearestMagnitude num den = x.magnitude := by
  have hnum : 0 < num := by
    rcases Nat.eq_zero_or_pos num with rfl | hpos
    · exact absurd (contains_pos hx h) (by simp)
    · exact hpos
  obtain ⟨hleading, hnext⟩ := binaryExponent_bounds hnum hden
  by_cases hcarry : x.fraction.val = 0 ∧ 1 < x.exponent.val ∧ (num / den : ℚ) < 2 ^ (52 + x.scale)
  · obtain ⟨hfraction, hexponent, hless⟩ := hcarry
    have hscale : x.scale = x.exponent.val - 1075 := if_neg (by omega)
    rw [nearestMagnitude_of_shift hnum hden
        (shift_carry hleading hnext hfraction hexponent h hless)
        (roundsTo_carry hfraction hexponent h hless),
      magnitude_eq, significand_eq_of_fraction hfraction hexponent]
    simp only [fractionCount]
    omega
  · have hshift := shift_scale hleading hnext hx h fun hfraction hexponent =>
      not_lt.mp fun hless => hcarry ⟨hfraction, hexponent, hless⟩
    rw [nearestMagnitude_of_shift hnum hden hshift (roundsTo_significand hx h), magnitude_eq]

end Nearest

section Decimals

theorem lt_pow_length_toDigits (n : Nat) : n < 10 ^ (Nat.toDigits 10 n).length :=
  (Nat.length_toDigits_le_iff (by decide) (List.length_pos_of_ne_nil Nat.toDigits_ne_nil)).mp le_rfl

theorem pow_length_toDigits_le {n : Nat} (hn : 0 < n) :
    10 ^ ((Nat.toDigits 10 n).length - 1) ≤ n := by
  rcases Nat.eq_zero_or_pos ((Nat.toDigits 10 n).length - 1) with hone | hmore
  · rw [hone]
    exact hn
  · rw [← not_lt, ← Nat.length_toDigits_le_iff (by decide) hmore]
    omega

variable {x : Binary64} {q : ℚ}

/-- The intervals of finite doubles lie between two powers of two. -/
theorem contains_range (hfinite : x.isFinite = true) (hx : 0 < x.significand)
    (h : x.interval.Contains q) : (2 : ℚ) ^ (-1075 : Int) ≤ q ∧ q < 2 ^ (1024 : Int) := by
  obtain ⟨hlow, hhigh, -⟩ := contains_bounds hx h
  have hbelow := below_le x
  have hone : (1 : ℚ) ≤ x.significand := by exact_mod_cast hx
  have hsignificand : (x.significand : ℚ) + 1 ≤ 2 ^ 53 := by exact_mod_cast x.significand_lt
  have hexponent : x.exponent ≠ 2047 := by simpa [isFinite] using hfinite
  have hne : x.exponent.val ≠ 2047 := fun heq => hexponent (Fin.ext heq)
  have hscale : -1074 ≤ x.scale ∧ x.scale ≤ 971 := by
    unfold scale
    split <;> omega
  have hleast : (2 : ℚ) ^ (-1074 : Int) ≤ 2 ^ x.scale := zpow_le_zpow_right₀ one_le_two hscale.1
  have hmost : (2 : ℚ) ^ x.scale ≤ 2 ^ (971 : Int) := zpow_le_zpow_right₀ one_le_two hscale.2
  constructor
  · refine le_trans ?_ hlow
    calc (2 : ℚ) ^ (-1075 : Int) = 1 / 2 * 2 ^ (-1074 : Int) := by
          rw [one_div, ← zpow_neg_one, ← zpow_add₀ two_ne_zero]
          rfl
      _ ≤ (x.significand - x.below / 4) * 2 ^ x.scale := by
        apply mul_le_mul _ hleast (by positivity) <;> linarith
  · refine lt_of_le_of_lt hhigh ?_
    calc (x.significand + 1 / 2 : ℚ) * 2 ^ x.scale < 2 ^ 53 * 2 ^ x.scale :=
          mul_lt_mul_of_pos_right (by linarith) (by positivity)
      _ ≤ 2 ^ 53 * 2 ^ (971 : Int) := by gcongr
      _ = 2 ^ (1024 : Int) := by
        rw [← zpow_natCast, ← zpow_add₀ two_ne_zero]
        rfl

theorem two_zpow_lt : (2 : ℚ) ^ (1200 : Int) < 10 ^ (400 : Int) := by
  have hpower : (2 : ℚ) ^ (1200 : Int) = (2 ^ 3) ^ 400 := by rw [← pow_mul, ← zpow_natCast]; rfl
  rw [hpower, zpow_ofNat]
  exact pow_lt_pow_left₀ (by norm_num) (by norm_num) (by norm_num)

/-- The decimal point of a number between two powers of two is not far away. -/
theorem size_bounds {digits : Nat} {exponent : Int} (hdigits : 0 < digits)
    (hlow : (2 : ℚ) ^ (-1075 : Int) ≤ digits * 10 ^ exponent)
    (hhigh : (digits : ℚ) * 10 ^ exponent < 2 ^ (1024 : Int)) :
    -decimalBound ≤ exponent + (Nat.toDigits 10 digits).length ∧
      exponent + (Nat.toDigits 10 digits).length ≤ decimalBound := by
  have hpower : (0 : ℚ) < 10 ^ exponent := by positivity
  have hlength : 0 < (Nat.toDigits 10 digits).length :=
    List.length_pos_of_ne_nil Nat.toDigits_ne_nil
  constructor
  · have hless : (10 : ℚ) ^ (-400 : Int) <
        10 ^ (exponent + ((Nat.toDigits 10 digits).length : Int)) := by
      calc (10 : ℚ) ^ (-400 : Int) < 2 ^ (-1200 : Int) := by
            rw [zpow_neg, zpow_neg]
            exact inv_strictAnti₀ (by positivity) two_zpow_lt
        _ ≤ 2 ^ (-1075 : Int) := zpow_le_zpow_right₀ one_le_two (by norm_num)
        _ ≤ digits * 10 ^ exponent := hlow
        _ < 10 ^ (Nat.toDigits 10 digits).length * 10 ^ exponent :=
          mul_lt_mul_of_pos_right (by exact_mod_cast lt_pow_length_toDigits digits) hpower
        _ = 10 ^ (exponent + ((Nat.toDigits 10 digits).length : Int)) := by
          rw [zpow_add₀ (by norm_num), zpow_natCast, mul_comm]
    exact ((zpow_lt_zpow_iff_right₀ (by norm_num)).mp hless).le
  · have hless : (10 : ℚ) ^ (exponent + ((Nat.toDigits 10 digits).length - 1 : Nat)) <
        10 ^ (400 : Int) := by
      calc (10 : ℚ) ^ (exponent + ((Nat.toDigits 10 digits).length - 1 : Nat))
          = 10 ^ ((Nat.toDigits 10 digits).length - 1) * 10 ^ exponent := by
            rw [zpow_add₀ (by norm_num), zpow_natCast, mul_comm]
        _ ≤ digits * 10 ^ exponent :=
          mul_le_mul_of_nonneg_right (by exact_mod_cast pow_length_toDigits_le hdigits) hpower.le
        _ < 2 ^ (1024 : Int) := hhigh
        _ ≤ 2 ^ (1200 : Int) := zpow_le_zpow_right₀ one_le_two (by norm_num)
        _ < 10 ^ (400 : Int) := two_zpow_lt
    have hexponent := (zpow_lt_zpow_iff_right₀ (by norm_num)).mp hless
    simp only [decimalBound]
    omega

/-- A decimal number in the interval of a finite double is read as that double. -/
theorem ofDecimal?_eq (hfinite : x.isFinite = true) (hx : 0 < x.significand) {digits : Nat}
    {exponent : Int} (h : x.interval.Contains (digits * 10 ^ exponent)) :
    ofDecimal? x.negative digits exponent = some x := by
  have hdigits : 0 < digits := by
    rcases Nat.eq_zero_or_pos digits with rfl | hpos
    · exact absurd (contains_pos hx h) (by simp)
    · exact hpos
  obtain ⟨hlow, hhigh⟩ := contains_range hfinite hx h
  obtain ⟨hleast, hmost⟩ := size_bounds hdigits hlow hhigh
  obtain ⟨hpositive, hvalue⟩ := scaled_value (by norm_num : 0 < 10) one_pos digits exponent
  have hnearest : nearestMagnitude (scaled 10 digits 1 exponent).1 (scaled 10 digits 1 exponent).2 =
      x.magnitude := by
    apply nearestMagnitude_eq hx hpositive
    rw [hvalue]
    simpa using h
  have hmagnitude : decimalMagnitude digits exponent = x.magnitude := by
    unfold decimalMagnitude
    dsimp only
    rw [if_neg (by omega), if_neg (by omega)]
    exact hnearest
  rw [ofDecimal?, hmagnitude, if_pos (magnitude_lt hfinite), ofMagnitude_magnitude]

theorem ofDecimal?_zero (hzero : x.isZero = true) (exponent : Int) :
    ofDecimal? x.negative 0 exponent = some x := by
  obtain ⟨hexponent, hfraction⟩ : x.exponent = 0 ∧ x.fraction = 0 := by
    simpa [isZero] using hzero
  have hzero : x.magnitude = 0 := by simp [magnitude, hexponent, hfraction]
  have hmagnitude : decimalMagnitude 0 exponent = x.magnitude := by
    simp [decimalMagnitude, hzero]
  have hfinite : x.magnitude < infiniteMagnitude := by
    rw [hzero]
    decide
  rw [ofDecimal?, hmagnitude, if_pos hfinite, ofMagnitude_magnitude]

end Decimals

end Unparse.Binary64
