import Unparse.Literal.Numeric
import Unparse.Proofs.Binary64.Shortest

/-! Floats as literals. Whatever the digits and the exponent, the literal of a float is read as the
number that they stand for, and never as an integer; as a part of a complex number it may lose a
fraction of zero without losing its value. -/
namespace Unparse.Literal

open Json.Numeral (sign signed Ends takeWhile_digits dropWhile_digits)
open Scientific (zeros)

/-- The parts of a number literal that may have a minus sign before it. -/
structure Decimal where
  negative : Bool
  whole : List Char
  /-- The digits after the point, if there is a point. -/
  fraction : Option (List Char)
  exponent : Option Int

namespace Decimal

def value (n : Decimal) : ℚ :=
  (if n.negative then -1 else 1) * (Nat.ofDigitChars 10 (n.whole ++ n.fraction.getD []) 0 *
    10 ^ (n.exponent.getD 0 - (n.fraction.getD []).length))

/-- A literal with neither point nor exponent is an integer. -/
def isInteger (n : Decimal) : Bool :=
  n.fraction.isNone && n.exponent.isNone

/-- The digits after a point, if there is one, and what follows them. -/
def fraction? : List Char → Option (List Char) × List Char
  | '.' :: more => (some (more.takeWhile Char.isDigit), more.dropWhile Char.isDigit)
  | rest => (none, rest)

/-- The exponent that ends a literal, if it has one. -/
def tail? : List Char → Option (Option Int)
  | [] => some none
  | mark :: more =>
    if Json.Numeral.isMark mark then (Json.Numeral.exponent? more).map some else none

/-- Digits, a point that may be left out and has a digit on one of its sides, an exponent that may
be left out. -/
def read? (cs : List Char) : Option Decimal :=
  let (negative, unsigned) := sign cs
  let whole := unsigned.takeWhile Char.isDigit
  let (fraction, rest) := fraction? (unsigned.dropWhile Char.isDigit)
  if whole = [] ∧ fraction.getD [] = [] then none
  else (tail? rest).map fun exponent => ⟨negative, whole, fraction, exponent⟩

theorem fraction?_of_ne {c : Char} (hc : c ≠ '.') (more : List Char) :
    fraction? (c :: more) = (none, c :: more) ∧
      Json.Numeral.fraction? (c :: more) = some ([], c :: more) := by
  unfold fraction? Json.Numeral.fraction?
  constructor
  · split
    next heq => exact absurd (List.cons.inj heq).1 hc
    next => rfl
  · split
    next heq => exact absurd (List.cons.inj heq).1 hc
    next => rfl

theorem tail?_of_numeral {cs : List Char} {e : Int} (h : Json.Numeral.tail? cs = some e) :
    ∃ exponent, tail? cs = some exponent ∧ exponent.getD 0 = e ∧ exponent.isNone = cs.isEmpty := by
  cases cs with
  | nil =>
    cases h
    exact ⟨none, rfl, rfl, rfl⟩
  | cons mark more =>
    rw [Json.Numeral.tail?] at h
    split at h
    next hmark =>
      refine ⟨some e, ?_, rfl, rfl⟩
      rw [tail?, if_pos hmark, h]
      rfl
    next => cases h

/-- What follows the whole digits of a number token is read alike. -/
theorem rest_of_numeral {rest digits tail : List Char} {e : Int}
    (hfraction : Json.Numeral.fraction? rest = some (digits, tail))
    (htail : Json.Numeral.tail? tail = some e) :
    ∃ fraction exponent, fraction? rest = (fraction, tail) ∧ tail? tail = some exponent ∧
      fraction.getD [] = digits ∧ exponent.getD 0 = e ∧
      (fraction.isNone && exponent.isNone) = rest.isEmpty := by
  obtain ⟨exponent, hexponent, hvalue, hnone⟩ := tail?_of_numeral htail
  cases rest with
  | nil =>
    cases hfraction
    exact ⟨none, exponent, rfl, hexponent, rfl, hvalue, hnone⟩
  | cons c more =>
    by_cases hc : c = '.'
    · subst hc
      simp only [Json.Numeral.fraction?] at hfraction
      split at hfraction
      next => cases hfraction
      next =>
        cases hfraction
        exact ⟨some _, exponent, rfl, hexponent, rfl, hvalue, rfl⟩
    · obtain ⟨hown, hother⟩ := fraction?_of_ne hc more
      rw [hother] at hfraction
      cases hfraction
      exact ⟨none, exponent, hown, hexponent, rfl, hvalue, hnone⟩

/-- A number token of a document is a literal of the same number. -/
theorem exists_read?_of_numeral {cs : List Char} {n : Json.Numeral}
    (h : Json.Numeral.ofChars? cs = some n) :
    ∃ m, read? cs = some m ∧ m.value = (if n.negative then -1 else 1) * n.value ∧
      m.isInteger = n.integral ∧ m.whole ≠ [] := by
  unfold Json.Numeral.ofChars? at h
  dsimp only at h
  split at h
  next hwhole =>
    have hne := Json.Numeral.whole_ne_nil hwhole
    obtain ⟨⟨digits, tail⟩, hdigits, htail⟩ := Option.bind_eq_some_iff.mp h
    obtain ⟨e, he, rfl⟩ := Option.map_eq_some_iff.mp htail
    obtain ⟨fraction, exponent, hfraction, hexponent, rfl, rfl, hinteger⟩ :=
      rest_of_numeral hdigits he
    refine ⟨⟨(sign cs).1, (sign cs).2.takeWhile Char.isDigit, fraction, exponent⟩, ?_, rfl,
      hinteger, hne⟩
    unfold read?
    simp only [hfraction, hne, false_and, ↓reduceIte, hexponent, Option.map_some]
  next => cases h

/-! ### A fraction of zero -/

theorem point_notMem_of_digits? {cs : List Char} {n : Nat} (h : Text.digits? cs = some n) :
    '.' ∉ cs := by
  unfold Text.digits? at h
  split at h
  next => cases h
  next hdigits =>
    intro hmem
    simp only [Bool.or_eq_true, Bool.not_eq_true', not_or, Bool.not_eq_false] at hdigits
    exact absurd (List.all_eq_true.mp hdigits.2 '.' hmem) (by decide)

theorem point_notMem_of_exponent? {cs : List Char} {e : Int}
    (h : Json.Numeral.exponent? cs = some e) : '.' ∉ cs := by
  have hsome {digits : List Char} (hdigits : Text.digits? digits ≠ none) : '.' ∉ digits := by
    obtain ⟨n, hn⟩ := Option.ne_none_iff_exists'.mp hdigits
    exact point_notMem_of_digits? hn
  unfold Json.Numeral.exponent? at h
  split at h
  next digits =>
    have hdigits : '.' ∉ digits := hsome fun hnone => by simp [hnone] at h
    simpa using hdigits
  next digits =>
    have hdigits : '.' ∉ digits := hsome fun hnone => by simp [hnone] at h
    simpa using hdigits
  next => exact hsome fun hnone => by simp [hnone] at h

theorem point_notMem_of_tail? {cs : List Char} {e : Option Int} (h : tail? cs = some e) :
    '.' ∉ cs := by
  cases cs with
  | nil => exact List.not_mem_nil
  | cons mark more =>
    rw [tail?] at h
    split at h
    next hmark =>
      obtain ⟨i, hi, -⟩ := Option.map_eq_some_iff.mp h
      have hfirst : '.' ≠ mark := by
        rintro rfl
        cases hmark
      exact List.not_mem_cons_of_ne_of_not_mem hfirst (point_notMem_of_exponent? hi)
    next => cases h

theorem sign_append {cs : List Char} (hne : cs ≠ []) (more : List Char) :
    sign (cs ++ more) = ((sign cs).1, (sign cs).2 ++ more) := by
  cases cs with
  | nil => exact absurd rfl hne
  | cons c cs =>
    unfold sign
    rw [List.cons_append]
    split
    next heq =>
      cases heq
      rfl
    next hother =>
      split
      next heq =>
        cases heq
        exact absurd rfl (hother _)
      next => rfl

/-- Nothing but whole digits can stand before a point and a zero that end a literal. -/
theorem eq_nil_of_tail? {rest : List Char} {e : Option Int}
    (h : tail? (fraction? (rest ++ ['.', '0'])).2 = some e) : rest = [] := by
  cases rest with
  | nil => rfl
  | cons c rest =>
    have hpoint : '.' ∈ rest ++ ['.', '0'] := by simp
    refine absurd ?_ (point_notMem_of_tail? h)
    by_cases hc : c = '.'
    · subst hc
      have hsplit := List.takeWhile_append_dropWhile (p := Char.isDigit) (l := rest ++ ['.', '0'])
      rw [← hsplit] at hpoint
      rcases List.mem_append.mp hpoint with hdigit | hrest
      · exact absurd (List.mem_takeWhile_imp hdigit) (by decide)
      · exact hrest
    · rw [List.cons_append, (fraction?_of_ne hc _).1]
      exact .tail _ hpoint

/-- A fraction of zero does not count. -/
theorem exists_read?_of_append {cs : List Char} {n : Decimal}
    (h : read? (cs ++ ['.', '0']) = some n) (hwhole : n.whole ≠ []) :
    ∃ m, read? cs = some m ∧ m.value = n.value := by
  have hne : cs ≠ [] := by
    rintro rfl
    cases h
    exact hwhole rfl
  have hdigits : ∀ c ∈ (sign cs).2.takeWhile Char.isDigit, c.isDigit = true :=
    fun _ => List.mem_takeWhile_imp
  have hsplit : (sign cs).2 ++ ['.', '0'] = (sign cs).2.takeWhile Char.isDigit ++
      ((sign cs).2.dropWhile Char.isDigit ++ ['.', '0']) := by
    rw [← List.append_assoc, List.takeWhile_append_dropWhile]
  have hends : Ends ((sign cs).2.dropWhile Char.isDigit ++ ['.', '0']) := by
    unfold Ends
    cases hrest : (sign cs).2.dropWhile Char.isDigit with
    | nil => rfl
    | cons c more =>
      have hc := List.head?_dropWhile_not Char.isDigit (sign cs).2
      simpa [hrest] using hc
  unfold read? at h
  simp only [sign_append hne, hsplit, takeWhile_digits hdigits hends,
    dropWhile_digits hdigits hends] at h
  split at h
  next => cases h
  next hsome =>
    obtain ⟨e, he, rfl⟩ := Option.map_eq_some_iff.mp h
    have hrest := eq_nil_of_tail? he
    rw [hrest] at he ⊢
    cases he
    refine ⟨⟨(sign cs).1, (sign cs).2.takeWhile Char.isDigit, none, none⟩, ?_, ?_⟩
    · unfold read?
      have hnone : fraction? [] = (none, []) := rfl
      simp only [hrest, hnone, hwhole, false_and, ↓reduceIte]
      rfl
    · have hfraction : fraction? ([] ++ ['.', '0']) = (some (zeros 1), []) := rfl
      rw [hfraction]
      simp only [value, Option.getD_some, Option.getD_none, Scientific.ofDigitChars_zeros,
        List.append_nil]
      congr 1
      exact (Scientific.shifted_value (by simp [zeros])).symm

/-- What is dropped is a fraction of zero. -/
theorem exists_read?_dropPointZero {cs : List Char} {n : Decimal} (h : read? cs = some n)
    (hwhole : n.whole ≠ []) : ∃ m, read? (dropPointZero cs) = some m ∧ m.value = n.value := by
  unfold dropPointZero
  split
  next hend =>
    rw [← List.take_append_drop (cs.length - 2) cs, hend] at h
    exact exists_read?_of_append h hwhole
  next => exact ⟨n, h, rfl⟩

end Decimal

section Layouts

variable {s : Scientific}

theorem point_mem_positional (s : Scientific) : '.' ∈ s.positional := by
  unfold Scientific.positional
  split
  next =>
    dsimp only
    split <;> simp
  next => simp

theorem mark_mem_exponential (width : Nat) (s : Scientific) : 'e' ∈ s.exponential width := by
  simp [Scientific.exponential]

theorem mark_notMem_positional (hs : ∀ c ∈ s.digits, c.isDigit = true) : 'e' ∉ s.positional := by
  have hdigits : 'e' ∉ s.digits := fun h => absurd (hs 'e' h) (by decide)
  have hzeros (n : Nat) : 'e' ∉ zeros n := fun h =>
    absurd (Scientific.isDigit_of_mem_zeros h) (by decide)
  unfold Scientific.positional
  split
  next =>
    dsimp only
    split
    next => simp [hdigits, hzeros]
    next =>
      simp only [List.mem_append, List.mem_cons, not_or]
      exact ⟨fun h => hdigits (List.mem_of_mem_take h), by decide,
        fun h => hdigits (List.mem_of_mem_drop h)⟩
  next => simp [hdigits, hzeros]

end Layouts

/-- The literal of a finite number is the layout of its shortest decimal, with its sign. -/
theorem floatChars_eq {x : Binary64} (hx : x.isFinite = true) :
    floatChars x = signed x.negative ((x.scientific .up).written sourceLayout) := by
  simp only [floatChars, Binary64.isNaN, Binary64.isInfinite, hx, Bool.not_true, Bool.false_and,
    Bool.false_eq_true, ↓reduceIte, signed]

theorem scientific_isNormal (x : Binary64) (tie : Binary64.Tie) : (x.scientific tie).IsNormal := by
  by_cases hx : 0 < x.significand
  · exact Binary64.isNormal_scientific hx tie
  · have hzero : x.isZero = true := by
      rw [Binary64.significand_pos_iff, Bool.not_eq_false] at hx
      exact hx
    rw [Binary64.scientific, if_pos hzero]
    exact Scientific.isNormal_zero

theorem mem_signed_iff {c : Char} (hc : c ≠ '-') (negative : Bool) (cs : List Char) :
    c ∈ signed negative cs ↔ c ∈ cs := by
  cases negative <;> simp [signed, hc]

/-- Only a written exponent has a mark. -/
theorem mark_notMem_written_iff {s : Scientific} (hs : s.IsNormal) :
    'e' ∉ s.written sourceLayout ↔ -4 ≤ s.exponent ∧ s.exponent < 16 := by
  unfold Scientific.written
  split
  next hrange => exact iff_of_true (mark_notMem_positional hs.isDigit) hrange
  next hrange => exact iff_of_false (not_not_intro (mark_mem_exponential _ s)) hrange

theorem point_or_mark_mem_written (layout : Layout) (s : Scientific) :
    '.' ∈ s.written layout ∨ 'e' ∈ s.written layout := by
  unfold Scientific.written
  split
  next => exact .inl (point_mem_positional s)
  next => exact .inr (mark_mem_exponential _ s)

/-- For all digits without a needless zero in front, all exponents and both signs, the literal is
read as the number that they stand for. It has a point or an exponent, so that it is no integer, and
it has no exponent exactly if the exponent of the number is from -4 to 15. Without a fraction of
zero it still denotes the same number. The literals of all finite doubles, and the parts of complex
numbers, are of this form. -/
theorem float_layout :
    (∀ (negative : Bool) (s : Scientific), s.IsNormal →
      ∃ n, Decimal.read? (signed negative (s.written sourceLayout)) = some n ∧
        n.value = (if negative then -1 else 1) * s.value ∧ n.isInteger = false ∧
        ('.' ∈ signed negative (s.written sourceLayout) ∨
          'e' ∈ signed negative (s.written sourceLayout)) ∧
        ('e' ∉ signed negative (s.written sourceLayout) ↔ -4 ≤ s.exponent ∧ s.exponent < 16) ∧
        ∃ m, Decimal.read? (dropPointZero (signed negative (s.written sourceLayout))) = some m ∧
          m.value = (if negative then -1 else 1) * s.value) ∧
    ∀ x : Binary64, x.isFinite = true →
      (x.scientific .up).IsNormal ∧
      floatChars x = signed x.negative ((x.scientific .up).written sourceLayout) ∧
      complexPart x =
        dropPointZero (signed x.negative ((x.scientific .up).written sourceLayout)) := by
  constructor
  · intro negative s hs
    obtain ⟨token, htoken, rfl, hintegral, hvalue⟩ :=
      Scientific.written_denotes hs negative sourceLayout
    obtain ⟨n, hread, hn, hinteger, hwhole⟩ := Decimal.exists_read?_of_numeral htoken
    obtain ⟨m, hdropped, hm⟩ := Decimal.exists_read?_dropPointZero hread hwhole
    rw [hvalue] at hn
    refine ⟨n, hread, hn, hinteger.trans hintegral, ?_, ?_, m, hdropped, hm.trans hn⟩
    · rw [mem_signed_iff (by decide), mem_signed_iff (by decide)]
      exact point_or_mark_mem_written sourceLayout s
    · rw [mem_signed_iff (by decide)]
      exact mark_notMem_written_iff hs
  · intro x hx
    refine ⟨scientific_isNormal x .up, floatChars_eq hx, ?_⟩
    rw [complexPart, floatChars_eq hx]

/-- Twelve with a minus sign, where the digits end right before the point, and the double five. -/
theorem float_layout_twelve :
    (⟨['1', '2'], 1⟩ : Scientific).IsNormal ∧
    (∃ n, Decimal.read? "-12.0".toList = some n ∧ n.value = -12 ∧ n.isInteger = false ∧
      ∃ m, Decimal.read? "-12".toList = some m ∧ m.value = -12) ∧
    (⟨false, 1025, 0x4000000000000⟩ : Binary64).isFinite = true ∧
    complexPart ⟨false, 1025, 0x4000000000000⟩ = "5".toList := by
  have hnormal : (⟨['1', '2'], 1⟩ : Scientific).IsNormal := ⟨by simp, by simp, .inl (by decide)⟩
  have htext : signed true ((⟨['1', '2'], 1⟩ : Scientific).written sourceLayout) =
      "-12.0".toList := by decide
  have hshort : dropPointZero "-12.0".toList = "-12".toList := by decide
  have hvalue : (if true then -1 else 1 : ℚ) * (⟨['1', '2'], 1⟩ : Scientific).value = -12 := by
    have hdigits : Nat.ofDigitChars 10 ['1', '2'] 0 = 12 := rfl
    norm_num [Scientific.value, hdigits]
  have hfinite : (⟨false, 1025, 0x4000000000000⟩ : Binary64).isFinite = true := by decide
  obtain ⟨hlayout, hdoubles⟩ := float_layout
  have htwelve := hlayout true ⟨['1', '2'], 1⟩ hnormal
  rw [htext, hshort, hvalue] at htwelve
  obtain ⟨n, hread, hn, hinteger, -, -, hdropped⟩ := htwelve
  refine ⟨hnormal, ⟨n, hread, hn, hinteger, hdropped⟩, hfinite, ?_⟩
  rw [(hdoubles _ hfinite).2.2]
  decide +kernel

end Unparse.Literal
