import Mathlib.Algebra.GroupWithZero.Nat
import Mathlib.Data.List.DropRight
import Mathlib.Data.List.Induction
import Unparse.Proofs.Tree.Scalars

/-! The forms of plain text. A text has a core between the blanks around it, and a run of digits
denotes a number; what trims a text finds the core, and what reads a number accepts just the runs
of digits that denote it. -/
namespace Unparse.Text

variable {cs core : List Char}

/-! ### Blanks around a text -/

/-- A text is its core with blanks around it, and the core has none at its ends. -/
structure Trimmed (cs core : List Char) : Prop where
  surrounded : ∃ left right, (∀ c ∈ left, isBlank c = true) ∧ (∀ c ∈ right, isBlank c = true) ∧
    cs = left ++ core ++ right
  head : ∀ c ∈ core.head?, isBlank c = false
  last : ∀ c ∈ core.getLast?, isBlank c = false

/-- Blanks around a text are not seen after trimming. -/
theorem trimChars_surrounded {left right : List Char} (hleft : ∀ c ∈ left, isBlank c = true)
    (hright : ∀ c ∈ right, isBlank c = true) (cs : List Char) :
    trimChars (left ++ cs ++ right) = trimChars cs := by
  have hreverse : ∀ c ∈ right.reverse, isBlank c = true := by simpa using hright
  unfold trimChars
  rw [List.append_assoc, List.dropWhile_append_of_pos hleft, List.dropWhile_append]
  split
  next hempty =>
    rw [List.dropWhile_eq_nil_iff.mpr hright, List.isEmpty_iff.mp hempty]
  next =>
    rw [List.reverse_append, List.dropWhile_append_of_pos hreverse]

theorem trimmed_trimChars (cs : List Char) : Trimmed cs (trimChars cs) := by
  have hmiddle : (cs.dropWhile isBlank).rdropWhile isBlank ++
      (cs.dropWhile isBlank).rtakeWhile isBlank = cs.dropWhile isBlank :=
    List.rdropWhile_append_rtakeWhile
  refine ⟨⟨cs.takeWhile isBlank, (cs.dropWhile isBlank).rtakeWhile isBlank, ?_, ?_, ?_⟩, ?_, ?_⟩
  · exact fun c hc => List.mem_takeWhile_imp hc
  · exact fun c hc => List.mem_rtakeWhile_imp hc
  · change cs = _ ++ (cs.dropWhile isBlank).rdropWhile isBlank ++ _
    rw [List.append_assoc, hmiddle, List.takeWhile_append_dropWhile]
  · -- The core begins as the text does after its first blanks.
    intro c hc
    obtain ⟨more, hmore⟩ := List.head?_eq_some_iff.mp hc
    have hstart : (cs.dropWhile isBlank).head? = some c := by
      rw [← hmiddle]
      change (trimChars cs ++ _).head? = some c
      rw [hmore]
      rfl
    have hblank := List.head?_dropWhile_not isBlank cs
    rw [hstart] at hblank
    exact hblank
  · intro c hc
    obtain ⟨hne, rfl⟩ := List.mem_getLast?_eq_getLast hc
    exact Bool.eq_false_iff.mpr (List.rdropWhile_last_not isBlank (cs.dropWhile isBlank) hne)

theorem trimChars_eq_iff : trimChars cs = core ↔ Trimmed cs core := by
  constructor
  · rintro rfl
    exact trimmed_trimChars cs
  · rintro ⟨⟨left, right, hleft, hright, rfl⟩, hhead, hlast⟩
    rw [trimChars_surrounded hleft hright, trimChars_of_ends hhead hlast]

/-! ### Runs of digits -/

/-- A run of digits denotes a number. -/
inductive Digits : List Char → Nat → Prop where
  | digit {d : Nat} (hd : d < 10) : Digits [d.digitChar] d
  | snoc {cs : List Char} {n d : Nat} (more : Digits cs n) (hd : d < 10) :
    Digits (cs ++ [d.digitChar]) (10 * n + d)

theorem ofDigitChars_snoc (cs : List Char) {d : Nat} (hd : d < 10) :
    Nat.ofDigitChars 10 (cs ++ [d.digitChar]) 0 = 10 * Nat.ofDigitChars 10 cs 0 + d := by
  have hdigit : d.digitChar.toNat - '0'.toNat = d := by
    rw [Nat.toNat_digitChar_of_lt_ten hd]
    exact Nat.add_sub_cancel_left ..
  rw [Nat.ofDigitChars_append, Nat.ofDigitChars_cons, hdigit, Nat.ofDigitChars_nil]

namespace Digits

variable {n : Nat}

theorem ne_nil (h : Digits cs n) : cs ≠ [] := by
  cases h <;> simp

theorem isDigit (h : Digits cs n) : ∀ c ∈ cs, c.isDigit = true := by
  have hchar : ∀ d < 10, d.digitChar.isDigit = true := by decide
  induction h with
  | digit hd => simpa using hchar _ hd
  | snoc _ hd ih => exact List.forall_mem_append.mpr ⟨ih, by simpa using hchar _ hd⟩

theorem value (h : Digits cs n) : Nat.ofDigitChars 10 cs 0 = n := by
  induction h with
  | digit hd => exact (ofDigitChars_snoc [] hd).trans (by simp)
  | snoc _ hd ih => rw [ofDigitChars_snoc _ hd, ih]

end Digits

theorem exists_digitChar {c : Char} (h : c.isDigit = true) : ∃ d < 10, c = d.digitChar :=
  of_isDigit (P := fun c => ∃ d < 10, c = d.digitChar) (fun d hd => ⟨d, hd, rfl⟩) h

/-- A run of digits denotes the number that is computed from it. -/
theorem digits_ofDigitChars (hne : cs ≠ []) (hcs : ∀ c ∈ cs, c.isDigit = true) :
    Digits cs (Nat.ofDigitChars 10 cs 0) := by
  induction cs using List.reverseRecOn with
  | nil => exact absurd rfl hne
  | append_singleton cs c ih =>
    obtain ⟨hmore, hc⟩ := List.forall_mem_append.mp hcs
    obtain ⟨d, hd, rfl⟩ := exists_digitChar (hc c List.mem_cons_self)
    rw [ofDigitChars_snoc cs hd]
    by_cases hfirst : cs = []
    · subst hfirst
      simpa using Digits.digit hd
    · exact .snoc (ih hfirst hmore) hd

theorem digits?_eq_some_iff {n : Nat} : digits? cs = some n ↔ Digits cs n := by
  constructor
  · intro h
    unfold digits? at h
    split_ifs at h with hrefused
    rw [Bool.or_eq_true, not_or] at hrefused
    obtain ⟨hne, hall⟩ := hrefused
    rw [← Option.some.inj h]
    exact digits_ofDigitChars (by simpa using hne) (by simpa using hall)
  · intro h
    rw [digits?_eq_some h.ne_nil h.isDigit, h.value]

theorem digits_toDigits (n : Nat) : Digits (Nat.toDigits 10 n) n :=
  digits?_eq_some_iff.mp (digits?_toDigits n)

end Unparse.Text
