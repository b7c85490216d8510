import Unparse.Literal.Numeric

/-! The characters of numeric literals. Whatever the number, its literal is made of
digits, the few marks of a number, and parentheses that match. -/
namespace Unparse.Literal

/-- The characters that numbers are written with, parentheses apart. -/
def isNumeral (c : Char) : Bool :=
  c.isDigit || c == '.' || c == 'e' || c == 'j' || c == '+' || c == '-' || c == ' '

/-- Numeral characters and matching parentheses. -/
inductive Numeric : List Char → Prop where
  | nil : Numeric []
  | cons {c : Char} {cs : List Char} (here : isNumeral c = true) (more : Numeric cs) :
      Numeric (c :: cs)
  | group {inner cs : List Char} (inside : Numeric inner) (more : Numeric cs) :
      Numeric ('(' :: (inner ++ ')' :: cs))

namespace Numeric

theorem of_forall {cs : List Char} (h : ∀ c ∈ cs, isNumeral c = true) : Numeric cs := by
  induction cs with
  | nil => exact nil
  | cons c cs ih =>
    exact cons (h c (List.mem_cons_self ..)) (ih fun x hx => h x (List.mem_cons_of_mem _ hx))

theorem of_all {cs : List Char} (h : cs.all isNumeral = true) : Numeric cs :=
  of_forall (List.all_eq_true.mp h)

theorem append {as bs : List Char} (ha : Numeric as) (hb : Numeric bs) : Numeric (as ++ bs) := by
  induction ha with
  | nil => exact hb
  | cons here more ih => exact cons here ih
  | group inside more _ ih =>
    rw [List.cons_append, List.append_assoc, List.cons_append]
    exact group inside ih

theorem parenthesized {cs : List Char} (h : Numeric cs) : Numeric ('(' :: (cs ++ [')'])) :=
  group h nil

end Numeric

theorem isNumeral_of_isDigit {c : Char} (h : c.isDigit = true) : isNumeral c = true := by
  simp [isNumeral, h]

theorem numeral_of_mem_toDigits {n : Nat} {c : Char} (h : c ∈ Nat.toDigits 10 n) :
    isNumeral c = true :=
  isNumeral_of_isDigit (Nat.isDigit_of_mem_toDigits (by decide) (by decide) h)

theorem numeral_of_mem_zeros {n : Nat} {c : Char} (h : c ∈ Scientific.zeros n) :
    isNumeral c = true := by
  rw [(List.mem_replicate.mp h).2]
  decide

theorem numeral_of_mem_dropZeros {cs : List Char} (hcs : ∀ c ∈ cs, isNumeral c = true)
    {c : Char} (h : c ∈ Binary64.dropZeros cs) : isNumeral c = true := by
  unfold Binary64.dropZeros at h
  split at h
  · rw [List.mem_singleton.mp h]
    decide
  · rw [List.mem_reverse] at h
    exact hcs c (List.mem_reverse.mp ((List.dropWhile_sublist _).subset h))

theorem numeral_of_mem_scientific {tie : Binary64.Tie} {x : Binary64} {c : Char}
    (h : c ∈ (x.scientific tie).digits) : isNumeral c = true := by
  unfold Binary64.scientific at h
  split at h
  · rw [List.mem_singleton.mp h]
    decide
  · exact numeral_of_mem_dropZeros (fun _ => numeral_of_mem_toDigits) h

section Written

variable {s : Scientific} {c : Char}

theorem numeral_of_mem_positional (hs : ∀ c ∈ s.digits, isNumeral c = true)
    (h : c ∈ s.positional) : isNumeral c = true := by
  unfold Scientific.positional at h
  split at h
  · dsimp only at h
    split at h
    · simp only [List.mem_append, List.mem_cons, List.not_mem_nil, or_false] at h
      rcases h with (h | h) | rfl | rfl
      · exact hs c h
      · exact numeral_of_mem_zeros h
      · decide
      · decide
    · simp only [List.mem_append, List.mem_cons] at h
      rcases h with h | rfl | h
      · exact hs c (List.mem_of_mem_take h)
      · decide
      · exact hs c (List.mem_of_mem_drop h)
  · simp only [List.mem_append, List.mem_cons] at h
    rcases h with rfl | rfl | h | h
    · decide
    · decide
    · exact numeral_of_mem_zeros h
    · exact hs c h

theorem numeral_of_mem_mantissa (hs : ∀ c ∈ s.digits, isNumeral c = true)
    (h : c ∈ s.mantissa) : isNumeral c = true := by
  unfold Scientific.mantissa at h
  split at h
  next d e more heq =>
    rw [heq] at hs
    simp only [List.mem_cons] at h hs
    rcases h with rfl | rfl | rfl | h
    · exact hs _ (.inl rfl)
    · decide
    · exact hs _ (.inr (.inl rfl))
    · exact hs c (.inr (.inr h))
  next => exact hs c h

theorem numeral_of_mem_exponential {width : Nat} (hs : ∀ c ∈ s.digits, isNumeral c = true)
    (h : c ∈ s.exponential width) : isNumeral c = true := by
  unfold Scientific.exponential at h
  simp only [List.mem_append, List.mem_cons] at h
  rcases h with h | rfl | rfl | h | h
  · exact numeral_of_mem_mantissa hs h
  · decide
  · split <;> decide
  · exact numeral_of_mem_zeros h
  · exact numeral_of_mem_toDigits h

theorem numeral_of_mem_written {layout : Layout} (hs : ∀ c ∈ s.digits, isNumeral c = true)
    (h : c ∈ s.written layout) : isNumeral c = true := by
  unfold Scientific.written at h
  split at h
  · exact numeral_of_mem_positional hs h
  · exact numeral_of_mem_exponential hs h

end Written

/-- Apart from the literal that is no number, a float is written without parentheses. -/
theorem numeral_of_mem_floatChars {x : Binary64} (hx : x.isNaN = false) {c : Char}
    (h : c ∈ floatChars x) : isNumeral c = true := by
  have hinfinite : ∀ c ∈ infinite, isNumeral c = true := List.all_eq_true.mp (by decide)
  have hmagnitude : c ∈ (if x.isInfinite then infinite
      else (x.scientific .up).written sourceLayout) → isNumeral c = true := by
    intro hc
    split at hc
    · exact hinfinite c hc
    · exact numeral_of_mem_written (fun _ => numeral_of_mem_scientific) hc
  unfold floatChars at h
  simp only [hx, Bool.false_eq_true, ↓reduceIte] at h
  split at h
  · rcases List.mem_cons.mp h with rfl | h
    · decide
    · exact hmagnitude h
  · exact hmagnitude h

theorem floatChars_nan {x : Binary64} (hx : x.isNaN = true) :
    floatChars x = '(' :: ("1e309 - 1e309".toList ++ [')']) := by
  unfold floatChars
  rw [if_pos hx]
  decide

theorem numeric_floatChars (x : Binary64) : Numeric (floatChars x) := by
  by_cases hx : x.isNaN = true
  · rw [floatChars_nan hx]
    exact (Numeric.of_all (by decide)).parenthesized
  · exact .of_forall fun _ => numeral_of_mem_floatChars (by simpa using hx)

theorem numeric_complexPart (x : Binary64) : Numeric (complexPart x) := by
  by_cases hx : x.isNaN = true
  · have hpart : complexPart x = floatChars x := by
      unfold complexPart
      rw [floatChars_nan hx]
      decide
    rw [hpart]
    exact numeric_floatChars x
  · refine .of_forall fun c hc => numeral_of_mem_floatChars (x := x) (by simpa using hx) ?_
    unfold complexPart dropPointZero at hc
    split at hc
    · exact List.mem_of_mem_take hc
    · exact hc

theorem numeric_infiniteDifference : Numeric infiniteDifference := by
  have h : infiniteDifference = '(' :: ("1e309j - 1e309j".toList ++ [')']) := by decide
  rw [h]
  exact (Numeric.of_all (by decide)).parenthesized

theorem numeric_complexChars (real imag : Binary64) : Numeric (complexChars real imag) := by
  have hreal := numeric_complexPart real
  have himag := numeric_complexPart imag
  have hunit : Numeric ['j'] := .of_all (by decide)
  unfold complexChars
  split
  · split
    · exact numeric_infiniteDifference
    · have hplus : Numeric " + ".toList := .of_all (by decide)
      exact ((hreal.append hplus).append numeric_infiniteDifference).parenthesized
  · split
    · exact himag.append hunit
    · have hparts {sign : Char} {rest : List Char} (hsign : isNumeral sign = true)
          (hrest : Numeric rest) :
          Numeric ('(' :: (complexPart real ++ sign :: (rest ++ "j)".toList))) := by
        have hsplit : complexPart real ++ sign :: (rest ++ "j)".toList) =
            (complexPart real ++ sign :: (rest ++ ['j'])) ++ [')'] := by
          simp
        rw [hsplit]
        exact (hreal.append (.cons hsign (hrest.append hunit))).parenthesized
      split
      next magnitude heq =>
        rw [heq] at himag
        cases himag with
        | cons _ more => exact hparts (by decide) more
      next => exact hparts (by decide) himag

theorem numeric_decimal (n : Nat) : Numeric (Text.decimal n).toList := by
  refine .of_forall fun c hc => numeral_of_mem_toDigits (n := n) ?_
  simpa [Text.decimal] using hc

theorem numeric_signedDecimal (i : Int) : Numeric (Text.signedDecimal i).toList := by
  cases i with
  | ofNat n => exact numeric_decimal n
  | negSucc n =>
    simp only [Text.signedDecimal, String.toList_append]
    exact .cons (by decide) (numeric_decimal (n + 1))

theorem numeric_guardSign {text : String} (h : Numeric text.toList) :
    Numeric (guardSign text).toList := by
  unfold guardSign
  split
  · simpa using h.parenthesized
  · exact h

/-- The first character is a digit. -/
def LedByDigit (cs : List Char) : Prop :=
  ∃ c more, cs = c :: more ∧ c.isDigit = true

theorem ledByDigit_decimal (n : Nat) : LedByDigit (Text.decimal n).toList := by
  rw [Text.decimal, String.toList_ofList]
  cases hcs : Nat.toDigits 10 n with
  | nil => exact absurd hcs Nat.toDigits_ne_nil
  | cons c cs =>
    have hmem : c ∈ Nat.toDigits 10 n := hcs ▸ List.mem_cons_self
    exact ⟨c, cs, rfl, Nat.isDigit_of_mem_toDigits (by decide) (by decide) hmem⟩

/-- Where a digit comes first, there is no sign to guard. -/
theorem LedByDigit.guardSign_eq {text : String} (h : LedByDigit text.toList) :
    guardSign text = text := by
  obtain ⟨c, cs, hcs, hc⟩ := h
  have hsign : Text.startsWith text "-" = false := by
    have hne : '-' ≠ c := by
      rintro rfl
      exact absurd hc (by decide)
    simp [Text.startsWith, hcs, List.isPrefixOf, hne]
  rw [guardSign, hsign]
  rfl

theorem numeric_number (n : Number) : Numeric (number n).toList := by
  cases n with
  | int i => exact numeric_guardSign (numeric_signedDecimal i)
  | float x => exact numeric_guardSign (by simpa [float] using numeric_floatChars x)
  | complex real imag =>
    exact numeric_guardSign (by simpa [complex] using numeric_complexChars real imag)

end Unparse.Literal
