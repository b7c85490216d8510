import Mathlib.Tactic.SplitIfs
import Unparse.Proofs.Literal.Numeral
import Unparse.Proofs.Scanner.Fragment

/-! Literals under the scanner. Between its marks a literal has only characters that neither
end it nor break its line, and escapes. -/
namespace Unparse

namespace Scanner

/-- What may stand in a short literal that `mark` ends. -/
inductive Escaped (mark : Char) : List Char → Prop where
  | nil : Escaped mark []
  | char {c : Char} {cs : List Char} (hescape : c ≠ '\\') (hline : c ≠ '\n') (hmark : c ≠ mark)
      (more : Escaped mark cs) : Escaped mark (c :: cs)
  | escape {c : Char} {cs : List Char} (more : Escaped mark cs) : Escaped mark ('\\' :: c :: cs)

namespace Escaped

variable {mark : Char} {cs : List Char}

theorem append {as bs : List Char} (ha : Escaped mark as) (hb : Escaped mark bs) :
    Escaped mark (as ++ bs) := by
  induction ha with
  | nil => exact hb
  | char hescape hline hmark more ih => exact char hescape hline hmark ih
  | escape more ih => exact escape ih

theorem paired (h : Escaped mark cs) : Paired cs := by
  induction h with
  | nil => exact Paired.nil
  | char hescape hline hmark more ih => exact Paired.char hescape ih
  | escape more ih => exact Paired.escape ih

/-- Code that has no mark and no line end may stand in a literal. -/
theorem of_paired (h : Paired cs) (hmark : mark ∉ cs) (hline : '\n' ∉ cs) : Escaped mark cs := by
  induction h with
  | nil => exact nil
  | char here more ih =>
    simp only [List.mem_cons, not_or] at hmark hline
    exact char here (Ne.symm hline.1) (Ne.symm hmark.1) (ih hmark.2 hline.2)
  | escape more ih =>
    simp only [List.mem_cons, not_or] at hmark hline
    exact escape (ih hmark.2.2 hline.2.2)

theorem of_inert (hmark : isQuote mark = true) (h : ∀ c ∈ cs, isInert c = true) :
    Escaped mark cs := by
  induction cs with
  | nil => exact nil
  | cons c cs ih =>
    have hc := h c (List.mem_cons_self ..)
    simp only [isInert, Bool.and_eq_true, Bool.not_eq_true', bne_iff_ne] at hc
    obtain ⟨⟨⟨⟨hquote, -⟩, -⟩, hline⟩, hescape⟩ := hc
    have hne : c ≠ mark := by
      rintro rfl
      rw [hmark] at hquote
      exact absurd hquote (by decide)
    exact char hescape hline hne (ih fun x hx => h x (List.mem_cons_of_mem _ hx))

theorem run_short (h : Escaped mark cs) (stack rest : List Char) :
    run ⟨.short mark, stack, 0⟩ (cs ++ rest) = run ⟨.short mark, stack, 0⟩ rest := by
  induction h with
  | nil => rfl
  | char hescape hline hmark more ih =>
    rw [List.cons_append, run_short_char hescape hline hmark, ih]
  | escape more ih => rw [List.cons_append, List.cons_append, run_short_escape, ih]

theorem run_long (h : Escaped mark cs) (stack rest : List Char) :
    run ⟨.long mark, stack, 0⟩ (cs ++ rest) = run ⟨.long mark, stack, 0⟩ rest := by
  induction h with
  | nil => rfl
  | char hescape hline hmark more ih =>
    rw [List.cons_append, run_long_char hescape fun hc => absurd hc hmark, ih]
  | escape more ih => rw [List.cons_append, List.cons_append, run_long_escape, ih]

/-- The mark that opens a short literal is not the first of three. -/
theorem not_tripled (h : Escaped mark cs) (hmark : isQuote mark = true) {rest : List Char}
    (hrest : Bare rest) : [mark, mark].isPrefixOf (cs ++ mark :: rest) = false := by
  cases h with
  | nil =>
    cases rest with
    | nil => simp [List.isPrefixOf]
    | cons c rest =>
      have hc : mark ≠ c := by
        rintro rfl
        rw [show isQuote mark = false from hrest] at hmark
        exact Bool.false_ne_true hmark
      simp [List.isPrefixOf, hc]
  | char hescape hline hne more => simp [List.isPrefixOf, Ne.symm hne]
  | escape more => simp [List.isPrefixOf, ne_escape_of_isQuote hmark]

theorem run_literal (h : Escaped mark cs) (hmark : isQuote mark = true) (stack : List Char)
    {rest : List Char} (hrest : Bare rest) :
    (code stack).run (mark :: (cs ++ mark :: rest)) = (code stack).run rest := by
  rw [run_short_open hmark (h.not_tripled hmark hrest), h.run_short, run_short_close hmark]

end Escaped

theorem isQuote_quoteFor (cs : List Char) : isQuote (Literal.quoteFor cs) = true := by
  unfold Literal.quoteFor
  split
  · rfl
  · rfl

theorem isInert_hexDigit (n : Nat) : isInert (Text.hexDigit n) = true := by
  have hdigits : ∀ k < 16, isInert ((Nat.toDigits 16 k).headD '0') = true := by decide
  exact hdigits (n % 16) (Nat.mod_lt n (by decide))

theorem isInert_of_mem_hex {width n : Nat} {c : Char} (h : c ∈ Text.hex width n) :
    isInert c = true := by
  induction width generalizing n with
  | zero => simp [Text.hex] at h
  | succ width ih =>
    rcases List.mem_append.mp h with h | h
    · exact ih h
    · rw [List.mem_singleton.mp h]
      exact isInert_hexDigit n

section Escapes

variable {mark : Char} (hmark : isQuote mark = true)
include hmark

theorem escaped_codeEscape (c : Char) : Escaped mark (Literal.codeEscape c) := by
  have hhex (width : Nat) : Escaped mark (Text.hex width c.toNat) :=
    Escaped.of_inert hmark fun _ => isInert_of_mem_hex
  unfold Literal.codeEscape
  split
  · exact Escaped.escape (hhex 2)
  · split
    · exact Escaped.escape (hhex 4)
    · exact Escaped.escape (hhex 8)

theorem escaped_escapeChar (hidden : Char → Bool) (c : Char) :
    Escaped mark (Literal.escapeChar hidden mark c) := by
  unfold Literal.escapeChar
  split_ifs with h₁ h₂ h₃ h₄ h₅ h₆
  · exact Escaped.escape Escaped.nil
  · exact Escaped.escape Escaped.nil
  · exact Escaped.escape Escaped.nil
  · exact Escaped.escape Escaped.nil
  · exact Escaped.escape Escaped.nil
  · exact escaped_codeEscape hmark c
  · exact Escaped.char h₁ h₂ h₅ Escaped.nil

theorem escaped_escape (hidden : Char → Bool) (cs : List Char) :
    Escaped mark (Literal.escape hidden mark cs) := by
  unfold Literal.escape
  induction cs with
  | nil => exact Escaped.nil
  | cons c cs ih =>
    rw [List.flatMap_cons]
    exact (escaped_escapeChar hmark hidden c).append ih

end Escapes

namespace Fragment

/-- A mark, what may stand before the next mark, and that mark. -/
theorem literal {mark : Char} {cs : List Char} (hmark : isQuote mark = true)
    (h : Escaped mark cs) : Fragment (String.ofList (mark :: (cs ++ [mark]))) := by
  intro stack
  constructor
  · intro rest hrest
    rw [String.toList_ofList, List.cons_append, List.append_assoc]
    exact h.run_literal hmark stack hrest
  · rw [String.toList_ofList]
    have hend : Paired [mark] := Paired.char (ne_escape_of_isQuote hmark) Paired.nil
    exact Paired.char (ne_escape_of_isQuote hmark) (h.paired.append hend)

theorem quoted (hidden : Char → Bool) (cs : List Char) :
    Fragment (String.ofList (Literal.quoted hidden cs)) :=
  literal (isQuote_quoteFor cs) (escaped_escape (isQuote_quoteFor cs) hidden cs)

theorem string (s : String) : Fragment (Literal.string s) :=
  quoted Literal.isHidden s.toList

theorem bytes (bs : List UInt8) : Fragment (Literal.bytes bs) := by
  have hsplit : Literal.bytes bs =
      "b" ++ String.ofList (Literal.quoted Literal.isHiddenByte (bs.map Literal.byteChar)) := by
    apply String.toList_injective
    simp [Literal.bytes]
  rw [hsplit]
  intro stack
  exact (Reads.fixed (by decide) rfl).fragment (quoted _ _)

theorem isInert_of_isNumeral {c : Char} (h : Literal.isNumeral c = true) : isInert c = true := by
  simp only [Literal.isNumeral, Bool.or_eq_true, beq_iff_eq] at h
  rcases h with (((((h | rfl) | rfl) | rfl) | rfl) | rfl) | rfl
  · have hne {x : Char} (hx : x.isDigit = false) : c ≠ x := by
      rintro rfl
      rw [hx] at h
      exact Bool.false_ne_true h
    simp [isInert, isQuote, isOpening, isClosing, Literal.singleQuote, Literal.doubleQuote, hne]
  all_goals decide

theorem run_numeric {cs : List Char} (h : Literal.Numeric cs) (stack rest : List Char) :
    (code stack).run (cs ++ rest) = (code stack).run rest := by
  induction h generalizing stack rest with
  | nil => rfl
  | cons here more ih => rw [List.cons_append, run_inert (isInert_of_isNumeral here), ih]
  | @group inner cs inside more ihInside ihMore =>
    have hopen : (code stack).run ('(' :: (inner ++ (')' :: cs ++ rest))) =
        (code ('(' :: stack)).run (inner ++ (')' :: cs ++ rest)) := rfl
    have hclose : (code ('(' :: stack)).run (')' :: (cs ++ rest)) =
        (code stack).run (cs ++ rest) := rfl
    rw [List.cons_append, List.append_assoc, hopen, ihInside, List.cons_append, hclose, ihMore]

theorem paired_numeric {cs : List Char} (h : Literal.Numeric cs) : Paired cs := by
  induction h with
  | nil => exact Paired.nil
  | cons here more ih =>
    have hc := isInert_of_isNumeral here
    simp only [isInert, Bool.and_eq_true, bne_iff_ne] at hc
    exact Paired.char hc.2 ih
  | group inside more ihInside ihMore =>
    exact Paired.char (by decide) (ihInside.append (Paired.char (by decide) ihMore))

theorem numeric {s : String} (h : Literal.Numeric s.toList) : Fragment s :=
  fun stack => ⟨fun rest _ => run_numeric h stack rest, paired_numeric h⟩

theorem number (n : Number) : Fragment (Literal.number n) :=
  numeric (Literal.numeric_number n)

theorem word {s : String} (h : s.toList.all isInert = true) : Fragment s :=
  inert (List.all_eq_true.mp h)

theorem constant (value : Constant) : Fragment (Literal.constant value) := by
  cases value with
  | none => exact word (by decide)
  | ellipsis => exact word (by decide)
  | bool b => cases b <;> exact word (by decide)
  | int i => exact number (.int i)
  | float x => exact number (.float x)
  | complex real imag => exact number (.complex real imag)
  | str s => exact string s
  | bytes bs => exact bytes bs

theorem singleton (value : Singleton) : Fragment value.text := by
  cases value <;> exact word (by decide)

end Fragment

end Scanner

end Unparse
