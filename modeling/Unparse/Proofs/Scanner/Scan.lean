import Unparse.Literal.Quoted

/-! A scanner for brackets and string literals. It goes over a text from left to right with
the brackets that are open, the innermost first, and passes over literals. -/
namespace Unparse

namespace Scanner

/-- Where the scanner is: outside of literals, in a literal that one mark ends, or in one
that three marks end. -/
inductive Mode where
  | outside
  | short (mark : Char)
  | long (mark : Char)
deriving DecidableEq, Repr

end Scanner

/-- The next `skip` characters are passed over: they are escaped, or belong to a tripled mark. -/
structure Scanner where
  mode : Scanner.Mode
  stack : List Char
  skip : Nat := 0
deriving DecidableEq, Repr

namespace Scanner

def isQuote (c : Char) : Bool :=
  c == Literal.singleQuote || c == Literal.doubleQuote

def isOpening (c : Char) : Bool :=
  c == '(' || c == '[' || c == '\x7b'

def isClosing (c : Char) : Bool :=
  c == ')' || c == ']' || c == '\x7d'

/-- The bracket that closes an opening one. -/
def partner (c : Char) : Char :=
  if c = '(' then ')' else if c = '[' then ']' else '\x7d'

/-- Outside of literals, with these brackets open. -/
def code (stack : List Char) : Scanner :=
  ⟨.outside, stack, 0⟩

/-- Reads a character outside of literals. A closing bracket has to close the innermost open
one, and a line may only end inside of brackets. -/
def outsideStep (stack : List Char) (c : Char) (tripled : Bool) : Option Scanner :=
  if isQuote c then
    some (if tripled then ⟨.long c, stack, 2⟩ else ⟨.short c, stack, 0⟩)
  else if isOpening c then
    some (code (c :: stack))
  else if isClosing c then
    match stack with
    | [] => none
    | innermost :: others => if partner innermost = c then some (code others) else none
  else if c == '\n' && stack.isEmpty then
    none
  else
    some (code stack)

/-- Reads a character; `tripled` says if it is the first of three equal ones. -/
def step (s : Scanner) (c : Char) (tripled : Bool) : Option Scanner :=
  match s with
  | ⟨mode, stack, skip + 1⟩ => some ⟨mode, stack, skip⟩
  | ⟨.outside, stack, 0⟩ => outsideStep stack c tripled
  | ⟨.short mark, stack, 0⟩ =>
    if c = '\\' then some ⟨.short mark, stack, 1⟩
    else if c = '\n' then none
    else if c = mark then some (code stack)
    else some ⟨.short mark, stack, 0⟩
  | ⟨.long mark, stack, 0⟩ =>
    if c = '\\' then some ⟨.long mark, stack, 1⟩
    else if c = mark ∧ tripled = true then some ⟨.outside, stack, 2⟩
    else some ⟨.long mark, stack, 0⟩

/-- Reads a text, unless it is rejected on the way. -/
def run (s : Scanner) : List Char → Option Scanner
  | [] => some s
  | c :: cs => (s.step c ([c, c].isPrefixOf cs)).bind fun s => s.run cs

section Steps

variable {stack : List Char} {mark c : Char} {cs : List Char}

theorem run_cons (s : Scanner) (c : Char) (cs : List Char) :
    s.run (c :: cs) = (s.step c ([c, c].isPrefixOf cs)).bind fun s => s.run cs :=
  rfl

/-- The characters that are nothing but themselves outside of literals. -/
def isInert (c : Char) : Bool :=
  !isQuote c && !isOpening c && !isClosing c && c != '\n' && c != '\\'

theorem run_inert (h : isInert c = true) : (code stack).run (c :: cs) = (code stack).run cs := by
  simp only [isInert, Bool.and_eq_true, Bool.not_eq_true', bne_iff_ne, ne_eq] at h
  obtain ⟨⟨⟨⟨hquote, hopening⟩, hclosing⟩, hline⟩, -⟩ := h
  rw [run_cons]
  simp [step, code, outsideStep, hquote, hopening, hclosing, hline]

theorem run_short_open (hmark : isQuote mark = true) (h : [mark, mark].isPrefixOf cs = false) :
    (code stack).run (mark :: cs) = run ⟨.short mark, stack, 0⟩ cs := by
  rw [run_cons, h]
  simp [step, code, outsideStep, hmark]

theorem run_long_open (hmark : isQuote mark = true) :
    (code stack).run (mark :: mark :: mark :: cs) = run ⟨.long mark, stack, 0⟩ cs := by
  have htripled : [mark, mark].isPrefixOf (mark :: mark :: cs) = true := by simp
  rw [run_cons, htripled]
  simp [step, code, outsideStep, hmark, run_cons]

theorem ne_escape_of_isQuote (hmark : isQuote mark = true) : mark ≠ '\\' := by
  rintro rfl
  exact absurd hmark (by decide)

theorem run_short_close (hmark : isQuote mark = true) :
    run ⟨.short mark, stack, 0⟩ (mark :: cs) = (code stack).run cs := by
  have hline : mark ≠ '\n' := by
    rintro rfl
    exact absurd hmark (by decide)
  rw [run_cons]
  simp [step, ne_escape_of_isQuote hmark, hline]

theorem run_long_close (hmark : isQuote mark = true) :
    run ⟨.long mark, stack, 0⟩ (mark :: mark :: mark :: cs) = (code stack).run cs := by
  have htripled : [mark, mark].isPrefixOf (mark :: mark :: cs) = true := by simp
  rw [run_cons, htripled]
  simp [step, code, ne_escape_of_isQuote hmark, run_cons]

theorem run_short_escape : run ⟨.short mark, stack, 0⟩ ('\\' :: c :: cs) =
    run ⟨.short mark, stack, 0⟩ cs := by
  simp [run_cons, step]

theorem run_long_escape : run ⟨.long mark, stack, 0⟩ ('\\' :: c :: cs) =
    run ⟨.long mark, stack, 0⟩ cs := by
  simp [run_cons, step]

theorem run_short_char (hescape : c ≠ '\\') (hline : c ≠ '\n') (hmark : c ≠ mark) :
    run ⟨.short mark, stack, 0⟩ (c :: cs) = run ⟨.short mark, stack, 0⟩ cs := by
  rw [run_cons]
  simp [step, hescape, hline, hmark]

theorem run_long_char (hescape : c ≠ '\\') (hmark : c = mark → [c, c].isPrefixOf cs = false) :
    run ⟨.long mark, stack, 0⟩ (c :: cs) = run ⟨.long mark, stack, 0⟩ cs := by
  have hstay : ¬ (c = mark ∧ [c, c].isPrefixOf cs = true) := by
    rintro ⟨hc, htripled⟩
    rw [hmark hc] at htripled
    exact Bool.false_ne_true htripled
  rw [run_cons]
  simp only [step, if_neg hescape, if_neg hstay, Option.bind_some]

end Steps

end Scanner

end Unparse
