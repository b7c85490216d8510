import Mathlib.Data.List.Forall2
import Unparse.Literal.Numeric
import Unparse.Proofs.Literals
import Unparse.Proofs.Reader.Reader

/-! What the reader makes of texts. A text spells an expression if reading it adds the
expression to what was read before, whatever follows. -/
namespace Unparse

namespace Reader

/-- No word goes on here. -/
def Boundary : List Char → Prop
  | [] => True
  | c :: _ => isWordChar c = false

/-- An expression may come next: neither an expression nor a point was read last. -/
def Ready (r : Reader) : Prop :=
  match r.items with
  | [] => True
  | .mark m :: _ => m ≠ "."
  | .expr _ :: _ => False

def pushAll (r : Reader) (items : List Item) : Reader :=
  { r with items := items.reverse ++ r.items }

theorem pushAll_append (r : Reader) (as bs : List Item) :
    r.pushAll (as ++ bs) = (r.pushAll as).pushAll bs := by
  simp [pushAll]

theorem pushAll_singleton (r : Reader) (i : Item) : r.pushAll [i] = r.push i :=
  rfl

/-- The signs that are not words, numbers, literals or blanks. -/
def isSign (c : Char) : Bool :=
  c != ' ' && !isWordStart c && !c.isDigit && c != Literal.singleQuote && c != Literal.doubleQuote

section Lexemes

variable {r : Reader} {c : Char} {cs rest : List Char}

theorem read_nil : r.read [] = some r := by
  rw [read]

theorem read_blank : r.read (' ' :: cs) = r.read cs := by
  rw [read, if_pos rfl]

theorem read_sign (hc : isSign c = true) {after : Reader} (h : r.sign c = some after) :
    r.read (c :: cs) = after.read cs := by
  simp only [isSign, Bool.and_eq_true, Bool.not_eq_true', bne_iff_ne, ne_eq] at hc
  obtain ⟨⟨⟨⟨hblank, hword⟩, hdigit⟩, hsingle⟩, hdouble⟩ := hc
  rw [read, if_neg hblank, hword, hdigit]
  simp [hsingle, hdouble, h]

theorem takeWhile_append_boundary {p : Char → Bool} (hp : ∀ c, p c = true → isWordChar c = true)
    (hcs : ∀ x ∈ cs, p x = true) (hrest : Boundary rest) :
    (cs ++ rest).takeWhile p = cs ∧ (cs ++ rest).dropWhile p = rest := by
  have hstop : rest.takeWhile p = [] ∧ rest.dropWhile p = rest := by
    cases rest with
    | nil => exact ⟨rfl, rfl⟩
    | cons c rest =>
      have hc : p c = false := by
        by_contra h
        have hword := hp c (by simpa using h)
        rw [show isWordChar c = false from hrest] at hword
        exact Bool.false_ne_true hword
      simp [hc]
  rw [List.takeWhile_append_of_pos hcs, List.dropWhile_append_of_pos hcs, hstop.1, hstop.2,
    List.append_nil]
  exact ⟨rfl, rfl⟩

theorem read_word (hc : isWordStart c = true) (hcs : ∀ x ∈ cs, isWordChar x = true)
    (hrest : Boundary rest) :
    r.read (c :: cs ++ rest) = (r.word (String.ofList (c :: cs))).read rest := by
  have hblank : c ≠ ' ' := by
    rintro rfl
    exact absurd hc (by decide)
  obtain ⟨htake, hdrop⟩ := takeWhile_append_boundary (fun _ h => h) hcs hrest
  rw [List.cons_append, read, if_neg hblank, if_pos hc, htake, hdrop]

theorem le_toNat_of_isAlpha (h : c.isAlpha = true) : 65 ≤ c.val.toNat := by
  rcases Bool.or_eq_true_iff.mp h with hupper | hlower
  · exact (of_decide_eq_true hupper).1
  · have hlow : 97 ≤ c.val.toNat := of_decide_eq_true (Bool.and_eq_true_iff.mp hlower).1
    omega

theorem not_isAlpha_of_isDigit (h : c.isDigit = true) : c.isAlpha = false := by
  have hhigh : c.val.toNat ≤ 57 := of_decide_eq_true (Bool.and_eq_true_iff.mp h).2
  rw [← Bool.not_eq_true]
  intro halpha
  have hlow := le_toNat_of_isAlpha halpha
  omega

theorem read_number (hc : c.isDigit = true) (hcs : ∀ x ∈ cs, x.isDigit = true)
    (hrest : Boundary rest) : r.read (c :: cs ++ rest) = (r.number (c :: cs)).read rest := by
  have hblank : c ≠ ' ' := by
    rintro rfl
    exact absurd hc (by decide)
  have hword : isWordStart c = false := by
    by_contra h
    simp only [isWordStart, Bool.not_eq_false, Bool.or_eq_true, beq_iff_eq] at h
    rcases h with h | rfl
    · exact Bool.false_ne_true ((not_isAlpha_of_isDigit hc).symm.trans h)
    · exact absurd hc (by decide)
  have hdigit (x : Char) (hx : x.isDigit = true) : isWordChar x = true := by
    simp [isWordChar, Char.isAlphanum, hx]
  obtain ⟨htake, hdrop⟩ := takeWhile_append_boundary hdigit hcs hrest
  rw [List.cons_append, read, if_neg hblank, hword, if_neg Bool.false_ne_true, if_pos hc, htake,
    hdrop]

theorem read_literal (s : String) : r.read ((Literal.string s).toList ++ rest) =
    (r.push (.expr (Expr.str s))).read rest := by
  have hquote := Literal.quoteFor_cases s.toList
  have hother : isWordStart (Literal.quoteFor s.toList) = false ∧
      (Literal.quoteFor s.toList).isDigit = false ∧ Literal.quoteFor s.toList ≠ ' ' := by
    rcases hquote with h | h <;> rw [h] <;> decide
  have hread := Literal.Lexicon.body?_escape (Scanner.isQuote_quoteFor s.toList) s.toList rest
    fun c _ => Literal.Lexicon.spells_escapeText (Scanner.isQuote_quoteFor s.toList) c
  rw [Literal.string, Literal.quoted, String.toList_ofList, List.cons_append, List.append_assoc,
    List.singleton_append, read, if_neg hother.2.2, hother.1, if_neg Bool.false_ne_true, hother.2.1,
    if_neg Bool.false_ne_true, if_pos hquote]
  split
  next hnone =>
    rw [hread] at hnone
    cases hnone
  next value more hsome =>
    rw [hread] at hsome
    cases hsome
    rw [String.ofList_toList]

end Lexemes

def isWord (w : String) : Bool :=
  match w.toList with
  | [] => false
  | c :: cs => isWordStart c && cs.all isWordChar

/-- An identifier of ASCII characters that is no keyword. -/
def isIdentifier (w : String) : Bool :=
  isWord w && !keywords.contains w

section Tokens

variable {r : Reader} {rest : List Char}

theorem read_of_isWord {w : String} (hw : isWord w = true) (hrest : Boundary rest) :
    r.read (w.toList ++ rest) = (r.word w).read rest := by
  unfold isWord at hw
  cases hcs : w.toList with
  | nil => simp [hcs] at hw
  | cons c cs =>
    rw [hcs] at hw
    simp only [Bool.and_eq_true, List.all_eq_true] at hw
    rw [read_word hw.1 hw.2 hrest, ← hcs, String.ofList_toList]

theorem read_keyword {w : String} (hw : w ∈ keywords) (hrest : Boundary rest) :
    r.read (w.toList ++ rest) = (r.push (.mark w)).read rest := by
  have hwords : keywords.all isWord = true := by decide
  rw [read_of_isWord (List.all_eq_true.mp hwords w hw) hrest, word, if_pos hw]

theorem boundary_blank (cs : List Char) : Boundary (' ' :: cs) :=
  rfl

theorem read_keywords {v w : String} (hv : v ∈ keywords) (hw : w ∈ keywords)
    (hrest : Boundary rest) : r.read (v.toList ++ ' ' :: (w.toList ++ rest)) =
      ((r.push (.mark v)).push (.mark w)).read rest := by
  rw [read_keyword hv (boundary_blank _), read_blank, read_keyword hw hrest]

/-- The signs that are no brackets. -/
def isPlainSign (c : Char) : Bool :=
  isSign c && c != '(' && c != '[' && c != ')' && c != ']'

theorem read_signs {cs : List Char} (h : cs.all isPlainSign = true) :
    r.read (cs ++ rest) =
      (r.pushAll (cs.map fun c => .mark (String.singleton c))).read rest := by
  induction cs generalizing r with
  | nil => rfl
  | cons c cs ih =>
    rw [List.all_cons, Bool.and_eq_true] at h
    have hc := h.1
    simp only [isPlainSign, Bool.and_eq_true, bne_iff_ne, ne_eq] at hc
    obtain ⟨⟨⟨⟨hsign, h₁⟩, h₂⟩, h₃⟩, h₄⟩ := hc
    have hpush : r.sign c = some (r.push (.mark (String.singleton c))) := by
      simp [sign, h₁, h₂, h₃, h₄]
    rw [List.cons_append, read_sign hsign hpush, ih h.2, List.map_cons, ← List.singleton_append,
      pushAll_append, pushAll_singleton]

theorem read_token {k : Kind} (hk : k.place.isOperator = true) (hrest : Boundary rest) :
    r.read (k.token.toList ++ rest) = (r.pushAll (k.marks.map .mark)).read rest := by
  cases k with
  | and | or | not | is | isIn => exact read_keyword (by decide) hrest
  | isNot => exact read_keywords (v := "is") (w := "not") (by decide) (by decide) hrest
  | notIn => exact read_keywords (v := "not") (w := "in") (by decide) (by decide) hrest
  | add | sub | mult | matMult | div | mod | pow | lShift | rShift | bitOr | bitXor | bitAnd
  | floorDiv | invert | uAdd | uSub | eq | notEq | lt | ltE | gt | gtE =>
    exact read_signs (by decide)
  | _ => exact absurd hk (by decide)

/-- An operator between its operands. -/
theorem read_spaced {k : Kind} (hk : k.place.isOperator = true) :
    r.read ((" " ++ k.token ++ " ").toList ++ rest) =
      (r.pushAll (k.marks.map .mark)).read rest := by
  have hspaced : (" " ++ k.token ++ " ").toList ++ rest =
      ' ' :: (k.token.toList ++ ' ' :: rest) := by
    simp
  rw [hspaced, read_blank, read_token hk (boundary_blank rest), read_blank]

end Tokens

/-- Reading the text adds the expression. -/
def Spelled (e : Node .expr) (text : String) : Prop :=
  ∀ (r : Reader) (rest : List Char), r.Ready → Boundary rest →
    r.read (text.toList ++ rest) = (r.push (.expr e)).read rest

def chunkItems (c : Chunk) : List Item :=
  c.1.map .mark ++ [.expr c.2]

/-- The text is marks and an expression, to follow another expression. -/
structure Led (c : Chunk) (text : String) : Prop where
  boundary : ∀ rest, Boundary (text.toList ++ rest)
  read : ∀ (r : Reader) (rest : List Char), Boundary rest →
    r.read (text.toList ++ rest) = (r.pushAll (chunkItems c)).read rest

/-- Between brackets, the text is these expressions with marks before and after them. -/
def Content (cs : List Chunk) (last : List String) (text : String) : Prop :=
  ∀ (outer : List (Opener × List Item)) (rest : List Char), Boundary rest →
    Reader.read ⟨[], outer⟩ (text.toList ++ rest) =
      Reader.read ⟨(cs.flatMap chunkItems ++ last.map Item.mark).reverse, outer⟩ rest

theorem chunks_marks (before ms : List String) (items : List Item) :
    chunks before (ms.map .mark ++ items) = chunks (before ++ ms) items := by
  induction ms generalizing before with
  | nil => simp
  | cons m ms ih => rw [List.map_cons, List.cons_append, chunks, ih, List.append_assoc]; rfl

theorem chunks_flatMap (cs : List Chunk) (last : List String) :
    chunks [] (cs.flatMap chunkItems ++ last.map Item.mark) = (cs, last) := by
  induction cs with
  | nil =>
    have hlast := chunks_marks [] last []
    simpa [chunks] using hlast
  | cons c cs ih =>
    rw [List.flatMap_cons, chunkItems, List.append_assoc, List.append_assoc, chunks_marks,
      List.singleton_append, chunks, ih]
    rfl

/-- A closed bracket leaves what its content makes up. -/
theorem Content.read_close {cs : List Chunk} {last : List String} {text : String}
    (h : Content cs last text) {opener : Opener} {e : Node .expr}
    (hclose : opener.close cs last = some e) (items : List Item)
    (outer : List (Opener × List Item)) (rest : List Char) :
    Reader.read ⟨[], (opener, items) :: outer⟩ (text.toList ++ opener.closing :: rest) =
      Reader.read ⟨.expr e :: items, outer⟩ rest := by
  have hsign : isSign opener.closing = true ∧ isWordChar opener.closing = false := by
    cases opener <;> exact ⟨rfl, rfl⟩
  have hboundary : Boundary (opener.closing :: rest) := hsign.2
  rw [h _ _ hboundary]
  apply read_sign hsign.1
  have hleave : ∀ r : Reader, r.sign opener.closing = r.leave opener.closing := by
    intro r
    cases opener <;> rfl
  simp only [hleave, leave, ↓reduceIte, List.reverse_reverse, chunks_flatMap, hclose,
    Option.map_some]

namespace Content

theorem empty : Content [] [] "" :=
  fun _ _ _ => rfl

theorem single {e : Node .expr} {text : String} (h : Spelled e text) :
    Content [([], e)] [] text := by
  intro outer rest hrest
  rw [h ⟨[], outer⟩ rest trivial hrest]
  rfl

theorem led {cs : List Chunk} {s : String} (h : Content cs [] s) {c : Chunk} {t : String}
    (ht : Led c t) : Content (cs ++ [c]) [] (s ++ t) := by
  intro outer rest hrest
  rw [String.toList_append, List.append_assoc, h outer _ (ht.boundary rest), ht.read _ _ hrest]
  simp [pushAll]

theorem join {cs ds : List Chunk} {s : String} (h : Content cs [] s) {ts : List String}
    (hts : List.Forall₂ Led ds ts) : Content (cs ++ ds) [] (s ++ String.join ts) := by
  induction hts generalizing cs s with
  | nil => simpa using h
  | @cons d t ds ts ht hts ih =>
    have hmore := ih (h.led ht)
    rw [String.join_cons, ← String.append_assoc, ← List.singleton_append, ← List.append_assoc]
    exact hmore

/-- Signs after the last expression. -/
theorem signs {cs : List Chunk} {s : String} (h : Content cs [] s) {c : Char}
    (hc : isPlainSign c = true) (hword : isWordChar c = false) :
    Content cs [String.singleton c] (s ++ String.singleton c) := by
  intro outer rest hrest
  have hboundary : Boundary (c :: rest) := hword
  have hread : Reader.read ⟨(cs.flatMap chunkItems).reverse, outer⟩ ([c] ++ rest) = _ :=
    read_signs (by simpa using hc)
  rw [String.toList_append, List.append_assoc, String.toList_singleton, List.singleton_append,
    h outer _ hboundary]
  simpa [pushAll] using hread

end Content

section Expressions

variable {e : Node .expr} {text : String}

theorem sign_open (r : Reader) (hr : r.Ready) :
    r.sign '(' = some ⟨[], (.group, r.items) :: r.outer⟩ ∧
      r.sign '[' = some ⟨[], (.list, r.items) :: r.outer⟩ := by
  obtain ⟨items, outer⟩ := r
  cases items with
  | nil => exact ⟨rfl, rfl⟩
  | cons i items =>
    cases i with
    | expr e => exact absurd hr id
    | mark m => exact ⟨rfl, rfl⟩

/-- Content between the brackets of an opener. -/
theorem read_enclosed {cs : List Chunk} {last : List String} (h : Content cs last text)
    (opener : Opener) (hclose : opener.close cs last = some e) {r : Reader} {items : List Item}
    (hopen : r.sign opener.opening = some ⟨[], (opener, items) :: r.outer⟩) (rest : List Char) :
    r.read (opener.opening :: (text.toList ++ opener.closing :: rest)) =
      Reader.read ⟨.expr e :: items, r.outer⟩ rest := by
  have hsign : isSign opener.opening = true := by
    cases opener <;> rfl
  rw [read_sign hsign hopen]
  exact h.read_close hclose items r.outer rest

theorem spelled_group {cs : List Chunk} {last : List String} (h : Content cs last text)
    (hclose : grouped cs last = some e) : Spelled e ("(" ++ text ++ ")") := by
  intro r rest hr _
  simp only [String.toList_append, List.append_assoc]
  exact read_enclosed h .group hclose (sign_open r hr).1 rest

theorem spelled_list {cs : List Chunk} {last : List String} (h : Content cs last text) :
    Spelled (Expr.list (cs.map Prod.snd)) ("[" ++ text ++ "]") := by
  intro r rest hr _
  simp only [String.toList_append, List.append_assoc]
  exact read_enclosed h .list rfl (sign_open r hr).2 rest

theorem spelled_call {func : String} (hfunc : Spelled e func) {cs : List Chunk}
    {last : List String} (h : Content cs last text) :
    Spelled (Expr.call e (cs.map Prod.snd)) (func ++ "(" ++ text ++ ")") := by
  intro r rest hr _
  have hbracket (more : List Char) : Boundary ("(".toList ++ more) :=
    (rfl : isWordChar '(' = false)
  simp only [String.toList_append, List.append_assoc]
  rw [hfunc r _ hr (hbracket _)]
  exact read_enclosed h (.call e) rfl rfl rest

theorem spelled_subscript {value : String} (hvalue : Spelled e value) {cs : List Chunk}
    {last : List String} (h : Content cs last text) :
    Spelled (Expr.subscript e (indexed cs last)) (value ++ "[" ++ text ++ "]") := by
  intro r rest hr _
  have hbracket (more : List Char) : Boundary ("[".toList ++ more) :=
    (rfl : isWordChar '[' = false)
  simp only [String.toList_append, List.append_assoc]
  rw [hvalue r _ hr (hbracket _)]
  exact read_enclosed h (.index e) rfl rfl rest

theorem spelled_name {id : String} (hid : isIdentifier id = true) : Spelled (Expr.name id) id := by
  intro r rest hr hrest
  simp only [isIdentifier, Bool.and_eq_true, Bool.not_eq_true', List.contains_eq_mem,
    decide_eq_false_iff_not] at hid
  have hname : r.word id = r.push (.expr (Expr.name id)) := by
    obtain ⟨items, outer⟩ := r
    rw [word, if_neg hid.2]
    split
    next heq =>
      subst heq
      exact absurd rfl hr
    next => rfl
  rw [read_of_isWord hid.1 hrest, hname]

theorem spelled_attribute {value attr : String} (hvalue : Spelled e value)
    (hattr : isIdentifier attr = true) :
    Spelled (Expr.attributeOf e attr) (value ++ "." ++ attr) := by
  intro r rest hr hrest
  simp only [isIdentifier, Bool.and_eq_true, Bool.not_eq_true', List.contains_eq_mem,
    decide_eq_false_iff_not] at hattr
  have hpoint (more : List Char) : Boundary (".".toList ++ more) :=
    (rfl : isWordChar '.' = false)
  have hword : ((r.push (.expr e)).push (.mark ".")).word attr =
      r.push (.expr (Expr.attributeOf e attr)) := by
    rw [word, if_neg hattr.2]
    rfl
  simp only [String.toList_append, List.append_assoc]
  rw [hvalue r _ hr (hpoint _)]
  have hsign : (r.push (.expr e)).read ('.' :: (attr.toList ++ rest)) =
      ((r.push (.expr e)).push (.mark ".")).read (attr.toList ++ rest) :=
    read_sign (by decide) rfl
  rw [← hword, ← read_of_isWord hattr.1 hrest]
  exact hsign

theorem spelled_str (s : String) : Spelled (Expr.str s) (Literal.string s) :=
  fun _ _ _ _ => read_literal s

theorem spelled_int (n : Nat) : Spelled (Expr.int n) (Text.decimal n) := by
  intro r rest _ hrest
  have hdigits : ∀ c ∈ Nat.toDigits 10 n, c.isDigit = true :=
    fun _ hc => Nat.isDigit_of_mem_toDigits (by decide) (by decide) hc
  have hvalue := Nat.ofDigitChars_ten_toDigits (n := n)
  rw [Text.decimal, String.toList_ofList]
  cases hcs : Nat.toDigits 10 n with
  | nil => exact absurd hcs Nat.toDigits_ne_nil
  | cons c cs =>
    rw [hcs] at hdigits hvalue
    rw [read_number (hdigits c (List.mem_cons_self ..))
      (fun x hx => hdigits x (List.mem_cons_of_mem _ hx)) hrest, number, hvalue]

end Expressions

end Reader

end Unparse
