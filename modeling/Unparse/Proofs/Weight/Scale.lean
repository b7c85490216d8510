import Mathlib.Algebra.GroupWithZero.Nat
import Mathlib.Data.Set.Insert
import Mathlib.Tactic.SplitIfs
import Unparse.Proofs.Draft.Settling
import Unparse.Proofs.Literal.Numeral

/-! Scales. A scale says what a printed character counts for. Characters that the renderer
may write on its own account, which are those of ASCII, and characters that it never writes
as themselves count for nothing, so that a literal weighs as much as the text it stands for.
A weight is such a count, together with the kinds that a dialect has to have. -/
namespace Unparse

@[ext] structure Weight where
  kinds : Set Kind
  count : Nat

namespace Weight

instance : Zero Weight where
  zero := ⟨∅, 0⟩

instance : Add Weight where
  add u v := ⟨u.kinds ∪ v.kinds, u.count + v.count⟩

/-- A single kind. -/
def kind (k : Kind) : Weight := ⟨{k}, 0⟩

/-- A text that counts for `n`. -/
def said (n : Nat) : Weight := ⟨∅, n⟩

@[simp] theorem kinds_zero : (0 : Weight).kinds = ∅ := rfl

@[simp] theorem count_zero : (0 : Weight).count = 0 := rfl

@[simp] theorem kinds_add (u v : Weight) : (u + v).kinds = u.kinds ∪ v.kinds := rfl

@[simp] theorem count_add (u v : Weight) : (u + v).count = u.count + v.count := rfl

@[simp] theorem kinds_kind (k : Kind) : (kind k).kinds = {k} := rfl

@[simp] theorem count_kind (k : Kind) : (kind k).count = 0 := rfl

@[simp] theorem kinds_said (n : Nat) : (said n).kinds = ∅ := rfl

@[simp] theorem count_said (n : Nat) : (said n).count = n := rfl

instance : AddCommMonoid Weight where
  add_assoc u v w := Weight.ext (Set.union_assoc ..) (Nat.add_assoc ..)
  zero_add u := Weight.ext (Set.empty_union _) (Nat.zero_add _)
  add_zero u := Weight.ext (Set.union_empty _) (Nat.add_zero _)
  add_comm u v := Weight.ext (Set.union_comm ..) (Nat.add_comm ..)
  nsmul := nsmulRec

@[simp] theorem said_zero : said 0 = 0 := rfl

/-- A kind that is demanded twice is as good as one that is demanded once. -/
theorem kind_add_kind (k : Kind) (w : Weight) : kind k + (kind k + w) = kind k + w := by
  apply Weight.ext
  · simp
  · simp

end Weight

structure Scale where
  char : Char → Nat
  char_ascii : ∀ c, c.toNat < 128 → char c = 0
  char_hidden : ∀ c, Literal.isHidden c = true → char c = 0

/-- Whether all characters of a text are of ASCII. -/
@[simp] def isAscii (s : String) : Bool :=
  s.toList.all fun c => c.toNat < 128

namespace Scale

variable (m : Scale)

def chars (cs : List Char) : Nat :=
  (cs.map m.char).sum

def text (s : String) : Nat :=
  m.chars s.toList

def texts (ss : List String) : Nat :=
  (ss.map m.text).sum

/-- What the lines among some entries count for. -/
def lines (es : List Entry) : Nat :=
  ((es.filterMap Entry.line?).map fun l => m.text l.text).sum

@[simp] theorem chars_nil : m.chars [] = 0 := rfl

@[simp] theorem chars_cons (c : Char) (cs : List Char) :
    m.chars (c :: cs) = m.char c + m.chars cs := by
  simp [chars]

@[simp] theorem chars_append (as bs : List Char) :
    m.chars (as ++ bs) = m.chars as + m.chars bs := by
  simp [chars]

@[simp] theorem text_append (s t : String) : m.text (s ++ t) = m.text s + m.text t := by
  simp [text]

@[simp] theorem text_ofList (cs : List Char) : m.text (String.ofList cs) = m.chars cs := by
  simp [text]

@[simp] theorem texts_nil : m.texts [] = 0 := rfl

@[simp] theorem texts_cons (s : String) (ss : List String) :
    m.texts (s :: ss) = m.text s + m.texts ss := by
  simp [texts]

@[simp] theorem texts_append (ss ts : List String) :
    m.texts (ss ++ ts) = m.texts ss + m.texts ts := by
  simp [texts]

@[simp] theorem lines_nil : m.lines [] = 0 := rfl

@[simp] theorem lines_append (es fs : List Entry) :
    m.lines (es ++ fs) = m.lines es + m.lines fs := by
  simp [lines]

theorem chars_eq_zero {cs : List Char} (h : ∀ c ∈ cs, m.char c = 0) : m.chars cs = 0 := by
  induction cs with
  | nil => rfl
  | cons c cs ih =>
    rw [chars_cons, h c (List.mem_cons_self ..), ih fun x hx => h x (List.mem_cons_of_mem _ hx)]

theorem char_of_mem_ascii {cs : List Char} (h : cs.all (fun c => c.toNat < 128) = true)
    {c : Char} (hc : c ∈ cs) : m.char c = 0 := by
  apply m.char_ascii
  simpa using List.all_eq_true.mp h c hc

@[simp] theorem text_ascii {s : String} (h : isAscii s = true) : m.text s = 0 :=
  m.chars_eq_zero fun _ hc => m.char_of_mem_ascii h hc

@[simp] theorem text_join (ss : List String) : m.text (String.join ss) = m.texts ss := by
  induction ss with
  | nil => rfl
  | cons s ss ih => rw [String.join_cons, text_append, ih, texts_cons]

@[simp] theorem text_intercalate {separator : String} (h : isAscii separator = true)
    (ss : List String) : m.text (String.intercalate separator ss) = m.texts ss := by
  induction ss with
  | nil => rw [String.intercalate_nil]; rfl
  | cons s ss ih =>
    cases ss with
    | nil => simp
    | cons t ts =>
      rw [String.intercalate_cons_cons, text_append, text_append, ih, m.text_ascii h,
        m.texts_cons s, Nat.add_zero]

theorem text_copies {s : String} (h : m.text s = 0) (n : Nat) :
    m.text (Text.copies n s) = 0 := by
  unfold Text.copies
  rw [text_join]
  induction n with
  | zero => rfl
  | succ n ih => rw [List.replicate_succ, texts_cons, h, ih]

theorem chars_splitAt (cs : List Char) :
    ((Text.splitAt '\n' cs).map m.chars).sum = m.chars cs := by
  induction cs with
  | nil => rfl
  | cons c cs ih =>
    by_cases h : c = '\n'
    · subst h
      simp [Text.splitAt, ih, m.char_ascii '\n' (by decide)]
    · simp only [Text.splitAt, h, ↓reduceIte]
      cases hs : Text.splitAt '\n' cs with
      | nil => simp [hs, ← ih]
      | cons piece more =>
        rw [hs] at ih
        simp only [List.map_cons, List.sum_cons, chars_cons] at ih ⊢
        omega

/-- Nothing of a text is lost when it is laid out line by line. -/
theorem texts_lines (s : String) : m.texts (Text.lines s) = m.text s := by
  unfold Text.lines texts
  rw [List.map_map]
  have hpiece : m.text ∘ String.ofList = m.chars := funext fun cs => m.text_ofList cs
  rw [hpiece]
  exact m.chars_splitAt s.toList

theorem isAscii_token (k : Kind) : isAscii k.token = true := by
  cases k <;> decide

@[simp] theorem text_token (k : Kind) : m.text k.token = 0 :=
  m.text_ascii (isAscii_token k)

end Scale

namespace Literal

theorem toNat_hexDigit_lt (n : Nat) : (Text.hexDigit n).toNat < 128 := by
  have hdigits : ∀ k < 16, ((Nat.toDigits 16 k).headD '0').toNat < 128 := by decide
  exact hdigits (n % 16) (Nat.mod_lt n (by decide))

theorem toNat_lt_of_mem_hex {width n : Nat} {c : Char} (h : c ∈ Text.hex width n) :
    c.toNat < 128 := by
  induction width generalizing n with
  | zero => simp [Text.hex] at h
  | succ width ih =>
    rcases List.mem_append.mp h with h | h
    · exact ih h
    · rw [List.mem_singleton.mp h]
      exact toNat_hexDigit_lt n

theorem toNat_lt_of_mem_codeEscape {x c : Char} (h : c ∈ codeEscape x) : c.toNat < 128 := by
  have hescape {mark : Char} {width : Nat} (hmark : mark.toNat < 128)
      (hc : c ∈ '\\' :: mark :: Text.hex width x.toNat) : c.toNat < 128 := by
    simp only [List.mem_cons] at hc
    rcases hc with rfl | rfl | hc
    · decide
    · exact hmark
    · exact toNat_lt_of_mem_hex hc
  unfold codeEscape at h
  split at h
  · exact hescape (by decide) h
  · split at h
    · exact hescape (by decide) h
    · exact hescape (by decide) h

theorem toNat_lt_of_numeric {cs : List Char} (h : Numeric cs) : ∀ c ∈ cs, c.toNat < 128 := by
  induction h with
  | nil => simp
  | cons here more ih =>
    intro x hx
    rcases List.mem_cons.mp hx with rfl | hx
    · simp only [isNumeral, Char.isDigit, Bool.or_eq_true, Bool.and_eq_true, decide_eq_true_eq,
        beq_iff_eq] at here
      rcases here with (((((⟨_, hle⟩ | rfl) | rfl) | rfl) | rfl) | rfl) | rfl
      · exact Nat.lt_of_le_of_lt (UInt32.le_iff_toNat_le.mp hle) (by decide)
      all_goals decide
    · exact ih x hx
  | group inside more ihInside ihMore =>
    intro x hx
    simp only [List.mem_cons, List.mem_append] at hx
    rcases hx with rfl | hx | rfl | hx
    · decide
    · exact ihInside x hx
    · decide
    · exact ihMore x hx

end Literal

namespace Scale

variable (m : Scale)

theorem chars_numeric {cs : List Char} (h : Literal.Numeric cs) : m.chars cs = 0 :=
  m.chars_eq_zero fun c hc => m.char_ascii c (Literal.toNat_lt_of_numeric h c hc)

theorem chars_codeEscape (c : Char) : m.chars (Literal.codeEscape c) = 0 :=
  m.chars_eq_zero fun x hx => m.char_ascii x (Literal.toNat_lt_of_mem_codeEscape hx)

/-- An escape is of ASCII, and what it stands for counts for nothing. -/
theorem chars_escapeChar (quote c : Char) :
    m.chars (Literal.escapeChar Literal.isHidden quote c) = m.char c := by
  have hzero (x : Char) (hx : x.toNat < 128) : m.char x = 0 := m.char_ascii x hx
  unfold Literal.escapeChar
  split_ifs with h₁ h₂ h₃ h₄ h₅ h₆
  · simp [h₁, hzero '\\' (by decide)]
  · simp [h₂, hzero '\\' (by decide), hzero 'n' (by decide), hzero '\n' (by decide)]
  · simp [h₃, hzero '\\' (by decide), hzero 'r' (by decide), hzero '\r' (by decide)]
  · simp [h₄, hzero '\\' (by decide), hzero 't' (by decide), hzero '\t' (by decide)]
  · simp [hzero '\\' (by decide)]
  · rw [chars_codeEscape, m.char_hidden c h₆]
  · simp

theorem chars_escape (quote : Char) (cs : List Char) :
    m.chars (Literal.escape Literal.isHidden quote cs) = m.chars cs := by
  unfold Literal.escape
  induction cs with
  | nil => rfl
  | cons c cs ih => rw [List.flatMap_cons, chars_append, ih, chars_escapeChar, chars_cons]

theorem char_quoteFor (cs : List Char) : m.char (Literal.quoteFor cs) = 0 := by
  unfold Literal.quoteFor
  split
  · exact m.char_ascii _ (by decide)
  · exact m.char_ascii _ (by decide)

theorem text_string (s : String) : m.text (Literal.string s) = m.text s := by
  simp [Literal.string, Literal.quoted, chars_escape, char_quoteFor, text]

theorem chars_docstringBody (cs : List Char) : m.chars (Literal.docstringBody cs) = m.chars cs := by
  have hzero (x : Char) (hx : x.toNat < 128) : m.char x = 0 := m.char_ascii x hx
  induction cs with
  | nil => rfl
  | cons c cs ih =>
    simp only [Literal.docstringBody, chars_append, chars_cons, ih]
    split_ifs with h₁ h₂ h₃ h₄ h₅
    · simp [h₁, hzero '\\' (by decide)]
    · simp [h₂, hzero '\\' (by decide), hzero 'r' (by decide), hzero '\r' (by decide)]
    · simp [h₃.1, hzero '\\' (by decide), hzero Literal.doubleQuote (by decide)]
    · simp
    · rw [chars_codeEscape, m.char_hidden c h₅]
    · simp

theorem text_docstring (s : String) : m.text (Literal.docstring s) = m.text s := by
  have hquotes : m.chars Literal.tripleQuote = 0 :=
    m.chars_eq_zero fun _ hc => m.char_of_mem_ascii (by decide) hc
  simp [Literal.docstring, chars_docstringBody, hquotes, text]

theorem chars_escapeByte {quote : Char} (hquote : m.char quote = 0) (b : UInt8) :
    m.chars (Literal.escapeChar Literal.isHiddenByte quote (Literal.byteChar b)) = 0 := by
  refine m.chars_eq_zero fun c hc => ?_
  unfold Literal.escapeChar at hc
  split_ifs at hc with h₁ h₂ h₃ h₄ h₅ h₆
  · exact m.char_of_mem_ascii (by decide) hc
  · exact m.char_of_mem_ascii (by decide) hc
  · exact m.char_of_mem_ascii (by decide) hc
  · exact m.char_of_mem_ascii (by decide) hc
  · simp only [List.mem_cons, List.not_mem_nil, or_false] at hc
    rcases hc with rfl | rfl
    · exact m.char_ascii _ (by decide)
    · rw [h₅]
      exact hquote
  · exact m.char_ascii c (Literal.toNat_lt_of_mem_codeEscape hc)
  · rw [List.mem_singleton.mp hc]
    refine m.char_ascii _ ?_
    simp only [Literal.isHiddenByte, Bool.or_eq_true, decide_eq_true_eq, not_or] at h₆
    omega

theorem text_bytes (bs : List UInt8) : m.text (Literal.bytes bs) = 0 := by
  have hbody {quote : Char} (hquote : m.char quote = 0) :
      m.chars (Literal.escape Literal.isHiddenByte quote (bs.map Literal.byteChar)) = 0 := by
    unfold Literal.escape
    induction bs with
    | nil => rfl
    | cons b bs ih =>
      rw [List.map_cons, List.flatMap_cons, chars_append, m.chars_escapeByte hquote b, ih]
  simp only [Literal.bytes, Literal.quoted, text_ofList, chars_cons, chars_append, chars_nil,
    hbody (m.char_quoteFor _), char_quoteFor, m.char_ascii 'b' (by decide), Nat.add_zero]

theorem text_number (n : Number) : m.text (Literal.number n) = 0 :=
  m.chars_numeric (Literal.numeric_number n)

/-- What a constant that is a string stands for; other constants stand for no text. -/
def constant : Constant → Nat
  | .str s => m.text s
  | _ => 0

theorem text_constant (value : Constant) : m.text (Literal.constant value) = m.constant value := by
  cases value with
  | none => exact m.text_ascii (by decide)
  | ellipsis => exact m.text_ascii (by decide)
  | bool b => cases b <;> exact m.text_ascii (by decide)
  | int i => exact m.text_number (.int i)
  | float x => exact m.text_number (.float x)
  | complex real imag => exact m.text_number (.complex real imag)
  | str s => exact m.text_string s
  | bytes bs => exact m.text_bytes bs

@[simp] theorem text_singleton (value : Singleton) : m.text value.text = 0 := by
  cases value <;> exact m.text_ascii (by decide)

end Scale

end Unparse
