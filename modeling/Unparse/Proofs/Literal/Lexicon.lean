import Unparse.Proofs.Literal.CodePoint
import Unparse.Proofs.Scanner.Literal

/-! Lexicons. The kinds of literals differ in their quotes, in the escapes they know and in the
characters that may stand for themselves; a lexicon says these, and one reader serves them all.
The reader takes one character of the value at a time and stops at the first closing quote. -/
namespace Unparse.Literal

open Scanner

structure Lexicon where
  quotes : List (List Char)
  /-- What a backslash and a character stand for. -/
  signs : List (Char × Char)
  /-- The characters that announce a code point after a backslash, and its number of digits. -/
  codes : List (Char × Nat)
  /-- The characters that may stand for themselves. -/
  raw : Char → Bool

/-- The quote that a literal begins with: three marks in a row are one quote. -/
def opening? : List Char → Option (List Char × List Char)
  | [] => none
  | mark :: cs =>
    if isQuote mark then
      if [mark, mark].isPrefixOf cs then some ([mark, mark, mark], cs.drop 2) else some ([mark], cs)
    else none

namespace Lexicon

variable (lex : Lexicon)

/-- The character that is written by its code point, and what follows the digits. -/
def code? (width : Nat) (cs : List Char) : Option (Char × List Char) :=
  if width ≤ cs.length then
    ((Text.hexNumber? (cs.take width)).bind charOf?).map fun x => (x, cs.drop width)
  else none

/-- What a backslash stands for, and what follows the escape. -/
def escape? : List Char → Option (Char × List Char)
  | [] => none
  | c :: cs =>
    match lex.signs.lookup c with
    | some x => some (x, cs)
    | none => (lex.codes.lookup c).bind fun width => code? width cs

/-- The first character of a value, and what follows its spelling. -/
def char? : List Char → Option (Char × List Char)
  | [] => none
  | c :: cs => if c = '\\' then lex.escape? cs else if lex.raw c then some (c, cs) else none

theorem length_lt_of_char? {lex : Lexicon} {cs rest : List Char} {x : Char}
    (h : lex.char? cs = some (x, rest)) : rest.length < cs.length := by
  cases cs with
  | nil => simp [char?] at h
  | cons c cs =>
    suffices hle : rest.length ≤ cs.length from Nat.lt_succ_of_le hle
    rw [char?] at h
    split_ifs at h with hescape hraw
    · cases cs with
      | nil => simp [escape?] at h
      | cons d cs =>
        rw [escape?] at h
        split at h
        · simp only [Option.some.injEq, Prod.mk.injEq] at h
          simp [h.2]
        · obtain ⟨width, -, hwidth⟩ := Option.bind_eq_some_iff.mp h
          unfold code? at hwidth
          split_ifs at hwidth
          obtain ⟨y, -, hy⟩ := Option.map_eq_some_iff.mp hwidth
          rw [← (Prod.mk.inj hy).2, List.length_drop, List.length_cons]
          omega
    · simp only [Option.some.injEq, Prod.mk.injEq] at h
      exact Nat.le_of_eq (congrArg List.length h.2.symm)

/-- Puts a character before the text that was read. -/
def prepend (c : Char) (read : List Char × List Char) : List Char × List Char :=
  (c :: read.1, read.2)

/-- Reads up to the first closing quote: the value, and what follows the quote. -/
def body? (lex : Lexicon) (quote cs : List Char) : Option (List Char × List Char) :=
  if quote.isPrefixOf cs then some ([], cs.drop quote.length)
  else
    match _h : lex.char? cs with
    | none => none
    | some (x, rest) => (lex.body? quote rest).map (prepend x)
termination_by cs.length
decreasing_by exact length_lt_of_char? (by assumption)

theorem length_lt_of_body? {lex : Lexicon} {quote cs value rest : List Char} (hquote : quote ≠ [])
    (h : lex.body? quote cs = some (value, rest)) : rest.length < cs.length := by
  fun_induction body? lex quote cs generalizing value rest with
  | case1 cs hcloses =>
    obtain ⟨more, rfl⟩ := List.isPrefixOf_iff_prefix.mp hcloses
    simp only [List.drop_left, Option.some.injEq, Prod.mk.injEq] at h
    have hmarks : 0 < quote.length := List.length_pos_iff.mpr hquote
    rw [← h.2, List.length_append]
    omega
  | case2 cs hopen hchar => cases h
  | case3 cs hopen x more hchar ih =>
    obtain ⟨⟨v, r⟩, hread, hprepend⟩ := Option.map_eq_some_iff.mp h
    have hrest : r = rest := (Prod.mk.inj hprepend).2
    exact Nat.lt_trans (hrest ▸ ih hread) (length_lt_of_char? hchar)

/-- The quote that a literal of the lexicon begins with, and what follows it. -/
def opened? (cs : List Char) : Option (List Char × List Char) :=
  (opening? cs).bind fun (quote, rest) => if quote ∈ lex.quotes then some (quote, rest) else none

/-- Reads a literal: its value, and what follows it. -/
def literal? (cs : List Char) : Option (List Char × List Char) :=
  (lex.opened? cs).bind fun opened => lex.body? opened.1 opened.2

/-- Text on a single line. -/
def string : Lexicon where
  quotes := [[singleQuote], [doubleQuote]]
  signs := [('\\', '\\'), (singleQuote, singleQuote), (doubleQuote, doubleQuote), ('n', '\n'),
    ('r', '\r'), ('t', '\t')]
  codes := [('x', 2), ('u', 4), ('U', 8)]
  raw c := c != '\n' && c != '\r'

/-- Text on several lines. -/
def docstring : Lexicon where
  quotes := [tripleQuote]
  signs := [('\\', '\\'), (doubleQuote, doubleQuote), ('r', '\r')]
  codes := [('x', 2), ('u', 4)]
  raw c := c != '\r'

/-- Bytes as characters; those beyond ASCII cannot stand for themselves. -/
def bytes : Lexicon where
  quotes := string.quotes
  signs := string.signs
  codes := [('x', 2)]
  raw c := string.raw c && decide (c.toNat < 0x80)

/-- Reads a literal of bytes: the bytes, and what follows it. -/
def bytes? : List Char → Option (List UInt8 × List Char)
  | 'b' :: cs => (bytes.literal? cs).map fun read => (read.1.map fun c => .ofNat c.toNat, read.2)
  | _ => none

section Spelling

variable {lex}

/-- Whatever follows the characters, they are read as `x`. -/
def Spells (lex : Lexicon) (cs : List Char) (x : Char) : Prop :=
  ∀ rest, lex.char? (cs ++ rest) = some (x, rest)

theorem ne_nil_of_spells {cs : List Char} {x : Char} (h : lex.Spells cs x) : cs ≠ [] := by
  rintro rfl
  have hnil := h []
  simp [char?] at hnil

theorem spells_raw {c : Char} (hescape : c ≠ '\\') (hraw : lex.raw c = true) :
    lex.Spells [c] c := by
  intro rest
  rw [List.singleton_append, char?, if_neg hescape, if_pos hraw]

theorem spells_sign {c x : Char} (h : lex.signs.lookup c = some x) : lex.Spells ['\\', c] x := by
  intro rest
  simp only [List.cons_append, List.nil_append, char?, ↓reduceIte, escape?, h]

/-- After a backslash the character announces a code point of so many digits. -/
def Announces (lex : Lexicon) (c : Char) (width : Nat) : Prop :=
  lex.signs.lookup c = none ∧ lex.codes.lookup c = some width

theorem code?_hex {width : Nat} {x : Char} (h : x.toNat < 16 ^ width) (rest : List Char) :
    code? width (Text.hex width x.toNat ++ rest) = some (x, rest) := by
  have hlength : (Text.hex width x.toNat).length = width := Text.length_hex width x.toNat
  have htake : (Text.hex width x.toNat ++ rest).take width = Text.hex width x.toNat :=
    List.take_left' hlength
  have hdrop : (Text.hex width x.toNat ++ rest).drop width = rest := List.drop_left' hlength
  have hfits : width ≤ (Text.hex width x.toNat ++ rest).length := by
    rw [List.length_append, hlength]
    omega
  rw [code?, if_pos hfits, htake, hdrop, Text.hexNumber?_hex, Nat.mod_eq_of_lt h,
    Option.bind_some, charOf?_toNat, Option.map_some]

theorem spells_code {c x : Char} {width : Nat} (hc : lex.Announces c width)
    (h : x.toNat < 16 ^ width) : lex.Spells ('\\' :: c :: Text.hex width x.toNat) x := by
  intro rest
  simp only [List.cons_append, char?, ↓reduceIte, escape?, hc.1, hc.2, Option.bind_some]
  exact code?_hex h rest

/-- A lexicon needs the longer code points only for the characters that do not fit the shorter
ones. -/
theorem spells_codeEscape {c : Char} (hx : lex.Announces 'x' 2)
    (hu : 0xff < c.toNat → lex.Announces 'u' 4) (hU : 0xffff < c.toNat → lex.Announces 'U' 8) :
    lex.Spells (codeEscape c) c := by
  unfold codeEscape
  split_ifs with hshort hlong
  · exact spells_code hx (by omega)
  · exact spells_code (hu (by omega)) (by omega)
  · exact spells_code (hU (by omega)) (toNat_lt_eight_digits c)

theorem opened?_of_mem {quote cs rest : List Char} (h : opening? cs = some (quote, rest))
    (hquote : quote ∈ lex.quotes) : lex.opened? cs = some (quote, rest) := by
  rw [opened?, h, Option.bind_some]
  exact if_pos hquote

theorem body?_closing (quote rest : List Char) :
    lex.body? quote (quote ++ rest) = some ([], rest) := by
  have hstarts : quote.isPrefixOf (quote ++ rest) = true :=
    List.isPrefixOf_iff_prefix.mpr (List.prefix_append quote rest)
  rw [body?, if_pos hstarts, List.drop_left]

theorem body?_spelled {quote cs rest : List Char} {x : Char} (h : lex.Spells cs x)
    (hquote : ¬ quote <+: cs ++ rest) :
    lex.body? quote (cs ++ rest) = (lex.body? quote rest).map (prepend x) := by
  rw [body?, if_neg (fun hstarts => hquote (List.isPrefixOf_iff_prefix.mp hstarts))]
  split
  next hnone =>
    rw [h rest] at hnone
    cases hnone
  next y more hsome =>
    rw [h rest] at hsome
    simp only [Option.some.injEq, Prod.mk.injEq] at hsome
    rw [hsome.1, hsome.2]

end Spelling

end Lexicon

end Unparse.Literal
