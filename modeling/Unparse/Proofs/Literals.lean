import Unparse.Proofs.Literal.Lexicon

/-! Short literals read back. Text and bytes are put between quotes by one function, which is
told only which characters to hide, so that one argument covers both: every character is spelled
in a way its lexicon reads, and no spelling begins with the quote. -/
namespace Unparse.Literal

open Scanner

theorem quoteFor_cases (cs : List Char) :
    quoteFor cs = singleQuote ∨ quoteFor cs = doubleQuote := by
  unfold quoteFor
  split
  · exact .inr rfl
  · exact .inl rfl

namespace Lexicon

variable {lex : Lexicon} {hidden : Char → Bool} {quote : Char}

/-- A lexicon with the usual signs reads what is escaped, if it reads the code points of the hidden
characters and lets the others stand for themselves. -/
theorem spells_escapeChar {c : Char} (hsigns : lex.signs = string.signs)
    (hquote : isQuote quote = true) (hcode : hidden c = true → lex.Spells (codeEscape c) c)
    (hraw : hidden c = false → c ≠ '\n' → c ≠ '\r' → lex.raw c = true) :
    lex.Spells (escapeChar hidden quote c) c := by
  have hsign {d x : Char} (h : string.signs.lookup d = some x) : lex.Spells ['\\', d] x :=
    spells_sign (hsigns ▸ h)
  unfold escapeChar
  split_ifs with hslash hline hreturn htab hmark hhidden
  · rw [hslash]
    exact hsign rfl
  · rw [hline]
    exact hsign rfl
  · rw [hreturn]
    exact hsign rfl
  · rw [htab]
    exact hsign rfl
  · simp only [isQuote, Bool.or_eq_true, beq_iff_eq] at hquote
    rcases hquote with h | h
    · rw [hmark, h]
      exact hsign rfl
    · rw [hmark, h]
      exact hsign rfl
  · exact hcode hhidden
  · exact spells_raw hslash (hraw (Bool.not_eq_true _ ▸ hhidden) hline hreturn)

/-- What can stand in a literal does not begin with the mark that ends it. -/
theorem not_prefix_of_escaped {cs rest : List Char} (hquote : isQuote quote = true)
    (h : Escaped quote cs) (hcs : cs ≠ []) : ¬ [quote] <+: cs ++ rest := by
  cases h with
  | nil => exact absurd rfl hcs
  | char hescape hline hmark more =>
    rw [List.cons_append, List.cons_prefix_cons]
    exact fun hboth => hmark hboth.1.symm
  | escape more =>
    rw [List.cons_append, List.cons_prefix_cons]
    exact fun hboth => ne_escape_of_isQuote hquote hboth.1

/-- The reader takes an escaped text character by character. -/
theorem body?_escape (hquote : isQuote quote = true) (cs rest : List Char)
    (h : ∀ c ∈ cs, lex.Spells (escapeChar hidden quote c) c) :
    lex.body? [quote] (escape hidden quote cs ++ quote :: rest) = some (cs, rest) := by
  unfold escape
  induction cs with
  | nil => exact body?_closing [quote] rest
  | cons c cs ih =>
    obtain ⟨hc, hcs⟩ := List.forall_mem_cons.mp h
    have hother : ¬ [quote] <+: escapeChar hidden quote c ++
        (cs.flatMap (escapeChar hidden quote) ++ quote :: rest) :=
      not_prefix_of_escaped hquote (escaped_escapeChar hquote hidden c) (ne_nil_of_spells hc)
    rw [List.flatMap_cons, List.append_assoc, body?_spelled hc hother, ih hcs]
    rfl

theorem opening?_short (hquote : isQuote quote = true) {cs : List Char} (h : Escaped quote cs) :
    opening? (quote :: (cs ++ [quote])) = some ([quote], cs ++ [quote]) := by
  have hsingle : [quote, quote].isPrefixOf (cs ++ [quote]) = false :=
    h.not_tripled hquote (show Bare [] from trivial)
  rw [opening?, if_pos hquote, hsingle]
  rfl

theorem literal?_quoted (hquotes : lex.quotes = string.quotes) (cs : List Char)
    (h : ∀ quote, isQuote quote = true → ∀ c ∈ cs, lex.Spells (escapeChar hidden quote c) c) :
    lex.literal? (quoted hidden cs) = some (cs, []) := by
  have hquote := isQuote_quoteFor cs
  have hshort : [quoteFor cs] ∈ lex.quotes := by
    rw [hquotes]
    rcases quoteFor_cases cs with h | h <;> rw [h] <;> decide
  have hopens := opening?_short hquote (escaped_escape hquote hidden cs)
  rw [literal?, quoted, opened?_of_mem hopens hshort, Option.bind_some]
  exact body?_escape hquote cs [] (h _ hquote)

end Lexicon

/-- The characters that quotes and escapes are made of. -/
def marks : List Char :=
  [singleQuote, doubleQuote, '\\', 'n', 'r', 't', 'x', 'u', 'U', '0', '1', '2', '3', '4', '5', '6',
    '7', '8', '9', 'a', 'b', 'c', 'd', 'e', 'f']

theorem mem_marks_of_mem_hex {width n : Nat} {c : Char} (h : c ∈ Text.hex width n) : c ∈ marks := by
  have hdigits : ∀ k < 16, (Nat.toDigits 16 k).headD '0' ∈ marks := by decide
  induction width generalizing n with
  | zero => simp [Text.hex] at h
  | succ width ih =>
    rcases List.mem_append.mp h with h | h
    · exact ih h
    · rw [List.mem_singleton.mp h]
      exact hdigits (n % 16) (Nat.mod_lt n (by decide))

theorem mem_marks_of_mem_codeEscape {c x : Char} (h : x ∈ codeEscape c) : x ∈ marks := by
  have hescape {mark : Char} {width : Nat} (hmark : mark ∈ marks)
      (hx : x ∈ '\\' :: mark :: Text.hex width c.toNat) : x ∈ marks := by
    simp only [List.mem_cons] at hx
    rcases hx with rfl | rfl | hx
    · decide
    · exact hmark
    · exact mem_marks_of_mem_hex hx
  unfold codeEscape at h
  split_ifs at h
  · exact hescape (by decide) h
  · exact hescape (by decide) h
  · exact hescape (by decide) h

/-- A hidden character shows as marks, and every other one as itself or as marks. -/
theorem mem_marks_or_of_mem_escapeChar {hidden : Char → Bool} {quote c x : Char}
    (hquote : quote ∈ marks) (h : x ∈ escapeChar hidden quote c) :
    x ∈ marks ∨ (x = c ∧ hidden c = false) := by
  have hpair {d : Char} (hd : d ∈ marks) (hx : x ∈ ['\\', d]) : x ∈ marks := by
    simp only [List.mem_cons, List.not_mem_nil, or_false] at hx
    rcases hx with rfl | rfl
    · decide
    · exact hd
  unfold escapeChar at h
  split_ifs at h with hslash hline hreturn htab hmark hhidden
  · exact .inl (hpair (by decide) h)
  · exact .inl (hpair (by decide) h)
  · exact .inl (hpair (by decide) h)
  · exact .inl (hpair (by decide) h)
  · exact .inl (hpair (hmark ▸ hquote) h)
  · exact .inl (mem_marks_of_mem_codeEscape h)
  · exact .inr ⟨List.mem_singleton.mp h, Bool.not_eq_true _ ▸ hhidden⟩

/-- If no mark is hidden, nothing that is hidden shows. -/
theorem not_hidden_of_mem_quoted {hidden : Char → Bool} (hmarks : marks.all (!hidden ·) = true)
    (cs : List Char) : ∀ x ∈ quoted hidden cs, hidden x = false := by
  have hshown {x : Char} (hx : x ∈ marks) : hidden x = false := by
    simpa using List.all_eq_true.mp hmarks x hx
  have hquote : quoteFor cs ∈ marks := by
    rcases quoteFor_cases cs with h | h <;> rw [h] <;> decide
  intro x hx
  simp only [quoted, List.mem_cons, List.mem_append, List.not_mem_nil, or_false] at hx
  rcases hx with rfl | hx | rfl
  · exact hshown hquote
  · obtain ⟨c, -, hc⟩ := List.mem_flatMap.mp hx
    rcases mem_marks_or_of_mem_escapeChar hquote hc with hx | ⟨rfl, hx⟩
    · exact hshown hx
    · exact hx
  · exact hshown hquote

theorem Lexicon.spells_escapeText {quote : Char} (hquote : isQuote quote = true) (c : Char) :
    Lexicon.string.Spells (escapeChar isHidden quote c) c := by
  apply spells_escapeChar rfl hquote
  · exact fun _ => spells_codeEscape ⟨rfl, rfl⟩ (fun _ => ⟨rfl, rfl⟩) fun _ => ⟨rfl, rfl⟩
  · intro _ hline hreturn
    simp [string, hline, hreturn]

/-- Every text reads back from its literal, of which nothing is left over, and no control
character and no line end is written in it. -/
theorem string_read_back (s : String) :
    Lexicon.string.literal? (string s).toList = some (s.toList, []) ∧
    ∀ c ∈ (string s).toList, isControl c = false ∧ c ≠ '\u2028' ∧ c ≠ '\u2029' := by
  rw [string, String.toList_ofList]
  constructor
  · exact Lexicon.literal?_quoted rfl _ fun _ hquote c _ => Lexicon.spells_escapeText hquote c
  · intro c hc
    have hshown : isHidden c = false := not_hidden_of_mem_quoted (by decide) s.toList c hc
    simp only [isHidden, Bool.or_eq_false_iff] at hshown
    refine ⟨hshown.1.1, ?_, ?_⟩
    · rintro rfl
      exact absurd hshown.1.2 (by decide)
    · rintro rfl
      exact absurd hshown.2 (by decide)

theorem toNat_byteChar (b : UInt8) : (byteChar b).toNat = b.toNat := by
  have hvalid : b.toNat.isValidChar := by
    have hlt := b.toNat_lt
    unfold Nat.isValidChar
    omega
  have hchar : byteChar b = Char.ofNatAux b.toNat hvalid := dif_pos hvalid
  rw [hchar]
  rfl

/-- A byte fits two digits, and only one that is printable stands for itself. -/
theorem Lexicon.spells_escapeByte {quote : Char} (hquote : isQuote quote = true) (b : UInt8) :
    Lexicon.bytes.Spells (escapeChar isHiddenByte quote (byteChar b)) (byteChar b) := by
  have hsigns : bytes.signs = string.signs := rfl
  have hbyte := b.toNat_lt
  have hcode := toNat_byteChar b
  apply spells_escapeChar hsigns hquote
  · intro _
    exact spells_codeEscape ⟨rfl, rfl⟩ (fun h => by omega) fun h => by omega
  · intro hshown hline hreturn
    simp only [isHiddenByte, Bool.or_eq_false_iff, decide_eq_false_iff_not] at hshown
    have hascii : (byteChar b).toNat < 0x80 := by omega
    simp [bytes, string, hline, hreturn, hascii]

/-- Bytes read back from their literal, of which nothing is left over, and all of it is
printable ASCII. -/
theorem bytes_read_back (bs : List UInt8) :
    (∀ c ∈ (bytes bs).toList, 0x20 ≤ c.toNat ∧ c.toNat ≤ 0x7e) ∧
    Lexicon.bytes? (bytes bs).toList = some (bs, []) := by
  rw [bytes, String.toList_ofList]
  constructor
  · intro c hc
    have hshown : isHiddenByte c = false := by
      rcases List.mem_cons.mp hc with rfl | hc
      · decide
      · exact not_hidden_of_mem_quoted (by decide) _ c hc
    simp only [isHiddenByte, Bool.or_eq_false_iff, decide_eq_false_iff_not] at hshown
    omega
  · have hquotes : Lexicon.bytes.quotes = Lexicon.string.quotes := rfl
    have hread : Lexicon.bytes.literal? (quoted isHiddenByte (bs.map byteChar)) =
        some (bs.map byteChar, []) := by
      apply Lexicon.literal?_quoted hquotes
      intro quote hquote c hc
      obtain ⟨b, -, rfl⟩ := List.mem_map.mp hc
      exact Lexicon.spells_escapeByte hquote b
    have hbytes : (bs.map byteChar).map (fun c => UInt8.ofNat c.toNat) = bs := by
      simp [Function.comp_def, toNat_byteChar]
    rw [Lexicon.bytes?, hread, Option.map_some, hbytes]

end Unparse.Literal
