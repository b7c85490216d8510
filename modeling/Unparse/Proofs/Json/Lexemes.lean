import Mathlib.Data.List.TakeWhile
import Unparse.Json.Writer
import Unparse.Proofs.Json.Numeral
import Unparse.Proofs.Literal.CodePoint

/-! The tokens of written text. A lexeme is read from between two tokens on; a word has to be told
that it ends, all other lexemes end by themselves. -/
namespace Unparse.Json

namespace Lexer

/-- The tokens of a text that is read from a state on. -/
def run (l : Lexer) (cs : List Char) : Option (List Token) :=
  (cs.foldlM step l).bind finish

theorem run_cons (l : Lexer) (c : Char) (cs : List Char) :
    run l (c :: cs) = (step l c).bind fun l => run l cs := by
  unfold run
  rw [List.foldlM_cons]
  cases step l c <;> rfl

/-- A word that comes before these characters ends there. -/
def isDelimited (cs : List Char) : Bool :=
  cs.head?.all isDelimiter

section Words

variable {tokens : List Token} {read cs rest : List Char} {c : Char}

theorem begin_word (hc : isDelimiter c = false) : begin tokens c = ⟨tokens, .word [c]⟩ := by
  unfold isDelimiter at hc
  simp only [Bool.or_eq_false_iff, beq_eq_false_iff_ne, Option.isSome_eq_false_iff,
    Option.isNone_iff_eq_none] at hc
  obtain ⟨⟨hquote, hspace⟩, hpunctuation⟩ := hc
  simp [begin, hquote, hspace, hpunctuation]

theorem run_word (hcs : ∀ c ∈ cs, isDelimiter c = false) :
    run ⟨tokens, .word read⟩ (cs ++ rest) = run ⟨tokens, .word (cs.reverse ++ read)⟩ rest := by
  induction cs generalizing read with
  | nil => rfl
  | cons c cs ih =>
    have hc := hcs c (List.mem_cons_self ..)
    have hstep : step ⟨tokens, .word read⟩ c = some ⟨tokens, .word (c :: read)⟩ := by
      simp [step, hc]
    rw [List.cons_append, run_cons, hstep, Option.bind_some,
      ih fun d hd => hcs d (List.mem_cons_of_mem _ hd), List.reverse_cons, List.append_assoc]
    rfl

theorem run_word_end (hrest : isDelimited rest = true) :
    run ⟨tokens, .word read⟩ rest =
      (word? read.reverse).bind fun token => run ⟨token :: tokens, .between⟩ rest := by
  cases rest with
  | nil => cases hword : word? read.reverse <;> simp [run, finish, hword]
  | cons c rest =>
    have hc : isDelimiter c = true := hrest
    cases hword : word? read.reverse <;> simp [run_cons, step, hc, hword]

/-- A word is read as a whole. -/
theorem run_words (hne : cs ≠ []) (hcs : cs.all (!isDelimiter ·) = true)
    (hrest : isDelimited rest = true) :
    run ⟨tokens, .between⟩ (cs ++ rest) =
      (word? cs).bind fun token => run ⟨token :: tokens, .between⟩ rest := by
  simp only [List.all_eq_true, Bool.not_eq_true'] at hcs
  cases cs with
  | nil => exact absurd rfl hne
  | cons c cs =>
    obtain ⟨hc, hcs⟩ := List.forall_mem_cons.mp hcs
    have hword : (cs.reverse ++ [c]).reverse = c :: cs := by simp
    rw [List.cons_append, run_cons]
    change run (begin tokens c) (cs ++ rest) = _
    rw [begin_word hc, run_word hcs, run_word_end hrest, hword]

end Words

section Texts

variable {tokens : List Token} {read rest : List Char}

theorem shortEscape?_lookup {c e : Char} (h : shortEscapes.lookup c = some e) :
    e ≠ 'u' ∧ shortEscape? e = some c := by
  have hall : ∀ p ∈ shortEscapes, p.2 ≠ 'u' ∧ shortEscape? p.2 = some p.1 := by decide
  obtain ⟨front, back, heq, -⟩ := List.lookup_eq_some_iff.mp h
  exact hall (c, e) (by simp [heq])

theorem run_escape {c e : Char} (hu : e ≠ 'u') (hescape : shortEscape? e = some c) :
    run ⟨tokens, .text read⟩ ('\\' :: e :: rest) = run ⟨tokens, .text (c :: read)⟩ rest := by
  simp [run_cons, step, hu, hescape]

/-- Four digits are a code unit. -/
theorem run_code {digits : List Char} (hdigits : digits.length = 4) :
    run ⟨tokens, .text read⟩ ('\\' :: 'u' :: (digits ++ rest)) =
      (Text.hexNumber? digits).bind fun unit =>
        (codeUnit tokens read unit none).bind fun l => run l rest := by
  match digits, hdigits with
  | [a, b, c, d], _ =>
    simp [run_cons, step, Option.bind_assoc]

theorem run_writtenChar (c : Char) :
    run ⟨tokens, .text read⟩ (writtenChar c ++ rest) = run ⟨tokens, .text (c :: read)⟩ rest := by
  unfold writtenChar
  split
  next hc =>
    have hescape : c ≠ 'u' ∧ shortEscape? c = some c := by
      rcases hc with rfl | rfl <;> decide
    exact run_escape hescape.1 hescape.2
  next hc =>
    obtain ⟨hquote, hbackslash⟩ := not_or.mp hc
    split
    next e hlookup =>
      obtain ⟨hu, hescape⟩ := shortEscape?_lookup hlookup
      exact run_escape hu hescape
    next =>
      split
      next hlow =>
        have hunit : c.toNat % 16 ^ 4 = c.toNat := Nat.mod_eq_of_lt (by omega)
        have hcode : codeUnit tokens read c.toNat none = some ⟨tokens, .text (c :: read)⟩ := by
          unfold codeUnit
          rw [if_neg (by omega), if_neg (by omega), Char.ofNat_toNat]
        rw [List.cons_append, List.cons_append, run_code (Text.length_hex 4 _),
          Text.hexNumber?_hex, hunit, Option.bind_some, hcode, Option.bind_some]
      next hhigh => simp [run_cons, step, hquote, hbackslash, hhigh]

theorem run_writtenChars (cs : List Char) :
    run ⟨tokens, .text read⟩ (cs.flatMap writtenChar ++ rest) =
      run ⟨tokens, .text (cs.reverse ++ read)⟩ rest := by
  induction cs generalizing read with
  | nil => rfl
  | cons c cs ih =>
    rw [List.flatMap_cons, List.append_assoc, run_writtenChar, ih, List.reverse_cons,
      List.append_assoc]
    rfl

end Texts

section Numbers

theorem isDelimiter_of_isDigit {c : Char} (h : c.isDigit = true) : isDelimiter c = false :=
  Text.of_isDigit (P := fun c => isDelimiter c = false) (by decide) h

theorem isDelimiter_of_digits? {cs : List Char} {n : Nat} (h : Text.digits? cs = some n) :
    ∀ c ∈ cs, isDelimiter c = false := by
  intro c hc
  unfold Text.digits? at h
  split at h
  next => cases h
  next hdigits =>
    rw [Bool.not_eq_true, Bool.or_eq_false_iff, Bool.not_eq_false', List.all_eq_true] at hdigits
    exact isDelimiter_of_isDigit (hdigits.2 c hc)

theorem isDelimiter_of_mem_cons {first : Char} {cs : List Char} (hfirst : isDelimiter first = false)
    (hcs : ∀ c ∈ cs, isDelimiter c = false) : ∀ c ∈ first :: cs, isDelimiter c = false :=
  List.forall_mem_cons.mpr ⟨hfirst, hcs⟩

theorem isDelimiter_of_exponent? {cs : List Char} {e : Int} (h : Numeral.exponent? cs = some e) :
    ∀ c ∈ cs, isDelimiter c = false := by
  unfold Numeral.exponent? at h
  split at h
  · obtain ⟨n, hn, -⟩ := Option.map_eq_some_iff.mp h
    exact isDelimiter_of_mem_cons (by decide) (isDelimiter_of_digits? hn)
  · obtain ⟨i, hi, -⟩ := Option.map_eq_some_iff.mp h
    obtain ⟨n, hn, -⟩ := Option.bind_eq_some_iff.mp hi
    exact isDelimiter_of_mem_cons (by decide) (isDelimiter_of_digits? hn)
  · obtain ⟨n, hn, -⟩ := Option.map_eq_some_iff.mp h
    exact isDelimiter_of_digits? hn

theorem isDelimiter_of_tail? {cs : List Char} {e : Int} (h : Numeral.tail? cs = some e) :
    ∀ c ∈ cs, isDelimiter c = false := by
  unfold Numeral.tail? at h
  split at h
  · simp
  next mark more =>
    split at h
    next hmark =>
      refine isDelimiter_of_mem_cons ?_ (isDelimiter_of_exponent? h)
      unfold Numeral.isMark at hmark
      rcases Bool.or_eq_true_iff.mp hmark with hmark | hmark <;>
        (rw [beq_iff_eq.mp hmark]; decide)
    next => cases h

theorem isDelimiter_of_takeWhile (cs : List Char) :
    ∀ c ∈ cs.takeWhile Char.isDigit, isDelimiter c = false :=
  fun _ hc => isDelimiter_of_isDigit (List.mem_takeWhile_imp hc)

theorem isDelimiter_of_split {cs : List Char}
    (h : ∀ c ∈ cs.dropWhile Char.isDigit, isDelimiter c = false) :
    ∀ c ∈ cs, isDelimiter c = false := by
  rw [← List.takeWhile_append_dropWhile (p := Char.isDigit) (l := cs)]
  exact List.forall_mem_append.mpr ⟨isDelimiter_of_takeWhile cs, h⟩

theorem isDelimiter_of_fraction? {cs fraction tail : List Char}
    (h : Numeral.fraction? cs = some (fraction, tail))
    (htail : ∀ c ∈ tail, isDelimiter c = false) : ∀ c ∈ cs, isDelimiter c = false := by
  unfold Numeral.fraction? at h
  split at h
  next more =>
    dsimp only at h
    split at h
    next => cases h
    next =>
      obtain ⟨-, rfl⟩ := Prod.mk.inj (Option.some.inj h)
      exact isDelimiter_of_mem_cons (by decide) (isDelimiter_of_split htail)
  next =>
    obtain ⟨-, rfl⟩ := Prod.mk.inj (Option.some.inj h)
    exact htail

/-- A number is one word. -/
theorem isDelimiter_of_number? {token : List Char} {j : Json} (h : number? token = some j) :
    ∀ c ∈ token, isDelimiter c = false := by
  obtain ⟨n, hn, -⟩ := Option.bind_eq_some_iff.mp h
  unfold Numeral.ofChars? at hn
  dsimp only at hn
  split at hn
  next =>
    obtain ⟨⟨fraction, tail⟩, hfraction, hn⟩ := Option.bind_eq_some_iff.mp hn
    obtain ⟨e, htail, -⟩ := Option.map_eq_some_iff.mp hn
    have hunsigned : ∀ c ∈ (Numeral.sign token).2, isDelimiter c = false :=
      isDelimiter_of_split (isDelimiter_of_fraction? hfraction (isDelimiter_of_tail? htail))
    unfold Numeral.sign at hunsigned
    split at hunsigned
    · exact isDelimiter_of_mem_cons (by decide) hunsigned
    · exact hunsigned
  next => cases hn

end Numbers

end Lexer

open Lexer

/-- A text gives these tokens if no word goes on after it. -/
def Lexes (s : String) (tokens : List Token) : Prop :=
  ∀ read rest, isDelimited rest = true →
    run ⟨read, .between⟩ (s.toList ++ rest) = run ⟨tokens.reverse ++ read, .between⟩ rest

/-- A text gives these tokens whatever comes after it. -/
def Closed (s : String) (tokens : List Token) : Prop :=
  ∀ read rest, run ⟨read, .between⟩ (s.toList ++ rest) = run ⟨tokens.reverse ++ read, .between⟩ rest

/-- A text that ends a word before it. -/
def isBarrier (s : String) : Bool :=
  s.toList.head?.any isDelimiter

section Lexemes

variable {s t : String} {ts us : List Token}

theorem Closed.lexes (h : Closed s ts) : Lexes s ts :=
  fun read rest _ => h read rest

theorem Closed.append (hs : Closed s ts) (ht : Closed t us) : Closed (s ++ t) (ts ++ us) := by
  intro read rest
  rw [String.toList_append, List.append_assoc, hs, ht, List.reverse_append, List.append_assoc]

theorem Closed.append_lexes (hs : Closed s ts) (ht : Lexes t us) : Lexes (s ++ t) (ts ++ us) := by
  intro read rest hrest
  rw [String.toList_append, List.append_assoc, hs, ht _ _ hrest, List.reverse_append,
    List.append_assoc]

theorem isDelimited_append {rest : List Char} (h : isBarrier t = true) :
    isDelimited (t.toList ++ rest) = true := by
  unfold isBarrier at h
  cases hlist : t.toList with
  | nil => simp [hlist] at h
  | cons c cs => simpa [isDelimited, hlist] using h

theorem Lexes.append (hs : Lexes s ts) (ht : Closed t us) (hbarrier : isBarrier t = true) :
    Closed (s ++ t) (ts ++ us) := by
  intro read rest
  rw [String.toList_append, List.append_assoc, hs _ _ (isDelimited_append hbarrier), ht,
    List.reverse_append, List.append_assoc]

theorem Lexes.tokens? (h : Lexes s ts) : tokens? s.toList = some ts := by
  have hrun := h [] [] rfl
  rw [List.append_nil, List.append_nil] at hrun
  exact hrun.trans (congrArg some ts.reverse_reverse)

theorem lexes_word {token : Token} (hne : s.toList ≠ [])
    (hs : s.toList.all (!isDelimiter ·) = true) (htoken : word? s.toList = some token) :
    Lexes s [token] := by
  intro read rest hrest
  rw [run_words hne hs hrest, htoken]
  rfl

/-- A number is read as a literal. -/
theorem lexes_number {j : Json} (h : number? s.toList = some j) : Lexes s [.literal j] := by
  have hne (cs : List Char) (hcs : number? cs = none) : s.toList ≠ cs := by
    intro heq
    rw [heq, hcs] at h
    cases h
  have hword : word? s.toList = some (.literal j) := by
    rw [word?, if_neg (hne _ rfl), if_neg (hne _ rfl), if_neg (hne _ rfl), h, Option.map_some]
  have hs : s.toList.all (!isDelimiter ·) = true := by
    simpa only [List.all_eq_true, Bool.not_eq_true'] using isDelimiter_of_number? h
  exact lexes_word (hne [] rfl) hs hword

theorem closed_writtenText (s : String) : Closed (writtenText s) [.text s] := by
  intro read rest
  have hlist : (writtenText s).toList = '\x22' :: (s.toList.flatMap writtenChar ++ ['\x22']) := by
    simp [writtenText]
  rw [hlist, List.cons_append, run_cons]
  change run ⟨read, .text []⟩ _ = _
  rw [List.append_assoc, run_writtenChars, List.append_nil, List.singleton_append, run_cons]
  simp [step]

/-- Parts with the same separator between them, and what ends them. -/
theorem closed_intercalate {separator : String} (hseparator : Closed separator us)
    (hbarrier : isBarrier separator = true) {closing : String} {close : List Token}
    (hclosing : Closed closing close) (hend : isBarrier closing = true)
    {parts : List String} {tokens : List (List Token)} (h : List.Forall₂ Lexes parts tokens) :
    Closed (String.intercalate separator parts ++ closing) (us.intercalate tokens ++ close) := by
  induction h with
  | nil => simpa using hclosing
  | @cons s ts parts tokens hs hmore ih =>
    cases hmore with
    | nil =>
      rw [String.intercalate_singleton, List.intercalate_singleton]
      exact hs.append hclosing hend
    | @cons t vs parts tokens ht hmore =>
      have hjoint := (hs.append hseparator hbarrier).append ih
      rw [String.intercalate_cons_cons, List.intercalate_cons_cons]
      simpa only [String.append_assoc, List.append_assoc] using hjoint

end Lexemes

end Unparse.Json
