import Mathlib.Data.List.Infix
import Unparse.Proofs.Scanner.FString

/-! Where an f-string ends. A reader of the body knows nothing of replacement fields: it takes
the characters one by one, with a backslash passes over the next one, and stops at the first
quote. Pieces of a body pass if such a reader goes through them as if they were not there. -/
namespace Unparse

open Scanner Render

theorem Text.occursIn_iff {needle : List Char} (cs : List Char) :
    Text.occursIn needle cs = true ↔ needle <:+: cs := by
  induction cs with
  | nil => simp [Text.occursIn]
  | cons c cs ih =>
    rw [Text.occursIn, Bool.or_eq_true, ih, List.isPrefixOf_iff_prefix, List.infix_cons_iff]

namespace Render.FString

/-- What stands before the first `quote`. A backslash hides the next character, so that no quote
can begin with it. -/
def upTo (quote : List Char) (hidden : Bool) : List Char → Option (List Char)
  | [] => none
  | c :: cs =>
    if !hidden && quote.isPrefixOf (c :: cs) then some []
    else (upTo quote (!hidden && c == '\\') cs).map (c :: ·)

theorem upTo_cons {quote : List Char} {hidden : Bool} {c : Char} {cs : List Char}
    (h : ¬ quote <+: c :: cs) :
    upTo quote hidden (c :: cs) = (upTo quote (!hidden && c == '\\') cs).map (c :: ·) := by
  rw [upTo, if_neg]
  rw [Bool.and_eq_true, List.isPrefixOf_iff_prefix]
  exact fun hboth => h hboth.2

theorem upTo_hidden (quote : List Char) (c : Char) (cs : List Char) :
    upTo quote true (c :: cs) = (upTo quote false cs).map (c :: ·) :=
  rfl

/-- A reader who looks for the quote goes through the characters, whatever follows them. -/
def Passes (quote cs : List Char) : Prop :=
  ∀ rest, upTo quote false (cs ++ rest) = (upTo quote false rest).map (cs ++ ·)

namespace Passes

variable {quote cs : List Char}

theorem nil : Passes quote [] := by
  intro rest
  simp

theorem append {ds : List Char} (hcs : Passes quote cs) (hds : Passes quote ds) :
    Passes quote (cs ++ ds) := by
  intro rest
  rw [List.append_assoc, hcs, hds, Option.map_map]
  simp [Function.comp_def]

/-- A quote that comes right after them is the first one. -/
theorem upTo_append (h : Passes quote cs) (hquote : quote ≠ []) :
    upTo quote false (cs ++ quote) = some cs := by
  rw [h]
  cases quote with
  | nil => exact absurd rfl hquote
  | cons c more => simp [upTo]

end Passes

/-- Escaped text has no mark that is not hidden. -/
theorem passes_of_escaped {mark : Char} (hmark : mark ≠ '\\') (n : Nat) {cs : List Char}
    (h : Escaped mark cs) : Passes (List.replicate (n + 1) mark) cs := by
  have hother {c : Char} (hc : c ≠ mark) (rest : List Char) :
      ¬ List.replicate (n + 1) mark <+: c :: rest := by
    rw [List.replicate_succ, List.cons_prefix_cons]
    exact fun hboth => hc hboth.1.symm
  intro rest
  induction h with
  | nil => simp
  | @char c cs hescape _ hne _ ih =>
    have hplain : (c == '\\') = false := beq_false_of_ne hescape
    rw [List.cons_append, upTo_cons (hother hne _), hplain, Bool.and_false, ih,
      Option.map_map]
    rfl
  | @escape c cs _ ih =>
    have hhides : (!false && '\\' == '\\') = true := by decide
    rw [List.cons_append, List.cons_append, upTo_cons (hother (Ne.symm hmark) _), hhides,
      upTo_hidden, ih, Option.map_map, Option.map_map]
    rfl

/-- What follows the code cannot complete a quote that is not there. -/
theorem not_prefix_append {quote cs : List Char} {x : Char} (h : ¬ quote <:+: cs)
    (hx : x ∉ quote) (rest : List Char) : ¬ quote <+: cs ++ x :: rest := by
  intro hstarts
  rcases Nat.lt_or_ge cs.length quote.length with hlong | hshort
  · have hcs : cs ++ [x] <+: cs ++ x :: rest := by simp
    have hquote := List.prefix_of_prefix_length_le hcs hstarts (by simp; omega)
    exact hx (hquote.subset (by simp))
  · exact h (List.prefix_of_prefix_length_le hstarts (List.prefix_append cs _) hshort).isInfix

/-- Code without a quote passes if it is followed by something else than a mark, also when that
is hidden because the code ends in a backslash. -/
theorem passes_code {quote cs : List Char} {x : Char} (h : ¬ quote <:+: cs) (hx : x ∉ quote)
    (hescape : x ≠ '\\') : Passes quote (cs ++ [x]) := by
  have hplain : (x == '\\') = false := beq_false_of_ne hescape
  -- Whether a character is hidden depends on what was read before, so both cases go along.
  have hall (hidden : Bool) (rest : List Char) :
      upTo quote hidden (cs ++ x :: rest) = (upTo quote false rest).map (cs ++ x :: ·) := by
    induction cs generalizing hidden with
    | nil =>
      rw [List.nil_append, upTo_cons (not_prefix_append h hx rest), hplain, Bool.and_false]
      rfl
    | cons c cs ih =>
      have htail : ¬ quote <:+: cs := fun hoccurs =>
        h (hoccurs.trans (List.suffix_cons c cs).isInfix)
      have hnone : ¬ quote <+: c :: (cs ++ x :: rest) := not_prefix_append h hx rest
      rw [List.cons_append, upTo_cons hnone, ih htail, Option.map_map]
      rfl
  intro rest
  simpa using hall false rest

theorem notMem_text {q : Quote} (hq : isQuote q.mark = true) {c : Char} (hc : isQuote c = false) :
    c ∉ q.text.toList := by
  intro hmem
  rw [Quote.text, String.toList_ofList] at hmem
  rw [List.eq_of_mem_replicate hmem, hq] at hc
  exact Bool.false_ne_true hc.symm

theorem text_ne_nil (q : Quote) : q.text.toList ≠ [] := by
  obtain ⟨mark, triple⟩ := q
  rw [toList_text]
  cases triple <;> simp

/-- Under a quote that none of their codes has, the segments pass. -/
def Sealed (segments : List Segment) : Prop :=
  ∀ q : Quote, isQuote q.mark = true →
    (∀ c ∈ codes segments, ¬ q.text.toList <:+: c.toList) →
    Passes q.text.toList (body q segments).toList

namespace Sealed

theorem nil : Sealed [] :=
  fun _ _ _ => Passes.nil

theorem append {as bs : List Segment} (ha : Sealed as) (hb : Sealed bs) : Sealed (as ++ bs) := by
  intro q hq h
  rw [codes_append] at h
  rw [body_append, String.toList_append]
  exact (ha q hq fun c hc => h c (List.mem_append_left _ hc)).append
    (hb q hq fun c hc => h c (List.mem_append_right _ hc))

theorem flatten {ss : List (List Segment)} (h : ∀ segments ∈ ss, Sealed segments) :
    Sealed ss.flatten := by
  induction ss with
  | nil => exact nil
  | cons segments ss ih =>
    obtain ⟨hhead, htail⟩ := List.forall_mem_cons.mp h
    exact hhead.append (ih htail)

theorem literal (text : String) : Sealed [.literal text] := by
  intro q hq _
  have hescaped : Escaped q.mark (body q [.literal text]).toList := by
    rw [body_singleton, segmentText, String.toList_ofList]
    exact escaped_doubleBrace hq (escaped_escape hq _ _)
  obtain ⟨mark, triple⟩ := q
  have hmark := ne_escape_of_isQuote hq
  rw [toList_text]
  cases triple with
  | false => exact passes_of_escaped hmark 0 hescaped
  | true => exact passes_of_escaped hmark 2 hescaped

section

variable {sign : String} {x : Char} (hsign : sign.toList = [x]) (hx : isQuote x = false)
  (hescape : x ≠ '\\')
include hsign hx hescape

/-- Code before a sign of the f-string's own. -/
theorem code (text : String) : Sealed [.code text, .code sign] := by
  intro q hq h
  have hbody : (body q [.code text, .code sign]).toList = text.toList ++ [x] := by
    simp [body, segmentText, hsign]
  rw [hbody]
  exact passes_code (h text List.mem_cons_self) (notMem_text hq hx) hescape

theorem alone : Sealed [.code sign] := by
  intro q hq _
  rw [body_singleton, segmentText, hsign]
  exact passes_code (fun h => text_ne_nil q (List.infix_nil.mp h)) (notMem_text hq hx) hescape

end

end Sealed

theorem newline_notMem_escapeChar (hidden : Char → Bool) (quote c : Char) :
    '\n' ∉ Literal.escapeChar hidden quote c := by
  have hhex (width : Nat) : '\n' ∉ Text.hex width c.toNat := fun h =>
    absurd (isInert_of_mem_hex h) (by decide)
  by_cases hc : c = '\n'
  · simp [Literal.escapeChar, hc]
  · unfold Literal.escapeChar Literal.codeEscape
    split_ifs <;> simp [hhex, Ne.symm hc]

/-- If the code of segments is of a single line, so is their body. -/
theorem newline_notMem_body {segments : List Segment} (h : ∀ c ∈ codes segments, '\n' ∉ c.toList)
    (q : Quote) : '\n' ∉ (body q segments).toList := by
  induction segments with
  | nil => simp [body]
  | cons segment more ih =>
    rw [← List.singleton_append, body_append, body_singleton, String.toList_append,
      List.mem_append, not_or]
    cases segment with
    | literal text =>
      refine ⟨?_, ih h⟩
      rw [segmentText, String.toList_ofList, List.mem_flatMap]
      rintro ⟨c, hc, hbrace⟩
      have hsame : '\n' = c := by
        unfold doubleBrace at hbrace
        split at hbrace <;> simpa using hbrace
      obtain ⟨d, -, hd⟩ := List.mem_flatMap.mp hc
      exact newline_notMem_escapeChar _ _ d (hsame ▸ hd)
    | code text =>
      obtain ⟨hhere, hmore⟩ := List.forall_mem_cons.mp h
      exact ⟨hhere, ih hmore⟩

end Render.FString

end Unparse
