import Unparse.Proofs.Segments

/-! The text of a format spec. It is written as any text of an f-string is, with its braces doubled,
although two braces do not stand for one in a spec. Decoding the spec gives back every text without
braces; a text with braces comes back with each of them twice. -/
namespace Unparse

open Literal Scanner Render Render.FString

namespace Render.FString

variable {mark : Char} {cs : List Char}

theorem mem_doubleBrace {c d : Char} : c ∈ doubleBrace d ↔ c = d := by
  unfold doubleBrace
  split <;> simp

theorem length_flatMap_doubleBrace (cs : List Char) :
    (cs.flatMap doubleBrace).length = cs.length + cs.countP isBrace := by
  induction cs with
  | nil => rfl
  | cons c cs ih =>
    rw [List.flatMap_cons, List.length_append, ih, List.length_cons, List.countP_cons, doubleBrace]
    simp only [← isBrace_iff]
    split
    · rw [List.length_cons, List.length_singleton]
      omega
    · rw [List.length_singleton]
      omega

theorem flatMap_doubleBrace_eq_self_iff :
    cs.flatMap doubleBrace = cs ↔ ∀ c ∈ cs, isBrace c = false := by
  refine ⟨fun h => ?_, flatMap_doubleBrace⟩
  have hlength := congrArg List.length h
  rw [length_flatMap_doubleBrace, Nat.add_eq_left, List.countP_eq_zero] at hlength
  simpa using hlength

/-- It does not matter whether braces are doubled before or after escaping. -/
theorem flatMap_doubleBrace_escape (hmark : isQuote mark = true) (cs : List Char) :
    (escape isHidden mark cs).flatMap doubleBrace =
      escape isHidden mark (cs.flatMap doubleBrace) := by
  have hchar (c : Char) : (escapeChar isHidden mark c).flatMap doubleBrace =
      escape isHidden mark (doubleBrace c) := by
    cases hc : isBrace c with
    | false =>
      have hsingle : doubleBrace c = [c] := by
        have hself : [c].flatMap doubleBrace = [c] := flatMap_doubleBrace (by simpa using hc)
        simpa using hself
      rw [flatMap_doubleBrace (isBrace_of_mem_escapeChar hmark hc), hsingle, escape]
      simp
    | true =>
      have hpair : doubleBrace c = [c, c] := if_pos (isBrace_iff.mp hc)
      simp [escape, escapeChar_brace hmark hc, hpair]
  unfold escape at hchar ⊢
  rw [List.flatMap_assoc, List.flatMap_assoc]
  exact List.flatMap_congr fun c _ => hchar c

/-- Escaping neither makes braces nor hides them. -/
theorem braceless_escape_iff (hmark : isQuote mark = true) :
    (∀ c ∈ escape isHidden mark cs, isBrace c = false) ↔ ∀ c ∈ cs, isBrace c = false := by
  unfold escape
  constructor
  · intro h c hc
    by_contra hbrace
    have hsame := escapeChar_brace hmark (Bool.not_eq_false _ ▸ hbrace)
    exact hbrace (h c (List.mem_flatMap.mpr ⟨c, hc, hsame ▸ List.mem_singleton_self c⟩))
  · intro h x hx
    obtain ⟨c, hc, hx⟩ := List.mem_flatMap.mp hx
    exact isBrace_of_mem_escapeChar hmark (h c hc) x hx

theorem segmentText_append (q : Quote) (s t : String) :
    segmentText q (.literal (s ++ t)) =
      segmentText q (.literal s) ++ segmentText q (.literal t) := by
  simp [segmentText, escape]

end Render.FString

namespace Node

/-- The values of an f-string are strings, and this is their text. -/
inductive Texts : List (Node .expr) → String → Prop where
  | nil : Texts [] ""
  | str (s : String) (mark : Mark .expr) {es : List (Node .expr)} {text : String}
      (more : Texts es text) : Texts (marked .str (s, ()) mark :: es) (s ++ text)
  | constant (s : String) (mark : Mark .expr) {es : List (Node .expr)} {text : String}
      (more : Texts es text) : Texts (marked .constant (.str s, ()) mark :: es) (s ++ text)

/-- Strings have no code, and they are written as their text would be. -/
theorem Texts.segments {values : List (Node .expr)} {text : String} (h : Texts values text) :
    ∃ segments, (parts (values.map fun u => view u)).outcome = .ok segments ∧
      codes segments = [] ∧ ∀ q, body q segments = segmentText q (.literal text) := by
  have hcons {s text : String} {segments : List Segment}
      (hbody : ∀ q, body q segments = segmentText q (.literal text)) (q : Quote) :
      body q ([.literal s] ++ segments) = segmentText q (.literal (s ++ text)) := by
    rw [body_append, body_singleton, hbody, segmentText_append]
  induction h with
  | nil => exact ⟨[], rfl, rfl, fun _ => rfl⟩
  | str s mark more ih =>
    obtain ⟨segments, hsegments, hcodes, hbody⟩ := ih
    exact ⟨_, parts_cons (part_str s mark) hsegments, hcodes, hcons hbody⟩
  | constant s mark more ih =>
    obtain ⟨segments, hsegments, hcodes, hbody⟩ := ih
    exact ⟨_, parts_cons (part_constant s mark) hsegments, hcodes, hcons hbody⟩

/-- The text of a format spec as it is written between short quotes. -/
def specOf (text : String) : String :=
  segmentText ⟨singleQuote, false⟩ (.literal text)

theorem toList_specOf (text : String) :
    (specOf text).toList = escape isHidden singleQuote (text.toList.flatMap doubleBrace) := by
  rw [specOf, segmentText, String.toList_ofList]
  exact flatMap_doubleBrace_escape rfl text.toList

theorem render_format {id : String} (hid : isName id.toList = true) {values : List (Node .expr)}
    {text : String} (h : Texts values text) (inner middle mark : Mark .expr) (width : Nat) :
    (replacement (named id inner) none (some (fString values middle)) mark).render
      ⟨.permissive, width⟩ = .ok ("f'\x7b" ++ id ++ ":" ++ specOf text ++ "\x7d'") := by
  obtain ⟨segments, hsegments, hcodes, hbody⟩ := h.segments
  let shown : Shown := ⟨id, none⟩
  let all : List Segment := .code shown.opening :: (.code ":" :: segments ++ [.code "\x7d"])
  have hfield : (field (view (named id inner)) none (some (view (fString values middle)))).outcome =
      .ok all := by
    have hpart := part_formatted shown inner middle mark hsegments
    rw [view_replacement] at hpart
    exact hpart
  have hplain : ∀ code ∈ codes all, code.toList.all isPlain = true := by
    rw [codes_code, List.forall_mem_cons, List.cons_append, codes_code, List.forall_mem_cons,
      codes_append, hcodes]
    exact ⟨Shown.all_isPlain_opening hid, rfl, by decide⟩
  have hopening : shown.opening = "\x7b" ++ id := by
    rw [← String.toList_inj, Shown.toList_opening hid]
    simp [Shown.chars, conversionText, shown]
  have htext : "f" ++ Quote.text ⟨singleQuote, false⟩ ++ body ⟨singleQuote, false⟩ all ++
      Quote.text ⟨singleQuote, false⟩ = "f'\x7b" ++ id ++ ":" ++ specOf text ++ "\x7d'" := by
    rw [body_code, body_append, body_code, hbody, body_singleton, hopening, ← String.toList_inj]
    simp [specOf, segmentText, Quote.text, singleQuote]
  refine render_expr_eq_ok_iff.mpr ⟨?_, fun need _ => Draft.met_permissive need⟩
  rw [draft, view_replacement, ← htext]
  change (Draft.demand .formattedValue >>= fun _ => field _ _ _ >>=
    joined .formattedValue).outcome = _
  rw [Draft.outcome_bind_of_ok rfl, Option.map_some, Draft.outcome_bind_of_ok hfield,
    joined_outcome (quote?_of_plain hplain)]

/-- In the permissive dialect a field of a name, with strings for its format spec, is written as the
name, a colon and the spec in braces. The spec is decoded as the text of the strings with each brace
doubled. So it has no brace, and is decoded as this text, exactly if the text has no brace. -/
theorem format_spec_doubled {id : String} (hid : isName id.toList = true)
    {values : List (Node .expr)} {text : String} (h : Texts values text)
    (inner middle mark : Mark .expr) (width : Nat) :
    ∃ spec : String,
      (replacement (named id inner) none (some (fString values middle)) mark).render
        ⟨.permissive, width⟩ = .ok ("f'\x7b" ++ id ++ ":" ++ spec ++ "\x7d'") ∧
      Lexicon.string.body? [singleQuote] (spec.toList ++ [singleQuote]) =
        some (text.toList.flatMap doubleBrace, []) ∧
      ((∀ c ∈ spec.toList, isBrace c = false) ↔ ∀ c ∈ text.toList, isBrace c = false) ∧
      (Lexicon.string.body? [singleQuote] (spec.toList ++ [singleQuote]) =
        some (text.toList, []) ↔ ∀ c ∈ text.toList, isBrace c = false) := by
  have hread : Lexicon.string.body? [singleQuote] ((specOf text).toList ++ [singleQuote]) =
      some (text.toList.flatMap doubleBrace, []) := by
    rw [toList_specOf]
    exact Lexicon.body?_escape rfl _ [] fun c _ => Lexicon.spells_escapeText rfl c
  refine ⟨specOf text, render_format hid h inner middle mark width, hread, ?_, ?_⟩
  · rw [toList_specOf, braceless_escape_iff rfl]
    simp [List.mem_flatMap, mem_doubleBrace]
  · rw [hread]
    simp [flatMap_doubleBrace_eq_self_iff]

/-- A quote, a line end and a brace, in two strings. -/
def quotedBrace : List (Node .expr) :=
  [marked .str ("'\n", ()) .none, Expr.str "\x7b"]

theorem quotedBrace_doubled :
    isName "x".toList = true ∧ Texts quotedBrace "'\n\x7b" ∧
    ∃ spec : String,
      (replacement (named "x" .none) none (some (fString quotedBrace .none)) .none).render
        ⟨.permissive, 4⟩ = .ok ("f'\x7b" ++ "x" ++ ":" ++ spec ++ "\x7d'") ∧
      Lexicon.string.body? [singleQuote] (spec.toList ++ [singleQuote]) =
        some ("'\n\x7b\x7b".toList, []) := by
  have hid : isName "x".toList = true := rfl
  have htexts : Texts quotedBrace "'\n\x7b" := .str "'\n" .none (.constant "\x7b" .none .nil)
  obtain ⟨spec, hrender, hread, -⟩ := format_spec_doubled hid htexts .none .none .none 4
  exact ⟨hid, htexts, spec, hrender, hread⟩

/-- The brace of a format spec is written twice: whichever quotes are taken off the text, there is a
brace in the spec. -/
theorem open_brace_doubled :
    Texts [Expr.str "\x7b"] "\x7b" ∧
    (replacement (named "x" .none) none (some (fString [Expr.str "\x7b"] .none)) .none).render
      ⟨.permissive, 4⟩ = .ok "f'\x7bx:\x7b\x7b\x7d'" ∧
    ¬ ∃ q ∈ quotes, ∃ spec : String,
      "f'\x7bx:\x7b\x7b\x7d'" = "f" ++ q.text ++ "\x7b" ++ "x" ++ ":" ++ spec ++ "\x7d" ++ q.text ∧
      ∀ c ∈ spec.toList, isBrace c = false := by
  refine ⟨.constant "\x7b" .none .nil, rfl, ?_⟩
  rintro ⟨q, hq, spec, htext, hspec⟩
  rw [← String.toList_inj] at htext
  simp only [quotes, List.mem_cons, List.not_mem_nil, or_false] at hq
  rcases hq with rfl | rfl | rfl | rfl
  · have hrest : spec.toList ++ ['\x7d', singleQuote] = ['\x7b', '\x7b', '\x7d', '\x27'] := by
      simpa [Quote.text, singleQuote] using htext.symm
    cases hcs : spec.toList with
    | nil => simp [hcs] at hrest
    | cons c cs =>
      rw [hcs] at hrest
      have hbrace : c = '\x7b' := (List.cons.inj hrest).1
      exact absurd (hspec c (hcs ▸ List.mem_cons_self)) (hbrace ▸ by decide)
  all_goals simp [Quote.text, singleQuote, doubleQuote] at htext

end Node

end Unparse
