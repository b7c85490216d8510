import Unparse.Proofs.Scanner.View

/-! F-strings under the scanner. To the scanner an f-string is a literal like any other: the
quote is chosen so that no replacement field ends it. -/
namespace Unparse

open Scanner Render Draft

namespace Scanner

theorem not_mem_of_occursIn {x : Char} {cs : List Char} (h : Text.occursIn [x] cs = false) :
    x ∉ cs := by
  induction cs with
  | nil => simp
  | cons c cs ih =>
    simp only [Text.occursIn, List.isPrefixOf, Bool.and_true, Bool.or_eq_false_iff,
      beq_eq_false_iff_ne] at h
    intro hx
    rcases List.mem_cons.mp hx with hc | hx
    · exact h.1 hc
    · exact ih h.2 hx

/-- Code passes for a part of a long literal if it does not hold the three marks; what follows
must not complete them. -/
theorem run_long_code {mark : Char} (hmark : isQuote mark = true) {cs : List Char}
    (hcs : Paired cs) (h : Text.occursIn [mark, mark, mark] cs = false) {rest : List Char}
    (hrest : Bare rest) (stack : List Char) :
    run ⟨.long mark, stack, 0⟩ (cs ++ rest) = run ⟨.long mark, stack, 0⟩ rest := by
  have hfirst {more : List Char} (hmore : Bare more) (x : List Char) :
      (mark :: x).isPrefixOf more = false := by
    cases more with
    | nil => rfl
    | cons c more =>
      have hc : mark ≠ c := by
        rintro rfl
        rw [show isQuote mark = false from hmore] at hmark
        exact Bool.false_ne_true hmark
      simp [List.isPrefixOf, hc]
  induction hcs with
  | nil => rfl
  | @char c cs here more ih =>
    rw [Text.occursIn, Bool.or_eq_false_iff] at h
    rw [List.cons_append, run_long_char here, ih h.2]
    rintro rfl
    match cs, h.1 with
    | [], _ => exact hfirst hrest [c]
    | [x], _ => simp [List.isPrefixOf, hfirst hrest []]
    | x :: y :: cs, hnone => simpa [List.isPrefixOf] using hnone
  | @escape c cs more ih =>
    rw [Text.occursIn, Text.occursIn, Bool.or_eq_false_iff, Bool.or_eq_false_iff] at h
    rw [List.cons_append, List.cons_append, run_long_escape, ih h.2.2]

end Scanner

namespace Render.FString

theorem codes_append (as bs : List Segment) : codes (as ++ bs) = codes as ++ codes bs :=
  List.filterMap_append

theorem body_append (q : Quote) (as bs : List Segment) :
    body q (as ++ bs) = body q as ++ body q bs := by
  unfold body
  induction as with
  | nil => simp
  | cons a as ih =>
    simp only [List.cons_append, List.map_cons, String.join_cons, ih, String.append_assoc]

theorem body_singleton (q : Quote) (a : Segment) : body q [a] = segmentText q a := by
  simp [body]

theorem body_code (q : Quote) (text : String) (more : List Segment) :
    body q (.code text :: more) = text ++ body q more := by
  simp [body, segmentText]

theorem escaped_doubleBrace {mark : Char} (hmark : isQuote mark = true) {cs : List Char}
    (h : Escaped mark cs) : Escaped mark (cs.flatMap doubleBrace) := by
  have hbrace {c : Char} (hc : c = '\x7b' ∨ c = '\x7d') {more : List Char}
      (hmore : Escaped mark more) : Escaped mark (c :: more) := by
    have hinert : c ≠ '\\' ∧ c ≠ '\n' ∧ isQuote c = false := by
      rcases hc with rfl | rfl <;> decide
    refine Escaped.char hinert.1 hinert.2.1 ?_ hmore
    rintro rfl
    rw [hinert.2.2] at hmark
    exact Bool.false_ne_true hmark
  induction h with
  | nil => exact Escaped.nil
  | @char c cs hescape hline hne more ih =>
    rw [List.flatMap_cons]
    have hmore : Escaped mark (c :: cs.flatMap doubleBrace) := Escaped.char hescape hline hne ih
    unfold doubleBrace
    split
    next hc => exact hbrace hc hmore
    next => exact hmore
  | @escape c cs more ih =>
    rw [List.flatMap_cons, List.flatMap_cons, show doubleBrace '\\' = ['\\'] from rfl]
    unfold doubleBrace
    split
    next hc => exact Escaped.escape (hbrace hc ih)
    next => exact Escaped.escape ih

end Render.FString

namespace Scanner.Fits

open Render.FString

theorem nil : Fits [] where
  short _ _ _ := Escaped.nil
  long _ _ _ _ _ := rfl
  paired _ _ := Paired.nil

theorem append {as bs : List Segment} (ha : Fits as) (hb : Fits bs) : Fits (as ++ bs) where
  short mark hmark h := by
    rw [codes_append] at h
    rw [body_append, String.toList_append]
    exact (ha.short mark hmark fun c hc => h c (List.mem_append_left _ hc)).append
      (hb.short mark hmark fun c hc => h c (List.mem_append_right _ hc))
  long mark hmark h stack rest := by
    rw [codes_append] at h
    rw [body_append, String.toList_append, List.append_assoc,
      ha.long mark hmark fun c hc => h c (List.mem_append_left _ hc),
      hb.long mark hmark fun c hc => h c (List.mem_append_right _ hc)]
  paired q hq := by
    rw [body_append, String.toList_append]
    exact (ha.paired q hq).append (hb.paired q hq)

/-- Escaped, literal text is the same in every literal with the mark. -/
theorem literal (text : String) : Fits [.literal text] := by
  have hescaped {q : Quote} (hq : isQuote q.mark = true) :
      Escaped q.mark (body q [.literal text]).toList := by
    rw [body_singleton, segmentText, String.toList_ofList]
    exact escaped_doubleBrace hq (escaped_escape hq _ _)
  constructor
  · intro mark hmark _
    exact hescaped (q := ⟨mark, false⟩) hmark
  · intro mark hmark _ stack rest
    exact (hescaped (q := ⟨mark, true⟩) hmark).run_long stack rest
  · intro q hq
    exact (hescaped hq).paired

/-- Marks of an f-string's own. -/
theorem punctuation {text : String}
    (h : text.toList.all (fun c => !isQuote c && c != '\\' && c != '\n') = true) :
    Fits [.code text] := by
  have hescaped {mark : Char} (hmark : isQuote mark = true) : Escaped mark text.toList := by
    apply Escaped.of_paired
    · apply Paired.of_forall
      intro c hc
      have hchar := List.all_eq_true.mp h c hc
      simp only [Bool.and_eq_true, bne_iff_ne] at hchar
      exact hchar.1.2
    · intro hc
      simpa [hmark] using List.all_eq_true.mp h mark hc
    · intro hc
      simpa using List.all_eq_true.mp h '\n' hc
  constructor
  · intro mark hmark _
    rw [body_singleton]
    exact hescaped hmark
  · intro mark hmark _ stack rest
    rw [body_singleton]
    exact (hescaped hmark).run_long stack rest
  · intro q hq
    rw [body_singleton]
    exact (hescaped hq).paired

/-- Code before segments that begin with something else than a quote. -/
theorem code {text : String} (htext : Paired text.toList) {more : List Segment}
    (hbare : ∀ q, startsBare (body q more).toList = true) (hmore : Fits more) :
    Fits (.code text :: more) := by
  constructor
  · intro mark hmark h
    obtain ⟨htext', hmore'⟩ := List.forall_mem_cons.mp h
    rw [body_code, String.toList_append]
    exact (Escaped.of_paired htext htext'.1 htext'.2).append (hmore.short mark hmark hmore')
  · intro mark hmark h stack rest
    obtain ⟨htext', hmore'⟩ := List.forall_mem_cons.mp h
    rw [body_code, String.toList_append, List.append_assoc,
      run_long_code hmark htext htext' (bare_of_startsBare (hbare _) rest),
      hmore.long mark hmark hmore']
  · intro q hq
    rw [body_code, String.toList_append]
    exact htext.append (hmore.paired q hq)

theorem flatten {ss : List (List Segment)} (h : ∀ segments ∈ ss, Fits segments) :
    Fits ss.flatten := by
  induction ss with
  | nil => exact nil
  | cons segments ss ih =>
    rw [List.flatten_cons]
    exact (h segments (List.mem_cons_self ..)).append
      (ih fun x hx => h x (List.mem_cons_of_mem _ hx))

end Scanner.Fits

namespace Render.FString

/-- The chosen quote stands in no replacement field, and a short one was chosen only for
fields of a single line. -/
theorem of_quote? {segments : List Segment} {q : Quote} (h : quote? segments = some q) :
    isQuote q.mark = true ∧
      (∀ c ∈ codes segments, Text.occursIn q.text.toList c.toList = false) ∧
      (q.triple = false → ∀ c ∈ codes segments, '\n' ∉ c.toList) := by
  have hmarks : ∀ q ∈ quotes, isQuote q.mark = true := by decide
  have hmem := quote?_mem h
  unfold quote? at h
  have hchosen := List.find?_some h
  simp only [Bool.and_eq_true, Bool.or_eq_true, Bool.not_eq_true', codesContain,
    List.any_eq_false, Text.contains] at hchosen
  refine ⟨hmarks q hmem, ?_, ?_⟩
  · intro c hc
    simpa using hchosen.2 c hc
  · intro htriple c hc
    rw [htriple] at hchosen
    have hline := hchosen.1.resolve_right Bool.false_ne_true
    exact not_mem_of_occursIn (by simpa using hline c hc)

@[simp] theorem toList_text (mark : Char) (triple : Bool) : (Quote.text ⟨mark, triple⟩).toList =
    List.replicate (if triple then 3 else 1) mark := by
  simp [Quote.text]

theorem fragment_short {segments : List Segment} (hfits : Fits segments) {mark : Char}
    (hmark : isQuote mark = true)
    (hcodes : ∀ c ∈ codes segments, mark ∉ c.toList ∧ '\n' ∉ c.toList) :
    Fragment (Quote.text ⟨mark, false⟩ ++ body ⟨mark, false⟩ segments ++
      Quote.text ⟨mark, false⟩) := by
  have hquoted : Quote.text ⟨mark, false⟩ ++ body ⟨mark, false⟩ segments ++
      Quote.text ⟨mark, false⟩ =
        String.ofList (mark :: ((body ⟨mark, false⟩ segments).toList ++ [mark])) := by
    apply String.toList_injective
    simp
  rw [hquoted]
  exact Fragment.literal hmark (hfits.short mark hmark hcodes)

theorem fragment_long {segments : List Segment} (hfits : Fits segments) {mark : Char}
    (hmark : isQuote mark = true)
    (hcodes : ∀ c ∈ codes segments, Text.occursIn [mark, mark, mark] c.toList = false) :
    Fragment (Quote.text ⟨mark, true⟩ ++ body ⟨mark, true⟩ segments ++
      Quote.text ⟨mark, true⟩) := by
  have hne := ne_escape_of_isQuote hmark
  have hmarks : Paired [mark, mark, mark] :=
    Paired.char hne (Paired.char hne (Paired.char hne Paired.nil))
  intro stack
  constructor
  · intro rest _
    simp only [toList_text, ↓reduceIte, String.toList_append, List.replicate, List.append_assoc,
      List.cons_append, List.nil_append]
    rw [run_long_open hmark, hfits.long mark hmark hcodes, run_long_close hmark]
  · simp only [toList_text, ↓reduceIte, String.toList_append]
    exact (hmarks.append (hfits.paired _ hmark)).append hmarks

theorem fragment_body {segments : List Segment} (hfits : Fits segments) {q : Quote}
    (h : quote? segments = some q) :
    Fragment ("f" ++ q.text ++ body q segments ++ q.text) := by
  obtain ⟨hmark, hcodes, hlines⟩ := of_quote? h
  have hliteral : Fragment (q.text ++ body q segments ++ q.text) := by
    obtain ⟨mark, triple⟩ := q
    simp only [toList_text] at hcodes
    cases triple with
    | false =>
      exact fragment_short hfits hmark fun c hc =>
        ⟨not_mem_of_occursIn (hcodes c hc), hlines rfl c hc⟩
    | true => exact fragment_long hfits hmark hcodes
  have hassoc : "f" ++ q.text ++ body q segments ++ q.text =
      "f" ++ (q.text ++ body q segments ++ q.text) := by
    simp only [String.append_assoc]
  rw [hassoc]
  intro stack
  exact (Reads.fixed (by decide) rfl).fragment hliteral

theorem quoted_gives {k : Kind} {segments : List Segment} (h : Fits segments) :
    Gives Fragment (match quote? segments with
      | none => Draft.fail k .everyQuote
      | some q => pure ("f" ++ q.text ++ body q segments ++ q.text)) := by
  cases hq : quote? segments with
  | none => exact Gives.fail
  | some q => exact Gives.pure (fragment_body h hq)

theorem joined_gives {k : Kind} {segments : List Segment} (h : Fits segments) :
    (joined k segments).Gives Fragment := by
  unfold joined
  dsimp only
  by_cases hbackslash : codesContain segments "\\" = true
  · rw [if_pos hbackslash]
    exact Gives.demandBackslash_bind (quoted_gives h)
  · rw [if_neg hbackslash]
    exact quoted_gives h

theorem part_gives {e : ExprView} (h : e.Scans) : (part e).Gives Fits := by
  obtain ⟨k, form, text⟩ := e
  have hform := h.form
  cases form with
  | string s => exact Gives.demand_bind (Gives.pure (Fits.literal s))
  | field segments => exact hform
  | plain | integer | tuple _ | joined _ => exact Gives.fail

theorem parts_gives {es : List ExprView} (h : ∀ e ∈ es, e.Scans) : (parts es).Gives Fits := by
  have hall : ∀ x ∈ es.map part, x.Gives Fits := by
    intro x hx
    obtain ⟨e, he, rfl⟩ := List.mem_map.mp hx
    exact part_gives (h e he)
  exact (Gives.all hall).bind_pure fun _ hss => Fits.flatten hss

theorem spec_gives {format : Option ExprView} (h : ∀ e ∈ format, e.Scans) :
    (spec format).Gives fun more => Fits (more ++ [.code "\x7d"]) ∧
      ∀ q, startsBare (body q (more ++ [.code "\x7d"])).toList = true := by
  have hend : Fits [.code "\x7d"] := Fits.punctuation (by decide)
  cases format with
  | none =>
    have hbare : startsBare "\x7d".toList = true := by decide
    exact Gives.pure ⟨hend, fun q => by rwa [List.nil_append, body_singleton]⟩
  | some e =>
    obtain ⟨k, form, text⟩ := e
    have hform := (h _ rfl).form
    cases form with
    | joined segments =>
      refine Gives.demand_bind (Gives.bind_pure hform fun ss hss => ⟨?_, ?_⟩)
      · have hcolon : Fits [.code ":"] := Fits.punctuation (by decide)
        exact (hcolon.append hss).append hend
      · intro q
        simp [body, segmentText, startsBare, isQuote, Literal.singleQuote, Literal.doubleQuote]
    | plain | integer | string _ | tuple _ | field _ => exact Gives.fail

theorem paired_openField {text : String} (h : Fragment text) (conversion : Option Conversion) :
    Paired (openField text ++ conversionText conversion).toList := by
  have htext := (h []).paired
  have hconversion : Paired (conversionText conversion).toList := by
    apply Paired.of_forall
    cases conversion with
    | none => simp [conversionText]
    | some c => cases c <;> simp [conversionText, Conversion.text]
  rw [String.toList_append]
  refine Paired.append ?_ hconversion
  unfold openField
  split
  · rw [String.toList_append]
    exact Paired.char (by decide) (Paired.char (by decide) htext)
  · rw [String.toList_append]
    exact Paired.char (by decide) htext

theorem field_gives {value : ExprView} {conversion : Option Conversion}
    {format : Option ExprView} (hvalue : value.Scans) (hformat : ∀ e ∈ format, e.Scans) :
    (field value conversion format).Gives Fits := by
  refine Gives.demand_bind (hvalue.text.bind fun text htext => ?_)
  refine (spec_gives hformat).bind_pure fun more hmore => ?_
  exact Fits.code (paired_openField htext conversion) hmore.2 hmore.1

end Render.FString

end Unparse
