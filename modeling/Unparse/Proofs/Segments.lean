import Unparse.Proofs.FStrings
import Unparse.Proofs.Reader.Parts

/-! The parts of an f-string survive. Its segments are gathered from all depths into one list and
written one after the other; each of them takes the reader of f-strings a step further, whatever
stands before or after it, so that texts, fields and format specs come out as they went in. -/
namespace Unparse

open Literal Scanner Render Render.FString

namespace Render.FString

theorem flatMap_doubleBrace {cs : List Char} (h : ∀ c ∈ cs, isBrace c = false) :
    cs.flatMap doubleBrace = cs := by
  induction cs with
  | nil => rfl
  | cons c cs ih =>
    obtain ⟨hc, hcs⟩ := List.forall_mem_cons.mp h
    have hsingle : doubleBrace c = [c] :=
      if_neg fun hbrace => Bool.false_ne_true (hc.symm.trans (isBrace_iff.mpr hbrace))
    rw [List.flatMap_cons, hsingle, ih hcs, List.singleton_append]

theorem codes_code (text : String) (more : List Segment) :
    codes (.code text :: more) = text :: codes more :=
  rfl

theorem parts_cons {e : ExprView} {es : List ExprView} {own more : List Segment}
    (he : (part e).outcome = .ok own) (hes : (parts es).outcome = .ok more) :
    (parts (e :: es)).outcome = .ok (own ++ more) := by
  obtain ⟨ss, hall, hdone, -⟩ := Draft.of_bind_ok hes
  cases hdone
  have hpair : (Draft.all (part e :: es.map part)).outcome = .ok (own :: ss) := by
    rw [Draft.all, Draft.outcome_bind_of_ok he, Draft.outcome_bind_of_ok hall]
    rfl
  rw [parts, List.map_cons, Draft.outcome_bind_of_ok hpair]
  rfl

end Render.FString

theorem isQuote_of_isBrace {c : Char} (h : isBrace c = true) : isQuote c = false := by
  rcases isBrace_iff.mp h with rfl | rfl <;> rfl

/-- Escapes have no braces of their own. -/
theorem isBrace_of_mem_escapeChar {mark c : Char} (hmark : isQuote mark = true)
    (hc : isBrace c = false) : ∀ x ∈ escapeChar isHidden mark c, isBrace x = false := by
  have hmarks : marks.all (!isBrace ·) = true := by decide
  have hquote : mark ∈ marks := by
    simp only [isQuote, Bool.or_eq_true, beq_iff_eq] at hmark
    rcases hmark with rfl | rfl <;> decide
  intro x hx
  rcases mem_marks_or_of_mem_escapeChar hquote hx with hx | ⟨rfl, -⟩
  · simpa using List.all_eq_true.mp hmarks x hx
  · exact hc

theorem escapeChar_brace {mark c : Char} (hmark : isQuote mark = true) (hc : isBrace c = true) :
    escapeChar isHidden mark c = [c] := by
  have hne : c ≠ mark := by
    rintro rfl
    exact Bool.false_ne_true ((isQuote_of_isBrace hc).symm.trans hmark)
  unfold escapeChar
  rcases isBrace_iff.mp hc with rfl | rfl <;> simp [hne] <;> decide

namespace PartReader

variable {r : PartReader} {mark : Char}

/-- A mark of the f-string's own does not begin its closing quote. -/
theorem not_prefix_sign {c : Char} (hmark : isQuote mark = true) (hc : isQuote c = false)
    (cs : List Char) : ¬ [mark] <+: c :: cs := by
  rw [List.cons_prefix_cons]
  rintro ⟨rfl, -⟩
  exact Bool.false_ne_true (hc.symm.trans hmark)

theorem step?_char {c : Char} {cs rest : List Char} {x : Char} (hc : isBrace c = false)
    (h : Lexicon.string.char? (c :: cs) = some (x, rest)) :
    r.step? (c :: cs) = some (r.add (.text (String.singleton x)), rest) := by
  have hplain : r.isDoubled c cs = false := by simp [isDoubled, hc]
  simp only [isBrace, Bool.or_eq_false_iff, beq_eq_false_iff_ne] at hc
  rw [step?, hplain, if_neg Bool.false_ne_true, if_neg hc.1, if_neg hc.2, h]
  rfl

/-- A character that is no brace is read as in every other literal. -/
theorem takes_escapeChar (hmark : isQuote mark = true) {c : Char} (hc : isBrace c = false) :
    Takes [mark] r (escapeChar isHidden mark c) (r.add (.text (String.singleton c))) := by
  have hspells := Lexicon.spells_escapeText hmark c
  have hne := Lexicon.ne_nil_of_spells hspells
  apply Takes.step
  · exact fun rest => Lexicon.not_prefix_of_escaped hmark (escaped_escapeChar hmark _ c) hne
  · intro rest
    have hread := hspells rest
    have hbraces := isBrace_of_mem_escapeChar hmark hc
    cases hcs : escapeChar isHidden mark c with
    | nil => exact absurd hcs hne
    | cons d ds =>
      rw [hcs] at hread hbraces
      exact step?_char (hbraces d List.mem_cons_self) hread

theorem takes_doubled (hmark : isQuote mark = true) {c : Char} (hc : isBrace c = true)
    (houter : r.outer = []) : Takes [mark] r [c, c] (r.add (.text (String.singleton c))) := by
  apply Takes.step
  · exact fun rest => not_prefix_sign hmark (isQuote_of_isBrace hc) _
  · intro rest
    have hdoubled : r.isDoubled c ([c] ++ rest) = true := by simp [isDoubled, hc, houter]
    rw [List.cons_append, step?, if_pos hdoubled]
    rfl

/-- Literal text is read as one text. In a format spec it must not have braces. -/
theorem takes_text (hmark : isQuote mark = true) (cs : List Char)
    (h : r.outer ≠ [] → ∀ c ∈ cs, isBrace c = false) :
    Takes [mark] r ((escape isHidden mark cs).flatMap doubleBrace)
      (r.add (.text (String.ofList cs))) := by
  induction cs generalizing r with
  | nil =>
    have hsame : r.add (.text (String.ofList [])) = r := by
      rw [add, String.ofList_nil, Part.add_empty]
    rw [hsame]
    exact Takes.nil
  | cons c cs ih =>
    have hhead : Takes [mark] r ((escapeChar isHidden mark c).flatMap doubleBrace)
        (r.add (.text (String.singleton c))) := by
      cases hc : isBrace c with
      | false =>
        rw [flatMap_doubleBrace (isBrace_of_mem_escapeChar hmark hc)]
        exact takes_escapeChar hmark hc
      | true =>
        have houter : r.outer = [] := by
          by_contra hopen
          exact Bool.false_ne_true ((h hopen c List.mem_cons_self).symm.trans hc)
        have hpair : [c].flatMap doubleBrace = [c, c] := by
          simp [doubleBrace, isBrace_iff.mp hc]
        rw [escapeChar_brace hmark hc, hpair]
        exact takes_doubled hmark hc houter
    have htail := ih (r := r.add (.text (String.singleton c)))
      fun hopen x hx => h hopen x (List.mem_cons_of_mem c hx)
    have hjoined : (r.add (.text (String.singleton c))).add (.text (String.ofList cs)) =
        r.add (.text (String.ofList (c :: cs))) := by
      simp only [add, Part.add_append, String.ofList_cons]
    rw [escape, List.flatMap_cons, List.flatMap_append, ← hjoined]
    exact hhead.append htail

end PartReader

/-- Neither a quote nor a backslash nor a line end. -/
def isPlain (c : Char) : Bool :=
  !isQuote c && c != '\\' && c != '\n'

theorem isPlain_of_isNameChar {c : Char} (h : isNameChar c = true) : isPlain c = true := by
  by_contra hc
  simp only [isPlain, isQuote, Bool.and_eq_true, Bool.not_eq_true', Bool.or_eq_false_iff,
    beq_eq_false_iff_ne, bne_iff_ne, not_and_or, not_not] at hc
  rcases hc with ((rfl | rfl) | rfl) | rfl <;> exact absurd h (by decide)

namespace Shown

variable {shown : Shown} {c : Char}

/-- The name and the conversion as they are written. -/
def chars (shown : Shown) : List Char :=
  shown.name.toList ++ (conversionText shown.conversion).toList

theorem conversion?_chars (conversion : Option Conversion) (hc : c ≠ '!') (rest : List Char) :
    conversion? ((conversionText conversion).toList ++ c :: rest) =
      some (conversion, c :: rest) := by
  cases conversion with
  | none =>
    change conversion? (c :: rest) = some (none, c :: rest)
    unfold conversion?
    split
    next h => exact absurd (List.cons.inj h).1 hc
    next => rfl
  | some x => cases x <;> rfl

theorem forall_isNameChar {cs : List Char} (h : isName cs = true) :
    ∀ x ∈ cs, isNameChar x = true := by
  cases cs with
  | nil => simp
  | cons c cs =>
    simp only [isName, Bool.and_eq_true, List.all_eq_true] at h
    refine List.forall_mem_cons.mpr ⟨?_, h.2⟩
    have hstart := h.1
    simp only [isNameStart, isNameChar, Reader.isWordStart, Reader.isWordChar, Char.isAlphanum,
      Bool.or_eq_true] at hstart ⊢
    tauto

theorem read?_chars (hname : isName shown.name.toList = true) (hc : isNameChar c = false)
    (hmark : c ≠ '!') (rest : List Char) :
    read? (shown.chars ++ c :: rest) = some (shown, c :: rest) := by
  have hchars := forall_isNameChar hname
  -- The name ends at the conversion or, where there is none, at what follows.
  obtain ⟨d, more, htail, hd⟩ : ∃ d more,
      (conversionText shown.conversion).toList ++ c :: rest = d :: more ∧ isNameChar d = false := by
    cases shown.conversion with
    | none => exact ⟨c, rest, rfl, hc⟩
    | some x => exact ⟨'!', x.text.toList ++ c :: rest, by simp [conversionText], by decide⟩
  have hname' : (shown.chars ++ c :: rest).takeWhile isNameChar = shown.name.toList := by
    rw [chars, List.append_assoc, htail, List.takeWhile_append_of_pos hchars]
    simp [hd]
  have hrest : (shown.chars ++ c :: rest).dropWhile isNameChar = d :: more := by
    rw [chars, List.append_assoc, htail, List.dropWhile_append_of_pos hchars]
    simp [hd]
  have hconversion := conversion?_chars shown.conversion hmark rest
  rw [htail] at hconversion
  simp only [read?, hname', hrest, hname, ↓reduceIte, hconversion, Option.map_some,
    String.ofList_toList]

/-- A name does not begin with a brace. -/
theorem exists_head_name (hname : isName shown.name.toList = true) :
    ∃ c cs, shown.name.toList = c :: cs ∧ c ≠ '\x7b' := by
  cases hcs : shown.name.toList with
  | nil => simp [hcs, isName] at hname
  | cons c cs =>
    refine ⟨c, cs, rfl, ?_⟩
    rintro rfl
    exact absurd (forall_isNameChar (hcs ▸ hname) _ List.mem_cons_self) (by decide)

/-- The code that a field begins with. -/
def opening (shown : Shown) : String :=
  openField shown.name ++ conversionText shown.conversion

theorem toList_opening (hname : isName shown.name.toList = true) :
    shown.opening.toList = '\x7b' :: shown.chars := by
  obtain ⟨c, cs, hcs, hc⟩ := exists_head_name hname
  have hstart : Text.startsWith shown.name "\x7b" = false := by
    simp [Text.startsWith, hcs, List.isPrefixOf, hc.symm]
  simp [opening, openField, hstart, chars]

theorem all_isPlain_chars (hname : isName shown.name.toList = true) :
    shown.chars.all isPlain = true := by
  have hconversion : (conversionText shown.conversion).toList.all isPlain = true := by
    cases shown.conversion with
    | none => rfl
    | some x => cases x <;> rfl
  rw [chars, List.all_append, hconversion, Bool.and_true, List.all_eq_true]
  exact fun c hc => isPlain_of_isNameChar (forall_isNameChar hname c hc)

theorem all_isPlain_opening (hname : isName shown.name.toList = true) :
    shown.opening.toList.all isPlain = true := by
  rw [toList_opening hname, List.all_cons, all_isPlain_chars hname]
  rfl

end Shown

namespace PartReader

variable {r r' : PartReader} {mark : Char} {shown : Shown}

theorem step?_field (hname : isName shown.name.toList = true) (rest : List Char) :
    r.step? ('\x7b' :: (shown.chars ++ rest)) = r.field? (shown.chars ++ rest) := by
  have hsingle : r.isDoubled '\x7b' (shown.chars ++ rest) = false := by
    obtain ⟨c, cs, hcs, hc⟩ := Shown.exists_head_name hname
    simp [isDoubled, Shown.chars, hcs, hc]
  rw [step?, hsingle, if_neg Bool.false_ne_true, if_pos rfl]

theorem takes_shown (hmark : isQuote mark = true) (hname : isName shown.name.toList = true)
    {c : Char} (hc : isNameChar c = false) (hconversion : c ≠ '!')
    (h : r.show? shown c = some r') :
    Takes [mark] r ('\x7b' :: (shown.chars ++ [c])) r' := by
  apply Takes.step
  · exact fun rest => not_prefix_sign hmark rfl _
  · intro rest
    rw [List.cons_append, List.append_assoc, step?_field hname, field?, List.singleton_append,
      Shown.read?_chars hname hc hconversion]
    simp only [h, Option.map_some]

theorem takes_leave (hmark : isQuote mark = true) (shown : Shown) (done format : List Part)
    (outer : List (Shown × List Part)) :
    Takes [mark] ⟨format, (shown, done) :: outer⟩ ['\x7d']
      (add ⟨done, outer⟩ (.formatted shown format.reverse)) := by
  apply Takes.step
  · exact fun rest => not_prefix_sign hmark rfl _
  · intro rest
    simp [step?, isDoubled, leave?]

end PartReader

section Plain

variable {segments : List Segment} (h : ∀ text ∈ codes segments, text.toList.all isPlain = true)

include h

theorem notMem_of_plain {c : Char} (hc : isPlain c = false) :
    ∀ text ∈ codes segments, c ∉ text.toList := fun text htext hmem =>
  Bool.false_ne_true (hc.symm.trans (List.all_eq_true.mp (h text htext) c hmem))

/-- Without quotes and line ends in the code, the first quote style will do. -/
theorem quote?_of_plain : quote? segments = some ⟨singleQuote, false⟩ := by
  have hnone {c : Char} (hc : isPlain c = false) :
      codesContain segments (String.singleton c) = false := by
    rw [codesContain, List.any_eq_false]
    intro text htext hcontains
    have hoccurs := (Text.occursIn_iff _).mp hcontains
    rw [String.toList_singleton, List.singleton_infix_iff] at hoccurs
    exact notMem_of_plain h hc text htext hoccurs
  have hline : codesContain segments "\n" = false := hnone (c := '\n') rfl
  have hquote : codesContain segments (Quote.text ⟨singleQuote, false⟩) = false :=
    hnone (c := singleQuote) rfl
  simp [quote?, quotes, hline, hquote]

theorem fits_of_plain : Fits segments := by
  induction segments with
  | nil => exact Fits.nil
  | cons segment segments ih =>
    rw [← List.singleton_append, codes_append, List.forall_mem_append] at h
    rw [← List.singleton_append]
    refine Fits.append ?_ (ih h.2)
    cases segment with
    | literal text => exact Fits.literal text
    | code text => exact Fits.punctuation (h.1 text List.mem_cons_self)

end Plain

/-- No text among the parts has a brace; those in format specs do not matter. -/
def Part.Braceless (parts : List Part) : Prop :=
  ∀ s, .text s ∈ parts → ∀ c ∈ s.toList, isBrace c = false

/-- The segments have no quotes in their code, and they are read as the parts. -/
structure Conveys (segments : List Segment) (parts : List Part) : Prop where
  plain : ∀ text ∈ codes segments, text.toList.all isPlain = true
  takes : ∀ mark, isQuote mark = true → ∀ r : PartReader,
    (r.outer ≠ [] → Part.Braceless parts) →
    r.Takes [mark] (body ⟨mark, false⟩ segments).toList
      { r with done := Part.gather r.done parts }

namespace Conveys

variable {segments own : List Segment} {parts : List Part} {p : Part} {shown : Shown}

theorem nil : Conveys [] [] where
  plain := by simp [codes]
  takes _ _ _ _ := PartReader.Takes.nil

theorem cons (hown : Conveys own [p]) (hmore : Conveys segments parts) :
    Conveys (own ++ segments) (p :: parts) where
  plain := by
    intro text htext
    rw [codes_append] at htext
    exact (List.mem_append.mp htext).elim (hown.plain text) (hmore.plain text)
  takes := by
    intro mark hmark r h
    rw [body_append, String.toList_append]
    have hp (hopen : r.outer ≠ []) : Part.Braceless [p] := fun s hs =>
      h hopen s (List.mem_singleton.mp hs ▸ List.mem_cons_self)
    have hps (hopen : r.outer ≠ []) : Part.Braceless parts := fun s hs =>
      h hopen s (List.mem_cons_of_mem p hs)
    exact (hown.takes mark hmark r hp).append (hmore.takes mark hmark _ hps)

theorem text (s : String) : Conveys [.literal s] [.text s] where
  plain := by simp [codes]
  takes := by
    intro mark hmark r h
    have hread := PartReader.takes_text (r := r) hmark s.toList
      fun hopen => h hopen s List.mem_cons_self
    rw [String.ofList_toList] at hread
    rw [body_singleton, segmentText, String.toList_ofList]
    exact hread

theorem field (hname : isName shown.name.toList = true) :
    Conveys [.code shown.opening, .code "\x7d"] [.field shown] where
  plain := by
    rw [codes_code, List.forall_mem_cons, codes_code, List.forall_mem_cons]
    exact ⟨Shown.all_isPlain_opening hname, rfl, nil.plain⟩
  takes := by
    intro mark hmark r _
    have hbody : (body ⟨mark, false⟩ [.code shown.opening, .code "\x7d"]).toList =
        '\x7b' :: (shown.chars ++ ['\x7d']) := by
      rw [body_code, body_singleton, segmentText, String.toList_append,
        Shown.toList_opening hname]
      simp
    rw [hbody]
    exact PartReader.takes_shown hmark hname (by decide) (by decide) rfl

theorem formatted (hname : isName shown.name.toList = true) (h : Conveys segments parts)
    (hparts : Part.Braceless parts) :
    Conveys (.code shown.opening :: (.code ":" :: segments ++ [.code "\x7d"]))
      [.formatted shown parts] where
  plain := by
    rw [codes_code, List.forall_mem_cons, List.cons_append, codes_code, List.forall_mem_cons,
      codes_append, List.forall_mem_append]
    exact ⟨Shown.all_isPlain_opening hname, rfl, h.plain, by decide⟩
  takes := by
    intro mark hmark r _
    have hbody : (body ⟨mark, false⟩ (.code shown.opening ::
        (.code ":" :: segments ++ [.code "\x7d"]))).toList =
          '\x7b' :: (shown.chars ++ [':']) ++ (body ⟨mark, false⟩ segments).toList ++ ['\x7d'] := by
      rw [body_code, body_append, body_code, body_singleton, segmentText, String.toList_append,
        Shown.toList_opening hname]
      simp
    rw [hbody]
    have henter : r.Takes [mark] ('\x7b' :: (shown.chars ++ [':'])) (r.enter shown) :=
      PartReader.takes_shown hmark hname (by decide) (by decide) rfl
    have hformat := h.takes mark hmark (r.enter shown) fun _ => hparts
    have hleave := PartReader.takes_leave hmark shown r.done (Part.gather [] parts) r.outer
    exact (henter.append hformat).append hleave

theorem quote?_eq (h : Conveys segments parts) : quote? segments = some ⟨singleQuote, false⟩ :=
  quote?_of_plain h.plain

/-- In these quotes the segments are read as the settled parts. -/
theorem read_back (h : Conveys segments parts) :
    PartReader.fString? ("f" ++ Quote.text ⟨singleQuote, false⟩ ++
      body ⟨singleQuote, false⟩ segments ++ Quote.text ⟨singleQuote, false⟩).toList =
        some (Part.settle parts, []) := by
  have hescaped : Escaped singleQuote (body ⟨singleQuote, false⟩ segments).toList :=
    (fits_of_plain h.plain).short singleQuote rfl fun text htext =>
      ⟨notMem_of_plain h.plain rfl text htext, notMem_of_plain h.plain rfl text htext⟩
  have htakes := h.takes singleQuote rfl ⟨[], []⟩ (absurd rfl) [singleQuote]
  have hquoted : ("f" ++ Quote.text ⟨singleQuote, false⟩ ++ body ⟨singleQuote, false⟩ segments ++
      Quote.text ⟨singleQuote, false⟩).toList =
        'f' :: singleQuote :: ((body ⟨singleQuote, false⟩ segments).toList ++ [singleQuote]) := by
    simp
  have hopens := Lexicon.opening?_short rfl hescaped
  have hshort : [singleQuote] ∈ Lexicon.string.quotes := List.mem_cons_self
  rw [hquoted, PartReader.fString?, Lexicon.opened?_of_mem hopens hshort, Option.bind_some, htakes]
  exact PartReader.run?_closing [singleQuote] _ []

end Conveys

namespace Node

def named (id : String) (mark : Mark .expr) : Node .expr :=
  marked .nameExpr (id, ()) mark

theorem view_named (id : String) (mark : Mark .expr) : view (named id mark) = Expression.name id :=
  view_marked .nameExpr (id, ()) mark

/-- The values of an f-string are these texts and fields of names. Format specs are f-strings of
this form again, without braces in their own texts. -/
inductive Holds : List (Node .expr) → List Part → Prop where
  | nil : Holds [] []
  | str (s : String) (mark : Mark .expr) {es : List (Node .expr)} {ps : List Part}
      (more : Holds es ps) : Holds (marked .str (s, ()) mark :: es) (.text s :: ps)
  | constant (s : String) (mark : Mark .expr) {es : List (Node .expr)} {ps : List Part}
      (more : Holds es ps) : Holds (marked .constant (.str s, ()) mark :: es) (.text s :: ps)
  | field (shown : Shown) (hname : isName shown.name.toList = true) (inner mark : Mark .expr)
      {es : List (Node .expr)} {ps : List Part} (more : Holds es ps) :
      Holds (replacement (named shown.name inner) shown.conversion none mark :: es)
        (.field shown :: ps)
  | formatted (shown : Shown) (hname : isName shown.name.toList = true)
      (inner middle mark : Mark .expr) {values es : List (Node .expr)} {format ps : List Part}
      (hformat : Holds values format) (hplain : Part.Braceless format) (more : Holds es ps) :
      Holds (replacement (named shown.name inner) shown.conversion
        (some (fString values middle)) mark :: es) (.formatted shown format :: ps)

theorem part_str (s : String) (mark : Mark .expr) :
    (part (view (marked .str (s, ()) mark))).outcome = .ok [.literal s] :=
  rfl

theorem part_constant (s : String) (mark : Mark .expr) :
    (part (view (marked .constant (.str s, ()) mark))).outcome = .ok [.literal s] :=
  rfl

theorem part_field (shown : Shown) (inner mark : Mark .expr) :
    (part (view (replacement (named shown.name inner) shown.conversion none mark))).outcome =
      .ok [.code shown.opening, .code "\x7d"] := by
  rw [view_replacement, view_named]
  rfl

theorem part_formatted (shown : Shown) (inner middle mark : Mark .expr)
    {values : List (Node .expr)} {segments : List Segment}
    (h : (parts (values.map fun u => view u)).outcome = .ok segments) :
    (part (view (replacement (named shown.name inner) shown.conversion
      (some (fString values middle)) mark))).outcome =
      .ok (.code shown.opening :: (.code ":" :: segments ++ [.code "\x7d"])) := by
  have hspec : (spec (some (view (fString values middle)))).outcome =
      .ok (.code ":" :: segments) := by
    rw [view_fString]
    change (Draft.demand .joinedStr >>= fun _ => parts _ >>= fun ss =>
      pure (.code ":" :: ss)).outcome = _
    rw [Draft.outcome_bind_of_ok rfl, Draft.outcome_bind_of_ok h]
    rfl
  rw [view_replacement, view_named]
  change (Draft.demand .formattedValue >>= fun _ => pure shown.name >>= fun text =>
    spec (some (view (fString values middle))) >>= fun more =>
      pure (.code (openField text ++ conversionText shown.conversion) ::
        (more ++ [.code "\x7d"]))).outcome = _
  rw [Draft.outcome_bind_of_ok rfl, Draft.outcome_bind_of_ok rfl, Draft.outcome_bind_of_ok hspec]
  rfl

/-- The segments of all values are gathered, and they convey the parts. -/
theorem Holds.conveys {values : List (Node .expr)} {ps : List Part} (h : Holds values ps) :
    ∃ segments, (parts (values.map fun u => view u)).outcome = .ok segments ∧
      Conveys segments ps := by
  induction h with
  | nil => exact ⟨[], rfl, Conveys.nil⟩
  | str s mark more ih =>
    obtain ⟨segments, hsegments, hmore⟩ := ih
    exact ⟨_, parts_cons (part_str s mark) hsegments, (Conveys.text s).cons hmore⟩
  | constant s mark more ih =>
    obtain ⟨segments, hsegments, hmore⟩ := ih
    exact ⟨_, parts_cons (part_constant s mark) hsegments, (Conveys.text s).cons hmore⟩
  | field shown hname inner mark more ih =>
    obtain ⟨segments, hsegments, hmore⟩ := ih
    exact ⟨_, parts_cons (part_field shown inner mark) hsegments,
      (Conveys.field hname).cons hmore⟩
  | formatted shown hname inner middle mark hformat hplain more ihformat ih =>
    obtain ⟨format, hformat, hconveys⟩ := ihformat
    obtain ⟨segments, hsegments, hmore⟩ := ih
    exact ⟨_, parts_cons (part_formatted shown inner middle mark hformat) hsegments,
      (Conveys.formatted hname hconveys hplain).cons hmore⟩

/-- In the permissive dialect an f-string of texts and fields of names has a text, and it is read as
the same texts and fields: adjacent texts are joined, empty ones are left out, and a field without
a format spec differs from one with an empty spec. -/
theorem fString_read_back {values : List (Node .expr)} {ps : List Part} (h : Holds values ps)
    (mark : Mark .expr) (width : Nat) :
    ∃ text, (fString values mark).render ⟨.permissive, width⟩ = .ok text ∧
      PartReader.fString? text.toList = some (Part.settle ps, []) := by
  obtain ⟨segments, hsegments, hconveys⟩ := h.conveys
  refine ⟨_, render_expr_eq_ok_iff.mpr ⟨?_, fun need _ => Draft.met_permissive need⟩,
    hconveys.read_back⟩
  rw [draft, view_fString]
  change (Draft.demand .joinedStr >>= fun _ => parts _ >>= joined .joinedStr).outcome = _
  rw [Draft.outcome_bind_of_ok rfl, Draft.outcome_bind_of_ok hsegments,
    joined_outcome hconveys.quote?_eq]

/-- Braces on both sides of a field, in whose format spec another field has an empty spec; two texts
that meet, and an empty one before a field without a spec. -/
def bracedFields : List (Node .expr) :=
  [marked .str ("it's \x7b", ()) .none,
    replacement (named "x" .none) (some .repr) (some (fString [Expr.str ">\n", replacement
      (named "w" .none) none (some (fString [] .none)) .none] .none)) .none,
    Expr.str "\x7d", marked .str ("\\", ()) .none, Expr.str "",
    replacement (named "é1" .none) (some .str) none .none]

def bracedParts : List Part :=
  [.text "it's \x7b", .formatted ⟨"x", some .repr⟩ [.text ">\n", .formatted ⟨"w", none⟩ []],
    .text "\x7d", .text "\\", .text "", .field ⟨"é1", some .str⟩]

theorem bracedFields_read_back :
    Holds bracedFields bracedParts ∧
    (fString bracedFields .none).render ⟨.permissive, 4⟩ =
      .ok "f'it\\'s \x7b\x7b\x7bx!r:>\\n\x7bw:\x7d\x7d\x7d\x7d\\\\\x7bé1!s\x7d'" ∧
    PartReader.fString?
      "f'it\\'s \x7b\x7b\x7bx!r:>\\n\x7bw:\x7d\x7d\x7d\x7d\\\\\x7bé1!s\x7d'".toList =
      some ([.text "it's \x7b",
        .formatted ⟨"x", some .repr⟩ [.text ">\n", .formatted ⟨"w", none⟩ []],
        .text "\x7d\\", .field ⟨"é1", some .str⟩], []) := by
  have hnone : Part.Braceless [] := by simp [Part.Braceless]
  have hformat : Part.Braceless [.text ">\n", .formatted ⟨"w", none⟩ []] := by
    intro s hs
    simp only [List.mem_cons, Part.text.injEq, reduceCtorEq, List.not_mem_nil, or_false] at hs
    simp [hs, isBrace]
  have hholds : Holds bracedFields bracedParts :=
    .str _ _ <| .formatted ⟨"x", some .repr⟩ rfl _ _ _
      (.constant _ _ <| .formatted ⟨"w", none⟩ rfl _ _ _ .nil hnone .nil) hformat <|
      .constant _ _ <| .str _ _ <| .constant _ _ <| .field ⟨"é1", some .str⟩ rfl _ _ .nil
  have hrender : (fString bracedFields .none).render ⟨.permissive, 4⟩ = .ok
      "f'it\\'s \x7b\x7b\x7bx!r:>\\n\x7bw:\x7d\x7d\x7d\x7d\\\\\x7bé1!s\x7d'" := rfl
  obtain ⟨text, htext, hread⟩ := fString_read_back hholds .none 4
  rw [hrender] at htext
  rw [← Except.ok.inj htext] at hread
  exact ⟨hholds, hrender, hread⟩

end Node

end Unparse
