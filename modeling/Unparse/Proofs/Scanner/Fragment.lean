import Unparse.Proofs.Scanner.Scan

/-! Texts that leave the scanner as it was. A closing quote could turn out to be the first of
a tripled one, so a text is scanned together with what follows it. -/
namespace Unparse

namespace Scanner

/-- No quote comes next. -/
def Bare : List Char → Prop
  | [] => True
  | c :: _ => isQuote c = false

/-- Whether there is a first character that is no quote. -/
def startsBare : List Char → Bool
  | [] => false
  | c :: _ => !isQuote c

def Anything (_ : List Char) : Prop :=
  True

theorem Bare.append {cs rest : List Char} (h : Bare cs) (hrest : Bare rest) :
    Bare (cs ++ rest) := by
  cases cs with
  | nil => exact hrest
  | cons c cs => exact h

theorem bare_of_startsBare {cs : List Char} (h : startsBare cs = true) (rest : List Char) :
    Bare (cs ++ rest) := by
  cases cs with
  | nil => exact absurd h Bool.false_ne_true
  | cons c cs =>
    change isQuote c = false
    simpa [startsBare] using h

/-- Every backslash escapes a character. -/
inductive Paired : List Char → Prop where
  | nil : Paired []
  | char {c : Char} {cs : List Char} (here : c ≠ '\\') (more : Paired cs) : Paired (c :: cs)
  | escape {c : Char} {cs : List Char} (more : Paired cs) : Paired ('\\' :: c :: cs)

theorem Paired.append {as bs : List Char} (ha : Paired as) (hb : Paired bs) :
    Paired (as ++ bs) := by
  induction ha with
  | nil => exact hb
  | char here more ih => exact char here ih
  | escape more ih => exact escape ih

theorem Paired.of_forall {cs : List Char} (h : ∀ c ∈ cs, c ≠ '\\') : Paired cs := by
  induction cs with
  | nil => exact nil
  | cons c cs ih =>
    exact char (h c (List.mem_cons_self ..)) (ih fun x hx => h x (List.mem_cons_of_mem _ hx))

/-- Read outside of literals with the brackets `before` open, the text leaves `after` open,
if what follows it is as it should be. -/
structure Reads (next : List Char → Prop) (before : List Char) (s : String)
    (after : List Char) : Prop where
  run : ∀ rest, next rest → (code before).run (s.toList ++ rest) = (code after).run rest
  paired : Paired s.toList

/-- A text that can be read anywhere outside of literals and leaves no trace. -/
def Fragment (s : String) : Prop :=
  ∀ stack, Reads Bare stack s stack

/-- A fragment, for brackets that are open, that may follow another one. -/
structure Trails (stack : List Char) (s : String) : Prop where
  reads : Reads Bare stack s stack
  bare : Bare s.toList

/-- Whether a text has neither quotes nor backslashes. -/
def isUnquoted (s : String) : Bool :=
  s.toList.all fun c => !isQuote c && c != '\\'

/-- Whether a text without quotes and backslashes is not empty either. -/
def isText (s : String) : Bool :=
  startsBare s.toList && isUnquoted s

theorem step_unquoted (stack : List Char) {c : Char} (h : isQuote c = false) (tripled : Bool) :
    (code stack).step c tripled = none ∨
      ∃ after, ∀ t, (code stack).step c t = some (code after) := by
  by_cases hopening : isOpening c = true
  · exact .inr ⟨c :: stack, fun t => by simp [step, code, outsideStep, h, hopening]⟩
  · by_cases hclosing : isClosing c = true
    · cases stack with
      | nil => exact .inl (by simp [step, code, outsideStep, h, hopening, hclosing])
      | cons innermost others =>
        by_cases hpartner : partner innermost = c
        · refine .inr ⟨others, fun t => ?_⟩
          simp [step, code, outsideStep, h, hopening, hclosing, hpartner]
        · exact .inl (by simp [step, code, outsideStep, h, hopening, hclosing, hpartner])
    · by_cases hline : (c == '\n' && stack.isEmpty) = true
      · exact .inl (by simp only [step, code, outsideStep, h, hopening, hclosing, hline]; rfl)
      · refine .inr ⟨stack, fun t => ?_⟩
        simp only [step, code, outsideStep, h, hopening, hclosing, hline]
        rfl

theorem run_inerts {stack cs : List Char} (h : ∀ c ∈ cs, isInert c = true) (rest : List Char) :
    (code stack).run (cs ++ rest) = (code stack).run rest := by
  induction cs with
  | nil => rfl
  | cons c cs ih =>
    rw [List.cons_append, run_inert (h c (List.mem_cons_self ..))]
    exact ih fun x hx => h x (List.mem_cons_of_mem _ hx)

/-- Without quotes a text is scanned in the same way whatever follows. -/
theorem run_unquoted {cs : List Char} (h : ∀ c ∈ cs, isQuote c = false) {before after : List Char}
    (hrun : (code before).run cs = some (code after)) (rest : List Char) :
    (code before).run (cs ++ rest) = (code after).run rest := by
  induction cs generalizing before with
  | nil =>
    have hsame : code before = code after := Option.some.inj hrun
    rw [hsame, List.nil_append]
  | cons c cs ih =>
    have hc := h c (List.mem_cons_self ..)
    rw [run_cons] at hrun
    rcases step_unquoted before hc ([c, c].isPrefixOf cs) with hnone | ⟨middle, hsome⟩
    · rw [hnone] at hrun
      exact absurd hrun (by simp)
    · rw [hsome] at hrun
      rw [List.cons_append, run_cons, hsome]
      exact ih (fun x hx => h x (List.mem_cons_of_mem _ hx)) hrun

namespace Reads

variable {next : List Char → Prop} {before middle after stack : List Char} {s t : String}

/-- A text without quotes, by running the scanner on it. -/
theorem fixed (hs : isUnquoted s = true)
    (hrun : (code before).run s.toList = some (code after)) : Reads Anything before s after where
  run rest _ := by
    refine run_unquoted (fun c hc => ?_) hrun rest
    have hchar := List.all_eq_true.mp hs c hc
    simp only [Bool.and_eq_true, Bool.not_eq_true'] at hchar
    exact hchar.1
  paired := by
    apply Paired.of_forall
    intro c hc
    have hchar := List.all_eq_true.mp hs c hc
    simp only [Bool.and_eq_true, bne_iff_ne] at hchar
    exact hchar.2

theorem inert (h : ∀ c ∈ s.toList, isInert c = true) : Reads Anything stack s stack where
  run rest _ := run_inerts h rest
  paired := by
    apply Paired.of_forall
    intro c hc
    have hchar := h c hc
    simp only [isInert, Bool.and_eq_true, bne_iff_ne] at hchar
    exact hchar.2

theorem toBare (h : Reads Anything before s after) : Reads Bare before s after where
  run rest _ := h.run rest trivial
  paired := h.paired

theorem trans (h : Reads Anything before s middle) (ht : Reads next middle t after) :
    Reads next before (s ++ t) after where
  run rest hrest := by
    rw [String.toList_append, List.append_assoc, h.run _ trivial, ht.run rest hrest]
  paired := by
    rw [String.toList_append]
    exact h.paired.append ht.paired

theorem fragment (h : Reads Anything before s after) (ht : Fragment t) :
    Reads Bare before (s ++ t) after :=
  h.trans (ht after)

theorem append (h : Reads Bare before s middle) (ht : Reads next middle t after)
    (hbare : startsBare t.toList = true) : Reads next before (s ++ t) after where
  run rest hrest := by
    rw [String.toList_append, List.append_assoc, h.run _ (bare_of_startsBare hbare rest),
      ht.run rest hrest]
  paired := by
    rw [String.toList_append]
    exact h.paired.append ht.paired

theorem trail (h : Reads Bare before s after) (ht : Trails after t) :
    Reads Bare before (s ++ t) after where
  run rest hrest := by
    rw [String.toList_append, List.append_assoc, h.run _ (ht.bare.append hrest),
      ht.reads.run rest hrest]
  paired := by
    rw [String.toList_append]
    exact h.paired.append ht.reads.paired

/-- A fragment, then a text without quotes. -/
theorem text (h : Reads Bare before s middle) (ht : isText t = true)
    (hrun : (code middle).run t.toList = some (code after)) :
    Reads Anything before (s ++ t) after := by
  simp only [isText, Bool.and_eq_true] at ht
  exact h.append (fixed ht.2 hrun) ht.1

end Reads

namespace Trails

theorem nil (stack : List Char) : Trails stack "" :=
  ⟨⟨fun _ _ => rfl, Paired.nil⟩, trivial⟩

theorem join {stack : List Char} {ss : List String} (h : ∀ s ∈ ss, Trails stack s) :
    Trails stack (String.join ss) := by
  induction ss with
  | nil => exact nil stack
  | cons s ss ih =>
    have hs := h s (List.mem_cons_self ..)
    have hss := ih fun t ht => h t (List.mem_cons_of_mem _ ht)
    rw [String.join_cons]
    refine ⟨hs.reads.trail hss, ?_⟩
    rw [String.toList_append]
    exact hs.bare.append hss.bare

end Trails

namespace Fragment

theorem empty : Fragment "" :=
  fun stack => (Trails.nil stack).reads

theorem inert {s : String} (h : ∀ c ∈ s.toList, isInert c = true) : Fragment s :=
  fun _ => (Reads.inert h).toBare

theorem intercalate {separator : String} (hbare : startsBare separator.toList = true)
    (hinert : ∀ c ∈ separator.toList, isInert c = true) {ss : List String}
    (h : ∀ s ∈ ss, Fragment s) : Fragment (String.intercalate separator ss) := by
  induction ss with
  | nil =>
    rw [String.intercalate_nil]
    exact empty
  | cons s ss ih =>
    have hs := h s (List.mem_cons_self ..)
    have hss := ih fun t ht => h t (List.mem_cons_of_mem _ ht)
    cases ss with
    | nil =>
      rw [String.intercalate_singleton]
      exact hs
    | cons t ts =>
      intro stack
      rw [String.intercalate_cons_cons]
      exact ((hs stack).append (Reads.inert hinert) hbare).fragment hss

end Fragment

end Scanner

end Unparse
