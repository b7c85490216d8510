import Unparse.Proofs.Form.View
import Unparse.Proofs.Outline.Outline

/-! The lines of a draft follow an outline if the draft ends in a value. Fragments have been
shown to lay out no lines, so that only what is emitted counts. -/
namespace Unparse

namespace Text

theorem splitAt_ne_nil (separator : Char) (cs : List Char) : splitAt separator cs ≠ [] := by
  cases cs with
  | nil => simp [splitAt]
  | cons c cs =>
    unfold splitAt
    split
    · simp
    · split <;> simp

/-- The last piece of a text ends as the text does. -/
theorem exists_splitAt_eq {separator c : Char} (hc : c ≠ separator) (cs : List Char) :
    ∃ pieces piece, splitAt separator (cs ++ [c]) = pieces ++ [piece ++ [c]] := by
  induction cs with
  | nil => exact ⟨[], [], by simp [splitAt, hc]⟩
  | cons b cs ih =>
    obtain ⟨pieces, piece, h⟩ := ih
    by_cases hb : b = separator
    · exact ⟨[] :: pieces, piece, by simp [splitAt, hb, h]⟩
    · cases pieces with
      | nil => exact ⟨[], b :: piece, by simp [splitAt, hb, h]⟩
      | cons first pieces => exact ⟨(b :: first) :: pieces, piece, by simp [splitAt, hb, h]⟩

theorem getLast?_colon (s : String) : (s ++ ":").toList.getLast? = some ':' := by
  rw [String.toList_append]
  exact List.getLast?_concat ..

end Text

namespace Draft

variable {A B : Type} {os ps : List Outline} {x : Draft A} {f : A → Draft B}

/-- All lines of a draft. -/
def layout (x : Draft A) : List Line :=
  x.entries.filterMap Entry.line?

/-- The lines follow the outline. -/
def Draws (os : List Outline) (x : Draft A) : Prop :=
  ∀ a, x.outcome = .ok a → Follows os x.layout

/-- The lines are those of a suite, one level deeper. -/
def Indents (suite : List Outline) (x : Draft A) : Prop :=
  ∀ a, x.outcome = .ok a → ∃ first body, first.depth = 0 ∧
    x.layout = (first :: body).map Line.deeper ∧ Follows suite (first :: body)

theorem layout_bind_of_ok {a : A} (h : x.outcome = .ok a) :
    (x >>= f).layout = x.layout ++ (f a).layout := by
  rw [layout, entries_bind_of_ok h]
  exact List.filterMap_append

theorem layout_block (x : Draft A) : (block x).layout = x.layout.map Line.deeper := by
  rw [layout, entries_block, layout]
  induction x.entries with
  | nil => rfl
  | cons e es ih => cases e <;> simp [List.filterMap_cons, Entry.deeper, Entry.line?, ih]

theorem bind_assoc {C : Type} (x : Draft A) (f : A → Draft B) (g : B → Draft C) :
    x >>= f >>= g = x >>= fun a => f a >>= g := by
  cases h : x.outcome with
  | error flaw => rw [bind_of_error h, bind_of_error h, bind_of_error rfl]
  | ok a =>
    rw [bind_of_ok h, bind_of_ok h]
    cases h' : (f a).outcome with
    | error flaw => rw [bind_of_error h', bind_of_error rfl]
    | ok b => rw [bind_of_ok h', bind_of_ok rfl, List.append_assoc]

theorem JudgedWith.silent {seen : A → List Segment} {w : Verdict}
    (h : x.JudgedWith false seen w) : x.Draws [] := by
  intro a _
  have hlayout : x.layout = [] := by
    simp only [layout, List.filterMap_eq_nil_iff]
    intro e he
    cases e with
    | demand need => rfl
    | line l => exact absurd he (h.quiet rfl l)
  rw [hlayout]
  exact Follows.nil

theorem layout_emit (text : String) :
    (emit text).layout = (Text.lines text).map fun piece => ⟨0, piece⟩ := by
  simp [layout, List.filterMap_map, Function.comp_def, Entry.line?]

/-- The last line of a text that ends in a colon does so as well. -/
theorem exists_layout_emit {text : String} (h : text.toList.getLast? = some ':') :
    ∃ lines last, (emit text).layout = lines ++ [last] ∧
      (∀ l ∈ lines ++ [last], l.depth = 0) ∧ last.opens = true := by
  obtain ⟨cs, hcs⟩ := List.getLast?_eq_some_iff.mp h
  obtain ⟨pieces, piece, hpieces⟩ :=
    Text.exists_splitAt_eq (show ':' ≠ '\n' by decide) cs
  refine ⟨pieces.map fun p => ⟨0, String.ofList p⟩, ⟨0, String.ofList (piece ++ [':'])⟩, ?_, ?_, ?_⟩
  · simp [layout_emit, Text.lines, hcs, hpieces]
  · simp [or_imp, forall_and]
  · simp [Line.opens]

namespace Draws

theorem pure {a : A} : (Pure.pure a : Draft A).Draws [] :=
  fun _ _ => Follows.nil

theorem bind (hx : x.Draws os) (hf : ∀ a, (f a).Draws ps) : (x >>= f).Draws (os ++ ps) := by
  intro b hb
  cases h : x.outcome with
  | error flaw => simp [bind_of_error h] at hb
  | ok a =>
    rw [outcome_bind_of_ok h] at hb
    rw [layout_bind_of_ok h]
    exact (hx a h).append (hf a b hb)

theorem silent_bind (hx : x.Draws []) (hf : ∀ a, (f a).Draws os) : (x >>= f).Draws os :=
  bind hx hf

theorem demand_bind {k : Kind} {f : Unit → Draft B} (hf : (f ()).Draws os) :
    (Draft.demand k >>= f).Draws os :=
  silent_bind (fun _ _ => Follows.nil) fun _ => hf

theorem refuse_bind {c : Bool} {k : Kind} {fault : Fault} {f : Unit → Draft B}
    (hf : c = false → (f ()).Draws os) : (Draft.refuse c k fault >>= f).Draws os := by
  cases c with
  | true =>
    intro b hb
    cases hb
  | false => exact silent_bind pure fun _ => hf rfl

theorem emit (text : String) : (Draft.emit text).Draws [.plain] := by
  intro _ _
  rw [layout_emit]
  apply Follows.lines
  · simp [Text.lines, Text.splitAt_ne_nil]
  · simp

theorem verbatim (text : String) : (Draft.verbatim text).Draws [.plain] := by
  intro _ _
  have hlayout : (Draft.verbatim text).layout = [⟨0, text⟩] := rfl
  rw [hlayout]
  apply Follows.lines <;> simp

/-- A header and its suite. -/
theorem clause {header : String} {suite : List Outline} {f : Unit → Draft B}
    (hheader : header.toList.getLast? = some ':') (hf : (f ()).Indents suite) :
    (Draft.emit header >>= f).Draws [.clause suite] := by
  intro b hb
  obtain ⟨lines, last, hlines, hdepth, hopens⟩ := exists_layout_emit hheader
  obtain ⟨first, body, hfirst, hbody, hfollows⟩ := hf b hb
  have hlayout : (Draft.emit header >>= f).layout =
      lines ++ last :: (first :: body).map Line.deeper ++ [] := by
    have happend : (Draft.emit header >>= f).layout =
        (Draft.emit header).layout ++ (f ()).layout := layout_bind_of_ok rfl
    rw [happend, hlines, hbody]
    simp
  rw [hlayout]
  simp only [List.forall_mem_append, List.forall_mem_singleton] at hdepth
  exact Follows.clause hdepth.1 hdepth.2 hopens hfirst hfollows Follows.nil

theorem clause_bind {header : String} {suite : List Outline} {x : Draft Unit}
    {f : Unit → Draft B} (hheader : header.toList.getLast? = some ':') (hx : x.Indents suite)
    (hf : (f ()).Draws os) :
    (Draft.emit header >>= fun _ => x >>= f).Draws (.clause suite :: os) := by
  rw [← bind_assoc]
  exact bind (clause hheader hx) fun _ => hf

theorem each {α : Type} {outline : α → List Outline} {xs : List (Draft Unit)} {ns : List α}
    (h : List.Forall₂ (fun x n => x.Draws (outline n)) xs ns) :
    (Draft.each xs).Draws (ns.flatMap outline) := by
  induction h with
  | nil => exact pure
  | cons hx _ ih =>
    rw [List.flatMap_cons]
    exact hx.bind fun _ => ih

end Draws

/-- A fragment adds nothing to the lines of what comes after it. -/
theorem JudgedWith.before {seen : A → List Segment} {w : Verdict}
    (h : x.JudgedWith false seen w) (hf : ∀ a, (f a).Draws os) : (x >>= f).Draws os :=
  h.silent.silent_bind hf

theorem Draws.indents {x : Draft A} (h : x.Draws os) (hos : os ≠ []) :
    (Draft.block x).Indents os := by
  intro a ha
  obtain ⟨first, body, hlayout, hfirst⟩ := (h a ha).exists_first hos
  refine ⟨first, body, hfirst, ?_, hlayout ▸ h a ha⟩
  rw [← hlayout]
  exact layout_block x

end Draft

end Unparse
