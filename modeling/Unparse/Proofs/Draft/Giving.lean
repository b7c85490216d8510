import Mathlib.Data.List.Forall2
import Unparse.Proofs.Draft.Settling

/-! Drafts of fragments. A fragment of a line is drafted without laying out any line, so that
all there is to say about it is which values its draft can end with. -/
namespace Unparse

namespace Draft

variable {A B : Type} {P : A → Prop} {Q : B → Prop}

/-- The draft lays out no line, and the value it ends with, if any, has the property. -/
structure Gives (P : A → Prop) (x : Draft A) : Prop where
  quiet : ∀ l, Entry.line l ∉ x.entries
  value : ∀ a, x.outcome = .ok a → P a

namespace Gives

theorem pure {a : A} (h : P a) : (Pure.pure a : Draft A).Gives P where
  quiet _ := List.not_mem_nil
  value b hb := by
    cases hb
    exact h

theorem imp {R : A → Prop} {x : Draft A} (hx : x.Gives P) (h : ∀ a, P a → R a) : x.Gives R :=
  ⟨hx.quiet, fun a ha => h a (hx.value a ha)⟩

theorem bind {x : Draft A} {f : A → Draft B} (hx : x.Gives P) (hf : ∀ a, P a → (f a).Gives Q) :
    (x >>= f).Gives Q := by
  cases h : x.outcome with
  | error flaw =>
    rw [bind_of_error h]
    exact ⟨hx.quiet, fun b hb => by simp at hb⟩
  | ok a =>
    have ha := hf a (hx.value a h)
    constructor
    · intro l hl
      rcases (mem_entries_bind_of_ok h).mp hl with hl | hl
      · exact hx.quiet l hl
      · exact ha.quiet l hl
    · rw [outcome_bind_of_ok h]
      exact ha.value

theorem bind_pure {x : Draft A} {f : A → B} (hx : x.Gives P) (hf : ∀ a, P a → Q (f a)) :
    (x >>= fun a => Pure.pure (f a)).Gives Q :=
  hx.bind fun a ha => pure (hf a ha)

theorem fail {k : Kind} {fault : Fault} : (Draft.fail k fault : Draft A).Gives P where
  quiet _ := List.not_mem_nil
  value a ha := by simp [Draft.fail] at ha

theorem demand_bind {k : Kind} {f : Unit → Draft B} (hf : (f ()).Gives Q) :
    (Draft.demand k >>= f).Gives Q := by
  have hk : (Draft.demand k).Gives fun _ => True :=
    ⟨fun l hl => by simp at hl, fun _ _ => trivial⟩
  exact hk.bind fun _ _ => hf

theorem demandBackslash_bind {k : Kind} {f : Unit → Draft B} (hf : (f ()).Gives Q) :
    (Draft.demandBackslash k >>= f).Gives Q := by
  have hk : (Draft.demandBackslash k).Gives fun _ => True :=
    ⟨fun l hl => by simp at hl, fun _ _ => trivial⟩
  exact hk.bind fun _ _ => hf

/-- What follows a check may rely on it. -/
theorem refuse_bind {c : Bool} {k : Kind} {fault : Fault} {f : Unit → Draft B}
    (hf : c = false → (f ()).Gives Q) : (Draft.refuse c k fault >>= f).Gives Q := by
  cases c with
  | true =>
    have h : Draft.refuse true k fault >>= f = Draft.fail k fault := rfl
    rw [h]
    exact fail
  | false =>
    have h : (Pure.pure () : Draft Unit).Gives fun _ => True := pure trivial
    exact h.bind fun _ _ => hf rfl

theorem all {xs : List (Draft A)} (h : ∀ x ∈ xs, x.Gives P) :
    (Draft.all xs).Gives fun as => ∀ a ∈ as, P a := by
  induction xs with
  | nil => exact pure (by simp)
  | cons x more ih =>
    have hmore := ih fun y hy => h y (List.mem_cons_of_mem _ hy)
    refine (h x (List.mem_cons_self ..)).bind fun a ha => hmore.bind fun as has => pure ?_
    intro b hb
    rcases List.mem_cons.mp hb with rfl | hb
    · exact ha
    · exact has b hb

/-- Drafts that each give something for its own item of a list. -/
theorem allFor {R : A → B → Prop} {as : List A} {xs : List (Draft B)}
    (h : List.Forall₂ (fun a x => x.Gives (R a)) as xs) :
    (Draft.all xs).Gives (List.Forall₂ R as) := by
  induction h with
  | nil => exact pure List.Forall₂.nil
  | cons hx _ ih => exact hx.bind fun b hb => ih.bind_pure fun bs hbs => List.Forall₂.cons hb hbs

end Gives

theorem lines_of_quiet {x : Draft A} (hquiet : ∀ l, Entry.line l ∉ x.entries) {d : Dialect} {a : A}
    (h : x.result d = .ok a) : x.lines d = [] := by
  rw [lines_of_result_ok h, List.filterMap_eq_nil_iff]
  intro e he
  cases e with
  | demand need => rfl
  | line l => exact absurd he (hquiet l)

end Draft

namespace Node

/-- The text of a node whose draft lays out no line is the value of the draft. -/
theorem holds_of_render_ok {f : Family} {t : Node f} {options : Options} {text : String}
    {P : String → Prop} (ht : t.draft.Gives P) (h : t.render options = .ok text) : P text := by
  obtain ⟨fragment, hresult, rfl⟩ := of_render_eq_ok h
  have hpage : ((Page.blank options.width).print []).text = "" := rfl
  rw [Draft.lines_of_quiet ht.quiet hresult, hpage, String.empty_append]
  exact ht.value fragment (Draft.result_eq_ok_iff.mp hresult).1

end Node

end Unparse
