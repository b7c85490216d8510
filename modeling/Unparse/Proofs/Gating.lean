import Unparse.Proofs.Dialects
import Unparse.Proofs.Draft.Giving
import Unparse.Proofs.Form.Rule
import Unparse.Tree.Build

/-! Dialects only gate. What one of them accepts has the same text in all others that accept
it, and once all kinds are supported only a backslash can stand in the way. -/
namespace Unparse

namespace Draft

variable {A : Type} {x : Draft A} {d : Dialect}

/-- Every dialect that meets the demands of a draft uses all of its lines. -/
theorem lines_eq_of_result_ok {e : Dialect} {a b : A} (h : x.result d = .ok a)
    (h' : x.result e = .ok b) : x.lines d = x.lines e := by
  rw [lines_of_result_ok h, lines_of_result_ok h']

theorem met_permissive (need : Demand) : need.met .permissive = true := by
  cases need <;> rfl

/-- A draft that ends in a value is only refused for a demand. -/
theorem exists_unmet_of_result_ne {a : A} (h : x.outcome = .ok a) (hd : x.result d ≠ .ok a) :
    ∃ need, Entry.demand need ∈ x.entries ∧ need.met d = false ∧
      x.result d = .error (need.refusal d) := by
  unfold result at hd ⊢
  cases hs : (settle d x.entries).2 with
  | none => simp [hs, h, mapError_ok] at hd
  | some need =>
    obtain ⟨hmem, hunmet⟩ := of_settle_eq_some hs
    exact ⟨need, hmem, hunmet, rfl⟩

end Draft

namespace Node

variable {f : Family} {t : Node f}

theorem render_eq_ok_iff {options : Options} {text : String} :
    t.render options = .ok text ↔ ∃ fragment, t.draft.result options.dialect = .ok fragment ∧
      text = ((Page.blank options.width).print (t.draft.lines options.dialect)).text
        ++ fragment := by
  constructor
  · exact of_render_eq_ok
  · rintro ⟨fragment, hresult, rfl⟩
    rw [render_eq, hresult]
    rfl

/-- A node that lays out no lines has the value of its draft as text. -/
theorem render_eq_ok_iff_of_quiet (hquiet : ∀ l, Entry.line l ∉ t.draft.entries)
    {options : Options} {text : String} :
    t.render options = .ok text ↔ t.draft.result options.dialect = .ok text := by
  have hempty {fragment : String} (h : t.draft.result options.dialect = .ok fragment) :
      ((Page.blank options.width).print (t.draft.lines options.dialect)).text = "" := by
    rw [Draft.lines_of_quiet hquiet h]
    rfl
  rw [render_eq_ok_iff]
  constructor
  · rintro ⟨fragment, hresult, rfl⟩
    rwa [hempty hresult, String.empty_append]
  · intro hresult
    exact ⟨text, hresult, by rw [hempty hresult, String.empty_append]⟩

/-- The text does not depend on the dialect. -/
theorem render_eq_of_result_ok {d e : Dialect} {width : Nat} {text fragment : String}
    (h : t.render ⟨d, width⟩ = .ok text) (h' : t.draft.result e = .ok fragment) :
    t.render ⟨e, width⟩ = .ok text := by
  obtain ⟨other, hresult, rfl⟩ := of_render_eq_ok h
  have hfragment : fragment = other := by
    have houtcome := (Draft.result_eq_ok_iff.mp hresult).1
    rw [(Draft.result_eq_ok_iff.mp h').1] at houtcome
    exact Except.ok.inj houtcome
  refine render_eq_ok_iff.mpr ⟨fragment, h', ?_⟩
  rw [Draft.lines_eq_of_result_ok hresult h', hfragment]

theorem unmet_of_supported {d : Dialect}
    (hd : ∀ n, AnyNode.Reaches ⟨f, t⟩ n → d.supports n.kind = true) {need : Demand}
    (hmem : Entry.demand need ∈ t.draft.entries) (hunmet : need.met d = false) :
    ∃ k, need = .backslash k ∧ d.allowsBackslash = false ∧ k.isFString = true := by
  cases need with
  | kind k =>
    obtain ⟨n, hn, rfl⟩ := exists_reached_of_demand hmem
    have hsupported : (Demand.kind n.kind).met d = true := hd n hn
    rw [hsupported] at hunmet
    cases hunmet
  | backslash k => exact ⟨k, rfl, hunmet, t.draft_judged.charged k hmem⟩

/-- The dialect has no part in the text: what is rendered in some dialect is rendered to the
same text in the permissive one. In return, what the permissive dialect renders is rendered to
the same text by every dialect with all the kinds in the tree, unless it does not allow the
backslashes in some f-string. -/
theorem render_gated {f : Family} (t : Node f) (d : Dialect) (width : Nat) (text : String) :
    (t.render ⟨d, width⟩ = .ok text → t.render ⟨.permissive, width⟩ = .ok text) ∧
    (t.render ⟨.permissive, width⟩ = .ok text →
      (∀ n, AnyNode.Reaches ⟨f, t⟩ n → d.supports n.kind = true) →
      t.render ⟨d, width⟩ = .ok text ∨
        d.allowsBackslash = false ∧ ∃ flaw, t.render ⟨d, width⟩ = .error (.malformed flaw) ∧
          (flaw.kind = .joinedStr ∨ flaw.kind = .formattedValue) ∧
          flaw.fault.reason = "backslash inside a replacement field") := by
  constructor
  · intro h
    obtain ⟨fragment, hresult, -⟩ := of_render_eq_ok h
    have houtcome := (Draft.result_eq_ok_iff.mp hresult).1
    apply render_eq_of_result_ok h
    exact Draft.result_eq_ok_iff.mpr ⟨houtcome, fun need _ => Draft.met_permissive need⟩
  · intro h hd
    obtain ⟨fragment, hresult, -⟩ := of_render_eq_ok h
    have houtcome := (Draft.result_eq_ok_iff.mp hresult).1
    by_cases hok : t.draft.result d = .ok fragment
    · exact .inl (render_eq_of_result_ok h hok)
    · obtain ⟨need, hmem, hunmet, herror⟩ := Draft.exists_unmet_of_result_ne houtcome hok
      obtain ⟨k, rfl, hallows, hk⟩ := unmet_of_supported hd hmem hunmet
      refine .inr ⟨hallows, ⟨k, .backslash⟩, render_eq_error_iff.mpr herror, ?_, rfl⟩
      simpa [Kind.isFString] using hk

/-- An f-string whose only replacement field is a line break. -/
def lineBreak : Node .expr :=
  .of .joinedStr ([.of .formattedValue (Expr.str "\n", none, none, ())], ())

/-- The escaped line break is accepted from version 3.12 on, and is the only obstacle before. -/
theorem lineBreak_gated :
    (lineBreak.render ⟨.version ⟨3, 12⟩, 4⟩ = .ok "f\"\x7b'\\n'\x7d\"" ∧
      lineBreak.render ⟨.permissive, 4⟩ = .ok "f\"\x7b'\\n'\x7d\"") ∧
    (∀ n, AnyNode.Reaches ⟨.expr, lineBreak⟩ n →
      (Dialect.version ⟨3, 11⟩).supports n.kind = true) ∧
    ∃ flaw, lineBreak.render ⟨.version ⟨3, 11⟩, 4⟩ = .error (.malformed flaw) ∧
      (flaw.kind = .joinedStr ∨ flaw.kind = .formattedValue) ∧
      flaw.fault.reason = "backslash inside a replacement field" := by
  have hsupported : ∀ n, AnyNode.Reaches ⟨.expr, lineBreak⟩ n →
      (Dialect.version ⟨3, 11⟩).supports n.kind = true := by
    have hall : ∀ n ∈ Tree.preorder lineBreak,
        (Dialect.version ⟨3, 11⟩).supports n.kind = true := by decide
    intro n hn
    exact hall n (AnyNode.reaches_iff_mem_preorder.mp hn)
  have hrefused : lineBreak.render ⟨.version ⟨3, 11⟩, 4⟩ =
      .error (.malformed ⟨.joinedStr, .backslash⟩) := rfl
  refine ⟨⟨rfl, (render_gated lineBreak (.version ⟨3, 12⟩) 4 _).1 rfl⟩, hsupported, ?_⟩
  have hgated := (render_gated lineBreak (.version ⟨3, 11⟩) 4 "f\"\x7b'\\n'\x7d\"").2 rfl hsupported
  rcases hgated with hok | ⟨_, hflaw⟩
  · rw [hrefused] at hok
    cases hok
  · exact hflaw

end Node

end Unparse
