import Unparse.Proofs.Weight.Rule
import Unparse.Tree.Build

/-! Rendering and dialects. A node has a text in a dialect only if the dialect has every
kind that the node reaches, and the kind that a refusal names is one of those. -/
namespace Unparse

/-- The scale on which no text counts, so that only kinds weigh. -/
def Scale.blank : Scale where
  char _ := 0
  char_ascii _ _ := rfl
  char_hidden _ _ := rfl

namespace Node

variable {f : Family} {t : Node f} {options : Options}

theorem exists_reached_of_demand {k : Kind} (h : Entry.demand (.kind k) ∈ t.draft.entries) :
    ∃ n, AnyNode.Reaches ⟨f, t⟩ n ∧ n.kind = k := by
  have hkind := (draft_weighs Scale.blank t).demanded k h
  rw [Tree.mem_kinds_weight] at hkind
  obtain ⟨n, hn, hk⟩ := hkind
  exact ⟨n, AnyNode.reaches_iff_mem_preorder.mpr hn, hk⟩

theorem demand_of_reached {text : String} (h : t.draft.outcome = .ok text) {n : AnyNode}
    (hn : AnyNode.Reaches ⟨f, t⟩ n) : Entry.demand (.kind n.kind) ∈ t.draft.entries := by
  apply (draft_weighs Scale.blank t).complete text h
  rw [Tree.mem_kinds_weight]
  exact ⟨n, AnyNode.reaches_iff_mem_preorder.mp hn, rfl⟩

theorem supports_of_render_ok {text : String} (h : t.render options = .ok text) {n : AnyNode}
    (hn : AnyNode.Reaches ⟨f, t⟩ n) : options.dialect.supports n.kind = true := by
  obtain ⟨fragment, hresult, -⟩ := of_render_eq_ok h
  obtain ⟨houtcome, hmet⟩ := Draft.result_eq_ok_iff.mp hresult
  exact hmet _ (demand_of_reached houtcome hn)

theorem of_render_unsupported {k : Kind} {d : Dialect}
    (h : t.render options = .error (.unsupported k d)) :
    d = options.dialect ∧ options.dialect.supports k = false ∧
      ∃ n, AnyNode.Reaches ⟨f, t⟩ n ∧ n.kind = k := by
  have hresult := Draft.of_result_unsupported (render_eq_error_iff.mp h)
  exact ⟨hresult.1, hresult.2.1, exists_reached_of_demand hresult.2.2⟩

/-- Every dialect but the permissive one lacks some kind, so only there nothing is refused. -/
theorem malformed_of_render_permissive {e : RenderError} (hd : options.dialect = .permissive)
    (h : t.render options = .error e) : ∃ flaw, e = .malformed flaw := by
  cases e with
  | malformed flaw => exact ⟨flaw, rfl⟩
  | unsupported k d =>
    have hk := (of_render_unsupported h).2.1
    rw [hd] at hk
    exact absurd hk (by simp [Dialect.supports, Dialect.covers])

/-- A text is only given in a dialect that has all the kinds in the tree. A refusal is in the
name of the dialect asked for and of a kind in the tree that the dialect does not have, so
the permissive dialect refuses nothing that is well formed. -/
theorem render_dialect_sound {f : Family} (t : Node f) (options : Options) :
    (∀ text, t.render options = .ok text →
      ∀ n, AnyNode.Reaches ⟨f, t⟩ n → options.dialect.supports n.kind = true) ∧
    (∀ k d, t.render options = .error (.unsupported k d) →
      d = options.dialect ∧ options.dialect.supports k = false ∧
        ∃ n, AnyNode.Reaches ⟨f, t⟩ n ∧ n.kind = k) ∧
    (options.dialect = .permissive →
      ∀ e, t.render options = .error e → ∃ flaw, e = .malformed flaw) := by
  refine ⟨?_, ?_, ?_⟩
  · intro text h n hn
    exact supports_of_render_ok h hn
  · intro k d h
    exact of_render_unsupported h
  · intro hd e h
    exact malformed_of_render_permissive hd h

/-- The product of two matrices. -/
def matrixProduct : Node .expr :=
  Expr.binOp (Expr.name "x") (.of .matMult ()) (Expr.name "y")

/-- Matrix products are accepted from version 3.5 on, together with all that they reach, and
are refused before for their operator. An empty conjunction is refused for its form only. -/
theorem matrixProduct_dialect_sound :
    (matrixProduct.render ⟨.version ⟨3, 5⟩, 4⟩ = .ok "(x @ y)" ∧
      ∀ n, AnyNode.Reaches ⟨.expr, matrixProduct⟩ n →
        (Dialect.version ⟨3, 5⟩).supports n.kind = true) ∧
    (matrixProduct.render ⟨.version ⟨2, 7⟩, 4⟩ =
        .error (.unsupported .matMult (.version ⟨2, 7⟩)) ∧
      ∃ n, AnyNode.Reaches ⟨.expr, matrixProduct⟩ n ∧ n.kind = .matMult) ∧
    ∃ e, (Expr.boolOp (.of .and ()) []).render {} = .error e ∧ ∃ flaw, e = .malformed flaw := by
  refine ⟨⟨rfl, ?_⟩, ⟨rfl, ?_⟩, ⟨_, rfl, ?_⟩⟩
  · exact (render_dialect_sound matrixProduct ⟨.version ⟨3, 5⟩, 4⟩).1 _ rfl
  · exact ((render_dialect_sound matrixProduct ⟨.version ⟨2, 7⟩, 4⟩).2.1 _ _ rfl).2.2
  · exact (render_dialect_sound (Expr.boolOp (.of .and ()) []) {}).2.2 rfl _ rfl

end Node

end Unparse
