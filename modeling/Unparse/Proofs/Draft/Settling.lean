import Mathlib.Logic.Basic
import Unparse.Proofs.Draft.Lines

/-! What a dialect makes of a draft. It gets all the way through exactly when it meets
every demand; otherwise it stops at a demand of the draft that it does not meet. -/
namespace Unparse

/-- The line that an entry lays out; a demand lays out none. -/
def Entry.line? : Entry → Option Line
  | .demand _ => none
  | .line l => some l

namespace Draft

theorem settle_eq_none_iff (d : Dialect) (es : List Entry) :
    (settle d es).2 = none ↔ ∀ need, Entry.demand need ∈ es → need.met d = true := by
  induction es with
  | nil => simp [settle]
  | cons e more ih =>
    cases e with
    | line l => simpa [settle] using ih
    | demand need =>
      by_cases h : need.met d = true
      · simp [settle, h, ih]
      · simp only [settle, h, Bool.false_eq_true, ↓reduceIte, reduceCtorEq, false_iff]
        intro hall
        exact h (hall need (List.mem_cons_self ..))

theorem of_settle_eq_some {d : Dialect} {es : List Entry} {need : Demand}
    (h : (settle d es).2 = some need) : Entry.demand need ∈ es ∧ need.met d = false := by
  induction es with
  | nil => simp [settle] at h
  | cons e more ih =>
    cases e with
    | line l =>
      obtain ⟨hmem, hunmet⟩ := ih (by simpa [settle] using h)
      exact ⟨List.mem_cons_of_mem _ hmem, hunmet⟩
    | demand other =>
      by_cases hmet : other.met d = true
      · obtain ⟨hmem, hunmet⟩ := ih (by simpa [settle, hmet] using h)
        exact ⟨List.mem_cons_of_mem _ hmem, hunmet⟩
      · simp only [settle, hmet, Bool.false_eq_true, ↓reduceIte, Option.some.injEq] at h
        subst h
        exact ⟨List.mem_cons_self .., by simpa using hmet⟩

/-- Without an unmet demand every line is laid out. -/
theorem settle_lines {d : Dialect} {es : List Entry} (h : (settle d es).2 = none) :
    (settle d es).1 = es.filterMap Entry.line? := by
  induction es with
  | nil => rfl
  | cons e more ih =>
    cases e with
    | line l =>
      have hmore : (settle d more).2 = none := by simpa [settle] using h
      simp [settle, Entry.line?, ih hmore]
    | demand need =>
      have hmet : need.met d = true :=
        (settle_eq_none_iff d _).mp h need (List.mem_cons_self ..)
      have hmore : (settle d more).2 = none := by simpa [settle, hmet] using h
      simp [settle, List.filterMap_cons, Entry.line?, hmet, ih hmore]

theorem demand_mem_deeper {es : List Entry} {need : Demand} :
    Entry.demand need ∈ es.map Entry.deeper ↔ Entry.demand need ∈ es := by
  induction es with
  | nil => simp
  | cons e es ih => cases e <;> simp [Entry.deeper, ih]

variable {A : Type}

theorem demand_mem_block {x : Draft A} {need : Demand} :
    Entry.demand need ∈ (block x).entries ↔ Entry.demand need ∈ x.entries := by
  rw [entries_block, demand_mem_deeper]

theorem result_eq_ok_iff {d : Dialect} {x : Draft A} {a : A} :
    x.result d = .ok a ↔
      x.outcome = .ok a ∧ ∀ need, Entry.demand need ∈ x.entries → need.met d = true := by
  rw [← settle_eq_none_iff]
  unfold result
  cases hs : (settle d x.entries).2 with
  | some need => simp
  | none => cases hx : x.outcome <;> simp [mapError_ok, mapError_error]

theorem lines_of_result_ok {d : Dialect} {x : Draft A} {a : A} (h : x.result d = .ok a) :
    x.lines d = x.entries.filterMap Entry.line? :=
  settle_lines ((settle_eq_none_iff d _).mpr (result_eq_ok_iff.mp h).2)

/-- Only a demand for a kind is refused as unsupported, and always in the dialect's own name. -/
theorem of_result_unsupported {d e : Dialect} {x : Draft A} {k : Kind}
    (h : x.result d = .error (.unsupported k e)) :
    e = d ∧ d.supports k = false ∧ Entry.demand (.kind k) ∈ x.entries := by
  unfold result at h
  cases hs : (settle d x.entries).2 with
  | none =>
    rw [hs] at h
    cases hx : x.outcome <;> simp [mapError_ok, mapError_error, hx] at h
  | some need =>
    rw [hs] at h
    obtain ⟨hmem, hunmet⟩ := of_settle_eq_some hs
    cases need with
    | backslash other => simp [Demand.refusal] at h
    | kind other =>
      simp only [Demand.refusal, Except.error.injEq, RenderError.unsupported.injEq] at h
      obtain ⟨rfl, rfl⟩ := h
      exact ⟨rfl, hunmet, hmem⟩

end Draft

namespace Node

variable {f : Family} {t : Node f} {options : Options}

/-- The text of a node is the lines of its draft, then the fragment that it ends with. -/
theorem of_render_eq_ok {text : String} (h : t.render options = .ok text) :
    ∃ fragment, t.draft.result options.dialect = .ok fragment ∧
      text = ((Page.blank options.width).print (t.draft.lines options.dialect)).text
        ++ fragment := by
  rw [render_eq] at h
  cases hr : t.draft.result options.dialect with
  | error e => simp [hr, Except.map] at h
  | ok fragment =>
    simp only [hr, Except.map, Except.ok.injEq] at h
    exact ⟨fragment, rfl, h.symm⟩

theorem render_eq_error_iff {e : RenderError} :
    t.render options = .error e ↔ t.draft.result options.dialect = .error e := by
  rw [render_eq]
  cases t.draft.result options.dialect <;> simp [Except.map]

end Node

end Unparse
