import Unparse.Proofs.Form.View
import Unparse.Render.FString

/-! The verdicts on f-strings. An f-string that stands alone needs a quote for its segments; one
that is part of another f-string hands them on. -/
namespace Unparse

open Draft List

namespace Draft

open Render.FString

variable {v : Verdict} {x : Draft (List Segment)}

/-- What an f-string of these segments needs for itself. -/
def standing (x : Draft (List Segment)) : Verdict where
  formed := True
  quotable := ∀ segments, x.outcome = .ok segments → isCrowded segments = false
  slashed := ∃ segments, x.outcome = .ok segments ∧ codesContain segments "\\" = true

theorem quotable_standing {segments : List Segment} (h : x.outcome = .ok segments) :
    x.standing.quotable ↔ isCrowded segments = false := by
  simp [standing, h]

theorem slashed_standing {segments : List Segment} (h : x.outcome = .ok segments) :
    x.standing.slashed ↔ codesContain segments "\\" = true := by
  simp [standing, h]

/-- Segments that are handed on still show what they need. -/
theorem JudgedWith.standing (h : x.Gathers v) : x.Gathers (v + x.standing) where
  sound segments hx := by
    obtain ⟨hformed, hleft⟩ := h.sound segments hx
    exact ⟨⟨hformed, trivial⟩, fun hcrowded =>
      ⟨hleft hcrowded, (quotable_standing hx).mpr hcrowded⟩⟩
  complete hformed hquotable := h.complete hformed.1 hquotable.1
  blamed flaw hflaw hformed := h.blamed flaw hflaw hformed.1
  slashed segments hx hslashed := by
    rcases hslashed with hslashed | hslashed
    · exact h.slashed segments hx hslashed
    · exact .inr ((slashed_standing hx).mp hslashed)
  raised k hk := .inl (h.raised k hk)
  charged := h.charged
  quiet := h.quiet

end Draft

namespace Render.FString

variable {k : Kind} {e : ExprView} {t : Node .expr}

theorem ne_of_isFString (h : t.kind.isFString = false) : t.kind ≠ .joinedStr := by
  intro hkind
  rw [hkind] at h
  cases h

theorem isPart_of_isFString (h : t.isText = false ∧ t.kind.isFString = false) :
    t.isPart = false := by
  simp only [Kind.isFString, Bool.or_eq_false_iff] at h
  simp [Node.isPart, h]

theorem entries_joined (k : Kind) (segments : List Segment) :
    (joined k segments).entries =
      if codesContain segments "\\" then [.demand (.backslash k)] else [] := by
  unfold joined
  cases quote? segments <;> cases codesContain segments "\\" <;> rfl

theorem exists_outcome_joined (k : Kind) (segments : List Segment) : ∃ text,
    (joined k segments).outcome =
      if isCrowded segments then .error ⟨k, .everyQuote⟩ else .ok text := by
  have hquote := quote?_eq_none_iff segments
  unfold joined
  cases hq : quote? segments with
  | none =>
    rw [hquote.mp hq]
    refine ⟨"", ?_⟩
    cases codesContain segments "\\" <;> rfl
  | some q =>
    have hleft : isCrowded segments = false := by
      rw [← Bool.not_eq_true, ← hquote, hq]
      simp
    rw [hleft]
    refine ⟨"f" ++ q.text ++ body q segments ++ q.text, ?_⟩
    cases codesContain segments "\\" <;> rfl

theorem demand_mem_joined {k' : Kind} {segments : List Segment} :
    Entry.demand (.backslash k') ∈ (joined k segments).entries ↔
      k' = k ∧ codesContain segments "\\" = true := by
  rw [entries_joined]
  cases codesContain segments "\\" <;> simp

theorem line_notMem_joined {l : Line} {segments : List Segment} :
    Entry.line l ∉ (joined k segments).entries := by
  rw [entries_joined]
  cases codesContain segments "\\" <;> simp

/-- The f-string of some segments asks for a quote, and reports a backslash. -/
theorem joined_judged {v : Verdict} {x : Draft (List Segment)} (h : x.Gathers v)
    (hk : k.isFString = true) : (x >>= joined k).Judged false (v + x.standing) := by
  refine h.bind_ok And.left And.left Or.inl fun segments hx => ?_
  obtain ⟨text, htext⟩ := exists_outcome_joined k segments
  obtain ⟨hformed, hleft⟩ := h.sound segments hx
  rw [← outcome_bind_of_ok hx] at htext
  constructor
  · intro a ha
    cases hcrowded : isCrowded segments with
    | true => simp [htext, hcrowded] at ha
    | false =>
      exact ⟨⟨hformed, trivial⟩, fun _ =>
        ⟨hleft hcrowded, (quotable_standing hx).mpr hcrowded⟩⟩
  · intro _ hquotable
    exact ⟨text, by simp [htext, (quotable_standing hx).mp hquotable.2]⟩
  · intro flaw hflaw _
    cases hcrowded : isCrowded segments with
    | false => simp [htext, hcrowded] at hflaw
    | true =>
      simp only [htext, hcrowded, if_true, Except.error.injEq] at hflaw
      subst hflaw
      exact ⟨rfl, hk⟩
  · intro a _ hslashed
    refine .inl ?_
    simp only [mem_entries_bind_of_ok hx, exists_or, demand_mem_joined, exists_eq_left]
    rcases hslashed with hslashed | hslashed
    · exact h.slashed segments hx hslashed
    · exact .inr ((slashed_standing hx).mp hslashed)
  · intro k' hk'
    rcases (mem_entries_bind_of_ok hx).mp hk' with hk' | hk'
    · exact .inl (h.raised k' hk')
    · exact .inr ((slashed_standing hx).mpr (demand_mem_joined.mp hk').2)
  · intro k' hk'
    rcases (mem_entries_bind_of_ok hx).mp hk' with hk' | hk'
    · exact h.charged k' hk'
    · rw [(demand_mem_joined.mp hk').1]
      exact hk
  · intro _ l hl
    rcases (mem_entries_bind_of_ok hx).mp hl with hl | hl
    · exact h.quiet rfl l hl
    · exact line_notMem_joined hl

theorem part_gathers (h : e.Judged t) : (part e).Gathers (.of t.isPart [t.verdict]) := by
  have hfail (fault : Fault) (hpart : t.isPart = false) :
      (Draft.fail .joinedStr fault).Gathers (.of t.isPart [t.verdict]) :=
    JudgedWith.fail fun hformed => by simp [Verdict.of, hpart] at hformed
  have hform := h.form
  unfold part
  generalize e.form = form at hform
  cases form with
  | string text =>
    obtain ⟨⟨htext, _⟩, hzero⟩ := hform
    exact JudgedWith.demand_bind (JudgedWith.pure.congr (by simp [Node.isPart, htext, hzero]))
  | field segments =>
    obtain ⟨hkind, hsegments⟩ := hform
    exact hsegments.congr (by simp [Node.isPart, hkind])
  | plain => exact hfail _ (isPart_of_isFString hform)
  | integer => exact hfail _ (isPart_of_isFString hform)
  | tuple elements => exact hfail _ (isPart_of_isFString hform.1)
  | joined segments =>
    obtain ⟨⟨htext, hkind⟩, _⟩ := hform
    exact hfail _ (by simp [Node.isPart, htext, hkind])

theorem parts_gathers {es : List ExprView} {ts : List (Node .expr)}
    (h : Forall₂ ExprView.Judged es ts) :
    (parts es).Gathers (.of (ts.all Node.isPart) [.total Tree.verdict ts]) := by
  have hparts : Forall₂ (fun x t => Gathers (.of t.isPart [t.verdict]) x) (es.map part) ts := by
    rw [forall₂_map_left_iff]
    exact h.imp fun _ _ he => part_gathers he
  rw [← Verdict.total_of]
  refine (JudgedWith.all_seen hparts).map fun segments => ?_
  rw [flatMap_id]
  exact Subset.refl _

/-- A format spec hands its segments on. -/
theorem spec_gathers {o : Option ExprView} {m : Option (Node .expr)}
    (h : Option.Rel ExprView.Judged o m) :
    (spec o).Gathers (.of (m.all (·.kind == .joinedStr)) [.maybe Tree.verdict m]) := by
  cases h with
  | none => exact JudgedWith.pure.congr (by simp)
  | @some e t he =>
    have hfail (fault : Fault) (hkind : t.kind ≠ .joinedStr) :
        (Draft.fail .formattedValue fault).Gathers
          (.of ((some t).all (·.kind == .joinedStr)) [.maybe Tree.verdict (some t)]) :=
      JudgedWith.fail fun hformed => by simp [Verdict.of, hkind] at hformed
    have hform := he.form
    dsimp only [spec]
    generalize e.form = form at hform
    cases form with
    | joined segments =>
      obtain ⟨⟨_, hkind⟩, hsegments⟩ := hform
      refine (JudgedWith.demand_bind (hsegments.map fun ss => ?_)).congr ?_
      · exact subset_cons_self _ ss
      · simp [hkind]
    | plain => exact hfail _ (ne_of_isFString hform.2)
    | integer => exact hfail _ (ne_of_isFString hform.2)
    | string text => exact hfail _ (ne_of_isFString hform.1.2)
    | tuple elements => exact hfail _ (ne_of_isFString hform.1.2)
    | field segments => exact hfail _ (by simp [hform.1])

theorem field_gathers {conversion : Option Conversion} {o : Option ExprView}
    {m : Option (Node .expr)} (he : e.Judged t) (ho : Option.Rel ExprView.Judged o m) :
    (field e conversion o).Gathers
      (.of (m.all (·.kind == .joinedStr)) [t.verdict, .maybe Tree.verdict m]) := by
  refine (JudgedWith.demand_bind (he.text.bind fun text =>
    (spec_gathers ho).map fun segments => ?_)).congr ?_
  · exact subset_cons_of_subset _ (subset_append_left _ _)
  · simp only [Verdict.of, sum_cons, sum_nil]
    abel

theorem joinedStr_judged {es : List ExprView} {ts : List (Node .expr)}
    (hes : Forall₂ ExprView.Judged es ts) (hkind : t.kind = .joinedStr) (htext : t.isText = false) :
    (joinedStr es).JudgedAs
      (.of (ts.all Node.isPart) [.total Tree.verdict ts] + (parts es).standing) t where
  kind := hkind.symm
  text := JudgedWith.demand_bind (joined_judged (parts_gathers hes) rfl)
  form := ⟨⟨htext, hkind⟩, (parts_gathers hes).standing⟩

theorem formattedValue_judged {conversion : Option Conversion} {o : Option ExprView}
    {m : Option (Node .expr)} {u : Node .expr} (he : e.Judged t)
    (ho : Option.Rel ExprView.Judged o m) (hkind : u.kind = .formattedValue) :
    (formattedValue e conversion o).JudgedAs
      (.of (m.all (·.kind == .joinedStr)) [t.verdict, .maybe Tree.verdict m] +
        (field e conversion o).standing) u where
  kind := hkind.symm
  text := JudgedWith.demand_bind (joined_judged (field_gathers he ho) rfl)
  form := ⟨hkind, (field_gathers he ho).standing⟩

end Render.FString

end Unparse
