import Unparse.Proofs.Replacements

/-! Which trees have a text. Apart from the dialect, it takes well formed nodes and a quote for
every f-string, and nothing else. -/
namespace Unparse

namespace Draft

variable {A : Type} {x : Draft A} {d : Dialect} {flaw : Flaw}

/-- A draft is called malformed for a backslash, or for the flaw that it ends with. -/
theorem of_result_malformed (h : x.result d = .error (.malformed flaw)) :
    (∃ k, Entry.demand (.backslash k) ∈ x.entries ∧ d.allowsBackslash = false ∧
      flaw = ⟨k, .backslash⟩) ∨ x.outcome = .error flaw := by
  unfold result at h
  cases hs : (settle d x.entries).2 with
  | none =>
    rw [hs] at h
    cases hx : x.outcome with
    | ok a => simp [mapError_ok, hx] at h
    | error other =>
      simp only [mapError_error, hx, Except.error.injEq, RenderError.malformed.injEq] at h
      exact .inr (h ▸ rfl)
  | some need =>
    rw [hs] at h
    obtain ⟨hmem, hunmet⟩ := of_settle_eq_some hs
    cases need with
    | kind k => simp [Demand.refusal] at h
    | backslash k =>
      simp only [Demand.refusal, Except.error.injEq, RenderError.malformed.injEq] at h
      exact .inl ⟨k, hmem, hunmet, h.symm⟩

end Draft

namespace Node

variable {f : Family} (t : Node f)

theorem verdict_eq_reaches :
    t.verdict = ⟨∀ n, AnyNode.Reaches ⟨f, t⟩ n → n.isWellFormed = true,
      ∀ n, AnyNode.Reaches ⟨f, t⟩ n → n.HasQuote,
      ∃ n, AnyNode.Reaches ⟨f, t⟩ n ∧ n.HasBackslash⟩ := by
  rw [Tree.verdict_eq]
  simp only [AnyNode.reaches_iff_mem_preorder]

variable {t} {options : Options}

theorem of_render_ok {text : String} (h : t.render options = .ok text) {n : AnyNode}
    (hn : AnyNode.Reaches ⟨f, t⟩ n) :
    n.isWellFormed = true ∧ n.HasQuote ∧
      (n.HasBackslash → options.dialect.allowsBackslash = true) := by
  obtain ⟨fragment, hresult, -⟩ := of_render_eq_ok h
  obtain ⟨houtcome, hmet⟩ := Draft.result_eq_ok_iff.mp hresult
  obtain ⟨hformed, hquotable⟩ := t.draft_judged.accepted.mp ⟨fragment, houtcome⟩
  have hslashed := (t.draft_judged.slashed_iff houtcome).mpr
  rw [verdict_eq_reaches] at hformed hquotable hslashed
  refine ⟨hformed n hn, hquotable n hn, fun hsn => ?_⟩
  obtain ⟨k, hk⟩ := hslashed ⟨n, hn, hsn⟩
  exact hmet _ hk

theorem render_ok_of_wellFormed
    (h : ∀ n, AnyNode.Reaches ⟨f, t⟩ n → options.dialect.supports n.kind = true ∧
      n.isWellFormed = true ∧ n.HasQuote ∧
      (n.HasBackslash → options.dialect.allowsBackslash = true)) :
    ∃ text, t.render options = .ok text := by
  have haccepted := t.draft_judged.accepted.mpr
  have hraised := t.draft_judged.raised
  rw [verdict_eq_reaches] at haccepted hraised
  obtain ⟨fragment, houtcome⟩ :=
    haccepted ⟨fun n hn => (h n hn).2.1, fun n hn => (h n hn).2.2.1⟩
  have hresult : t.draft.result options.dialect = .ok fragment := by
    refine Draft.result_eq_ok_iff.mpr ⟨houtcome, fun need hneed => ?_⟩
    cases need with
    | kind k =>
      obtain ⟨n, hn, rfl⟩ := exists_reached_of_demand hneed
      exact (h n hn).1
    | backslash k =>
      obtain ⟨n, hn, hslashed⟩ := hraised k hneed
      exact (h n hn).2.2.2 hslashed
  exact ⟨_, render_eq_ok_iff.mpr ⟨fragment, hresult, rfl⟩⟩

theorem render_malformed_of_supported {n : AnyNode} (hn : AnyNode.Reaches ⟨f, t⟩ n)
    (hformed : n.isWellFormed = false)
    (hsupported : ∀ m, AnyNode.Reaches ⟨f, t⟩ m → options.dialect.supports m.kind = true) :
    ∃ flaw, t.render options = .error (.malformed flaw) := by
  cases h : t.render options with
  | ok text =>
    rw [(of_render_ok h hn).1] at hformed
    cases hformed
  | error e =>
    cases e with
    | malformed flaw => exact ⟨flaw, rfl⟩
    | unsupported k d =>
      obtain ⟨rfl, hk, m, hm, rfl⟩ := of_render_unsupported h
      rw [hsupported m hm] at hk
      cases hk

/-- If the nodes are well formed, only f-strings are to blame. -/
theorem of_render_malformed {flaw : Flaw} (h : t.render options = .error (.malformed flaw))
    (hformed : ∀ n, AnyNode.Reaches ⟨f, t⟩ n → n.isWellFormed = true) :
    (flaw.kind = .joinedStr ∨ flaw.kind = .formattedValue) ∧
      (flaw.fault = .everyQuote ∧ (∃ n, AnyNode.Reaches ⟨f, t⟩ n ∧ ¬n.HasQuote) ∨
        flaw.fault = .backslash ∧ options.dialect.allowsBackslash = false ∧
          ∃ n, AnyNode.Reaches ⟨f, t⟩ n ∧ n.HasBackslash) := by
  have hjudged := t.draft_judged
  rw [verdict_eq_reaches] at hjudged
  have hkind {k : Kind} (hk : k.isFString = true) : k = .joinedStr ∨ k = .formattedValue := by
    simpa [Kind.isFString] using hk
  rcases Draft.of_result_malformed (render_eq_error_iff.mp h) with ⟨k, hk, hallows, rfl⟩ | houtcome
  · exact ⟨hkind (hjudged.charged k hk), .inr ⟨rfl, hallows, hjudged.raised k hk⟩⟩
  · obtain ⟨hfault, hfstring⟩ := hjudged.blamed flaw houtcome hformed
    refine ⟨hkind hfstring, .inl ⟨hfault, ?_⟩⟩
    by_contra hquotable
    obtain ⟨fragment, hok⟩ := hjudged.complete hformed fun n hn =>
      by_contra fun hcrowded => hquotable ⟨n, hn, hcrowded⟩
    rw [houtcome] at hok
    cases hok

/-! ### F-strings by the texts of their fields -/

theorem segments?_of_render {t : Node .expr} (h : t.kind.isFString = true) {text : String}
    (ht : t.render {} = .ok text) : ∃ segments, (Render.view t).segments? = some segments := by
  obtain ⟨x, hsegments, -, k, hdraft⟩ := exists_segments h
  have houtcome := render_expr_permissive_iff.mp ht
  rw [hdraft] at houtcome
  obtain ⟨_, _, hrest, -⟩ := Draft.of_bind_ok houtcome
  obtain ⟨segments, hx, -⟩ := Draft.of_bind_ok hrest
  exact ⟨segments, hsegments segments hx⟩

theorem Replaces.isFString {t e : Node .expr} (h : Replaces t e) : t.kind.isFString = true := by
  cases h <;> rfl

end Node

namespace AnyNode

variable {n : AnyNode}

theorem HasQuote.of_quotable (h : n.Quotable) : n.HasQuote :=
  fun _ hsegments => (quotable_iff hsegments).mp h

theorem HasBackslash.slashed (h : n.HasBackslash) : n.Slashed := by
  obtain ⟨segments, hsegments, hslash⟩ := h
  exact (slashed_iff hsegments).mpr hslash

/-- The segments of what has a text are known, if it shows anything. -/
theorem Shows.exists_segments {shown text : String} (h : n.Shows shown)
    (hn : n.node.render {} = .ok text) : ∃ segments, n.segments? = some segments := by
  obtain ⟨t, e, rfl, he, -⟩ := h
  exact Node.segments?_of_render he.isFString hn

theorem HasQuote.quotable {text : String} (h : n.HasQuote) (hn : n.node.render {} = .ok text) :
    n.Quotable := by
  by_cases hshows : ∃ shown, n.Shows shown
  · obtain ⟨shown, hshown⟩ := hshows
    obtain ⟨segments, hsegments⟩ := hshown.exists_segments hn
    exact (quotable_iff hsegments).mpr (h segments hsegments)
  · exact ⟨_, List.mem_cons_self, fun shown hshown => absurd ⟨shown, hshown⟩ hshows⟩

theorem Slashed.hasBackslash {text : String} (h : n.Slashed) (hn : n.node.render {} = .ok text) :
    n.HasBackslash := by
  obtain ⟨shown, hshown, hslash⟩ := h
  obtain ⟨segments, hsegments⟩ := hshown.exists_segments hn
  exact ⟨segments, hsegments, (slashed_iff hsegments).mp ⟨shown, hshown, hslash⟩⟩

end AnyNode

namespace Node

variable {f : Family} {t : Node f} {options : Options}

/-- What is reached from a node with a text has a text where all kinds are known. -/
theorem exists_render_of_reaches {text : String} (h : t.render options = .ok text) {n : AnyNode}
    (hn : AnyNode.Reaches ⟨f, t⟩ n) : ∃ text, n.node.render {} = .ok text := by
  refine render_ok_of_wellFormed fun m hm => ?_
  obtain ⟨hformed, hquote, -⟩ := of_render_ok h (hn.trans hm)
  exact ⟨rfl, hformed, hquote, fun _ => rfl⟩

/-- A node has a text exactly if the dialect has all kinds in the tree, all nodes are well formed,
and each f-string has a quote left to it and no backslash that the dialect does not allow. A node
that is not well formed is called malformed if its kinds are supported, and nothing else is
called malformed but f-strings that lack a quote or hold such a backslash. -/
theorem render_acceptance {f : Family} (t : Node f) (options : Options) :
    ((∃ text, t.render options = .ok text) ↔
      ∀ n, AnyNode.Reaches ⟨f, t⟩ n → options.dialect.supports n.kind = true ∧
        n.isWellFormed = true ∧ n.Quotable ∧
        (n.Slashed → options.dialect.allowsBackslash = true)) ∧
    (∀ n, AnyNode.Reaches ⟨f, t⟩ n → n.isWellFormed = false →
      (∀ m, AnyNode.Reaches ⟨f, t⟩ m → options.dialect.supports m.kind = true) →
      ∃ flaw, t.render options = .error (.malformed flaw)) ∧
    (∀ flaw, t.render options = .error (.malformed flaw) →
      (∀ n, AnyNode.Reaches ⟨f, t⟩ n → n.isWellFormed = true) →
      (flaw.kind = .joinedStr ∨ flaw.kind = .formattedValue) ∧
        (flaw.fault = .everyQuote ∧ (∃ n, AnyNode.Reaches ⟨f, t⟩ n ∧ ¬n.Quotable) ∨
          flaw.fault = .backslash ∧ options.dialect.allowsBackslash = false ∧
            ∃ n, AnyNode.Reaches ⟨f, t⟩ n ∧ n.Slashed)) := by
  refine ⟨⟨?_, fun h => ?_⟩, ?_, ?_⟩
  · rintro ⟨text, h⟩ n hn
    obtain ⟨hformed, hquote, hslash⟩ := of_render_ok h hn
    obtain ⟨own, hown⟩ := exists_render_of_reaches h hn
    exact ⟨supports_of_render_ok h hn, hformed, hquote.quotable hown,
      fun hslashed => hslash (hslashed.hasBackslash hown)⟩
  · refine render_ok_of_wellFormed fun n hn => ?_
    obtain ⟨hsupports, hformed, hquotable, hslashed⟩ := h n hn
    exact ⟨hsupports, hformed, .of_quotable hquotable, fun hslash => hslashed hslash.slashed⟩
  · intro n hn hformed hsupported
    exact render_malformed_of_supported hn hformed hsupported
  · intro flaw h hformed
    obtain ⟨hkind, ⟨hfault, n, hn, hcrowded⟩ | ⟨hfault, hallows, n, hn, hslash⟩⟩ :=
      of_render_malformed h hformed
    · exact ⟨hkind, .inl ⟨hfault, n, hn, fun hquotable => hcrowded (.of_quotable hquotable)⟩⟩
    · exact ⟨hkind, .inr ⟨hfault, hallows, n, hn, hslash.slashed⟩⟩

/-- A cause without an exception to be the cause of. -/
def loneCause : Node .stmt :=
  .of .raise (none, some (Expr.name "e"), ())

/-- A cause alone is malformed in the permissive dialect. Of the nodes of a line break in an
f-string all are well formed, and what version 3.11 calls malformed is a backslash. -/
theorem loneCause_acceptance :
    (AnyNode.isWellFormed ⟨.stmt, loneCause⟩ = false ∧
      ∃ flaw, loneCause.render {} = .error (.malformed flaw)) ∧
    (∀ n, AnyNode.Reaches ⟨.expr, lineBreak⟩ n → n.isWellFormed = true) ∧
    lineBreak.render ⟨.version ⟨3, 11⟩, 4⟩ = .error (.malformed ⟨.joinedStr, .backslash⟩) ∧
    ∃ n, AnyNode.Reaches ⟨.expr, lineBreak⟩ n ∧ n.Slashed := by
  have hformed : ∀ n, AnyNode.Reaches ⟨.expr, lineBreak⟩ n → n.isWellFormed = true := by
    have hall : ∀ n ∈ Tree.preorder lineBreak, n.isWellFormed = true := by decide
    intro n hn
    exact hall n (AnyNode.reaches_iff_mem_preorder.mp hn)
  refine ⟨⟨rfl, ?_⟩, hformed, rfl, ?_⟩
  · exact (render_acceptance loneCause {}).2.1 _ .refl rfl fun m _ => rfl
  · rcases (render_acceptance lineBreak ⟨.version ⟨3, 11⟩, 4⟩).2.2 _ rfl hformed with
      ⟨_, ⟨hfault, _⟩ | ⟨_, _, hslashed⟩⟩
    · cases hfault
    · exact hslashed

end Node

end Unparse
