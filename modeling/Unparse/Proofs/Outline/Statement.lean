import Unparse.Proofs.Form.Statement
import Unparse.Proofs.Outline.Draft

/-! The outlines of statements, handlers and cases. A header is emitted after all of its
fragments and ends in a colon, and a block is never empty. -/
namespace Unparse

open Draft List

/-- What a form promises about the sketch of its statement. -/
def StmtForm.Sketched (k : Sketch) : StmtForm → Prop
  | .docstring _ _ => k.outline = [.plain] ∧ k.joins = false
  | .tryExcept clauses => k.joins = true ∧ clauses.Draws k.outline
  | _ => k.joins = false

structure StmtView.Sketched (s : StmtView) (k : Sketch) : Prop where
  draft : s.draft.Draws k.outline
  form : s.form.Sketched k

namespace StmtView.Sketched

variable {s : StmtView} {k : Sketch}

theorem plain (h : s.draft.Draws k.outline) (hform : s.form = .plain) (hjoins : k.joins = false) :
    s.Sketched k where
  draft := h
  form := by
    rw [hform]
    exact hjoins

theorem joins_eq_false (h : s.Sketched k)
    (hform : ∀ clauses, s.form = .tryExcept clauses → False) : k.joins = false := by
  have hk := h.form
  cases hs : s.form with
  | tryExcept clauses => exact (hform clauses hs).elim
  | plain =>
    rw [hs] at hk
    exact hk
  | docstring value text =>
    rw [hs] at hk
    exact hk.2
  | futureImport =>
    rw [hs] at hk
    exact hk

end StmtView.Sketched

namespace Render.Statement

open ExprView Outline Sketch

variable {a b : ExprView} {s t : Node .expr} {es : List ExprView} {ts : List (Node .expr)}
  {o p q : Option ExprView} {l m n : Option (Node .expr)} {body orelse final : List StmtView}
  {bs os fs : List Sketch}

section Blocks

theorem drafts_draws (hbody : Forall₂ StmtView.Sketched body bs) :
    (drafts body).Draws (together bs) := by
  apply Draws.each
  rw [forall₂_map_left_iff]
  exact hbody.imp fun _ _ h => h.draft

theorem together_ne_nil (k : Sketch) (ks : List Sketch) : together (k :: ks) ≠ [] := by
  simp [together, k.nonempty]

theorem suite_together (k : Sketch) (ks : List Sketch) :
    suite (together (k :: ks)) = together (k :: ks) := by
  rw [suite, if_neg]
  simpa using together_ne_nil k ks

theorem block_indents (hbody : Forall₂ StmtView.Sketched body bs) :
    (block body).Indents (suite (together bs)) := by
  cases hbody with
  | nil => exact (Draws.emit "pass").indents (by simp)
  | @cons first k rest ks h hs =>
    rw [suite_together]
    exact (drafts_draws (Forall₂.cons h hs)).indents (together_ne_nil k ks)

theorem docstring_draws (k : Kind) (text : String) : (docstring k text).Draws [.plain] :=
  Draws.demand_bind (Draws.demand_bind (Draws.verbatim _))

theorem docBlock_indents (hbody : Forall₂ StmtView.Sketched body bs) :
    (docBlock body).Indents (suite (together bs)) := by
  cases hbody with
  | nil => exact block_indents Forall₂.nil
  | @cons first k rest ks h hs =>
    have hform := h.form
    unfold docBlock
    dsimp only
    split
    · next value text hdocstring =>
      rw [hdocstring] at hform
      rw [suite_together, together, flatMap_cons, hform.1]
      exact ((docstring_draws value text).bind fun _ => drafts_draws hs).indents (by simp)
    · exact block_indents (Forall₂.cons h hs)

theorem optionalBlock_draws {header : String} (hheader : header.toList.getLast? = some ':')
    (hbody : Forall₂ StmtView.Sketched body bs) :
    (optionalBlock header body).Draws (unlessEmpty (together bs)) := by
  cases hbody with
  | nil => exact Draws.pure
  | @cons first k rest ks h hs =>
    have hne : (together (k :: ks)).isEmpty = false := by
      simpa using together_ne_nil k ks
    rw [unlessEmpty, hne]
    exact Draws.clause hheader (block_indents (Forall₂.cons h hs))

theorem decorators_draws {count : Nat} (hes : Forall₂ Judged es ts) (hcount : es.length = count) :
    (decorators es).Draws (replicate count .plain) := by
  subst hcount
  induction hes with
  | nil => exact Draws.pure
  | cons he _ ih =>
    exact Draws.bind (he.text.before fun _ => Draws.emit _) fun _ => ih

end Blocks

theorem functionDef_draws {k : Kind} {keyword name : String} {args : Bool → Draft String}
    {g : Node .arguments} {params : List (Draft String)} {ps : List (Node .typeParam)}
    {ds : List Sketch} (hargs : View.Judged .arguments args g)
    (hbody : Forall₂ StmtView.Sketched body bs) (hes : Forall₂ Judged es ts)
    (hlength : es.length = ds.length) (ho : Option.Rel Judged o m)
    (hparams : Forall₂ (View.Judged .typeParam) params ps) :
    (functionDef k keyword name args body es o params).draft.Draws (decorated ds bs).outline := by
  refine Draws.demand_bind ((decorators_draws hes hlength).bind fun _ => ?_)
  exact (Pattern.typeParams_judged hparams).before fun _ =>
    (hargs true).before fun _ => (after_judged ho).before fun _ =>
      Draws.clause (Text.getLast?_colon _) (docBlock_indents hbody)

theorem classDef_draws {name : String} {keywords params : List (Draft String)}
    {ks : List (Node .keyword)} {ps : List (Node .typeParam)} {cs : List ExprView}
    {us : List (Node .expr)} {ds : List Sketch} (hcs : Forall₂ Judged cs us)
    (hkeywords : Forall₂ (View.Judged .keyword) keywords ks)
    (hbody : Forall₂ StmtView.Sketched body bs) (hes : Forall₂ Judged es ts)
    (hlength : es.length = ds.length) (hparams : Forall₂ (View.Judged .typeParam) params ps) :
    (classDef name cs keywords body es params).draft.Draws (decorated ds bs).outline := by
  refine Draws.demand_bind ((decorators_draws hes hlength).bind fun _ => ?_)
  exact (texts_judged hcs).before fun _ =>
    (JudgedWith.all hkeywords).before fun _ =>
      (Pattern.typeParams_judged hparams).before fun _ =>
        Draws.clause (Text.getLast?_colon _) (docBlock_indents hbody)

theorem forLoop_draws {k : Kind} {keyword : String} (ha : a.Judged s) (hb : b.Judged t)
    (hbody : Forall₂ StmtView.Sketched body bs) (horelse : Forall₂ StmtView.Sketched orelse os) :
    (forLoop k keyword a b body orelse).draft.Draws (compound bs os).outline :=
  Draws.demand_bind (ha.text.before fun _ => hb.text.before fun _ =>
    Draws.clause_bind (Text.getLast?_colon _) (block_indents hbody)
      (optionalBlock_draws rfl horelse))

theorem tested_draws {k : Kind} {keyword : String} (ha : a.Judged s)
    (hbody : Forall₂ StmtView.Sketched body bs) (horelse : Forall₂ StmtView.Sketched orelse os) :
    (tested k keyword a body orelse).draft.Draws (compound bs os).outline :=
  Draws.demand_bind (ha.text.before fun _ =>
    Draws.clause_bind (Text.getLast?_colon _) (block_indents hbody)
      (optionalBlock_draws rfl horelse))

theorem withBlock_draws {k : Kind} {keyword : String} {items : List (Draft String)}
    {ws : List (Node .withItem)} (hitems : Forall₂ (View.Judged .withItem) items ws)
    (hbody : Forall₂ StmtView.Sketched body bs) :
    (withBlock k keyword items body).draft.Draws (compound bs []).outline :=
  Draws.demand_bind (Draws.refuse_bind fun _ =>
    (JudgedWith.all hitems).before fun _ =>
      Draws.clause (Text.getLast?_colon _) (block_indents hbody))

theorem legacyWith_draws (ha : a.Judged s) (ho : Option.Rel Judged o m)
    (hbody : Forall₂ StmtView.Sketched body bs) :
    (legacyWith a o body).draft.Draws (compound bs []).outline :=
  Draws.demand_bind ((context_judged ha ho).before fun _ =>
    Draws.clause (Text.getLast?_colon _) (block_indents hbody))

section Handlers

variable {handlers : List (Bool → Draft Unit)} {hs : List Sketch}

theorem tryClauses_draws (hbody : Forall₂ StmtView.Sketched body bs)
    (hhandlers : Forall₂ (fun h k => ∀ star, (h star).Draws k.outline) handlers hs) (star : Bool)
    (horelse : Forall₂ StmtView.Sketched orelse os) :
    (tryClauses body handlers star orelse).Draws (Sketch.clauses bs hs os) := by
  have heach : (Draft.each (handlers.map (· star))).Draws (together hs) := by
    apply Draws.each
    rw [forall₂_map_left_iff]
    exact hhandlers.imp fun _ _ h => h star
  exact Draws.clause_bind rfl (block_indents hbody)
    (heach.bind fun _ => optionalBlock_draws rfl horelse)

theorem tryBlock_draws {k : Kind} (star : Bool) (hbody : Forall₂ StmtView.Sketched body bs)
    (hhandlers : Forall₂ (fun h k => ∀ star, (h star).Draws k.outline) handlers hs)
    (horelse : Forall₂ StmtView.Sketched orelse os) (hfinal : Forall₂ StmtView.Sketched final fs) :
    (tryBlock k star body handlers orelse final).draft.Draws (trying bs hs os fs).outline :=
  Draws.demand_bind (Draws.refuse_bind fun _ => Draws.refuse_bind fun _ =>
    (tryClauses_draws hbody hhandlers star horelse).bind fun _ => optionalBlock_draws rfl hfinal)

theorem tryExcept_sketched (hbody : Forall₂ StmtView.Sketched body bs)
    (hhandlers : Forall₂ (fun h k => ∀ star, (h star).Draws k.outline) handlers hs)
    (horelse : Forall₂ StmtView.Sketched orelse os) :
    (tryExcept body handlers orelse).Sketched (handling bs hs os) := by
  have hclauses := tryClauses_draws hbody hhandlers false horelse
  refine ⟨Draws.demand_bind (Draws.refuse_bind fun _ => hclauses), ?_⟩
  cases hhandlers with
  | nil => rfl
  | cons => exact ⟨rfl, hclauses⟩

theorem finallyBody_draws (hbody : Forall₂ StmtView.Sketched body bs) :
    (finallyBody body).Draws (beforeFinally bs) := by
  have hnested : (do Draft.emit "try:"; block body : Draft Unit).Draws [headed (together bs)] :=
    Draws.clause rfl (block_indents hbody)
  cases hbody with
  | nil => exact hnested
  | cons h hs =>
    cases hs with
    | cons => exact hnested
    | nil =>
      have hform := h.form
      unfold finallyBody
      dsimp only
      split
      · next clauses hclauses =>
        rw [hclauses] at hform
        rw [beforeFinally, if_pos hform.1]
        exact Draws.demand_bind hform.2
      · next hother =>
        rw [beforeFinally, if_neg (by simp [h.joins_eq_false hother])]
        exact hnested

theorem tryFinally_draws (hbody : Forall₂ StmtView.Sketched body bs)
    (hfinal : Forall₂ StmtView.Sketched final fs) :
    (tryFinally body final).draft.Draws (finishing bs fs).outline :=
  Draws.demand_bind ((finallyBody_draws hbody).bind fun _ =>
    Draws.clause rfl (block_indents hfinal))

theorem exceptHandler_draws {name : Option String} (ho : Option.Rel Judged o m)
    (hbody : Forall₂ StmtView.Sketched body bs) (star : Bool) :
    (exceptHandler o name body star).Draws (compound bs []).outline := by
  apply Draws.demand_bind
  cases ho with
  | none =>
    exact Draws.refuse_bind fun _ => Draws.refuse_bind fun _ =>
      Draws.clause (Text.getLast?_colon _) (block_indents hbody)
  | some ha =>
    exact ha.text.before fun _ =>
      Draws.clause (Text.getLast?_colon _) (block_indents hbody)

theorem legacyExceptHandler_draws (ho : Option.Rel Judged o m) (hp : Option.Rel Judged p n)
    (hbody : Forall₂ StmtView.Sketched body bs) (star : Bool) :
    (legacyExceptHandler o p body star).Draws (compound bs []).outline := by
  apply Draws.demand_bind
  cases ho with
  | none =>
    exact Draws.refuse_bind fun _ => Draws.refuse_bind fun _ =>
      Draws.clause rfl (block_indents hbody)
  | some ha =>
    exact Draws.refuse_bind fun _ => ha.text.before fun _ =>
      (after_judged hp).before fun _ =>
        Draws.clause (Text.getLast?_colon _) (block_indents hbody)

end Handlers

theorem matchCase_draws {pattern : Draft String} {k : Node .pattern}
    (hpattern : View.Judged .pattern pattern k) (ho : Option.Rel Judged o m)
    (hbody : Forall₂ StmtView.Sketched body bs) :
    (matchCase pattern o body).Draws (compound bs []).outline :=
  Draws.demand_bind (hpattern.before fun _ =>
    (after_judged ho).before fun _ =>
      Draws.clause (Text.getLast?_colon _) (block_indents hbody))

theorem matchBlock_draws {cases : List (Draft Unit)} {cs : List Sketch} (ha : a.Judged s)
    (hcases : Forall₂ (fun x k => x.Draws k.outline) cases cs) :
    (matchBlock a cases).draft.Draws (compound cs []).outline := by
  refine Draws.demand_bind (Draws.refuse_bind fun hsome => ha.text.before fun _ =>
    Draws.clause (Text.getLast?_colon _) ?_)
  have heach : (Draft.each cases).Draws (together cs) := Draws.each hcases
  cases hcases with
  | nil => cases hsome
  | @cons x k xs ks h hs =>
    rw [suite_together]
    exact heach.indents (together_ne_nil k ks)

section Simple

theorem returnStmt_draws (ho : Option.Rel Judged o m) : (returnStmt o).draft.Draws [.plain] :=
  Draws.demand_bind ((after_judged ho).before fun _ => Draws.emit _)

theorem delete_draws (hes : Forall₂ Judged es ts) : (delete es).draft.Draws [.plain] :=
  Draws.demand_bind (Draws.refuse_bind fun _ =>
    (joined_judged hes).before fun _ => Draws.emit _)

theorem assign_draws (hes : Forall₂ Judged es ts) (ha : a.Judged s) :
    (assign es a).draft.Draws [.plain] :=
  have hall := rel_append hes (Forall₂.cons ha Forall₂.nil)
  Draws.demand_bind (Draws.refuse_bind fun _ =>
    (joined_judged hall).before fun _ => Draws.emit _)

theorem augAssign_draws {op : Kind} (ha : a.Judged s) (hb : b.Judged t) :
    (augAssign a op b).draft.Draws [.plain] :=
  Draws.demand_bind (Draws.demand_bind (ha.text.before fun _ =>
    hb.text.before fun _ => Draws.emit _))

theorem annAssign_draws {simple : Bool} (ha : a.Judged s) (hb : b.Judged t)
    (ho : Option.Rel Judged o m) : (annAssign a b o simple).draft.Draws [.plain] :=
  Draws.demand_bind (ha.text.before fun _ => hb.text.before fun _ =>
    (after_judged ho).before fun _ => Draws.emit _)

theorem print_draws {newline : Bool} (ho : Option.Rel Judged o m) (hes : Forall₂ Judged es ts) :
    (print o es newline).draft.Draws [.plain] :=
  Draws.demand_bind ((after_judged ho).before fun _ =>
    (printedValues_judged hes).before fun _ => Draws.emit _)

theorem raise_draws (ho : Option.Rel Judged o m) (hp : Option.Rel Judged p n) :
    (raise o p).draft.Draws [.plain] :=
  Draws.demand_bind (Draws.refuse_bind fun _ => (after_judged ho).before fun _ =>
    (after_judged hp).before fun _ => Draws.emit _)

theorem legacyRaise_draws (ho : Option.Rel Judged o l) (hp : Option.Rel Judged p m)
    (hq : Option.Rel Judged q n) : (legacyRaise o p q).draft.Draws [.plain] := by
  apply Draws.demand_bind
  cases ho with
  | none => exact Draws.refuse_bind fun _ => Draws.emit _
  | some ha =>
    exact ha.text.before fun _ =>
      (raisedInstance_judged hp hq).before fun _ =>
        (after_judged hq).before fun _ => Draws.emit _

theorem assert_draws (ha : a.Judged s) (ho : Option.Rel Judged o m) :
    (assert a o).draft.Draws [.plain] :=
  Draws.demand_bind (ha.text.before fun _ =>
    (after_judged ho).before fun _ => Draws.emit _)

theorem importNames_draws {names : List (Draft String)} {ns : List (Node .importedName)}
    (hnames : Forall₂ (View.Judged .importedName) names ns) :
    (importNames names).draft.Draws [.plain] :=
  Draws.demand_bind (Draws.refuse_bind fun _ =>
    (JudgedWith.all hnames).before fun _ => Draws.emit _)

theorem importFrom_sketched {source : Option String} {level : UInt32}
    {names : List (Draft String)} {ns : List (Node .importedName)}
    (hnames : Forall₂ (View.Judged .importedName) names ns) :
    (importFrom source names level).Sketched simple := by
  refine ⟨?_, ?_⟩
  · exact Draws.demand_bind (Draws.refuse_bind fun _ => Draws.refuse_bind fun _ =>
      (JudgedWith.all hnames).before fun _ => Draws.emit _)
  · change StmtForm.Sketched _ (if isFuture source level then .futureImport else .plain)
    split <;> rfl

theorem exec_draws (ha : a.Judged s) (ho : Option.Rel Judged o m) (hp : Option.Rel Judged p n) :
    (exec a o p).draft.Draws [.plain] :=
  Draws.demand_bind (ha.text.before fun _ => Draws.refuse_bind fun _ =>
    (after_judged ho).before fun _ =>
      (after_judged hp).before fun _ => Draws.emit _)

theorem typeAlias_draws {params : List (Draft String)} {ps : List (Node .typeParam)}
    (ha : a.Judged s) (hparams : Forall₂ (View.Judged .typeParam) params ps) (hb : b.Judged t) :
    (typeAlias a params b).draft.Draws [.plain] :=
  Draws.demand_bind (ha.text.before fun _ =>
    (Pattern.typeParams_judged hparams).before fun _ =>
      hb.text.before fun _ => Draws.emit _)

theorem declaration_draws {k : Kind} {keyword : String} {names : List String} :
    (declaration k keyword names).draft.Draws [.plain] :=
  Draws.demand_bind (Draws.refuse_bind fun _ => Draws.emit _)

theorem exprStmt_sketched (ha : a.Judged s) : (exprStmt a).Sketched simple := by
  refine ⟨?_, ?_⟩
  · exact Draws.demand_bind (ha.text.before fun _ => Draws.emit _)
  · change StmtForm.Sketched _ (exprForm a)
    unfold exprForm
    split
    · exact ⟨rfl, rfl⟩
    · rfl

theorem word_draws {k : Kind} {text : String} : (word k text).draft.Draws [.plain] :=
  Draws.demand_bind (Draws.emit text)

end Simple

end Render.Statement

end Unparse
