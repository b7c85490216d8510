import Unparse.Proofs.Form.Pattern
import Unparse.Render.Statement

/-! The verdicts on statements, handlers and roots. A docstring or a nested try statement may
stand in another form than its own draft, and is judged the same in both. -/
namespace Unparse.Render.Statement

open Draft List ExprView

variable {a b : ExprView} {s t : Node .expr} {es : List ExprView} {ts : List (Node .expr)}
  {o p q : Option ExprView} {l m n : Option (Node .expr)} {body orelse final : List StmtView}
  {bs os fs : List (Node .stmt)}

section Blocks

theorem drafts_judged (hbody : Forall₂ StmtView.Judged body bs) :
    (drafts body).Judged true (.total Tree.verdict bs) := by
  apply JudgedWith.each
  rw [forall₂_map_left_iff]
  exact hbody.imp fun _ _ h => h.draft

theorem block_judged (hbody : Forall₂ StmtView.Judged body bs) :
    (block body).Judged true (.total Tree.verdict bs) := by
  apply JudgedWith.block
  cases hbody with
  | nil => exact JudgedWith.emit "pass"
  | cons h hs => exact drafts_judged (Forall₂.cons h hs)

theorem docstring_judged (k : Kind) (text : String) : (docstring k text).Judged true 0 :=
  JudgedWith.demand_bind (JudgedWith.demand_bind (JudgedWith.verbatim _))

theorem docBlock_judged (hbody : Forall₂ StmtView.Judged body bs) :
    (docBlock body).Judged true (.total Tree.verdict bs) := by
  cases hbody with
  | nil => exact block_judged Forall₂.nil
  | @cons first t rest ts h hs =>
    have hform := h.form
    unfold docBlock
    dsimp only
    split
    · next value text hdocstring =>
      rw [hdocstring] at hform
      refine (JudgedWith.block ((docstring_judged value text).bind fun _ =>
        drafts_judged hs)).congr ?_
      rw [Verdict.total_cons, show t.verdict = 0 from hform]
    · exact block_judged (Forall₂.cons h hs)

theorem optionalBlock_judged {header : String} (hbody : Forall₂ StmtView.Judged body bs) :
    (optionalBlock header body).Judged true (.total Tree.verdict bs) := by
  cases hbody with
  | nil => exact JudgedWith.pure
  | cons h hs => exact JudgedWith.emit_bind (block_judged (Forall₂.cons h hs))

theorem decorators_judged (hes : Forall₂ Judged es ts) :
    (decorators es).Judged true (.total Tree.verdict ts) := by
  apply JudgedWith.each
  rw [forall₂_map_left_iff]
  exact hes.imp fun _ _ he => he.said.bind_emit

end Blocks

theorem functionDef_judged {k : Kind} {keyword name : String} {args : Bool → Draft String}
    {g : Node .arguments} {params : List (Draft String)} {ps : List (Node .typeParam)}
    (hargs : View.Judged .arguments args g) (hbody : Forall₂ StmtView.Judged body bs)
    (hes : Forall₂ Judged es ts) (ho : Option.Rel Judged o m)
    (hparams : Forall₂ (View.Judged .typeParam) params ps) :
    (functionDef k keyword name args body es o params).draft.Judged true
      (.of true [g.verdict, .total Tree.verdict bs, .total Tree.verdict ts,
        .maybe Tree.verdict m, .total Tree.verdict ps]) := by
  refine (JudgedWith.demand_bind ((decorators_judged hes).bind fun _ =>
    (Pattern.typeParams_judged hparams).bind fun _ => (hargs true).laying.bind fun _ =>
      (after_judged ho).bind fun _ => JudgedWith.emit_bind (docBlock_judged hbody))).congr ?_
  simp only [Bool.true_or, Verdict.of_true, sum_cons, sum_nil]
  abel

theorem classDef_judged {name : String} {keywords params : List (Draft String)}
    {ks : List (Node .keyword)} {ps : List (Node .typeParam)} {ds : List ExprView}
    {us : List (Node .expr)} (hds : Forall₂ Judged ds us)
    (hkeywords : Forall₂ (View.Judged .keyword) keywords ks)
    (hbody : Forall₂ StmtView.Judged body bs) (hes : Forall₂ Judged es ts)
    (hparams : Forall₂ (View.Judged .typeParam) params ps) :
    (classDef name ds keywords body es params).draft.Judged true
      (.of true [.total Tree.verdict us, .total Tree.verdict ks, .total Tree.verdict bs,
        .total Tree.verdict ts, .total Tree.verdict ps]) := by
  refine (JudgedWith.demand_bind ((decorators_judged hes).bind fun _ =>
    (texts_judged hds).bind fun _ => (JudgedWith.all hkeywords).laying.bind fun _ =>
      (Pattern.typeParams_judged hparams).bind fun _ =>
        JudgedWith.emit_bind (docBlock_judged hbody))).congr ?_
  simp only [Verdict.of_true, sum_cons, sum_nil]
  abel

theorem returnStmt_judged (ho : Option.Rel Judged o m) :
    (returnStmt o).draft.Judged true (.of true [.maybe Tree.verdict m]) :=
  (JudgedWith.demand_bind (after_judged ho).bind_emit).congr (by simp)

theorem delete_judged (hes : Forall₂ Judged es ts) :
    (delete es).draft.Judged true (.of (!ts.isEmpty) [.total Tree.verdict ts]) := by
  refine (JudgedWith.demand_bind (JudgedWith.refuse_empty hes fun _ =>
    (joined_judged hes).bind_emit)).congr ?_
  simp [Verdict.of]

theorem assign_judged (hes : Forall₂ Judged es ts) (ha : a.Judged s) :
    (assign es a).draft.Judged true
      (.of (!ts.isEmpty) [.total Tree.verdict ts, s.verdict]) := by
  have hall := rel_append hes (Forall₂.cons ha Forall₂.nil)
  refine (JudgedWith.demand_bind (JudgedWith.refuse_empty hes fun _ =>
    (joined_judged hall).bind_emit)).congr ?_
  simp [Verdict.of]

theorem augAssign_judged {op : Kind} {k : Node .operator} (ha : a.Judged s) (hk : k.verdict = 0)
    (hb : b.Judged t) :
    (augAssign a op b).draft.Judged true (.of true [s.verdict, k.verdict, t.verdict]) := by
  refine (JudgedWith.demand_bind (JudgedWith.demand_bind
    (ha.said.bind fun _ => hb.said.bind_emit))).congr ?_
  simp [hk]

theorem annAssign_judged {simple : Bool} (ha : a.Judged s) (hb : b.Judged t)
    (ho : Option.Rel Judged o m) :
    (annAssign a b o simple).draft.Judged true
      (.of true [s.verdict, t.verdict, .maybe Tree.verdict m]) :=
  (JudgedWith.demand_bind (ha.said.bind fun _ => hb.said.bind fun _ =>
    (after_judged ho).bind_emit)).congr (by simp)

theorem printedValues_judged {lays dest newline : Bool} (hes : Forall₂ Judged es ts) :
    (printedValues dest newline es).Judged lays (.total Tree.verdict ts) := by
  cases hes with
  | nil => exact JudgedWith.pure
  | cons he hes => exact (joined_judged (Forall₂.cons he hes)).bind_pure

theorem print_judged {newline : Bool} (ho : Option.Rel Judged o m) (hes : Forall₂ Judged es ts) :
    (print o es newline).draft.Judged true
      (.of true [.maybe Tree.verdict m, .total Tree.verdict ts]) :=
  (JudgedWith.demand_bind ((after_judged ho).bind fun _ =>
    (printedValues_judged hes).bind_emit)).congr (by simp)

theorem forLoop_judged {k : Kind} {keyword : String} (ha : a.Judged s) (hb : b.Judged t)
    (hbody : Forall₂ StmtView.Judged body bs) (horelse : Forall₂ StmtView.Judged orelse os) :
    (forLoop k keyword a b body orelse).draft.Judged true
      (.of true [s.verdict, t.verdict, .total Tree.verdict bs, .total Tree.verdict os]) :=
  (JudgedWith.demand_bind (ha.said.bind fun _ => hb.said.bind fun _ => JudgedWith.emit_bind
    ((block_judged hbody).bind fun _ => optionalBlock_judged horelse))).congr (by simp)

theorem tested_judged {k : Kind} {keyword : String} (ha : a.Judged s)
    (hbody : Forall₂ StmtView.Judged body bs) (horelse : Forall₂ StmtView.Judged orelse os) :
    (tested k keyword a body orelse).draft.Judged true
      (.of true [s.verdict, .total Tree.verdict bs, .total Tree.verdict os]) :=
  (JudgedWith.demand_bind (ha.said.bind fun _ => JudgedWith.emit_bind
    ((block_judged hbody).bind fun _ => optionalBlock_judged horelse))).congr (by simp)

theorem context_judged {lays : Bool} (ha : a.Judged s) (ho : Option.Rel Judged o m) :
    (context a o).Judged lays (s.verdict + .maybe Tree.verdict m) :=
  ha.said.bind fun _ => (after_judged ho).bind_pure

theorem withItem_judged (ha : a.Judged s) (ho : Option.Rel Judged o m) :
    (withItem a o).Judged false (.of true [s.verdict, .maybe Tree.verdict m]) :=
  (JudgedWith.demand_bind (context_judged ha ho)).congr (by simp)

theorem withBlock_judged {k : Kind} {keyword : String} {items : List (Draft String)}
    {ws : List (Node .withItem)} (hitems : Forall₂ (View.Judged .withItem) items ws)
    (hbody : Forall₂ StmtView.Judged body bs) :
    (withBlock k keyword items body).draft.Judged true
      (.of (!ws.isEmpty) [.total Tree.verdict ws, .total Tree.verdict bs]) := by
  refine (JudgedWith.demand_bind (JudgedWith.refuse_empty hitems fun _ =>
    (JudgedWith.all hitems).laying.bind fun _ =>
      JudgedWith.emit_bind (block_judged hbody))).congr ?_
  simp [Verdict.of]

theorem legacyWith_judged (ha : a.Judged s) (ho : Option.Rel Judged o m)
    (hbody : Forall₂ StmtView.Judged body bs) :
    (legacyWith a o body).draft.Judged true
      (.of true [s.verdict, .maybe Tree.verdict m, .total Tree.verdict bs]) :=
  (JudgedWith.demand_bind ((context_judged ha ho).bind fun _ =>
    JudgedWith.emit_bind (block_judged hbody))).congr (by simp [add_assoc])

/-- The second of two optional parts needs the first. -/
theorem isNone_and_isSome (ho : Option.Rel Judged o m) (hp : Option.Rel Judged p n) :
    ((o.isNone && p.isSome) = false) = ((m.isSome || n.isNone) = true) := by
  cases ho <;> cases hp <;> simp

theorem raise_judged (ho : Option.Rel Judged o m) (hp : Option.Rel Judged p n) :
    (raise o p).draft.Judged true
      (.of (m.isSome || n.isNone) [.maybe Tree.verdict m, .maybe Tree.verdict n]) := by
  refine (JudgedWith.demand_bind (JudgedWith.refuse_bind fun _ =>
    (after_judged ho).bind fun _ => (after_judged hp).bind_emit)).congr ?_
  simp only [Verdict.of, isNone_and_isSome ho hp, sum_cons, sum_nil, add_zero]

theorem raisedInstance_judged {lays : Bool} (ho : Option.Rel Judged o m)
    (hp : Option.Rel Judged p n) : (raisedInstance o p).Judged lays (.maybe Tree.verdict m) := by
  cases ho with
  | none => cases hp <;> exact JudgedWith.pure
  | some ha => exact ha.said.bind_pure

theorem legacyRaise_judged (ho : Option.Rel Judged o l) (hp : Option.Rel Judged p m)
    (hq : Option.Rel Judged q n) :
    (legacyRaise o p q).draft.Judged true
      (.of (l.isSome || (m.isNone && n.isNone))
        [.maybe Tree.verdict l, .maybe Tree.verdict m, .maybe Tree.verdict n]) := by
  apply JudgedWith.demand_bind
  cases ho with
  | none =>
    apply JudgedWith.refuse_bind_of
    · intro hpass
      cases hp with
      | none =>
        cases hq with
        | none => exact (JudgedWith.emit "raise").congr (by simp)
        | some => cases hpass
      | some => cases hpass
    · intro hrefused hformed
      cases hp <;> cases hq <;> simp [Verdict.of] at hrefused hformed
  | some ha =>
    exact (ha.said.bind fun _ => (raisedInstance_judged hp hq).bind fun _ =>
      (after_judged hq).bind_emit).congr (by simp)

section Handlers

variable {handlers : List (Bool → Draft Unit)} {hs : List (Node .handler)}

theorem tryClauses_judged (hbody : Forall₂ StmtView.Judged body bs)
    (hhandlers : Forall₂ (View.Judged .handler) handlers hs) (star : Bool)
    (horelse : Forall₂ StmtView.Judged orelse os) :
    (tryClauses body handlers star orelse).Judged true
      (.of (!star || hs.all Node.isTyped)
        [.total Tree.verdict bs, .total Tree.verdict hs, .total Tree.verdict os]) := by
  have heach : (Draft.each (handlers.map (· star))).Judged true
      (.total (fun h => .of (!star || h.isTyped) [h.verdict]) hs) := by
    apply JudgedWith.each
    rw [forall₂_map_left_iff]
    exact hhandlers.imp fun _ _ h => h star
  refine (JudgedWith.emit_bind ((block_judged hbody).bind fun _ => heach.bind fun _ =>
    optionalBlock_judged horelse)).congr ?_
  rw [Verdict.total_of]
  cases star with
  | false => simp [Verdict.of]
  | true =>
    simp only [Verdict.of, sum_cons, sum_nil, Bool.not_true, Bool.false_or]
    abel

theorem tryBlock_judged {k : Kind} (star : Bool) (hbody : Forall₂ StmtView.Judged body bs)
    (hhandlers : Forall₂ (View.Judged .handler) handlers hs)
    (horelse : Forall₂ StmtView.Judged orelse os) (hfinal : Forall₂ StmtView.Judged final fs) :
    (tryBlock k star body handlers orelse final).draft.Judged true
      (.of ((!star || hs.all Node.isTyped) && Kind.completes hs os fs)
        [.total Tree.verdict bs, .total Tree.verdict hs, .total Tree.verdict os,
          .total Tree.verdict fs]) := by
  refine (JudgedWith.demand_bind (JudgedWith.refuse_bind fun _ => JudgedWith.refuse_bind fun _ =>
    (tryClauses_judged hbody hhandlers star horelse).bind fun _ =>
      optionalBlock_judged hfinal)).congr ?_
  have hcompletes : (Kind.completes hs os fs = true) =
      ((handlers.isEmpty && final.isEmpty) = false ∧
        (handlers.isEmpty && !orelse.isEmpty) = false) := by
    rw [Kind.completes, forall₂_isEmpty hhandlers, forall₂_isEmpty hfinal, forall₂_isEmpty horelse]
    cases hs.isEmpty <;> cases fs.isEmpty <;> cases os.isEmpty <;> decide
  simp only [Verdict.of, Bool.and_eq_true, hcompletes, Verdict.asks_and, sum_cons, sum_nil]
  abel

theorem tryExcept_judged (hbody : Forall₂ StmtView.Judged body bs)
    (hhandlers : Forall₂ (View.Judged .handler) handlers hs)
    (horelse : Forall₂ StmtView.Judged orelse os) :
    (tryExcept body handlers orelse).JudgedAs
      (.of (!hs.isEmpty)
        [.total Tree.verdict bs, .total Tree.verdict hs, .total Tree.verdict os]) := by
  have hclauses := tryClauses_judged hbody hhandlers false horelse
  constructor
  · refine (JudgedWith.demand_bind (JudgedWith.refuse_empty hhandlers fun _ => hclauses)).congr ?_
    simp [Verdict.of]
  · cases hhandlers with
    | nil => trivial
    | cons => exact hclauses

theorem finallyBody_judged (hbody : Forall₂ StmtView.Judged body bs) :
    (finallyBody body).Judged true (.total Tree.verdict bs) := by
  have hnested : (do Draft.emit "try:"; block body : Draft Unit).Judged true
      (.total Tree.verdict bs) := JudgedWith.emit_bind (block_judged hbody)
  cases hbody with
  | nil => exact hnested
  | cons h hs =>
    cases hs with
    | cons => exact hnested
    | nil =>
      have hform := h.form
      unfold finallyBody
      dsimp only
      split
      · next clauses hclauses =>
        rw [hclauses] at hform
        have hjudged : clauses.Judged true _ := hform
        exact (JudgedWith.demand_bind hjudged).congr (by simp)
      · exact hnested

theorem tryFinally_judged (hbody : Forall₂ StmtView.Judged body bs)
    (hfinal : Forall₂ StmtView.Judged final fs) :
    (tryFinally body final).draft.Judged true
      (.of true [.total Tree.verdict bs, .total Tree.verdict fs]) :=
  (JudgedWith.demand_bind ((finallyBody_judged hbody).bind fun _ =>
    JudgedWith.emit_bind (block_judged hfinal))).congr (by simp)

theorem exceptHandler_judged {name id : Option String} (ho : Option.Rel Judged o m)
    (hname : Option.Rel Eq name id) (hbody : Forall₂ StmtView.Judged body bs) (star : Bool) :
    (exceptHandler o name body star).Judged true
      (.of (!star || m.isSome)
        [.of (m.isSome || id.isNone) [.maybe Tree.verdict m, .total Tree.verdict bs]]) := by
  apply JudgedWith.demand_bind
  cases ho with
  | none =>
    refine (JudgedWith.refuse_bind fun _ => JudgedWith.refuse_bind fun _ =>
      JudgedWith.emit_bind (block_judged hbody)).congr ?_
    cases hname with
    | none => simp [Verdict.of]
    | some =>
      simp only [Verdict.of]
      simp [add_left_comm]
  | some ha =>
    exact (ha.said.bind fun _ => JudgedWith.emit_bind (block_judged hbody)).congr (by simp)

theorem legacyExceptHandler_judged (ho : Option.Rel Judged o m) (hp : Option.Rel Judged p n)
    (hbody : Forall₂ StmtView.Judged body bs) (star : Bool) :
    (legacyExceptHandler o p body star).Judged true
      (.of (!star || false)
        [.of (m.isSome || n.isNone)
          [.maybe Tree.verdict m, .maybe Tree.verdict n, .total Tree.verdict bs]]) := by
  apply JudgedWith.demand_bind
  cases ho with
  | none =>
    refine (JudgedWith.refuse_bind fun _ => JudgedWith.refuse_bind_of
      (w := .of n.isNone [.maybe Tree.verdict n, .total Tree.verdict bs]) ?_ ?_).congr ?_
    · intro hpass
      cases hp with
      | none => exact (JudgedWith.emit_bind (block_judged hbody)).congr (by simp)
      | some => cases hpass
    · intro hrefused hformed
      cases hp with
      | none => cases hrefused
      | some => simp [Verdict.of] at hformed
    · simp [Verdict.of]
  | some ha =>
    refine (JudgedWith.refuse_bind fun _ => ha.said.bind fun _ => (after_judged hp).bind fun _ =>
      JudgedWith.emit_bind (block_judged hbody)).congr ?_
    simp [Verdict.of]

end Handlers

theorem assert_judged (ha : a.Judged s) (ho : Option.Rel Judged o m) :
    (assert a o).draft.Judged true (.of true [s.verdict, .maybe Tree.verdict m]) :=
  (JudgedWith.demand_bind (ha.said.bind fun _ => (after_judged ho).bind_emit)).congr (by simp)

section Imports

variable {names : List (Draft String)} {ns : List (Node .importedName)}

theorem importedName_judged {name : String} {asname : Option String} :
    (importedName name asname).Judged false (.of true []) := by
  apply JudgedWith.demand_bind
  rw [Verdict.of_true]
  exact JudgedWith.pure

theorem importNames_judged (hnames : Forall₂ (View.Judged .importedName) names ns) :
    (importNames names).draft.Judged true (.of (!ns.isEmpty) [.total Tree.verdict ns]) := by
  refine (JudgedWith.demand_bind (JudgedWith.refuse_empty hnames fun _ =>
    (JudgedWith.all hnames).laying.bind_emit)).congr ?_
  simp [Verdict.of]

theorem importFrom_judged {source origin : Option String} {level depth : UInt32}
    (hsource : Option.Rel Eq source origin)
    (hnames : Forall₂ (View.Judged .importedName) names ns) (hlevel : level = depth) :
    (importFrom source names level).JudgedAs
      (.of (!ns.isEmpty && Kind.hasOrigin origin depth) [.total Tree.verdict ns]) := by
  subst hlevel
  constructor
  · refine (JudgedWith.demand_bind (JudgedWith.refuse_empty hnames fun _ =>
      JudgedWith.refuse_bind fun _ => (JudgedWith.all hnames).laying.bind_emit)).congr ?_
    have horigin : (Kind.hasOrigin origin level = true) =
        ((source.isNone && level == 0) = false) := by
      cases hsource <;> simp [Kind.hasOrigin, UInt32.pos_iff_ne_zero]
    simp only [Verdict.of, Bool.and_eq_true, horigin, Verdict.asks_and, sum_cons, sum_nil]
    abel
  · change StmtForm.JudgedAs _ (if isFuture source level then .futureImport else .plain)
    split <;> trivial

end Imports

theorem exec_judged (ha : a.Judged s) (ho : Option.Rel Judged o m) (hp : Option.Rel Judged p n) :
    (exec a o p).draft.Judged true
      (.of (m.isSome || n.isNone)
        [s.verdict, .maybe Tree.verdict m, .maybe Tree.verdict n]) := by
  refine (JudgedWith.demand_bind (ha.said.bind fun _ => JudgedWith.refuse_bind fun _ =>
    (after_judged ho).bind fun _ => (after_judged hp).bind_emit)).congr ?_
  simp only [Verdict.of, isNone_and_isSome ho hp, sum_cons, sum_nil]
  abel

theorem matchCase_judged {pattern : Draft String} {k : Node .pattern}
    (hpattern : View.Judged .pattern pattern k) (ho : Option.Rel Judged o m)
    (hbody : Forall₂ StmtView.Judged body bs) :
    (matchCase pattern o body).Judged true
      (.of true [k.verdict, .maybe Tree.verdict m, .total Tree.verdict bs]) :=
  (JudgedWith.demand_bind (hpattern.laying.bind fun _ => (after_judged ho).bind fun _ =>
    JudgedWith.emit_bind (block_judged hbody))).congr (by simp)

theorem matchBlock_judged {cases : List (Draft Unit)} {cs : List (Node .matchCase)}
    (ha : a.Judged s) (hcases : Forall₂ (View.Judged .matchCase) cases cs) :
    (matchBlock a cases).draft.Judged true
      (.of (!cs.isEmpty) [s.verdict, .total Tree.verdict cs]) := by
  refine (JudgedWith.demand_bind (JudgedWith.refuse_empty hcases fun _ => ha.said.bind fun _ =>
    JudgedWith.emit_bind (JudgedWith.block (JudgedWith.each hcases)))).congr ?_
  simp [Verdict.of]

theorem typeAlias_judged {params : List (Draft String)} {ps : List (Node .typeParam)}
    (ha : a.Judged s) (hparams : Forall₂ (View.Judged .typeParam) params ps) (hb : b.Judged t) :
    (typeAlias a params b).draft.Judged true
      (.of true [s.verdict, .total Tree.verdict ps, t.verdict]) :=
  (JudgedWith.demand_bind (ha.said.bind fun _ => (Pattern.typeParams_judged hparams).bind fun _ =>
    hb.said.bind_emit)).congr (by simp)

theorem declaration_judged {k : Kind} {keyword : String} {names ids : List String}
    (hnames : Forall₂ Eq names ids) :
    (declaration k keyword names).draft.Judged true (.of (!ids.isEmpty) []) := by
  refine (JudgedWith.demand_bind
    (JudgedWith.refuse_empty hnames fun _ => JudgedWith.emit _)).congr ?_
  simp [Verdict.of]

theorem word_judged {k : Kind} {text : String} :
    (word k text).draft.Judged true (.of true []) :=
  (JudgedWith.demand_bind (JudgedWith.emit text)).congr (by simp)

theorem exprStmt_judged (ha : a.Judged s) : (exprStmt a).JudgedAs (.of true [s.verdict]) := by
  constructor
  · exact (JudgedWith.demand_bind ha.said.bind_emit).congr (by simp)
  · have hform := ha.form
    change (exprForm a).JudgedAs _
    unfold exprForm
    split
    · next text htext =>
      rw [htext] at hform
      change Verdict.of true [s.verdict] = 0
      simp [show s.verdict = 0 from hform.2]
    · trivial

section Roots

/-- The order of statements plays no part in the verdict on them. -/
theorem hoisted_judged (hbody : Forall₂ StmtView.Judged body bs) :
    (drafts (hoisted body)).Judged true (.total Tree.verdict bs) := by
  have hperm : hoisted body ~ body := filter_append_perm isFutureImport body
  obtain ⟨ms, hms, hperm'⟩ := perm_comp_forall₂ hperm hbody
  refine (drafts_judged hms).congr ?_
  exact (hperm'.map Tree.verdict).sum_eq

theorem module_judged (hbody : Forall₂ StmtView.Judged body bs) :
    (module body).Judged true (.of true [.total Tree.verdict bs]) := by
  apply JudgedWith.demand_bind
  rw [Verdict.of_true, sum_singleton]
  cases hbody with
  | nil => exact JudgedWith.pure
  | @cons first t rest ts h hs =>
    have hform := h.form
    dsimp only
    split
    · next value text hdocstring =>
      rw [hdocstring] at hform
      refine ((docstring_judged value text).bind fun _ => hoisted_judged hs).congr ?_
      rw [Verdict.total_cons, show t.verdict = 0 from hform]
    · exact hoisted_judged (Forall₂.cons h hs)

theorem sequence_judged {k : Kind} (hbody : Forall₂ StmtView.Judged body bs) :
    (sequence k body).Judged true (.of true [.total Tree.verdict bs]) :=
  (JudgedWith.demand_bind (drafts_judged hbody)).congr (by simp)

theorem expression_judged (ha : a.Judged s) :
    (expression a).Judged true (.of true [s.verdict]) :=
  (JudgedWith.demand_bind ha.said.bind_emit).congr (by simp)

end Roots

end Unparse.Render.Statement
