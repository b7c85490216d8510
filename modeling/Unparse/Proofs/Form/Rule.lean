import Unparse.Proofs.Form.FString
import Unparse.Proofs.Form.Parameters
import Unparse.Proofs.Form.Statement
import Unparse.Render

/-! The verdict on every rule, and on every tree. -/
namespace Unparse

open Draft Render

namespace AnyNode

variable {n : AnyNode}

theorem verdict_of_none (h : n.segments? = none) : n.verdict = .asks (n.isWellFormed = true) := by
  ext <;> simp [verdict, HasQuote, HasBackslash, h]

theorem verdict_of_segments {x : Draft (List Segment)} (h : n.segments? = x.outcome.toOption) :
    n.verdict = .asks (n.isWellFormed = true) + x.standing := by
  have hsome (segments : List Segment) :
      n.segments? = some segments ↔ x.outcome = .ok segments := by
    rw [h]
    cases x.outcome <;> simp [Except.toOption]
  ext <;> simp [verdict, HasQuote, HasBackslash, standing, hsome]

end AnyNode

theorem ExprView.JudgedAs.plain {f : Family} {w : Verdict} {e : ExprView} {t : Node f}
    (hkind : e.kind = t.kind) (htext : e.text.Judged false w) (hform : e.form = .plain)
    (hplain : t.isText = false ∧ t.kind.isFString = false) : e.JudgedAs w t where
  kind := hkind
  text := htext
  form := by
    rw [hform]
    exact hplain

namespace Render

theorem segments?_rule {k : Kind} (hk : k.isFString = false) (v : Value View k.shape) :
    View.segments? k.place (rule k v) = none := by
  cases k with
  | joinedStr => cases hk
  | formattedValue => cases hk
  | constant =>
    obtain ⟨value, _⟩ := v
    cases value <;> rfl
  | num =>
    obtain ⟨n, _⟩ := v
    cases n <;> rfl
  | _ => rfl

end Render

namespace Tree

variable {k : Kind} (fields : Tree k.shape) (mark : Mark k.place)

theorem verdict_node (hk : k.isFString = false) :
    (Tree.node k fields mark).verdict =
      .asks (k.isWellFormed fields.values = true) + Value.verdict k.shape fields.values := by
  have hsegments : AnyNode.segments? ⟨k.place, .node k fields mark⟩ = none :=
    segments?_rule hk _
  rw [verdict, AnyNode.verdict_of_none hsegments, verdict_values]
  rfl

theorem verdict_segments {x : Draft (List Segment)}
    (h : AnyNode.segments? ⟨k.place, .node k fields mark⟩ = x.outcome.toOption) :
    (Tree.node k fields mark).verdict =
      .asks (k.isWellFormed fields.values = true) + Value.verdict k.shape fields.values +
        x.standing := by
  rw [verdict, AnyNode.verdict_of_segments h, verdict_values, add_right_comm]
  rfl

end Tree

namespace Render

/-- Every rule but those of f-strings asks for what its kind asks for, and for its fields. -/
theorem rule_judged {k : Kind} (hk : k.isFString = false) {v : Value View k.shape}
    (fields : Tree k.shape) (mark : Mark k.place) (h : Value.Judged k.shape v fields.values) :
    View.JudgedAs
      (.asks (k.isWellFormed fields.values = true) + Value.verdict k.shape fields.values) k.place
      (rule k v) (.node k fields mark) := by
  -- For a given kind its condition and the verdict on its fields are found by computation.
  cases k with
  | module =>
    obtain ⟨hbody, _⟩ := h
    exact Statement.module_judged hbody
  | interactive =>
    obtain ⟨hbody, _⟩ := h
    exact Statement.sequence_judged hbody
  | expression =>
    obtain ⟨hbody, _⟩ := h
    exact Statement.expression_judged hbody
  | suite =>
    obtain ⟨hbody, _⟩ := h
    exact Statement.sequence_judged hbody
  | functionDef =>
    obtain ⟨_, hargs, hbody, hdecorators, hreturns, htypeParams, _⟩ := h
    exact ⟨Statement.functionDef_judged hargs hbody hdecorators hreturns htypeParams, trivial⟩
  | asyncFunctionDef =>
    obtain ⟨_, hargs, hbody, hdecorators, hreturns, htypeParams, _⟩ := h
    exact ⟨Statement.functionDef_judged hargs hbody hdecorators hreturns htypeParams, trivial⟩
  | classDef =>
    obtain ⟨_, hbases, hkeywords, hbody, hdecorators, htypeParams, _⟩ := h
    exact ⟨Statement.classDef_judged hbases hkeywords hbody hdecorators htypeParams, trivial⟩
  | returnStmt =>
    obtain ⟨hvalue, _⟩ := h
    exact ⟨Statement.returnStmt_judged hvalue, trivial⟩
  | delete =>
    obtain ⟨htargets, _⟩ := h
    exact ⟨Statement.delete_judged htargets, trivial⟩
  | assign =>
    obtain ⟨htargets, hvalue, _⟩ := h
    exact ⟨Statement.assign_judged htargets hvalue, trivial⟩
  | augAssign =>
    obtain ⟨htarget, hop, hvalue, _⟩ := h
    exact ⟨Statement.augAssign_judged htarget hop hvalue, trivial⟩
  | annAssign =>
    obtain ⟨htarget, htype, hvalue, _, _⟩ := h
    exact ⟨Statement.annAssign_judged htarget htype hvalue, trivial⟩
  | print =>
    obtain ⟨hdest, hvalues, _, _⟩ := h
    exact ⟨Statement.print_judged hdest hvalues, trivial⟩
  | forLoop =>
    obtain ⟨htarget, hiter, hbody, horelse, _⟩ := h
    exact ⟨Statement.forLoop_judged htarget hiter hbody horelse, trivial⟩
  | asyncFor =>
    obtain ⟨htarget, hiter, hbody, horelse, _⟩ := h
    exact ⟨Statement.forLoop_judged htarget hiter hbody horelse, trivial⟩
  | whileLoop =>
    obtain ⟨htest, hbody, horelse, _⟩ := h
    exact ⟨Statement.tested_judged htest hbody horelse, trivial⟩
  | conditional =>
    obtain ⟨htest, hbody, horelse, _⟩ := h
    exact ⟨Statement.tested_judged htest hbody horelse, trivial⟩
  | withBlock =>
    obtain ⟨hitems, hbody, _⟩ := h
    exact ⟨Statement.withBlock_judged hitems hbody, trivial⟩
  | asyncWith =>
    obtain ⟨hitems, hbody, _⟩ := h
    exact ⟨Statement.withBlock_judged hitems hbody, trivial⟩
  | legacyWith =>
    obtain ⟨hexpr, hvars, hbody, _⟩ := h
    exact ⟨Statement.legacyWith_judged hexpr hvars hbody, trivial⟩
  | raise =>
    obtain ⟨hexc, hcause, _⟩ := h
    exact ⟨Statement.raise_judged hexc hcause, trivial⟩
  | legacyRaise =>
    obtain ⟨htype, hinst, htback, _⟩ := h
    exact ⟨Statement.legacyRaise_judged htype hinst htback, trivial⟩
  | tryBlock =>
    obtain ⟨hbody, hhandlers, horelse, hfinal, _⟩ := h
    exact ⟨Statement.tryBlock_judged false hbody hhandlers horelse hfinal, trivial⟩
  | tryStar =>
    obtain ⟨hbody, hhandlers, horelse, hfinal, _⟩ := h
    exact ⟨Statement.tryBlock_judged true hbody hhandlers horelse hfinal, trivial⟩
  | tryExcept =>
    obtain ⟨hbody, hhandlers, horelse, _⟩ := h
    exact Statement.tryExcept_judged hbody hhandlers horelse
  | tryFinally =>
    obtain ⟨hbody, hfinal, _⟩ := h
    exact ⟨Statement.tryFinally_judged hbody hfinal, trivial⟩
  | assert =>
    obtain ⟨htest, hmessage, _⟩ := h
    exact ⟨Statement.assert_judged htest hmessage, trivial⟩
  | importNames =>
    obtain ⟨hnames, _⟩ := h
    exact ⟨Statement.importNames_judged hnames, trivial⟩
  | importFrom =>
    obtain ⟨hsource, hnames, hlevel, _⟩ := h
    exact Statement.importFrom_judged hsource hnames hlevel
  | exec =>
    obtain ⟨hbody, hglobals, hlocals, _⟩ := h
    exact ⟨Statement.exec_judged hbody hglobals hlocals, trivial⟩
  | matchBlock =>
    obtain ⟨hsubject, hcases, _⟩ := h
    exact ⟨Statement.matchBlock_judged hsubject hcases, trivial⟩
  | typeAlias =>
    obtain ⟨hname, htypeParams, hvalue, _⟩ := h
    exact ⟨Statement.typeAlias_judged hname htypeParams hvalue, trivial⟩
  | global =>
    obtain ⟨hnames, _⟩ := h
    exact ⟨Statement.declaration_judged hnames, trivial⟩
  | nonlocal =>
    obtain ⟨hnames, _⟩ := h
    exact ⟨Statement.declaration_judged hnames, trivial⟩
  | exprStmt =>
    obtain ⟨hvalue, _⟩ := h
    exact Statement.exprStmt_judged hvalue
  | pass => exact ⟨Statement.word_judged, trivial⟩
  | breakLoop => exact ⟨Statement.word_judged, trivial⟩
  | continueLoop => exact ⟨Statement.word_judged, trivial⟩
  | boolOp =>
    obtain ⟨hop, hvalues, _⟩ := h
    exact .plain rfl (Expression.boolOp_judged hop hvalues) rfl ⟨rfl, rfl⟩
  | namedExpr =>
    obtain ⟨htarget, hvalue, _⟩ := h
    exact .plain rfl (Expression.namedExpr_judged htarget hvalue) rfl ⟨rfl, rfl⟩
  | binOp =>
    obtain ⟨hleft, hop, hright, _⟩ := h
    exact .plain rfl (Expression.binOp_judged hleft hop hright) rfl ⟨rfl, rfl⟩
  | unaryOp =>
    obtain ⟨hop, hoperand, _⟩ := h
    exact .plain rfl (Expression.unaryOp_judged hop hoperand) rfl ⟨rfl, rfl⟩
  | lambda =>
    obtain ⟨hargs, hbody, _⟩ := h
    exact .plain rfl (Expression.lambda_judged hargs hbody) rfl ⟨rfl, rfl⟩
  | ifExp =>
    obtain ⟨htest, hbody, horelse, _⟩ := h
    exact .plain rfl (Expression.ifExp_judged htest hbody horelse) rfl ⟨rfl, rfl⟩
  | dict =>
    obtain ⟨hkeys, hvalues, _⟩ := h
    exact .plain rfl (Expression.dict_judged hkeys hvalues) rfl ⟨rfl, rfl⟩
  | set =>
    obtain ⟨helements, _⟩ := h
    exact .plain rfl (Expression.set_judged helements) rfl ⟨rfl, rfl⟩
  | listComp =>
    obtain ⟨helement, hgenerators, _⟩ := h
    exact .plain rfl (Expression.comprehended_judged helement.text hgenerators) rfl ⟨rfl, rfl⟩
  | setComp =>
    obtain ⟨helement, hgenerators, _⟩ := h
    exact .plain rfl (Expression.comprehended_judged helement.text hgenerators) rfl ⟨rfl, rfl⟩
  | dictComp =>
    obtain ⟨hkey, hvalue, hgenerators, _⟩ := h
    exact .plain rfl (Expression.comprehendedPair_judged hkey hvalue hgenerators) rfl ⟨rfl, rfl⟩
  | generatorExp =>
    obtain ⟨helement, hgenerators, _⟩ := h
    exact .plain rfl (Expression.comprehended_judged helement.text hgenerators) rfl ⟨rfl, rfl⟩
  | await =>
    obtain ⟨hvalue, _⟩ := h
    exact .plain rfl (Expression.wrapped_judged hvalue) rfl ⟨rfl, rfl⟩
  | yield =>
    obtain ⟨hvalue, _⟩ := h
    exact .plain rfl (Expression.yield_judged hvalue) rfl ⟨rfl, rfl⟩
  | yieldFrom =>
    obtain ⟨hvalue, _⟩ := h
    exact .plain rfl (Expression.wrapped_judged hvalue) rfl ⟨rfl, rfl⟩
  | compare =>
    obtain ⟨hleft, hops, hcomparators, _⟩ := h
    exact .plain rfl (Expression.compare_judged hleft hops hcomparators) rfl ⟨rfl, rfl⟩
  | call =>
    obtain ⟨hfunc, hargs, hkeywords, hstarargs, hkwargs, _⟩ := h
    exact .plain rfl (Expression.call_judged hfunc hargs hkeywords hstarargs hkwargs) rfl ⟨rfl, rfl⟩
  | repr =>
    obtain ⟨hvalue, _⟩ := h
    exact .plain rfl (Expression.wrapped_judged hvalue) rfl ⟨rfl, rfl⟩
  | formattedValue => cases hk
  | joinedStr => cases hk
  | constant =>
    obtain ⟨hvalue, _⟩ := h
    exact Expression.constant_judged rfl (by rw [hvalue]; rfl)
  | num => exact Expression.num_judged rfl rfl
  | str => exact Expression.str_judged rfl rfl
  | bytes => exact .plain rfl Expression.leaf_judged rfl ⟨rfl, rfl⟩
  | nameConstant => exact .plain rfl Expression.leaf_judged rfl ⟨rfl, rfl⟩
  | ellipsis => exact .plain rfl Expression.leaf_judged rfl ⟨rfl, rfl⟩
  | «attribute» =>
    obtain ⟨hvalue, _, _⟩ := h
    exact .plain rfl (Expression.wrapped_judged hvalue) rfl ⟨rfl, rfl⟩
  | subscript =>
    obtain ⟨hvalue, hslice, _⟩ := h
    exact .plain rfl (Expression.subscript_judged hvalue hslice) rfl ⟨rfl, rfl⟩
  | starred =>
    obtain ⟨hvalue, _⟩ := h
    exact .plain rfl (Expression.wrapped_judged hvalue) rfl ⟨rfl, rfl⟩
  | nameExpr => exact .plain rfl Expression.leaf_judged rfl ⟨rfl, rfl⟩
  | list =>
    obtain ⟨helements, _⟩ := h
    exact .plain rfl (Expression.list_judged helements) rfl ⟨rfl, rfl⟩
  | tuple =>
    obtain ⟨helements, _⟩ := h
    exact ⟨rfl, Expression.tuple_judged helements, ⟨rfl, rfl⟩, Expression.elements_judged helements⟩
  | slice =>
    obtain ⟨hlower, hupper, hstep, _⟩ := h
    exact .plain rfl (Expression.slice_judged hlower hupper hstep) rfl ⟨rfl, rfl⟩
  | index =>
    obtain ⟨hvalue, _⟩ := h
    exact .plain rfl (Expression.index_judged hvalue) rfl ⟨rfl, rfl⟩
  | extSlice =>
    obtain ⟨hdims, _⟩ := h
    exact .plain rfl (Expression.extSlice_judged hdims) rfl ⟨rfl, rfl⟩
  | exceptHandler =>
    obtain ⟨htype, hname, hbody, _⟩ := h
    exact Statement.exceptHandler_judged htype hname hbody
  | legacyExceptHandler =>
    obtain ⟨htype, htarget, hbody, _⟩ := h
    exact Statement.legacyExceptHandler_judged htype htarget hbody
  | matchValue =>
    obtain ⟨hvalue, _⟩ := h
    exact Pattern.matchValue_judged hvalue
  | matchSingleton => exact Pattern.leaf_judged
  | matchSequence =>
    obtain ⟨hpatterns, _⟩ := h
    exact Pattern.matchSequence_judged hpatterns
  | matchMapping =>
    obtain ⟨hkeys, hpatterns, _, _⟩ := h
    exact Pattern.matchMapping_judged hkeys hpatterns
  | matchClass =>
    obtain ⟨hcls, hpatterns, hattrs, hvalues, _⟩ := h
    exact Pattern.matchClass_judged hcls hpatterns hattrs hvalues
  | matchStar => exact Pattern.leaf_judged
  | matchAs =>
    obtain ⟨hpattern, hname, _⟩ := h
    exact Pattern.matchAs_judged hpattern hname
  | matchOr =>
    obtain ⟨hpatterns, _⟩ := h
    exact Pattern.matchOr_judged hpatterns
  | typeVar =>
    obtain ⟨_, hbound, _⟩ := h
    exact Pattern.typeVar_judged hbound
  | paramSpec => exact Pattern.leaf_judged
  | typeVarTuple => exact Pattern.leaf_judged
  | comprehension =>
    obtain ⟨htarget, hiter, hconditions, _, _⟩ := h
    exact Expression.comprehension_judged htarget hiter hconditions
  | arguments =>
    obtain ⟨hposonly, hargs, hvararg, hkwonly, hkwDefaults, hkwarg, hdefaults, _⟩ := h
    exact Parameters.arguments_judged hposonly hargs hvararg hkwonly hkwDefaults hkwarg hdefaults
  | arg =>
    obtain ⟨_, htype, _⟩ := h
    exact Parameters.arg_judged htype
  | keyword =>
    obtain ⟨_, hvalue, _⟩ := h
    exact Expression.keyword_judged hvalue
  | importedName => exact Statement.importedName_judged
  | withItem =>
    obtain ⟨hexpr, hvars, _⟩ := h
    exact Statement.withItem_judged hexpr hvars
  | matchCase =>
    obtain ⟨hpattern, hguard, hbody, _⟩ := h
    exact Statement.matchCase_judged hpattern hguard hbody
  -- The operators are left, which have no fields.
  | _ => exact Verdict.of_true []

/-- Every rule shows its node as the verdict on the node has it. -/
theorem node_judged (k : Kind) (fields : Tree k.shape) (mark : Mark k.place)
    (h : Value.Judged k.shape (fields.fold fun k v _ => rule k v) fields.values) :
    View.Judged k.place (view (.node k fields mark)) (.node k fields mark) := by
  cases hk : k.isFString with
  | false =>
    rw [View.Judged, Tree.verdict_node fields mark hk]
    exact rule_judged hk fields mark h
  | true =>
    -- An f-string needs a quote for its own segments besides.
    cases k with
    | joinedStr =>
      obtain ⟨hvalues, _⟩ := h
      rw [View.Judged, Tree.verdict_segments fields mark (x := FString.parts _) rfl]
      exact FString.joinedStr_judged hvalues rfl rfl
    | formattedValue =>
      obtain ⟨hvalue, _, hformat, _⟩ := h
      rw [View.Judged, Tree.verdict_segments fields mark (x := FString.field _ _ _) rfl]
      exact FString.formattedValue_judged hvalue hformat rfl
    | _ => cases hk

theorem view_judged {f : Family} (t : Node f) : View.Judged f (view t) t := by
  cases t with
  | node k fields mark => exact node_judged k fields mark (Tree.fold_related node_judged fields)

theorem token_judged {w : Verdict} (k : Kind) (h : w = 0) :
    (do Draft.demand k; return k.token : Draft String).Judged true w := by
  rw [h]
  exact JudgedWith.demand_bind JudgedWith.pure

end Render

/-- Every draft ends as the verdict on its node has it. -/
theorem Node.draft_judged {f : Family} (t : Node f) : t.draft.Judged true t.verdict := by
  have h := view_judged t
  unfold Node.draft
  cases f with
  | mod => exact JudgedWith.bind_pure h
  | stmt => exact h.draft.bind_pure
  | expr => exact h.text.laying
  | slice => exact h.text.laying
  | boolOp => exact token_judged _ h
  | operator => exact token_judged _ h
  | unaryOp => exact token_judged _ h
  | cmpOp => exact token_judged _ h
  | handler => exact ((h false).congr (by simp)).bind_pure
  | pattern => exact JudgedWith.laying h
  | typeParam => exact JudgedWith.laying h
  | comprehension => exact (JudgedWith.bind_pure h).laying
  | arguments => exact ((h true).congr (by simp)).laying
  | arg => exact ((h true).congr (by simp)).laying
  | keyword => exact JudgedWith.laying h
  | importedName => exact JudgedWith.laying h
  | withItem => exact JudgedWith.laying h
  | matchCase => exact JudgedWith.bind_pure h

end Unparse
