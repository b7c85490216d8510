import Unparse.Proofs.Agreement.Statement
import Unparse.Proofs.Form.View
import Unparse.Render

/-! Every rule makes views that are alike of views that are alike. -/
namespace Unparse

open Draft List Render

/-- The views may take each other's place in every rule. -/
def View.Alike : (f : Family) → View f → View f → Prop
  | .mod, x, y => Agrees x y
  | .stmt, s, s' => StmtView.Alike s s'
  | .expr, e, e' => ExprView.Alike e e'
  | .slice, e, e' => ExprView.Alike e e'
  | .boolOp, k, k' => k = k'
  | .operator, k, k' => k = k'
  | .unaryOp, k, k' => k = k'
  | .cmpOp, k, k' => k = k'
  | .handler, x, y => ∀ star, Agrees (x star) (y star)
  | .pattern, x, y => Agrees x y
  | .typeParam, x, y => Agrees x y
  | .comprehension, x, y => Agrees x y
  | .arguments, x, y => ∀ allowed, Agrees (x allowed) (y allowed)
  | .arg, a, a' => ArgView.Alike a a'
  | .keyword, x, y => Agrees x y
  | .importedName, x, y => Agrees x y
  | .withItem, x, y => Agrees x y
  | .matchCase, x, y => Agrees x y

theorem ExprForm.Alike.refl (form : ExprForm) : form.Alike form := by
  cases form with
  | plain => exact .plain
  | integer => exact .integer
  | string text => exact .string text
  | tuple elements => exact .tuple (forall₂_same.mpr fun e _ => Agrees.refl e)
  | field segments => exact .field (Agrees.refl segments)
  | joined segments => exact .joined (Agrees.refl segments)

theorem StmtForm.Alike.refl (form : StmtForm) : form.Alike form := by
  cases form with
  | plain => exact .plain
  | docstring value text => exact .docstring value value text
  | futureImport => exact .futureImport
  | tryExcept clauses => exact .tryExcept (Agrees.refl clauses)

theorem View.Alike.refl (f : Family) (v : View f) : View.Alike f v v := by
  cases f with
  | stmt => exact ⟨.refl _, .refl _⟩
  | expr => exact ⟨Iff.rfl, .refl _, .refl _⟩
  | slice => exact ⟨Iff.rfl, .refl _, .refl _⟩
  | handler => exact fun star => .refl _
  | arguments => exact fun allowed => .refl _
  | arg => exact ⟨rfl, fun allowed => .refl _⟩
  | _ => rfl

/-- No node stands in a record of this shape. -/
def Shape.isLeaf : Shape → Bool
  | .node _ => false
  | .scalar _ => true
  | .option s => s.isLeaf
  | .list s => s.isLeaf
  | .done => true
  | .field _ _ s rest => s.isLeaf && rest.isLeaf

theorem Value.Related.eq_of_isLeaf {V : Family → Type} {R : (f : Family) → V f → V f → Prop}
    {s : Shape} (hs : s.isLeaf = true) {v w : Value V s} (h : Value.Related R s v w) : v = w := by
  induction s with
  | node f => cases hs
  | scalar a => exact h
  | option s ih =>
    cases h with
    | none => rfl
    | some h => exact congrArg some (ih hs h)
  | list s ih =>
    induction h with
    | nil => rfl
    | cons h _ ihs => exact congrArg₂ cons (ih hs h) ihs
  | done => rfl
  | field name presence s rest ihs ihrest =>
    obtain ⟨hs, hrest⟩ := Bool.and_eq_true_iff.mp hs
    exact Prod.ext (ihs hs h.1) (ihrest hrest h.2)

namespace Render

theorem rule_alike (k : Kind) {v v' : Value View k.shape}
    (h : Value.Related View.Alike k.shape v v') : View.Alike k.place (rule k v) (rule k v') := by
  cases hk : k.shape.isLeaf with
  | true =>
    -- Without nodes in them the fields are the same.
    rw [Value.Related.eq_of_isLeaf hk h]
    exact .refl _ _
  | false =>
    cases k with
    | module => exact Statement.module_agree h.1
    | interactive => exact Statement.sequence_agree h.1
    | expression => exact Statement.expression_agree h.1
    | suite => exact Statement.sequence_agree h.1
    | functionDef =>
      obtain ⟨name, v⟩ := v
      obtain ⟨_, v'⟩ := v'
      obtain ⟨rfl, hargs, hbody, hdecorators, hreturns, htypeParams, _⟩ := h
      exact Statement.functionDef_alike hargs hbody hdecorators hreturns htypeParams
    | asyncFunctionDef =>
      obtain ⟨name, v⟩ := v
      obtain ⟨_, v'⟩ := v'
      obtain ⟨rfl, hargs, hbody, hdecorators, hreturns, htypeParams, _⟩ := h
      exact Statement.functionDef_alike hargs hbody hdecorators hreturns htypeParams
    | classDef =>
      obtain ⟨name, v⟩ := v
      obtain ⟨_, v'⟩ := v'
      obtain ⟨rfl, hbases, hkeywords, hbody, hdecorators, htypeParams, _⟩ := h
      exact Statement.classDef_alike hbases hkeywords hbody hdecorators htypeParams
    | returnStmt => exact Statement.returnStmt_alike h.1
    | delete => exact Statement.delete_alike h.1
    | assign =>
      obtain ⟨htargets, hvalue, _⟩ := h
      exact Statement.assign_alike htargets hvalue
    | augAssign =>
      obtain ⟨target, op, v⟩ := v
      obtain ⟨target', _, v'⟩ := v'
      obtain ⟨htarget, rfl, hvalue, _⟩ := h
      exact Statement.augAssign_alike htarget hvalue
    | annAssign =>
      obtain ⟨target, type, value, simple, _⟩ := v
      obtain ⟨target', type', value', _, _⟩ := v'
      obtain ⟨htarget, htype, hvalue, rfl, _⟩ := h
      exact Statement.annAssign_alike htarget htype hvalue
    | print =>
      obtain ⟨dest, values, newline, _⟩ := v
      obtain ⟨dest', values', _, _⟩ := v'
      obtain ⟨hdest, hvalues, rfl, _⟩ := h
      exact Statement.print_alike hdest hvalues
    | forLoop =>
      obtain ⟨htarget, hiter, hbody, horelse, _⟩ := h
      exact Statement.forLoop_alike htarget hiter hbody horelse
    | asyncFor =>
      obtain ⟨htarget, hiter, hbody, horelse, _⟩ := h
      exact Statement.forLoop_alike htarget hiter hbody horelse
    | whileLoop =>
      obtain ⟨htest, hbody, horelse, _⟩ := h
      exact Statement.tested_alike htest hbody horelse
    | conditional =>
      obtain ⟨htest, hbody, horelse, _⟩ := h
      exact Statement.tested_alike htest hbody horelse
    | withBlock =>
      obtain ⟨hitems, hbody, _⟩ := h
      exact Statement.withBlock_alike hitems hbody
    | asyncWith =>
      obtain ⟨hitems, hbody, _⟩ := h
      exact Statement.withBlock_alike hitems hbody
    | legacyWith =>
      obtain ⟨hexpr, hvars, hbody, _⟩ := h
      exact Statement.legacyWith_alike hexpr hvars hbody
    | raise =>
      obtain ⟨hexc, hcause, _⟩ := h
      exact Statement.raise_alike hexc hcause
    | legacyRaise =>
      obtain ⟨htype, hinst, htback, _⟩ := h
      exact Statement.legacyRaise_alike htype hinst htback
    | tryBlock =>
      obtain ⟨hbody, hhandlers, horelse, hfinal, _⟩ := h
      exact Statement.tryBlock_alike false hbody hhandlers horelse hfinal
    | tryStar =>
      obtain ⟨hbody, hhandlers, horelse, hfinal, _⟩ := h
      exact Statement.tryBlock_alike true hbody hhandlers horelse hfinal
    | tryExcept =>
      obtain ⟨hbody, hhandlers, horelse, _⟩ := h
      exact Statement.tryExcept_alike hbody hhandlers horelse
    | tryFinally =>
      obtain ⟨hbody, hfinal, _⟩ := h
      exact Statement.tryFinally_alike hbody hfinal
    | assert =>
      obtain ⟨htest, hmessage, _⟩ := h
      exact Statement.assert_alike htest hmessage
    | importNames => exact Statement.importNames_alike h.1
    | importFrom =>
      obtain ⟨source, names, level, _⟩ := v
      obtain ⟨source', names', _, _⟩ := v'
      obtain ⟨hsource, hnames, rfl, _⟩ := h
      obtain rfl : source = source' := Value.Related.eq_of_isLeaf rfl hsource
      exact Statement.importFrom_alike hnames
    | exec =>
      obtain ⟨hbody, hglobals, hlocals, _⟩ := h
      exact Statement.exec_alike hbody hglobals hlocals
    | matchBlock =>
      obtain ⟨hsubject, hcases, _⟩ := h
      exact Statement.matchBlock_alike hsubject hcases
    | typeAlias =>
      obtain ⟨hname, htypeParams, hvalue, _⟩ := h
      exact Statement.typeAlias_alike hname htypeParams hvalue
    | exprStmt => exact Statement.exprStmt_alike h.1
    | boolOp =>
      obtain ⟨op, v⟩ := v
      obtain ⟨_, v'⟩ := v'
      obtain ⟨rfl, hvalues, _⟩ := h
      exact Expression.boolOp_alike hvalues
    | namedExpr =>
      obtain ⟨htarget, hvalue, _⟩ := h
      exact Expression.namedExpr_alike htarget hvalue
    | binOp =>
      obtain ⟨left, op, v⟩ := v
      obtain ⟨left', _, v'⟩ := v'
      obtain ⟨hleft, rfl, hright, _⟩ := h
      exact Expression.binOp_alike hleft hright
    | unaryOp =>
      obtain ⟨op, v⟩ := v
      obtain ⟨_, v'⟩ := v'
      obtain ⟨rfl, hoperand, _⟩ := h
      exact Expression.unaryOp_alike hoperand
    | lambda =>
      obtain ⟨hargs, hbody, _⟩ := h
      exact Expression.lambda_alike hargs hbody
    | ifExp =>
      obtain ⟨htest, hbody, horelse, _⟩ := h
      exact Expression.ifExp_alike htest hbody horelse
    | dict =>
      obtain ⟨hkeys, hvalues, _⟩ := h
      exact Expression.dict_alike hkeys hvalues
    | set => exact Expression.set_alike h.1
    | listComp =>
      obtain ⟨helement, hgenerators, _⟩ := h
      exact Expression.comprehended_alike helement.text hgenerators
    | setComp =>
      obtain ⟨helement, hgenerators, _⟩ := h
      exact Expression.comprehended_alike helement.text hgenerators
    | dictComp =>
      obtain ⟨hkey, hvalue, hgenerators, _⟩ := h
      exact Expression.comprehended_alike (Expression.keyed_agree hkey hvalue) hgenerators
    | generatorExp =>
      obtain ⟨helement, hgenerators, _⟩ := h
      exact Expression.comprehended_alike helement.text hgenerators
    | await => exact Expression.wrapped_alike h.1 _
    | yield => exact Expression.yield_alike h.1
    | yieldFrom => exact Expression.wrapped_alike h.1 _
    | compare =>
      obtain ⟨left, ops, v⟩ := v
      obtain ⟨left', ops', v'⟩ := v'
      obtain ⟨hleft, hops, hcomparators, _⟩ := h
      obtain rfl : ops = ops' := forall₂_eq_eq_eq ▸ hops
      exact Expression.compare_alike hleft hcomparators
    | call =>
      obtain ⟨hfunc, hargs, hkeywords, hstarargs, hkwargs, _⟩ := h
      exact Expression.call_alike hfunc hargs hkeywords hstarargs hkwargs
    | repr => exact Expression.wrapped_alike h.1 _
    | formattedValue =>
      obtain ⟨value, conversion, v⟩ := v
      obtain ⟨value', conversion', v'⟩ := v'
      obtain ⟨hvalue, hconversion, hformat, _⟩ := h
      obtain rfl : conversion = conversion' := Value.Related.eq_of_isLeaf rfl hconversion
      exact FString.formattedValue_alike hvalue hformat
    | joinedStr => exact FString.joinedStr_alike h.1
    | «attribute» =>
      obtain ⟨value, attr, _⟩ := v
      obtain ⟨value', _, _⟩ := v'
      obtain ⟨hvalue, rfl, _⟩ := h
      exact Expression.attributeOf_alike hvalue
    | subscript =>
      obtain ⟨hvalue, hslice, _⟩ := h
      exact Expression.subscript_alike hvalue hslice
    | starred => exact Expression.wrapped_alike h.1 _
    | list => exact Expression.list_alike h.1
    | tuple => exact Expression.tuple_alike h.1
    | slice =>
      obtain ⟨hlower, hupper, hstep, _⟩ := h
      exact Expression.slice_alike hlower hupper hstep
    | index => exact Expression.index_alike h.1
    | extSlice => exact Expression.extSlice_alike h.1
    | exceptHandler =>
      obtain ⟨type, name, body, _⟩ := v
      obtain ⟨type', name', body', _⟩ := v'
      obtain ⟨htype, hname, hbody, _⟩ := h
      obtain rfl : name = name' := Value.Related.eq_of_isLeaf rfl hname
      exact fun star => Statement.exceptHandler_agree htype hbody
    | legacyExceptHandler =>
      obtain ⟨htype, htarget, hbody, _⟩ := h
      exact fun star => Statement.legacyExceptHandler_agree htype htarget hbody
    | matchValue => exact Pattern.formed_agree (ExprView.Alike.text h.1)
    | matchSequence => exact Pattern.matchSequence_agree h.1
    | matchMapping =>
      obtain ⟨keys, patterns, rest, _⟩ := v
      obtain ⟨keys', patterns', rest', _⟩ := v'
      obtain ⟨hkeys, hpatterns, hrest, _⟩ := h
      obtain rfl : rest = rest' := Value.Related.eq_of_isLeaf rfl hrest
      exact Pattern.matchMapping_agree hkeys hpatterns
    | matchClass =>
      obtain ⟨cls, patterns, attrs, v⟩ := v
      obtain ⟨cls', patterns', attrs', v'⟩ := v'
      obtain ⟨hcls, hpatterns, hattrs, hvalues, _⟩ := h
      obtain rfl : attrs = attrs' := Value.Related.eq_of_isLeaf rfl hattrs
      exact Pattern.matchClass_agree hcls hpatterns hvalues
    | matchAs =>
      obtain ⟨pattern, name, _⟩ := v
      obtain ⟨pattern', name', _⟩ := v'
      obtain ⟨hpattern, hname, _⟩ := h
      obtain rfl : name = name' := Value.Related.eq_of_isLeaf rfl hname
      exact Pattern.matchAs_agree hpattern
    | matchOr => exact Pattern.matchOr_agree h.1
    | typeVar =>
      obtain ⟨name, v⟩ := v
      obtain ⟨_, v'⟩ := v'
      obtain ⟨rfl, hbound, _⟩ := h
      exact Pattern.typeVar_agree hbound
    | comprehension =>
      obtain ⟨target, iter, conditions, async, _⟩ := v
      obtain ⟨target', iter', conditions', _, _⟩ := v'
      obtain ⟨htarget, hiter, hconditions, rfl, _⟩ := h
      exact Expression.comprehension_agree htarget hiter hconditions
    | arguments =>
      obtain ⟨hposonly, hargs, hvararg, hkwonly, hkwDefaults, hkwarg, hdefaults, _⟩ := h
      exact fun allowed =>
        Parameters.arguments_agree hposonly hargs hvararg hkwonly hkwDefaults hkwarg hdefaults
    | arg =>
      obtain ⟨name, v⟩ := v
      obtain ⟨_, v'⟩ := v'
      obtain ⟨rfl, htype, _⟩ := h
      exact Parameters.arg_alike htype
    | keyword =>
      obtain ⟨name, v⟩ := v
      obtain ⟨name', v'⟩ := v'
      obtain ⟨hname, hvalue, _⟩ := h
      obtain rfl : name = name' := Value.Related.eq_of_isLeaf rfl hname
      exact Expression.keyword_agree hvalue
    | withItem =>
      obtain ⟨hexpr, hvars, _⟩ := h
      exact Statement.withItem_agree hexpr hvars
    | matchCase =>
      obtain ⟨hpattern, hguard, hbody, _⟩ := h
      exact Statement.matchCase_agree hpattern hguard hbody
    | _ => cases hk

theorem standalone_agree {f : Family} {v v' : View f} (h : View.Alike f v v') :
    (standalone f v).Agrees (standalone f v') := by
  cases f with
  | mod => exact Agrees.before h _
  | stmt => exact h.draft.before _
  | expr => exact h.text
  | slice => exact h.text
  | handler => exact (h false).before _
  | pattern => exact h
  | typeParam => exact h
  | comprehension => exact Agrees.before h _
  | arguments => exact h true
  | arg => exact h.text true
  | keyword => exact h
  | importedName => exact h
  | withItem => exact h
  | matchCase => exact Agrees.before h _
  | _ =>
    obtain rfl := h
    exact Agrees.refl _

end Render

end Unparse
