import Unparse.Proofs.Weight.FString
import Unparse.Proofs.Weight.Parameters
import Unparse.Proofs.Weight.Statement
import Unparse.Render

/-! Every rule keeps the balance, and so does rendering: of any node, whatever the
dialect, a rendering demands the kinds that the node reaches and prints their strings. -/
namespace Unparse

open Draft

namespace Render

theorem rule_weighs (m : Scale) (k : Kind) (v : Value View k.shape) (w : Weight)
    (h : Value.Weighs m k.shape v w) : View.Weighs m k.place (rule k v) (.kind k + w) := by
  cases k with
  | module =>
    obtain ⟨a, ha, _, rfl, rfl⟩ := h
    exact View.Weighs.of_eq (Statement.module_weighs ha) (by abel)
  | interactive =>
    obtain ⟨a, ha, _, rfl, rfl⟩ := h
    exact View.Weighs.of_eq (Statement.sequence_weighs ha) (by abel)
  | expression =>
    obtain ⟨a, ha, _, rfl, rfl⟩ := h
    exact View.Weighs.of_eq (Statement.expression_weighs ha) (by abel)
  | suite =>
    obtain ⟨a, ha, _, rfl, rfl⟩ := h
    exact View.Weighs.of_eq (Statement.sequence_weighs ha) (by abel)
  | functionDef =>
    obtain ⟨_, rfl, _, rfl, b, hb, _, rfl, c, hc, _, rfl, d, hd, _, rfl, e, he, _, rfl,
      f, hf, _, rfl, rfl⟩ := h
    exact View.Weighs.of_eq (Statement.functionDef_weighs (by decide) hb hc hd he hf) (by abel)
  | asyncFunctionDef =>
    obtain ⟨_, rfl, _, rfl, b, hb, _, rfl, c, hc, _, rfl, d, hd, _, rfl, e, he, _, rfl,
      f, hf, _, rfl, rfl⟩ := h
    exact View.Weighs.of_eq (Statement.functionDef_weighs (by decide) hb hc hd he hf) (by abel)
  | classDef =>
    obtain ⟨_, rfl, _, rfl, b, hb, _, rfl, c, hc, _, rfl, d, hd, _, rfl, e, he, _, rfl,
      f, hf, _, rfl, rfl⟩ := h
    exact View.Weighs.of_eq (Statement.classDef_weighs hb hc hd he hf) (by abel)
  | returnStmt =>
    obtain ⟨a, ha, _, rfl, rfl⟩ := h
    exact View.Weighs.of_eq (Statement.returnStmt_weighs ha) (by abel)
  | delete =>
    obtain ⟨a, ha, _, rfl, rfl⟩ := h
    exact View.Weighs.of_eq (Statement.delete_weighs ha) (by abel)
  | assign =>
    obtain ⟨a, ha, _, rfl, b, hb, _, rfl, rfl⟩ := h
    exact View.Weighs.of_eq (Statement.assign_weighs ha hb) (by abel)
  | augAssign =>
    obtain ⟨a, ha, _, rfl, _, rfl, _, rfl, c, hc, _, rfl, rfl⟩ := h
    exact View.Weighs.of_eq (Statement.augAssign_weighs ha hc) (by abel)
  | annAssign =>
    obtain ⟨a, ha, _, rfl, b, hb, _, rfl, c, hc, _, rfl, d, hd, _, rfl, rfl⟩ := h
    rw [show d = 0 from hd]
    exact View.Weighs.of_eq (Statement.annAssign_weighs ha hb hc) (by abel)
  | print =>
    obtain ⟨a, ha, _, rfl, b, hb, _, rfl, c, hc, _, rfl, rfl⟩ := h
    rw [show c = 0 from hc]
    exact View.Weighs.of_eq (Statement.print_weighs ha hb) (by abel)
  | forLoop =>
    obtain ⟨a, ha, _, rfl, b, hb, _, rfl, c, hc, _, rfl, d, hd, _, rfl, rfl⟩ := h
    exact View.Weighs.of_eq (Statement.forLoop_weighs (by decide) ha hb hc hd) (by abel)
  | asyncFor =>
    obtain ⟨a, ha, _, rfl, b, hb, _, rfl, c, hc, _, rfl, d, hd, _, rfl, rfl⟩ := h
    exact View.Weighs.of_eq (Statement.forLoop_weighs (by decide) ha hb hc hd) (by abel)
  | whileLoop =>
    obtain ⟨a, ha, _, rfl, b, hb, _, rfl, c, hc, _, rfl, rfl⟩ := h
    exact View.Weighs.of_eq (Statement.tested_weighs (by decide) ha hb hc) (by abel)
  | conditional =>
    obtain ⟨a, ha, _, rfl, b, hb, _, rfl, c, hc, _, rfl, rfl⟩ := h
    exact View.Weighs.of_eq (Statement.tested_weighs (by decide) ha hb hc) (by abel)
  | withBlock =>
    obtain ⟨a, ha, _, rfl, b, hb, _, rfl, rfl⟩ := h
    exact View.Weighs.of_eq (Statement.withBlock_weighs (by decide) ha hb) (by abel)
  | asyncWith =>
    obtain ⟨a, ha, _, rfl, b, hb, _, rfl, rfl⟩ := h
    exact View.Weighs.of_eq (Statement.withBlock_weighs (by decide) ha hb) (by abel)
  | legacyWith =>
    obtain ⟨a, ha, _, rfl, b, hb, _, rfl, c, hc, _, rfl, rfl⟩ := h
    exact View.Weighs.of_eq (Statement.legacyWith_weighs ha hb hc) (by abel)
  | raise =>
    obtain ⟨a, ha, _, rfl, b, hb, _, rfl, rfl⟩ := h
    exact View.Weighs.of_eq (Statement.raise_weighs ha hb) (by abel)
  | legacyRaise =>
    obtain ⟨a, ha, _, rfl, b, hb, _, rfl, c, hc, _, rfl, rfl⟩ := h
    exact View.Weighs.of_eq (Statement.legacyRaise_weighs ha hb hc) (by abel)
  | tryBlock =>
    obtain ⟨a, ha, _, rfl, b, hb, _, rfl, c, hc, _, rfl, d, hd, _, rfl, rfl⟩ := h
    exact View.Weighs.of_eq (Statement.tryBlock_weighs ha hb hc hd) (by abel)
  | tryStar =>
    obtain ⟨a, ha, _, rfl, b, hb, _, rfl, c, hc, _, rfl, d, hd, _, rfl, rfl⟩ := h
    exact View.Weighs.of_eq (Statement.tryBlock_weighs ha hb hc hd) (by abel)
  | tryExcept =>
    obtain ⟨a, ha, _, rfl, b, hb, _, rfl, c, hc, _, rfl, rfl⟩ := h
    exact View.Weighs.of_eq (Statement.tryExcept_weighs ha hb hc) (by abel)
  | tryFinally =>
    obtain ⟨a, ha, _, rfl, b, hb, _, rfl, rfl⟩ := h
    exact View.Weighs.of_eq (Statement.tryFinally_weighs ha hb) (by abel)
  | assert =>
    obtain ⟨a, ha, _, rfl, b, hb, _, rfl, rfl⟩ := h
    exact View.Weighs.of_eq (Statement.assert_weighs ha hb) (by abel)
  | importNames =>
    obtain ⟨a, ha, _, rfl, rfl⟩ := h
    exact View.Weighs.of_eq (Statement.importNames_weighs ha) (by abel)
  | importFrom =>
    obtain ⟨a, ha, _, rfl, b, hb, _, rfl, c, hc, _, rfl, rfl⟩ := h
    rw [show c = 0 from hc]
    exact View.Weighs.of_eq (Statement.importFrom_weighs ha hb) (by abel)
  | exec =>
    obtain ⟨a, ha, _, rfl, b, hb, _, rfl, c, hc, _, rfl, rfl⟩ := h
    exact View.Weighs.of_eq (Statement.exec_weighs ha hb hc) (by abel)
  | matchBlock =>
    obtain ⟨a, ha, _, rfl, b, hb, _, rfl, rfl⟩ := h
    exact View.Weighs.of_eq (Statement.matchBlock_weighs ha hb) (by abel)
  | typeAlias =>
    obtain ⟨a, ha, _, rfl, b, hb, _, rfl, c, hc, _, rfl, rfl⟩ := h
    exact View.Weighs.of_eq (Statement.typeAlias_weighs ha hb hc) (by abel)
  | global =>
    obtain ⟨a, ha, _, rfl, rfl⟩ := h
    exact View.Weighs.of_eq (Statement.declaration_weighs (by decide) ha) (by abel)
  | nonlocal =>
    obtain ⟨a, ha, _, rfl, rfl⟩ := h
    exact View.Weighs.of_eq (Statement.declaration_weighs (by decide) ha) (by abel)
  | exprStmt =>
    obtain ⟨a, ha, _, rfl, rfl⟩ := h
    exact View.Weighs.of_eq (Statement.exprStmt_weighs ha) (by abel)
  | pass =>
    rw [show w = 0 from h]
    exact Statement.word_weighs (by decide)
  | breakLoop =>
    rw [show w = 0 from h]
    exact Statement.word_weighs (by decide)
  | continueLoop =>
    rw [show w = 0 from h]
    exact Statement.word_weighs (by decide)
  | boolOp =>
    obtain ⟨_, rfl, _, rfl, b, hb, _, rfl, rfl⟩ := h
    exact View.Weighs.of_eq (Expression.boolOp_weighs hb) (by abel)
  | namedExpr =>
    obtain ⟨a, ha, _, rfl, b, hb, _, rfl, rfl⟩ := h
    exact View.Weighs.of_eq (Expression.namedExpr_weighs ha hb) (by abel)
  | binOp =>
    obtain ⟨a, ha, _, rfl, _, rfl, _, rfl, c, hc, _, rfl, rfl⟩ := h
    exact View.Weighs.of_eq (Expression.binOp_weighs ha hc) (by abel)
  | unaryOp =>
    obtain ⟨_, rfl, _, rfl, b, hb, _, rfl, rfl⟩ := h
    exact View.Weighs.of_eq (Expression.unaryOp_weighs hb) (by abel)
  | lambda =>
    obtain ⟨a, ha, _, rfl, b, hb, _, rfl, rfl⟩ := h
    exact View.Weighs.of_eq (Expression.lambda_weighs ha hb) (by abel)
  | ifExp =>
    obtain ⟨a, ha, _, rfl, b, hb, _, rfl, c, hc, _, rfl, rfl⟩ := h
    exact View.Weighs.of_eq (Expression.ifExp_weighs ha hb hc) (by abel)
  | dict =>
    obtain ⟨a, ha, _, rfl, b, hb, _, rfl, rfl⟩ := h
    exact View.Weighs.of_eq (Expression.dict_weighs ha hb) (by abel)
  | set =>
    obtain ⟨a, ha, _, rfl, rfl⟩ := h
    exact View.Weighs.of_eq (Expression.set_weighs ha) (by abel)
  | listComp =>
    obtain ⟨a, ha, _, rfl, b, hb, _, rfl, rfl⟩ := h
    exact View.Weighs.of_eq
      (Expression.comprehended_weighs (by decide) (by decide) ha.text hb)
      (by abel)
  | setComp =>
    obtain ⟨a, ha, _, rfl, b, hb, _, rfl, rfl⟩ := h
    exact View.Weighs.of_eq
      (Expression.comprehended_weighs (by decide) (by decide) ha.text hb)
      (by abel)
  | dictComp =>
    obtain ⟨a, ha, _, rfl, b, hb, _, rfl, c, hc, _, rfl, rfl⟩ := h
    exact View.Weighs.of_eq
      (Expression.comprehended_weighs (by decide) (by decide) (Expression.keyed_weighs ha hb) hc)
      (by abel)
  | generatorExp =>
    obtain ⟨a, ha, _, rfl, b, hb, _, rfl, rfl⟩ := h
    exact View.Weighs.of_eq
      (Expression.comprehended_weighs (by decide) (by decide) ha.text hb)
      (by abel)
  | await =>
    obtain ⟨a, ha, _, rfl, rfl⟩ := h
    exact View.Weighs.of_eq (Expression.await_weighs ha) (by abel)
  | yield =>
    obtain ⟨a, ha, _, rfl, rfl⟩ := h
    exact View.Weighs.of_eq (Expression.yield_weighs ha) (by abel)
  | yieldFrom =>
    obtain ⟨a, ha, _, rfl, rfl⟩ := h
    exact View.Weighs.of_eq (Expression.yieldFrom_weighs ha) (by abel)
  | compare =>
    obtain ⟨a, ha, _, rfl, b, hb, _, rfl, c, hc, _, rfl, rfl⟩ := h
    exact View.Weighs.of_eq (Expression.compare_weighs ha hb hc) (by abel)
  | call =>
    obtain ⟨a, ha, _, rfl, b, hb, _, rfl, c, hc, _, rfl, d, hd, _, rfl, e, he, _, rfl, rfl⟩ := h
    exact View.Weighs.of_eq (Expression.call_weighs ha hb hc hd he) (by abel)
  | repr =>
    obtain ⟨a, ha, _, rfl, rfl⟩ := h
    exact View.Weighs.of_eq (Expression.repr_weighs ha) (by abel)
  | formattedValue =>
    obtain ⟨a, ha, _, rfl, b, hb, _, rfl, c, hc, _, rfl, rfl⟩ := h
    rw [Maybe.eq_zero hb]
    exact View.Weighs.of_eq (FString.formattedValue_weighs ha hc) (by abel)
  | joinedStr =>
    obtain ⟨a, ha, _, rfl, rfl⟩ := h
    exact View.Weighs.of_eq (FString.joinedStr_weighs ha) (by abel)
  | constant =>
    obtain ⟨_, rfl, _, rfl, rfl⟩ := h
    exact View.Weighs.of_eq (Expression.constant_weighs _) (by abel)
  | num =>
    obtain ⟨_, rfl, _, rfl, rfl⟩ := h
    exact View.Weighs.of_eq (Expression.num_weighs _) (by abel)
  | str =>
    obtain ⟨_, rfl, _, rfl, rfl⟩ := h
    exact View.Weighs.of_eq (Expression.str_weighs _) (by abel)
  | bytes =>
    obtain ⟨a, ha, _, rfl, rfl⟩ := h
    rw [Together.eq_zero ha]
    exact View.Weighs.of_eq (Expression.bytes_weighs _) (by abel)
  | nameConstant =>
    obtain ⟨a, ha, _, rfl, rfl⟩ := h
    rw [show a = 0 from ha]
    exact View.Weighs.of_eq (Expression.nameConstant_weighs _) (by abel)
  | ellipsis =>
    rw [show w = 0 from h]
    exact Expression.ellipsis_weighs
  | «attribute» =>
    obtain ⟨a, ha, _, rfl, _, rfl, _, rfl, rfl⟩ := h
    exact View.Weighs.of_eq (Expression.attributeOf_weighs ha) (by abel)
  | subscript =>
    obtain ⟨a, ha, _, rfl, b, hb, _, rfl, rfl⟩ := h
    exact View.Weighs.of_eq (Expression.subscript_weighs ha hb) (by abel)
  | starred =>
    obtain ⟨a, ha, _, rfl, rfl⟩ := h
    exact View.Weighs.of_eq (Expression.starred_weighs ha) (by abel)
  | nameExpr =>
    obtain ⟨_, rfl, _, rfl, rfl⟩ := h
    exact View.Weighs.of_eq (Expression.name_weighs _) (by abel)
  | list =>
    obtain ⟨a, ha, _, rfl, rfl⟩ := h
    exact View.Weighs.of_eq (Expression.list_weighs ha) (by abel)
  | tuple =>
    obtain ⟨a, ha, _, rfl, rfl⟩ := h
    exact View.Weighs.of_eq (Expression.tuple_weighs ha) (by abel)
  | slice =>
    obtain ⟨a, ha, _, rfl, b, hb, _, rfl, c, hc, _, rfl, rfl⟩ := h
    exact View.Weighs.of_eq (Expression.slice_weighs ha hb hc) (by abel)
  | index =>
    obtain ⟨a, ha, _, rfl, rfl⟩ := h
    exact View.Weighs.of_eq (Expression.index_weighs ha) (by abel)
  | extSlice =>
    obtain ⟨a, ha, _, rfl, rfl⟩ := h
    exact View.Weighs.of_eq (Expression.extSlice_weighs ha) (by abel)
  | and | or | add | sub | mult | matMult | div | mod | pow | lShift | rShift | bitOr | bitXor
  | bitAnd | floorDiv | invert | not | uAdd | uSub | eq | notEq | lt | ltE | gt | gtE | is | isNot
  | isIn | notIn =>
    rw [show w = 0 from h, add_zero]
    rfl
  | exceptHandler =>
    obtain ⟨a, ha, _, rfl, b, hb, _, rfl, c, hc, _, rfl, rfl⟩ := h
    intro star
    exact (Statement.exceptHandler_weighs ha hb hc).congr (by abel)
  | legacyExceptHandler =>
    obtain ⟨a, ha, _, rfl, b, hb, _, rfl, c, hc, _, rfl, rfl⟩ := h
    intro star
    exact (Statement.legacyExceptHandler_weighs ha hb hc).congr (by abel)
  | matchValue =>
    obtain ⟨a, ha, _, rfl, rfl⟩ := h
    exact View.Weighs.of_eq (Pattern.matchValue_weighs ha) (by abel)
  | matchSingleton =>
    obtain ⟨a, ha, _, rfl, rfl⟩ := h
    rw [show a = 0 from ha]
    exact View.Weighs.of_eq (Pattern.matchSingleton_weighs _) (by abel)
  | matchSequence =>
    obtain ⟨a, ha, _, rfl, rfl⟩ := h
    exact View.Weighs.of_eq (Pattern.matchSequence_weighs ha) (by abel)
  | matchMapping =>
    obtain ⟨a, ha, _, rfl, b, hb, _, rfl, c, hc, _, rfl, rfl⟩ := h
    exact View.Weighs.of_eq (Pattern.matchMapping_weighs ha hb hc) (by abel)
  | matchClass =>
    obtain ⟨a, ha, _, rfl, b, hb, _, rfl, c, hc, _, rfl, d, hd, _, rfl, rfl⟩ := h
    exact View.Weighs.of_eq (Pattern.matchClass_weighs ha hb hc hd) (by abel)
  | matchStar =>
    obtain ⟨a, ha, _, rfl, rfl⟩ := h
    exact View.Weighs.of_eq (Pattern.matchStar_weighs ha) (by abel)
  | matchAs =>
    obtain ⟨a, ha, _, rfl, b, hb, _, rfl, rfl⟩ := h
    exact View.Weighs.of_eq (Pattern.matchAs_weighs ha hb) (by abel)
  | matchOr =>
    obtain ⟨a, ha, _, rfl, rfl⟩ := h
    exact View.Weighs.of_eq (Pattern.matchOr_weighs ha) (by abel)
  | typeVar =>
    obtain ⟨_, rfl, _, rfl, b, hb, _, rfl, rfl⟩ := h
    exact View.Weighs.of_eq (Pattern.typeVar_weighs hb) (by abel)
  | paramSpec =>
    obtain ⟨_, rfl, _, rfl, rfl⟩ := h
    exact View.Weighs.of_eq (Pattern.paramSpec_weighs _) (by abel)
  | typeVarTuple =>
    obtain ⟨_, rfl, _, rfl, rfl⟩ := h
    exact View.Weighs.of_eq (Pattern.typeVarTuple_weighs _) (by abel)
  | comprehension =>
    obtain ⟨a, ha, _, rfl, b, hb, _, rfl, c, hc, _, rfl, d, hd, _, rfl, rfl⟩ := h
    rw [show d = 0 from hd]
    exact View.Weighs.of_eq (Expression.comprehension_weighs ha hb hc) (by abel)
  | arguments =>
    obtain ⟨a, ha, _, rfl, b, hb, _, rfl, c, hc, _, rfl, d, hd, _, rfl, e, he, _, rfl,
      f, hf, _, rfl, g, hg, _, rfl, rfl⟩ := h
    intro allowed
    exact (Parameters.arguments_weighs ha hb hc hd he hf hg allowed).congr (by abel)
  | arg =>
    obtain ⟨_, rfl, _, rfl, b, hb, _, rfl, rfl⟩ := h
    exact View.Weighs.of_eq (Parameters.arg_weighs hb) (by abel)
  | keyword =>
    obtain ⟨a, ha, _, rfl, b, hb, _, rfl, rfl⟩ := h
    exact View.Weighs.of_eq (Expression.keyword_weighs ha hb) (by abel)
  | importedName =>
    obtain ⟨_, rfl, _, rfl, b, hb, _, rfl, rfl⟩ := h
    exact View.Weighs.of_eq (Statement.importedName_weighs hb) (by abel)
  | withItem =>
    obtain ⟨a, ha, _, rfl, b, hb, _, rfl, rfl⟩ := h
    exact View.Weighs.of_eq (Statement.withItem_weighs ha hb) (by abel)
  | matchCase =>
    obtain ⟨a, ha, _, rfl, b, hb, _, rfl, c, hc, _, rfl, rfl⟩ := h
    exact View.Weighs.of_eq (Statement.matchCase_weighs ha hb hc) (by abel)

theorem standalone_weighs {m : Scale} {f : Family} {v : View f} {w : Weight}
    (h : View.Weighs m f v w) : (standalone f v).Says m w := by
  cases f with
  | mod | matchCase =>
    exact Weighs.bind_pure h fun _ => m.text_ascii (by decide)
  | stmt => exact Weighs.bind_pure h.draft fun _ => m.text_ascii (by decide)
  | expr | slice => exact h.text
  | boolOp | operator | unaryOp | cmpOp =>
    rw [show w = .kind v from h, ← add_zero (Weight.kind v)]
    exact Weighs.demand_bind (Weighs.done (m.text_token v))
  | handler => exact Weighs.bind_pure (h false) fun _ => m.text_ascii (by decide)
  | comprehension =>
    refine Weighs.bind_pure h fun lines => ?_
    rw [m.text_intercalate (by decide), Nat.zero_add]
  | arguments | arg => exact h true
  | pattern | typeParam | keyword | importedName | withItem => exact h

end Render

namespace Node

/-- The draft of a node has the weight of the node. -/
theorem draft_weighs {f : Family} (m : Scale) (t : Node f) : t.draft.Says m (t.weight m) :=
  Render.standalone_weighs
    (Tree.fold_weighs (fun k v _ w h => Render.rule_weighs m k v w h) t)

end Node

end Unparse
