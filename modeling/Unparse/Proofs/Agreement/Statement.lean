import Unparse.Proofs.Agreement.Expression
import Unparse.Render.Statement

/-! Patterns and statements that look alike. Of a string that stands alone the rules for blocks
use its text; the kind of its expression is only demanded. -/
namespace Unparse

open Draft List

/-- What some rules ask of a statement beside its draft. -/
inductive StmtForm.Alike : StmtForm → StmtForm → Prop where
  | plain : Alike .plain .plain
  | docstring (value value' : Kind) (text : String) :
    Alike (.docstring value text) (.docstring value' text)
  | futureImport : Alike .futureImport .futureImport
  | tryExcept {x y : Draft Unit} (h : x.Agrees y) : Alike (.tryExcept x) (.tryExcept y)

structure StmtView.Alike (s s' : StmtView) : Prop where
  form : s.form.Alike s'.form
  draft : s.draft.Agrees s'.draft

namespace Render.Pattern

variable {a a' : ExprView} {es es' : List ExprView} {x y : Draft String}
  {xs ys zs ws : List (Draft String)}

theorem formed_agree {k : Kind} (h : x.Agrees y) : (formed k x).Agrees (formed k y) :=
  Agrees.demand_bind h

theorem matchSequence_agree (h : Forall₂ Agrees xs ys) :
    (matchSequence xs).Agrees (matchSequence ys) :=
  formed_agree ((Agrees.all h).before _)

theorem mappingEntry_agree (ha : a.Alike a') (h : x.Agrees y) :
    (mappingEntry a x).Agrees (mappingEntry a' y) :=
  ha.text.bind fun _ => h.before _

theorem matchMapping_agree {rest : Option String} (hes : Forall₂ ExprView.Alike es es')
    (h : Forall₂ Agrees xs ys) :
    (matchMapping es xs rest).Agrees (matchMapping es' ys rest) := by
  refine formed_agree (Agrees.refuse_bind ?_ ((Agrees.all ?_).before _))
  · rw [hes.length_eq, h.length_eq]
  · rw [forall₂_map_left_iff, forall₂_map_right_iff]
    exact (forall₂_zip hes h).imp fun _ _ h => mappingEntry_agree h.1 h.2

theorem matchClass_agree {attrs : List String} (ha : a.Alike a') (h : Forall₂ Agrees xs ys)
    (hvalues : Forall₂ Agrees zs ws) :
    (matchClass a xs attrs zs).Agrees (matchClass a' ys attrs ws) := by
  refine formed_agree (Agrees.refuse_bind ?_ ((Agrees.all h).bind fun _ =>
    (Agrees.all ?_).bind fun _ => ha.text.before _))
  · rw [hvalues.length_eq]
  · have hattrs : Forall₂ Eq attrs attrs := forall₂_same.mpr fun _ _ => rfl
    rw [forall₂_map_left_iff, forall₂_map_right_iff]
    refine (forall₂_zip hattrs hvalues).imp ?_
    rintro ⟨attr, z⟩ ⟨_, w⟩ ⟨rfl, hzw⟩
    exact Agrees.before hzw _

theorem matchAs_agree {o o' : Option (Draft String)} {name : Option String}
    (ho : Option.Rel Agrees o o') : (matchAs o name).Agrees (matchAs o' name) := by
  apply formed_agree
  cases ho with
  | none => exact Agrees.refl _
  | some h =>
    cases name with
    | none => exact Agrees.refl _
    | some n => exact Agrees.before h _

theorem matchOr_agree (h : Forall₂ Agrees xs ys) : (matchOr xs).Agrees (matchOr ys) := by
  refine formed_agree (Agrees.refuse_bind ?_ ((Agrees.all h).before _))
  rw [h.length_eq]

theorem typeVar_agree {name : String} {o o' : Option ExprView}
    (ho : Option.Rel ExprView.Alike o o') : (typeVar name o).Agrees (typeVar name o') :=
  formed_agree ((ExprView.after_agree ho).before _)

theorem typeParams_agree (h : Forall₂ Agrees xs ys) : (typeParams xs).Agrees (typeParams ys) := by
  unfold typeParams
  rw [forall₂_isEmpty h]
  split
  · exact Agrees.refl _
  · exact (Agrees.all h).before _

end Render.Pattern

namespace Render.Statement

open ExprView

variable {a b a' b' : ExprView} {es es' fs fs' : List ExprView}
  {o p q o' p' q' : Option ExprView} {ss ts us ss' ts' us' : List StmtView}
  {xs ys zs ws : List (Draft String)} {k : Kind} {x y : Draft Unit}

theorem formed_alike {form form' : StmtForm} (hform : form.Alike form') (h : x.Agrees y) :
    (formed k form x).Alike (formed k form' y) :=
  ⟨hform, Agrees.demand_bind h⟩

theorem plain_alike (h : x.Agrees y) : (plain k x).Alike (plain k y) :=
  formed_alike .plain h

theorem drafts_agree (h : Forall₂ StmtView.Alike ss ss') : (drafts ss).Agrees (drafts ss') := by
  apply Agrees.each
  rw [forall₂_map_left_iff, forall₂_map_right_iff]
  exact h.imp fun _ _ hs => hs.draft

theorem block_agree (h : Forall₂ StmtView.Alike ss ss') : (block ss).Agrees (block ss') := by
  apply Agrees.block
  rw [forall₂_isEmpty h]
  split
  · exact Agrees.refl _
  · exact drafts_agree h

theorem docstring_agree (value value' : Kind) (text : String) :
    (docstring value text).Agrees (docstring value' text) :=
  Agrees.demand_bind (Agrees.demand_bind (Agrees.refl _))

theorem docBlock_agree (h : Forall₂ StmtView.Alike ss ss') :
    (docBlock ss).Agrees (docBlock ss') := by
  cases h with
  | nil => exact Agrees.refl _
  | @cons s s' rest rest' hs hrest =>
    have hblock := block_agree (Forall₂.cons hs hrest)
    have hform := hs.form
    dsimp only [docBlock]
    generalize s.form = form, s'.form = form' at hform
    cases hform with
    | docstring value value' text =>
      exact Agrees.block ((docstring_agree value value' text).bind fun _ => drafts_agree hrest)
    | plain => exact hblock
    | futureImport => exact hblock
    | tryExcept _ => exact hblock

theorem optionalBlock_agree {header : String} (h : Forall₂ StmtView.Alike ss ss') :
    (optionalBlock header ss).Agrees (optionalBlock header ss') := by
  unfold optionalBlock
  rw [forall₂_isEmpty h]
  split
  · exact Agrees.refl _
  · exact Agrees.bind rfl fun _ => block_agree h

theorem decorators_agree (h : Forall₂ Alike es es') : (decorators es).Agrees (decorators es') := by
  apply Agrees.each
  rw [forall₂_map_left_iff, forall₂_map_right_iff]
  exact h.imp fun _ _ he => he.text.before _

theorem functionDef_alike {keyword name : String} {args args' : Bool → Draft String}
    (hargs : ∀ allowed, (args allowed).Agrees (args' allowed))
    (hss : Forall₂ StmtView.Alike ss ss') (hes : Forall₂ Alike es es') (ho : Option.Rel Alike o o')
    (h : Forall₂ Agrees xs ys) :
    (functionDef k keyword name args ss es o xs).Alike
      (functionDef k keyword name args' ss' es' o' ys) :=
  plain_alike ((decorators_agree hes).bind fun _ => (Pattern.typeParams_agree h).bind fun _ =>
    (hargs true).bind fun _ => (after_agree ho).bind fun _ =>
      Agrees.bind rfl fun _ => docBlock_agree hss)

theorem classDef_alike {name : String} (hes : Forall₂ Alike es es') (h : Forall₂ Agrees xs ys)
    (hss : Forall₂ StmtView.Alike ss ss') (hfs : Forall₂ Alike fs fs')
    (htypes : Forall₂ Agrees zs ws) :
    (classDef name es xs ss fs zs).Alike (classDef name es' ys ss' fs' ws) :=
  plain_alike ((decorators_agree hfs).bind fun _ => (texts_agree hes).bind fun _ =>
    (Agrees.all h).bind fun _ => (Pattern.typeParams_agree htypes).bind fun _ =>
      Agrees.bind rfl fun _ => docBlock_agree hss)

theorem returnStmt_alike (ho : Option.Rel Alike o o') :
    (returnStmt o).Alike (returnStmt o') :=
  plain_alike ((after_agree ho).before _)

theorem delete_alike (hes : Forall₂ Alike es es') : (delete es).Alike (delete es') :=
  plain_alike (Agrees.refuse_bind (forall₂_isEmpty hes) ((joined_agree hes).before _))

theorem assign_alike (hes : Forall₂ Alike es es') (ha : a.Alike a') :
    (assign es a).Alike (assign es' a') := by
  refine plain_alike (Agrees.refuse_bind (forall₂_isEmpty hes) ((joined_agree ?_).before _))
  exact rel_append hes (Forall₂.cons ha Forall₂.nil)

theorem augAssign_alike {op : Kind} (ha : a.Alike a') (hb : b.Alike b') :
    (augAssign a op b).Alike (augAssign a' op b') :=
  plain_alike (Agrees.demand_bind (ha.text.bind fun _ => hb.text.before _))

theorem annotatedTarget_of_isName {j j' : Kind} {simple : Bool} {text : String}
    (h : j = .nameExpr ↔ j' = .nameExpr) :
    annotatedTarget j simple text = annotatedTarget j' simple text := by
  simp only [annotatedTarget, h]

theorem annAssign_alike {simple : Bool} (ha : a.Alike a') (hb : b.Alike b')
    (ho : Option.Rel Alike o o') : (annAssign a b o simple).Alike (annAssign a' b' o' simple) := by
  refine plain_alike (ha.text.bind fun _ => ?_)
  rw [annotatedTarget_of_isName ha.isName]
  exact hb.text.bind fun _ => (after_agree ho).before _

theorem printedValues_agree {dest newline : Bool} (hes : Forall₂ Alike es es') :
    (printedValues dest newline es).Agrees (printedValues dest newline es') := by
  unfold printedValues
  rw [forall₂_isEmpty hes]
  split
  · exact Agrees.refl _
  · exact (joined_agree hes).before _

theorem print_alike {newline : Bool} (ho : Option.Rel Alike o o') (hes : Forall₂ Alike es es') :
    (print o es newline).Alike (print o' es' newline) := by
  have hdest : o.isSome = o'.isSome := by cases ho <;> rfl
  refine plain_alike ((after_agree ho).bind fun _ => ?_)
  rw [hdest]
  exact (printedValues_agree hes).before _

theorem forLoop_alike {keyword : String} (ha : a.Alike a') (hb : b.Alike b')
    (hss : Forall₂ StmtView.Alike ss ss') (hts : Forall₂ StmtView.Alike ts ts') :
    (forLoop k keyword a b ss ts).Alike (forLoop k keyword a' b' ss' ts') :=
  plain_alike (ha.text.bind fun _ => hb.text.bind fun _ => Agrees.bind rfl fun _ =>
    (block_agree hss).bind fun _ => optionalBlock_agree hts)

theorem tested_alike {keyword : String} (ha : a.Alike a') (hss : Forall₂ StmtView.Alike ss ss')
    (hts : Forall₂ StmtView.Alike ts ts') :
    (tested k keyword a ss ts).Alike (tested k keyword a' ss' ts') :=
  plain_alike (ha.text.bind fun _ => Agrees.bind rfl fun _ =>
    (block_agree hss).bind fun _ => optionalBlock_agree hts)

theorem context_agree (ha : a.Alike a') (ho : Option.Rel Alike o o') :
    (context a o).Agrees (context a' o') :=
  ha.text.bind fun _ => (after_agree ho).before _

theorem withItem_agree (ha : a.Alike a') (ho : Option.Rel Alike o o') :
    (withItem a o).Agrees (withItem a' o') :=
  Agrees.demand_bind (context_agree ha ho)

theorem withBlock_alike {keyword : String} (h : Forall₂ Agrees xs ys)
    (hss : Forall₂ StmtView.Alike ss ss') :
    (withBlock k keyword xs ss).Alike (withBlock k keyword ys ss') :=
  plain_alike (Agrees.refuse_bind (forall₂_isEmpty h) ((Agrees.all h).bind fun _ =>
    Agrees.bind rfl fun _ => block_agree hss))

theorem legacyWith_alike (ha : a.Alike a') (ho : Option.Rel Alike o o')
    (hss : Forall₂ StmtView.Alike ss ss') : (legacyWith a o ss).Alike (legacyWith a' o' ss') :=
  plain_alike ((context_agree ha ho).bind fun _ => Agrees.bind rfl fun _ => block_agree hss)

theorem raise_alike (ho : Option.Rel Alike o o') (hp : Option.Rel Alike p p') :
    (raise o p).Alike (raise o' p') := by
  refine plain_alike (Agrees.refuse_bind ?_ ((after_agree ho).bind fun _ =>
    (after_agree hp).before _))
  cases ho <;> cases hp <;> rfl

theorem raisedInstance_agree (ho : Option.Rel Alike o o') (hp : Option.Rel Alike p p') :
    (raisedInstance o p).Agrees (raisedInstance o' p') := by
  cases ho with
  | none => cases hp <;> exact Agrees.refl _
  | some he => exact after_agree (Option.Rel.some he)

theorem legacyRaise_alike (ho : Option.Rel Alike o o') (hp : Option.Rel Alike p p')
    (hq : Option.Rel Alike q q') : (legacyRaise o p q).Alike (legacyRaise o' p' q') := by
  apply plain_alike
  cases ho with
  | none =>
    refine Agrees.refuse_bind ?_ (Agrees.refl _)
    cases hp <;> cases hq <;> rfl
  | some he =>
    exact he.text.bind fun _ => (raisedInstance_agree hp hq).bind fun _ =>
      (after_agree hq).before _

section Handlers

variable {hs hs' : List (Bool → Draft Unit)}

theorem tryClauses_agree (star : Bool) (hss : Forall₂ StmtView.Alike ss ss')
    (hhs : Forall₂ (fun x y => ∀ star : Bool, (x star).Agrees (y star)) hs hs')
    (hts : Forall₂ StmtView.Alike ts ts') :
    (tryClauses ss hs star ts).Agrees (tryClauses ss' hs' star ts') := by
  refine Agrees.bind rfl fun _ => (block_agree hss).bind fun _ => (Agrees.each ?_).bind fun _ =>
    optionalBlock_agree hts
  rw [forall₂_map_left_iff, forall₂_map_right_iff]
  exact hhs.imp fun _ _ h => h star

theorem tryBlock_alike (star : Bool) (hss : Forall₂ StmtView.Alike ss ss')
    (hhs : Forall₂ (fun x y => ∀ star : Bool, (x star).Agrees (y star)) hs hs')
    (hts : Forall₂ StmtView.Alike ts ts') (hus : Forall₂ StmtView.Alike us us') :
    (tryBlock k star ss hs ts us).Alike (tryBlock k star ss' hs' ts' us') := by
  refine plain_alike (Agrees.refuse_bind ?_ (Agrees.refuse_bind ?_
    ((tryClauses_agree star hss hhs hts).bind fun _ => optionalBlock_agree hus)))
  · rw [forall₂_isEmpty hhs, forall₂_isEmpty hus]
  · rw [forall₂_isEmpty hhs, forall₂_isEmpty hts]

theorem tryExcept_alike (hss : Forall₂ StmtView.Alike ss ss')
    (hhs : Forall₂ (fun x y => ∀ star : Bool, (x star).Agrees (y star)) hs hs')
    (hts : Forall₂ StmtView.Alike ts ts') : (tryExcept ss hs ts).Alike (tryExcept ss' hs' ts') := by
  have hclauses := tryClauses_agree false hss hhs hts
  refine formed_alike ?_ (Agrees.refuse_bind (forall₂_isEmpty hhs) hclauses)
  rw [forall₂_isEmpty hhs]
  split
  · exact .plain
  · exact .tryExcept hclauses

end Handlers

/-- A try statement inside is told by its form, which is the same in both. -/
theorem finallyBody_agree (hss : Forall₂ StmtView.Alike ss ss') :
    (finallyBody ss).Agrees (finallyBody ss') := by
  have hnested (lines : Draft Unit) : (lines >>= fun _ => block ss).Agrees
      (lines >>= fun _ => block ss') := Agrees.bind rfl fun _ => block_agree hss
  cases hss with
  | nil => exact Agrees.refl _
  | @cons s s' rest rest' hs hrest =>
    cases hrest with
    | cons _ _ => exact hnested _
    | nil =>
      have hform := hs.form
      dsimp only [finallyBody]
      generalize s.form = form, s'.form = form' at hform
      cases hform with
      | tryExcept h => exact Agrees.demand_bind h
      | plain => exact hnested _
      | docstring _ _ _ => exact hnested _
      | futureImport => exact hnested _

theorem tryFinally_alike (hss : Forall₂ StmtView.Alike ss ss')
    (hts : Forall₂ StmtView.Alike ts ts') : (tryFinally ss ts).Alike (tryFinally ss' ts') :=
  plain_alike ((finallyBody_agree hss).bind fun _ => Agrees.bind rfl fun _ => block_agree hts)

theorem assert_alike (ha : a.Alike a') (ho : Option.Rel Alike o o') :
    (assert a o).Alike (assert a' o') :=
  plain_alike (ha.text.bind fun _ => (after_agree ho).before _)

theorem importNames_alike (h : Forall₂ Agrees xs ys) : (importNames xs).Alike (importNames ys) :=
  plain_alike (Agrees.refuse_bind (forall₂_isEmpty h) ((Agrees.all h).before _))

theorem importFrom_alike {source : Option String} {level : UInt32} (h : Forall₂ Agrees xs ys) :
    (importFrom source xs level).Alike (importFrom source ys level) := by
  refine formed_alike ?_ (Agrees.refuse_bind (forall₂_isEmpty h)
    (Agrees.refuse_bind rfl ((Agrees.all h).before _)))
  split
  · exact .futureImport
  · exact .plain

theorem exec_alike (ha : a.Alike a') (ho : Option.Rel Alike o o') (hp : Option.Rel Alike p p') :
    (exec a o p).Alike (exec a' o' p') := by
  refine plain_alike (ha.text.bind fun _ => Agrees.refuse_bind ?_ ((after_agree ho).bind fun _ =>
    (after_agree hp).before _))
  cases ho <;> cases hp <;> rfl

theorem matchCase_agree {u v : Draft String} (huv : u.Agrees v) (ho : Option.Rel Alike o o')
    (hss : Forall₂ StmtView.Alike ss ss') : (matchCase u o ss).Agrees (matchCase v o' ss') :=
  Agrees.demand_bind (huv.bind fun _ => (after_agree ho).bind fun _ =>
    Agrees.bind rfl fun _ => block_agree hss)

theorem matchBlock_alike {cs cs' : List (Draft Unit)} (ha : a.Alike a')
    (hcs : Forall₂ Agrees cs cs') : (matchBlock a cs).Alike (matchBlock a' cs') :=
  plain_alike (Agrees.refuse_bind (forall₂_isEmpty hcs) (ha.text.bind fun _ =>
    Agrees.bind rfl fun _ => (Agrees.each hcs).block))

theorem typeAlias_alike (ha : a.Alike a') (h : Forall₂ Agrees xs ys) (hb : b.Alike b') :
    (typeAlias a xs b).Alike (typeAlias a' ys b') :=
  plain_alike (ha.text.bind fun _ => (Pattern.typeParams_agree h).bind fun _ => hb.text.before _)

theorem exprStmt_alike (ha : a.Alike a') : (exprStmt a).Alike (exprStmt a') := by
  refine formed_alike ?_ (ha.text.before _)
  have hform := ha.form
  unfold exprForm
  generalize a.form = form, a'.form = form' at hform
  cases hform with
  | string text => exact .docstring _ _ text
  | _ => exact .plain

theorem exceptHandler_agree {name : Option String} {star : Bool} (ho : Option.Rel Alike o o')
    (hss : Forall₂ StmtView.Alike ss ss') :
    (exceptHandler o name ss star).Agrees (exceptHandler o' name ss' star) := by
  refine Agrees.demand_bind ?_
  cases ho with
  | none =>
    exact Agrees.refuse_bind rfl (Agrees.refuse_bind rfl
      (Agrees.bind rfl fun _ => block_agree hss))
  | some he => exact he.text.bind fun _ => Agrees.bind rfl fun _ => block_agree hss

theorem legacyExceptHandler_agree {star : Bool} (ho : Option.Rel Alike o o')
    (hp : Option.Rel Alike p p') (hss : Forall₂ StmtView.Alike ss ss') :
    (legacyExceptHandler o p ss star).Agrees (legacyExceptHandler o' p' ss' star) := by
  refine Agrees.demand_bind (Agrees.refuse_bind rfl ?_)
  cases ho with
  | none =>
    refine Agrees.refuse_bind ?_ (Agrees.bind rfl fun _ => block_agree hss)
    cases hp <;> rfl
  | some he =>
    exact he.text.bind fun _ => (after_agree hp).bind fun _ =>
      Agrees.bind rfl fun _ => block_agree hss

theorem isFutureImport_of_alike {s s' : StmtView} (h : s.Alike s') :
    isFutureImport s = isFutureImport s' := by
  have hform := h.form
  unfold isFutureImport
  generalize s.form = form, s'.form = form' at hform
  cases hform <;> rfl

theorem hoisted_alike (hss : Forall₂ StmtView.Alike ss ss') :
    Forall₂ StmtView.Alike (hoisted ss) (hoisted ss') := by
  refine rel_append (rel_filter ?_ hss) (rel_filter ?_ hss)
  · intro s s' h
    simp only [isFutureImport_of_alike h]
  · intro s s' h
    simp only [isFutureImport_of_alike h]

theorem module_agree (hss : Forall₂ StmtView.Alike ss ss') : (module ss).Agrees (module ss') := by
  refine Agrees.demand_bind ?_
  have hall := drafts_agree (hoisted_alike hss)
  cases hss with
  | nil => exact Agrees.refl _
  | @cons s s' rest rest' hs hrest =>
    have hform := hs.form
    dsimp only
    generalize s.form = form, s'.form = form' at hform
    cases hform with
    | docstring value value' text =>
      exact (docstring_agree value value' text).bind fun _ => drafts_agree (hoisted_alike hrest)
    | plain => exact hall
    | futureImport => exact hall
    | tryExcept _ => exact hall

theorem sequence_agree (hss : Forall₂ StmtView.Alike ss ss') :
    (sequence k ss).Agrees (sequence k ss') :=
  Agrees.demand_bind (drafts_agree hss)

theorem expression_agree (ha : a.Alike a') : (expression a).Agrees (expression a') :=
  Agrees.demand_bind (ha.text.before _)

end Render.Statement

end Unparse
