import Unparse.Proofs.Weight.Pattern
import Unparse.Render.Statement

/-! The rules for statements, handlers and roots keep the balance. The ways around the
plain rule of a statement, which are docstrings and a try statement that is taken apart,
make the same demands and lay out the same texts as the rule itself. -/
namespace Unparse.Render.Statement

open Draft ExprView

variable {m : Scale} {u v w : Weight}

theorem formed_weighs {k : Kind} {form : StmtForm} {draft : Draft Unit} (hdraft : draft.Lays m w)
    (hform : form.Weighs m (.kind k + w)) : (formed k form draft).Weighs m (.kind k + w) :=
  ⟨Weighs.demand_bind hdraft, hform⟩

theorem plain_weighs {k : Kind} {draft : Draft Unit} (hdraft : draft.Lays m w) :
    (plain k draft).Weighs m (.kind k + w) :=
  formed_weighs hdraft trivial

section Blocks

theorem drafts_weighs {body : List StmtView} (h : Together (StmtView.Weighs m) body w) :
    (drafts body).Lays m w := by
  refine Weighs.each (h.map ?_)
  intro s w hs
  exact hs.draft

theorem block_weighs {body : List StmtView} (h : Together (StmtView.Weighs m) body w) :
    (block body).Lays m w := by
  refine Weighs.block ?_
  split
  next hempty =>
    rw [List.isEmpty_iff.mp hempty] at h
    rw [show w = 0 from h]
    exact Weighs.emit (n := 0) (by simp)
  next => exact drafts_weighs h

theorem docstring_weighs (value : Kind) (text : String) :
    (docstring value text).Lays m (.kind .exprStmt + (.kind value + .said (m.text text))) := by
  refine Weighs.demand_bind (Weighs.demand_bind (Weighs.verbatim ?_))
  rw [m.text_docstring, Nat.zero_add]

theorem docBlock_weighs {body : List StmtView} (h : Together (StmtView.Weighs m) body w) :
    (docBlock body).Lays m w := by
  cases body with
  | nil => exact block_weighs h
  | cons first rest =>
    unfold docBlock
    dsimp only
    split
    next value text heq =>
      obtain ⟨a, b, hfirst, hrest, rfl⟩ := h
      have hform := hfirst.form
      rw [heq] at hform
      rw [hform]
      exact Weighs.block ((docstring_weighs value text).bind fun _ => drafts_weighs hrest)
    next => exact block_weighs h

theorem optionalBlock_weighs {header : String} {body : List StmtView}
    (hheader : isAscii header = true) (h : Together (StmtView.Weighs m) body w) :
    (optionalBlock header body).Lays m w := by
  unfold optionalBlock
  split
  next hempty =>
    rw [List.isEmpty_iff.mp hempty] at h
    rw [show w = 0 from h]
    exact Weighs.done rfl
  next => exact Weighs.emit_bind (m.text_ascii hheader) (block_weighs h)

theorem elseBlock_weighs {body : List StmtView} (h : Together (StmtView.Weighs m) body w) :
    (elseBlock body).Lays m w :=
  optionalBlock_weighs (by decide) h

theorem finallyBlock_weighs {body : List StmtView} (h : Together (StmtView.Weighs m) body w) :
    (finallyBlock body).Lays m w :=
  optionalBlock_weighs (by decide) h

theorem decorators_weighs {es : List ExprView} (h : Together (ExprView.Weighs m) es w) :
    (decorators es).Lays m w := by
  refine Weighs.each (h.map ?_)
  intro e w he
  exact he.text.bind_emit fun text => by simp

end Blocks

section Definitions

theorem functionDef_weighs {k : Kind} {keyword name : String} {args : Bool → Draft String}
    {body : List StmtView} {decoration : List ExprView} {returns : Option ExprView}
    {typeParams : List (Draft String)} {a b c d e : Weight} (hkeyword : isAscii keyword = true)
    (hargs : ∀ allowed, (args allowed).Says m a) (hbody : Together (StmtView.Weighs m) body b)
    (hdecoration : Together (ExprView.Weighs m) decoration c)
    (hreturns : Maybe (ExprView.Weighs m) returns d)
    (htypeParams : Together (Says m) typeParams e) :
    (functionDef k keyword name args body decoration returns typeParams).Weighs m
      (.kind k + (c + (e + (a + (d + (m.scalar .text name + b)))))) := by
  refine plain_weighs ((decorators_weighs hdecoration).bind fun _ => ?_)
  refine (Pattern.typeParams_weighs htypeParams).bind fun generic => ?_
  refine (hargs true).bind fun params => ?_
  refine (after_weighs (by decide) hreturns).bind fun result => ?_
  have hheader : (Draft.emit (keyword ++ " " ++ name ++ generic ++ "(" ++ params ++ ")" ++ result
      ++ ":")).Weighs m (fun _ => 0) (0 + 0 + m.text generic + m.text params + m.text result)
      (m.scalar .text name) := by
    refine Weighs.emit ?_
    simp only [Scale.text_append, m.text_ascii hkeyword]
    simp [Scalar.strings]
    omega
  exact hheader.bind_laid (docBlock_weighs hbody)

theorem text_parenthesized (parts : List String) :
    m.text (parenthesized parts) = m.texts parts := by
  unfold parenthesized
  split
  next hempty =>
    rw [List.isEmpty_iff.mp hempty]
    simp
  next => simp

theorem classDef_weighs {name : String} {bases decoration : List ExprView}
    {keywords typeParams : List (Draft String)} {body : List StmtView} {a b c d e : Weight}
    (hbases : Together (ExprView.Weighs m) bases a) (hkeywords : Together (Says m) keywords b)
    (hbody : Together (StmtView.Weighs m) body c)
    (hdecoration : Together (ExprView.Weighs m) decoration d)
    (htypeParams : Together (Says m) typeParams e) :
    (classDef name bases keywords body decoration typeParams).Weighs m
      (.kind .classDef + (d + (a + (b + (e + (m.scalar .text name + c)))))) := by
  refine plain_weighs ((decorators_weighs hdecoration).bind fun _ => ?_)
  refine (texts_weighs hbases).bind fun positional => ?_
  refine (Lists.all hkeywords).bind fun named => ?_
  refine (Pattern.typeParams_weighs htypeParams).bind fun generic => ?_
  have hheader : (Draft.emit ("class " ++ name ++ generic ++ parenthesized (positional ++ named)
      ++ ":")).Weighs m (fun _ => 0)
      (0 + 0 + m.texts positional + m.texts named + m.text generic) (m.scalar .text name) := by
    refine Weighs.emit ?_
    simp [Scalar.strings, text_parenthesized]
    omega
  exact hheader.bind_laid (docBlock_weighs hbody)

end Definitions

section Simple

theorem returnStmt_weighs {value : Option ExprView} (h : Maybe (ExprView.Weighs m) value u) :
    (returnStmt value).Weighs m (.kind .returnStmt + u) :=
  plain_weighs ((after_weighs (by decide) h).bind_emit fun text => by simp)

theorem delete_weighs {targets : List ExprView} (h : Together (ExprView.Weighs m) targets u) :
    (delete targets).Weighs m (.kind .delete + u) := by
  refine plain_weighs (Weighs.refuse_bind fun _ => ?_)
  exact (joined_weighs (by decide) h).bind_emit fun text => by simp

theorem assign_weighs {targets : List ExprView} {value : ExprView}
    (htargets : Together (ExprView.Weighs m) targets u) (hvalue : value.Weighs m v) :
    (assign targets value).Weighs m (.kind .assign + (u + v)) := by
  have hlast : Together (ExprView.Weighs m) [value] v := ⟨v, 0, hvalue, rfl, (add_zero v).symm⟩
  refine plain_weighs (Weighs.refuse_bind fun _ => ?_)
  exact (joined_weighs (by decide) (htargets.append hlast)).bind_emit fun text => by simp

theorem augAssign_weighs {target value : ExprView} {op : Kind} (htarget : target.Weighs m u)
    (hvalue : value.Weighs m v) :
    (augAssign target op value).Weighs m (.kind .augAssign + (.kind op + (u + v))) := by
  refine plain_weighs (Weighs.demand_bind (htarget.text.bind fun left => ?_))
  exact hvalue.text.bind_emit fun right => by simp

theorem annAssign_weighs {target type : ExprView} {value : Option ExprView} {simple : Bool}
    (htarget : target.Weighs m u) (htype : type.Weighs m v)
    (hvalue : Maybe (ExprView.Weighs m) value w) :
    (annAssign target type value simple).Weighs m (.kind .annAssign + (u + (v + w))) := by
  have hleft (text : String) : m.text (annotatedTarget target.kind simple text) = m.text text := by
    unfold annotatedTarget
    split <;> simp
  refine plain_weighs (htarget.text.bind fun text => htype.text.bind fun annotation => ?_)
  exact (after_weighs (by decide) hvalue).bind_emit fun last => by simp [hleft]

theorem printedValues_weighs {dest newline : Bool} {values : List ExprView}
    (h : Together (ExprView.Weighs m) values u) : (printedValues dest newline values).Says m u := by
  unfold printedValues
  split
  next hempty =>
    rw [List.isEmpty_iff.mp hempty] at h
    rw [show u = 0 from h]
    exact Weighs.done (by simp)
  next =>
    refine (joined_weighs (by decide) h).bind_pure fun text => ?_
    cases dest <;> cases newline <;> simp

theorem print_weighs {dest : Option ExprView} {values : List ExprView} {newline : Bool}
    (hdest : Maybe (ExprView.Weighs m) dest u) (hvalues : Together (ExprView.Weighs m) values v) :
    (print dest values newline).Weighs m (.kind .print + (u + v)) := by
  refine plain_weighs ((after_weighs (by decide) hdest).bind fun target => ?_)
  exact (printedValues_weighs hvalues).bind_emit fun printed => by simp

theorem raise_weighs {exc cause : Option ExprView} (hexc : Maybe (ExprView.Weighs m) exc u)
    (hcause : Maybe (ExprView.Weighs m) cause v) :
    (raise exc cause).Weighs m (.kind .raise + (u + v)) := by
  refine plain_weighs (Weighs.refuse_bind fun _ => ?_)
  refine (after_weighs (by decide) hexc).bind fun first => ?_
  exact (after_weighs (by decide) hcause).bind_emit fun second => by simp

theorem raisedInstance_weighs {inst tback : Option ExprView}
    (h : Maybe (ExprView.Weighs m) inst u) : (raisedInstance inst tback).Says m u := by
  unfold raisedInstance
  split
  · rw [show u = 0 from h]
    exact Weighs.done (by simp)
  · exact after_weighs (by decide) h

theorem legacyRaise_weighs {type inst tback : Option ExprView}
    (htype : Maybe (ExprView.Weighs m) type u) (hinst : Maybe (ExprView.Weighs m) inst v)
    (htback : Maybe (ExprView.Weighs m) tback w) :
    (legacyRaise type inst tback).Weighs m (.kind .legacyRaise + (u + (v + w))) := by
  refine plain_weighs ?_
  cases type with
  | none =>
    refine Weighs.refuse_bind fun halone => ?_
    simp only [Bool.or_eq_false_iff, Option.isSome_eq_false_iff, Option.isNone_iff_eq_none]
      at halone
    obtain ⟨rfl, rfl⟩ := halone
    rw [show u = 0 from htype, show v = 0 from hinst, show w = 0 from htback, add_zero, add_zero]
    exact Weighs.emit (n := 0) (by simp)
  | some type =>
    refine Weighs.bind htype.text fun first => ?_
    refine (raisedInstance_weighs hinst).bind fun second => ?_
    exact (after_weighs (by decide) htback).bind_emit fun third => by simp

theorem assert_weighs {test : ExprView} {message : Option ExprView} (htest : test.Weighs m u)
    (hmessage : Maybe (ExprView.Weighs m) message v) :
    (assert test message).Weighs m (.kind .assert + (u + v)) := by
  refine plain_weighs (htest.text.bind fun text => ?_)
  exact (after_weighs (by decide) hmessage).bind_emit fun last => by simp

theorem importedName_weighs {name : String} {asname : Option String}
    (h : Maybe (fun s w => w = m.scalar .text s) asname u) :
    (importedName name asname).Says m (.kind .importedName + (m.scalar .text name + u)) := by
  refine Weighs.demand_bind ?_
  cases asname with
  | none =>
    rw [show u = 0 from h, add_zero]
    exact Weighs.pure (by simp [Scalar.strings])
  | some other =>
    have hboth : (.said (m.text name + m.text other) : Weight) = m.scalar .text name + u := by
      rw [show u = m.scalar .text other from h]
      simp [Scale.scalar, Scalar.strings, Weight.ext_iff]
    rw [← hboth]
    exact Weighs.pure (by simp)

theorem importNames_weighs {names : List (Draft String)} (h : Together (Says m) names u) :
    (importNames names).Weighs m (.kind .importNames + u) := by
  refine plain_weighs (Weighs.refuse_bind fun _ => ?_)
  exact (Lists.all h).bind_emit fun ss => by simp

theorem importFrom_weighs {source : Option String} {names : List (Draft String)} {level : UInt32}
    (hsource : Maybe (fun s w => w = m.scalar .text s) source u)
    (hnames : Together (Says m) names v) :
    (importFrom source names level).Weighs m (.kind .importFrom + (v + u)) := by
  have hdots : m.text (Text.copies level.toNat ".") = 0 :=
    m.text_copies (m.text_ascii (by decide)) _
  refine formed_weighs ?_ (by split <;> trivial)
  refine Weighs.refuse_bind fun _ => Weighs.refuse_bind fun _ => ?_
  refine (Lists.all hnames).bind fun ss => ?_
  cases source with
  | none =>
    rw [show u = 0 from hsource]
    exact Weighs.emit (n := 0) (by simp [hdots])
  | some source =>
    rw [show u = m.scalar .text source from hsource]
    exact Weighs.emit (by simp [hdots, Scalar.strings, Nat.add_comm])

theorem exec_weighs {body : ExprView} {globals locals : Option ExprView} (hbody : body.Weighs m u)
    (hglobals : Maybe (ExprView.Weighs m) globals v)
    (hlocals : Maybe (ExprView.Weighs m) locals w) :
    (exec body globals locals).Weighs m (.kind .exec + (u + (v + w))) := by
  refine plain_weighs (hbody.text.bind fun code => Weighs.refuse_bind fun _ => ?_)
  refine (after_weighs (by decide) hglobals).bind fun scope => ?_
  exact (after_weighs (by decide) hlocals).bind_emit fun last => by simp

theorem typeAlias_weighs {name value : ExprView} {typeParams : List (Draft String)}
    (hname : name.Weighs m u) (htypeParams : Together (Says m) typeParams v)
    (hvalue : value.Weighs m w) :
    (typeAlias name typeParams value).Weighs m (.kind .typeAlias + (u + (v + w))) := by
  refine plain_weighs (hname.text.bind fun left => ?_)
  refine (Pattern.typeParams_weighs htypeParams).bind fun generic => ?_
  exact hvalue.text.bind_emit fun right => by simp

theorem together_strings {names : List String}
    (h : Together (fun s w => w = m.scalar .text s) names u) : u = .said (m.texts names) := by
  induction names generalizing u with
  | nil => exact h
  | cons name names ih =>
    obtain ⟨a, b, rfl, hmore, rfl⟩ := h
    rw [ih hmore]
    simp [Scale.scalar, Scalar.strings, Weight.ext_iff]

theorem declaration_weighs {k : Kind} {keyword : String} {names : List String}
    (hkeyword : isAscii keyword = true)
    (h : Together (fun s w => w = m.scalar .text s) names u) :
    (declaration k keyword names).Weighs m (.kind k + u) := by
  rw [together_strings h]
  refine plain_weighs (Weighs.refuse_bind fun _ => Weighs.emit ?_)
  rw [m.text_append, m.text_append, m.text_ascii hkeyword]
  simp

theorem exprStmt_weighs {e : ExprView} (h : e.Weighs m u) :
    (exprStmt e).Weighs m (.kind .exprStmt + u) := by
  refine formed_weighs (h.text.bind_emit fun _ => (Nat.zero_add _).symm) ?_
  have hform := h.form
  unfold exprForm
  split
  next text heq =>
    rw [heq] at hform
    rw [hform]
    rfl
  next => trivial

theorem word_weighs {k : Kind} {text : String} (h : isAscii text = true) :
    (word k text).Weighs m (.kind k + 0) :=
  plain_weighs (Weighs.emit (n := 0) (m.text_ascii h))

end Simple

section Compound

theorem forLoop_weighs {k : Kind} {keyword : String} {target iter : ExprView}
    {body orelse : List StmtView} {a b c d : Weight} (hkeyword : isAscii keyword = true)
    (htarget : target.Weighs m a) (hiter : iter.Weighs m b)
    (hbody : Together (StmtView.Weighs m) body c)
    (horelse : Together (StmtView.Weighs m) orelse d) :
    (forLoop k keyword target iter body orelse).Weighs m (.kind k + (a + (b + (c + d)))) := by
  refine plain_weighs (htarget.text.bind fun left => hiter.text.bind fun right => ?_)
  refine Weighs.emit_bind ?_ ((block_weighs hbody).bind fun _ => elseBlock_weighs horelse)
  simp only [Scale.text_append, m.text_ascii hkeyword]
  simp

theorem tested_weighs {k : Kind} {keyword : String} {test : ExprView}
    {body orelse : List StmtView} (hkeyword : isAscii keyword = true) (htest : test.Weighs m u)
    (hbody : Together (StmtView.Weighs m) body v)
    (horelse : Together (StmtView.Weighs m) orelse w) :
    (tested k keyword test body orelse).Weighs m (.kind k + (u + (v + w))) := by
  refine plain_weighs (htest.text.bind fun text => ?_)
  refine Weighs.emit_bind ?_ ((block_weighs hbody).bind fun _ => elseBlock_weighs horelse)
  simp only [Scale.text_append, m.text_ascii hkeyword]
  simp

theorem context_weighs {expr : ExprView} {vars : Option ExprView} (hexpr : expr.Weighs m u)
    (hvars : Maybe (ExprView.Weighs m) vars v) : (context expr vars).Says m (u + v) :=
  hexpr.text.bind fun text => (after_weighs (by decide) hvars).bind_pure fun last => by simp

theorem withItem_weighs {expr : ExprView} {vars : Option ExprView} (hexpr : expr.Weighs m u)
    (hvars : Maybe (ExprView.Weighs m) vars v) :
    (withItem expr vars).Says m (.kind .withItem + (u + v)) :=
  Weighs.demand_bind (context_weighs hexpr hvars)

theorem withBlock_weighs {k : Kind} {keyword : String} {items : List (Draft String)}
    {body : List StmtView} (hkeyword : isAscii keyword = true)
    (hitems : Together (Says m) items u) (hbody : Together (StmtView.Weighs m) body v) :
    (withBlock k keyword items body).Weighs m (.kind k + (u + v)) := by
  refine plain_weighs (Weighs.refuse_bind fun _ => (Lists.all hitems).bind fun ss => ?_)
  refine Weighs.emit_bind ?_ (block_weighs hbody)
  simp only [Scale.text_append, m.text_ascii hkeyword]
  simp

theorem legacyWith_weighs {expr : ExprView} {vars : Option ExprView} {body : List StmtView}
    (hexpr : expr.Weighs m u) (hvars : Maybe (ExprView.Weighs m) vars v)
    (hbody : Together (StmtView.Weighs m) body w) :
    (legacyWith expr vars body).Weighs m (.kind .legacyWith + (u + v + w)) := by
  refine plain_weighs ((context_weighs hexpr hvars).bind fun text => ?_)
  exact Weighs.emit_bind (by simp) (block_weighs hbody)

theorem tryClauses_weighs {body orelse : List StmtView} {handlers : List (Bool → Draft Unit)}
    {star : Bool} (hbody : Together (StmtView.Weighs m) body u)
    (hhandlers : Together (fun h w => ∀ star, (h star).Lays m w) handlers v)
    (horelse : Together (StmtView.Weighs m) orelse w) :
    (tryClauses body handlers star orelse).Lays m (u + (v + w)) := by
  have hclauses : Together (Lays m) (handlers.map (· star)) v := by
    refine hhandlers.map ?_
    intro h w hh
    exact hh star
  refine Weighs.emit_bind (by simp) ((block_weighs hbody).bind fun _ => ?_)
  exact (Weighs.each hclauses).bind fun _ => elseBlock_weighs horelse

theorem tryBlock_weighs {k : Kind} {star : Bool} {body orelse final : List StmtView}
    {handlers : List (Bool → Draft Unit)} {a b c d : Weight}
    (hbody : Together (StmtView.Weighs m) body a)
    (hhandlers : Together (fun h w => ∀ star, (h star).Lays m w) handlers b)
    (horelse : Together (StmtView.Weighs m) orelse c)
    (hfinal : Together (StmtView.Weighs m) final d) :
    (tryBlock k star body handlers orelse final).Weighs m (.kind k + (a + (b + c) + d)) := by
  refine plain_weighs (Weighs.refuse_bind fun _ => Weighs.refuse_bind fun _ => ?_)
  exact (tryClauses_weighs hbody hhandlers horelse).bind fun _ => finallyBlock_weighs hfinal

theorem tryExcept_weighs {body orelse : List StmtView} {handlers : List (Bool → Draft Unit)}
    (hbody : Together (StmtView.Weighs m) body u)
    (hhandlers : Together (fun h w => ∀ star, (h star).Lays m w) handlers v)
    (horelse : Together (StmtView.Weighs m) orelse w) :
    (tryExcept body handlers orelse).Weighs m (.kind .tryExcept + (u + (v + w))) := by
  have hclauses : (tryClauses body handlers false orelse).Lays m (u + (v + w)) :=
    tryClauses_weighs hbody hhandlers horelse
  refine formed_weighs (Weighs.refuse_bind fun _ => hclauses) ?_
  split
  · trivial
  · exact ⟨_, hclauses, rfl⟩

theorem finallyBody_weighs {body : List StmtView} (h : Together (StmtView.Weighs m) body u) :
    (finallyBody body).Lays m u := by
  have hnested : (do Draft.emit "try:"; block body : Draft Unit).Lays m u :=
    Weighs.emit_bind (by simp) (block_weighs h)
  unfold finallyBody
  split
  next only =>
    split
    next clauses heq =>
      obtain ⟨a, b, honly, hnil, rfl⟩ := h
      have hform := honly.form
      rw [heq] at hform
      obtain ⟨c, hclauses, rfl⟩ := hform
      rw [show b = 0 from hnil, add_zero]
      exact Weighs.demand_bind hclauses
    next => exact hnested
  next => exact hnested

theorem tryFinally_weighs {body final : List StmtView}
    (hbody : Together (StmtView.Weighs m) body u) (hfinal : Together (StmtView.Weighs m) final v) :
    (tryFinally body final).Weighs m (.kind .tryFinally + (u + v)) := by
  refine plain_weighs ((finallyBody_weighs hbody).bind fun _ => ?_)
  exact Weighs.emit_bind (by simp) (block_weighs hfinal)

theorem matchCase_weighs {pattern : Draft String} {guard : Option ExprView}
    {body : List StmtView} (hpattern : pattern.Says m u)
    (hguard : Maybe (ExprView.Weighs m) guard v) (hbody : Together (StmtView.Weighs m) body w) :
    (matchCase pattern guard body).Lays m (.kind .matchCase + (u + (v + w))) := by
  refine Weighs.demand_bind (hpattern.bind fun text => ?_)
  refine (after_weighs (by decide) hguard).bind fun condition => ?_
  exact Weighs.emit_bind (by simp) (block_weighs hbody)

theorem matchBlock_weighs {subject : ExprView} {cases : List (Draft Unit)}
    (hsubject : subject.Weighs m u) (hcases : Together (Lays m) cases v) :
    (matchBlock subject cases).Weighs m (.kind .matchBlock + (u + v)) := by
  refine plain_weighs (Weighs.refuse_bind fun _ => hsubject.text.bind fun text => ?_)
  exact Weighs.emit_bind (by simp) (Weighs.block (Weighs.each hcases))

end Compound

section Handlers

theorem isAscii_exceptWord (star : Bool) : isAscii (exceptWord star) = true := by
  cases star <;> decide

theorem exceptHandler_weighs {type : Option ExprView} {name : Option String}
    {body : List StmtView} {star : Bool} (htype : Maybe (ExprView.Weighs m) type u)
    (hname : Maybe (fun s w => w = m.scalar .text s) name v)
    (hbody : Together (StmtView.Weighs m) body w) :
    (exceptHandler type name body star).Lays m (.kind .exceptHandler + (u + (v + w))) := by
  have hword : m.text (exceptWord star) = 0 := m.text_ascii (isAscii_exceptWord star)
  refine Weighs.demand_bind ?_
  cases type with
  | none =>
    refine Weighs.refuse_bind fun halone => Weighs.refuse_bind fun _ => ?_
    have hnone : name = none := by simpa using halone
    subst hnone
    rw [show u = 0 from htype, show v = 0 from hname, zero_add, zero_add]
    exact Weighs.emit_bind (by simp [hword]) (block_weighs hbody)
  | some type =>
    refine Weighs.bind htype.text fun text => ?_
    cases name with
    | none =>
      rw [show v = 0 from hname, zero_add w]
      exact Weighs.emit_bind (by simp [hword]) (block_weighs hbody)
    | some name =>
      rw [show v = m.scalar .text name from hname]
      exact (Weighs.emit (by simp [hword, Scalar.strings])).bind_laid (block_weighs hbody)

theorem legacyExceptHandler_weighs {type target : Option ExprView} {body : List StmtView}
    {star : Bool} (htype : Maybe (ExprView.Weighs m) type u)
    (htarget : Maybe (ExprView.Weighs m) target v) (hbody : Together (StmtView.Weighs m) body w) :
    (legacyExceptHandler type target body star).Lays m
      (.kind .legacyExceptHandler + (u + (v + w))) := by
  refine Weighs.demand_bind (Weighs.refuse_bind fun _ => ?_)
  cases type with
  | none =>
    refine Weighs.refuse_bind fun halone => ?_
    have hnone : target = none := by simpa using halone
    subst hnone
    rw [show u = 0 from htype, show v = 0 from htarget, zero_add, zero_add]
    exact Weighs.emit_bind (by simp) (block_weighs hbody)
  | some type =>
    refine Weighs.bind htype.text fun text => ?_
    refine (after_weighs (by decide) htarget).bind fun bound => ?_
    exact Weighs.emit_bind (by simp) (block_weighs hbody)

end Handlers

section Roots

theorem module_weighs {body : List StmtView} (h : Together (StmtView.Weighs m) body u) :
    (module body).Lays m (.kind .module + u) := by
  have hhoisted {rest : List StmtView} {w : Weight} (hrest : Together (StmtView.Weighs m) rest w) :
      (drafts (hoisted rest)).Lays m w := drafts_weighs (hrest.partition isFutureImport)
  refine Weighs.demand_bind ?_
  cases body with
  | nil =>
    rw [show u = 0 from h]
    exact Weighs.done rfl
  | cons first rest =>
    dsimp only
    split
    next value text heq =>
      obtain ⟨a, b, hfirst, hrest, rfl⟩ := h
      have hform := hfirst.form
      rw [heq] at hform
      rw [hform]
      exact (docstring_weighs value text).bind fun _ => hhoisted hrest
    next => exact hhoisted h

theorem sequence_weighs {k : Kind} {body : List StmtView}
    (h : Together (StmtView.Weighs m) body u) : (sequence k body).Lays m (.kind k + u) :=
  Weighs.demand_bind (drafts_weighs h)

theorem expression_weighs {body : ExprView} (h : body.Weighs m u) :
    (expression body).Lays m (.kind .expression + u) :=
  Weighs.demand_bind (h.text.bind_emit fun _ => (Nat.zero_add _).symm)

end Roots

end Unparse.Render.Statement
