import Unparse.Proofs.Weight.Expression
import Unparse.Render.Parameters

/-! The rules for parameter lists keep the balance. Defaults are handed out from the right,
and no parameter and no default is left over. -/
namespace Unparse.Render.Parameters

open Draft ExprView

variable {m : Scale} {u v w : Weight}

theorem arg_weighs {name : String} {type : Option ExprView}
    (htype : Maybe (ExprView.Weighs m) type u) :
    (arg name type).Weighs m (.kind .arg + (u + m.scalar .text name)) := by
  intro allowed
  refine Weighs.demand_bind ?_
  cases type with
  | none =>
    rw [show u = 0 from htype, zero_add]
    exact Weighs.pure (by simp [Scalar.strings])
  | some type =>
    cases allowed with
    | false => exact Weighs.fail
    | true => exact htype.text.bind fun text => Weighs.pure (by simp [Scalar.strings, Nat.add_comm])

theorem withDefault_weighs {allowed : Bool} {a : ArgView} {default : Option ExprView}
    (ha : a.Weighs m u) (hdefault : Maybe (ExprView.Weighs m) default v) :
    (withDefault allowed a default).Says m (u + v) := by
  have hsign : isAscii (if a.annotated then " = " else "=") = true := by
    split <;> decide
  refine (ha allowed).bind fun text => ?_
  exact (after_weighs hsign hdefault).bind_pure fun value => by simp

theorem together_none (n : Nat) :
    Together (Maybe (ExprView.Weighs m)) (List.replicate n none) 0 :=
  Together.replicate (P := Maybe (ExprView.Weighs m)) (x := none) rfl n

theorem alignDefaults_weighs {defaults : List ExprView} (positional : Nat)
    (h : Together (ExprView.Weighs m) defaults v) :
    Together (Maybe (ExprView.Weighs m)) (alignDefaults positional defaults) v := by
  have hnone := together_none (m := m) (positional - defaults.length)
  have hsome : Together (Maybe (ExprView.Weighs m)) (defaults.map some) v := by
    refine h.map ?_
    intro e w he
    exact he
  have hboth := hnone.append hsome
  rwa [zero_add] at hboth

theorem alignKeywordDefaults_weighs {defaults : List (Option ExprView)} (keywordOnly : Nat)
    (h : Together (Maybe (ExprView.Weighs m)) defaults v) :
    Together (Maybe (ExprView.Weighs m)) (alignKeywordDefaults keywordOnly defaults) v := by
  unfold alignKeywordDefaults
  split
  next hempty =>
    rw [List.isEmpty_iff.mp hempty] at h
    rw [show v = 0 from h]
    exact together_none keywordOnly
  next => exact h

theorem withDefaults_weighs {allowed : Bool} {args : List ArgView}
    {defaults : List (Option ExprView)} (hargs : Together (ArgView.Weighs m) args u)
    (hdefaults : Together (Maybe (ExprView.Weighs m)) defaults v)
    (hlength : args.length = defaults.length) :
    (withDefaults allowed args defaults).Lists m (u + v) := by
  refine Lists.all ((hargs.zip hdefaults hlength).map ?_)
  rintro ⟨a, d⟩ _ ⟨p, q, ha, hd, rfl⟩
  exact withDefault_weighs ha hd

@[simp] theorem texts_slashAfter (count : Nat) (ss : List String) :
    m.texts (slashAfter count ss) = m.texts ss := by
  unfold slashAfter
  split
  · rfl
  · have hparts := congrArg m.texts (List.take_append_drop count ss)
    rw [m.texts_append] at hparts
    simpa using hparts

theorem star_weighs {allowed keywordOnly : Bool} {a : Option ArgView}
    (h : Maybe (ArgView.Weighs m) a u) : (star allowed keywordOnly a).Lists m u := by
  cases a with
  | none =>
    rw [show u = 0 from h]
    cases keywordOnly <;> exact Weighs.done (by simp)
  | some a => exact Weighs.bind_pure (h allowed) fun text => by simp

theorem doubleStar_weighs {allowed : Bool} {a : Option ArgView}
    (h : Maybe (ArgView.Weighs m) a u) : (doubleStar allowed a).Lists m u := by
  cases a with
  | none =>
    rw [show u = 0 from h]
    exact Weighs.done rfl
  | some a => exact Weighs.bind_pure (h allowed) fun text => by simp

theorem arguments_weighs {posonly args kwonly : List ArgView} {vararg kwarg : Option ArgView}
    {kwDefaults : List (Option ExprView)} {defaults : List ExprView} {a b c d e f g : Weight}
    (hposonly : Together (ArgView.Weighs m) posonly a) (hargs : Together (ArgView.Weighs m) args b)
    (hvararg : Maybe (ArgView.Weighs m) vararg c)
    (hkwonly : Together (ArgView.Weighs m) kwonly d)
    (hkwDefaults : Together (Maybe (ExprView.Weighs m)) kwDefaults e)
    (hkwarg : Maybe (ArgView.Weighs m) kwarg f)
    (hdefaults : Together (ExprView.Weighs m) defaults g) (allowed : Bool) :
    (arguments posonly args vararg kwonly kwDefaults kwarg defaults allowed).Says m
      (.kind .arguments + (a + b + g + (c + (d + e + f)))) := by
  refine Weighs.demand_bind (Weighs.refuse_bind fun hsurplus => Weighs.refuse_bind fun hmatch => ?_)
  have hfits : defaults.length ≤ (posonly ++ args).length := by simpa using hsurplus
  refine (withDefaults_weighs (hposonly.append hargs) (alignDefaults_weighs _ hdefaults)
    (length_alignDefaults hfits).symm).bind fun first => ?_
  refine (star_weighs hvararg).bind fun variadic => ?_
  refine (withDefaults_weighs hkwonly (alignKeywordDefaults_weighs _ hkwDefaults)
    (length_alignKeywordDefaults hmatch).symm).bind fun keywords => ?_
  exact (doubleStar_weighs hkwarg).bind_pure fun last => by simp; omega

end Unparse.Render.Parameters
