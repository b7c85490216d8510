import Unparse.Proofs.Weight.Expression
import Unparse.Render.Pattern

/-! The rules for patterns and type parameters keep the balance. -/
namespace Unparse.Render.Pattern

open Draft ExprView

variable {m : Scale} {u v w : Weight}

theorem matchValue_weighs {value : ExprView} (h : value.Weighs m u) :
    (matchValue value).Says m (.kind .matchValue + u) :=
  Weighs.demand_bind h.text

theorem matchSingleton_weighs (value : Singleton) :
    (matchSingleton value).Says m (.kind .matchSingleton + 0) :=
  Weighs.demand_bind (Weighs.done (m.text_singleton value))

theorem matchSequence_weighs {patterns : List (Draft String)}
    (h : Together (Says m) patterns u) :
    (matchSequence patterns).Says m (.kind .matchSequence + u) :=
  Weighs.demand_bind ((Lists.all h).bind_pure fun ss => by simp)

theorem mappingEntry_weighs {key : ExprView} {value : Draft String} (hkey : key.Weighs m u)
    (hvalue : value.Says m v) : (mappingEntry key value).Says m (u + v) :=
  hkey.text.bind fun k => hvalue.bind_pure fun text => by simp

theorem matchMapping_weighs {keys : List ExprView} {patterns : List (Draft String)}
    {rest : Option String} (hkeys : Together (ExprView.Weighs m) keys u)
    (hpatterns : Together (Says m) patterns v)
    (hrest : Maybe (fun s w => w = m.scalar .text s) rest w) :
    (matchMapping keys patterns rest).Says m (.kind .matchMapping + (u + v + w)) := by
  refine Weighs.demand_bind (Weighs.refuse_bind fun hlength => ?_)
  have hentries := hkeys.zip hpatterns (by simpa using hlength)
  refine (Lists.all (hentries.map ?_)).bind fun entries => ?_
  · rintro ⟨k, p⟩ _ ⟨a, b, hk, hp, rfl⟩
    exact mappingEntry_weighs hk hp
  · cases rest with
    | none =>
      rw [show w = 0 from hrest]
      exact Weighs.done (by simp [restEntry])
    | some name =>
      rw [show w = m.scalar .text name from hrest]
      exact Weighs.pure (by simp [restEntry, Scalar.strings])

theorem keywordEntry_weighs {attr : String} {value : Draft String} (h : value.Says m u) :
    (keywordEntry attr value).Says m (u + m.scalar .text attr) :=
  h.bind fun text => Weighs.pure (by simp [Scalar.strings, Nat.add_comm])

theorem matchClass_weighs {cls : ExprView} {patterns values : List (Draft String)}
    {attrs : List String} {a b c d : Weight} (hcls : cls.Weighs m a)
    (hpatterns : Together (Says m) patterns b)
    (hattrs : Together (fun s w => w = m.scalar .text s) attrs c)
    (hvalues : Together (Says m) values d) :
    (matchClass cls patterns attrs values).Says m
      (.kind .matchClass + (b + (c + d + a))) := by
  refine Weighs.demand_bind (Weighs.refuse_bind fun hlength => ?_)
  have hpairs := hattrs.zip hvalues (by simpa using hlength)
  refine (Lists.all hpatterns).bind fun positional => ?_
  refine (Lists.all (hpairs.map ?_)).bind fun named => ?_
  · rintro ⟨attr, value⟩ _ ⟨p, q, rfl, hvalue, rfl⟩
    exact (keywordEntry_weighs hvalue).congr (add_comm ..)
  · exact hcls.text.bind_pure fun text => by simp; omega

theorem matchStar_weighs {name : Option String}
    (h : Maybe (fun s w => w = m.scalar .text s) name u) :
    (matchStar name).Says m (.kind .matchStar + u) := by
  refine Weighs.demand_bind ?_
  cases name with
  | none =>
    rw [show u = 0 from h]
    exact Weighs.done (by simp)
  | some name =>
    rw [show u = m.scalar .text name from h]
    exact Weighs.pure (by simp [Scalar.strings])

theorem matchAs_weighs {pattern : Option (Draft String)} {name : Option String}
    (hpattern : Maybe (Says m) pattern u)
    (hname : Maybe (fun s w => w = m.scalar .text s) name v) :
    (matchAs pattern name).Says m (.kind .matchAs + (u + v)) := by
  refine Weighs.demand_bind ?_
  rcases pattern with _ | p <;> rcases name with _ | n
  · rw [show u = 0 from hpattern, show v = 0 from hname, add_zero]
    exact Weighs.done (by simp)
  · rw [show u = 0 from hpattern, show v = m.scalar .text n from hname, zero_add]
    exact Weighs.pure (by simp [Scalar.strings])
  · exact Weighs.fail
  · rw [show v = m.scalar .text n from hname]
    exact Weighs.bind hpattern fun text => Weighs.pure (by simp [Scalar.strings])

theorem matchOr_weighs {patterns : List (Draft String)} (h : Together (Says m) patterns u) :
    (matchOr patterns).Says m (.kind .matchOr + u) :=
  Weighs.demand_bind (Weighs.refuse_bind fun _ => (Lists.all h).bind_pure fun ss => by simp)

theorem typeVar_weighs {name : String} {bound : Option ExprView}
    (h : Maybe (ExprView.Weighs m) bound u) :
    (typeVar name bound).Says m (.kind .typeVar + (u + m.scalar .text name)) := by
  refine Weighs.demand_bind ((after_weighs (by decide) h).bind fun text => ?_)
  exact Weighs.pure (by simp [Scalar.strings, Nat.add_comm])

theorem paramSpec_weighs (name : String) :
    (paramSpec name).Says m (.kind .paramSpec + m.scalar .text name) :=
  Weighs.demand_bind (Weighs.pure (by simp [Scalar.strings]))

theorem typeVarTuple_weighs (name : String) :
    (typeVarTuple name).Says m (.kind .typeVarTuple + m.scalar .text name) :=
  Weighs.demand_bind (Weighs.pure (by simp [Scalar.strings]))

theorem typeParams_weighs {params : List (Draft String)} (h : Together (Says m) params u) :
    (typeParams params).Says m u := by
  unfold typeParams
  split
  next hempty =>
    rw [List.isEmpty_iff.mp hempty] at h
    rw [show u = 0 from h]
    exact Weighs.done (by simp)
  next => exact (Lists.all h).bind_pure fun ss => by simp

end Unparse.Render.Pattern
