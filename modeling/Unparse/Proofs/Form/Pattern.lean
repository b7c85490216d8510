import Unparse.Proofs.Form.Expression
import Unparse.Render.Pattern

/-! The verdicts on patterns and type parameters. -/
namespace Unparse.Render.Pattern

open Draft List

variable {lays : Bool} {e : ExprView} {t : Node .expr} {ps qs : List (Draft String)}
  {ns ms : List (Node .pattern)}

theorem leaf_judged {k : Kind} {text : String} :
    (formed k (pure text)).Judged false (.of true []) := by
  apply JudgedWith.demand_bind
  rw [Verdict.of_true]
  exact JudgedWith.pure

theorem matchValue_judged (he : e.Judged t) :
    (matchValue e).Judged false (.of true [t.verdict]) :=
  (JudgedWith.demand_bind he.said).congr (by simp)

theorem matchSequence_judged (hps : Forall₂ (View.Judged .pattern) ps ns) :
    (matchSequence ps).Judged false (.of true [.total Tree.verdict ns]) :=
  (JudgedWith.demand_bind (JudgedWith.all hps).bind_pure).congr (by simp)

theorem matchMapping_judged {es : List ExprView} {ts : List (Node .expr)} {rest : Option String}
    (hes : Forall₂ ExprView.Judged es ts) (hps : Forall₂ (View.Judged .pattern) ps ns) :
    (matchMapping es ps rest).Judged false
      (.of (ts.length == ns.length) [.total Tree.verdict ts, .total Tree.verdict ns]) := by
  refine (JudgedWith.demand_bind (JudgedWith.refuse_unequal hes hps fun hlength =>
    (JudgedWith.zip Tree.verdict Tree.verdict hes hps hlength ?_).bind_pure)).congr ?_
  · rintro ⟨e, p⟩ ⟨t, n⟩ ⟨he, hp⟩
    exact he.said.bind fun _ => JudgedWith.bind_pure hp
  · simp [Verdict.of]

theorem matchClass_judged {attrs names : List String} (he : e.Judged t)
    (hps : Forall₂ (View.Judged .pattern) ps ns) (hattrs : Forall₂ Eq attrs names)
    (hqs : Forall₂ (View.Judged .pattern) qs ms) :
    (matchClass e ps attrs qs).Judged false
      (.of (names.length == ms.length)
        [t.verdict, .total Tree.verdict ns, .total Tree.verdict ms]) := by
  refine (JudgedWith.demand_bind (JudgedWith.refuse_unequal hattrs hqs fun hlength =>
    (JudgedWith.all hps).bind fun _ =>
      (JudgedWith.zip (fun _ => 0) Tree.verdict hattrs hqs hlength ?_).bind fun _ =>
        he.said.bind_pure)).congr ?_
  · rintro ⟨attr, q⟩ ⟨name, m⟩ ⟨_, hq⟩
    exact (JudgedWith.bind_pure hq).congr (zero_add _).symm
  · simp only [Verdict.of, Verdict.total_zero, sum_cons, sum_nil]
    abel

theorem matchAs_judged {p : Option (Draft String)} {n : Option (Node .pattern)}
    {name id : Option String} (hp : Option.Rel (View.Judged .pattern) p n)
    (hname : Option.Rel Eq name id) :
    (matchAs p name).Judged false
      (.of (id.isSome || n.isNone) [.maybe Tree.verdict n]) := by
  refine JudgedWith.demand_bind ?_
  cases hp with
  | none =>
    cases hname with
    | none => exact JudgedWith.pure.congr (by simp)
    | some => exact JudgedWith.pure.congr (by simp)
  | some hp =>
    cases hname with
    | none => exact JudgedWith.fail fun hformed => by simp [Verdict.of] at hformed
    | some => exact (JudgedWith.bind_pure hp).congr (by simp)

theorem matchOr_judged (hps : Forall₂ (View.Judged .pattern) ps ns) :
    (matchOr ps).Judged false (.of (2 ≤ ns.length) [.total Tree.verdict ns]) := by
  refine (JudgedWith.demand_bind (JudgedWith.refuse_single hps
    (JudgedWith.all hps).bind_pure)).congr ?_
  simp [Verdict.of]

theorem typeVar_judged {name : String} {o : Option ExprView} {m : Option (Node .expr)}
    (ho : Option.Rel ExprView.Judged o m) :
    (typeVar name o).Judged false (.of true [.maybe Tree.verdict m]) :=
  (JudgedWith.demand_bind (ExprView.after_judged ho).bind_pure).congr (by simp)

theorem typeParams_judged {ns : List (Node .typeParam)}
    (hps : Forall₂ (View.Judged .typeParam) ps ns) :
    (typeParams ps).Judged lays (.total Tree.verdict ns) := by
  cases hps with
  | nil => exact JudgedWith.pure
  | cons hp hps => exact (JudgedWith.all (Forall₂.cons hp hps)).bind_pure.laying

end Unparse.Render.Pattern
