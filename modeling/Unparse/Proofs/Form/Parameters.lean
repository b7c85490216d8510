import Unparse.Proofs.Form.Expression
import Unparse.Render.Parameters

/-! The verdicts on parameter lists. Defaults are aligned with the parameters that they belong
to, and no default is left over. -/
namespace Unparse.Render.Parameters

open Draft List

variable {allowed : Bool} {a : ArgView} {n : Node .arg} {as : List ArgView} {ns : List (Node .arg)}
  {o : Option ArgView} {m : Option (Node .arg)} {es : List ExprView} {ts : List (Node .expr)}
  {ds : List (Option ExprView)} {ms : List (Option (Node .expr))}

/-- The verdict on a parameter, where it may be annotated or not. -/
def judge (allowed : Bool) (n : Node .arg) : Verdict :=
  .of (allowed || !n.isAnnotated) [n.verdict]

theorem total_judge (allowed : Bool) (ns : List (Node .arg)) :
    Verdict.total (judge allowed) ns =
      .of (allowed || ns.all (!·.isAnnotated)) [.total Tree.verdict ns] := by
  unfold judge
  rw [Verdict.total_of]
  cases allowed <;> simp [Verdict.of]

theorem arg_judged {name : String} {type : Option ExprView} {m : Option (Node .expr)}
    (h : Option.Rel ExprView.Judged type m) (allowed : Bool) :
    ((arg name type).text allowed).Judged false
      (.of (allowed || !m.isSome) [.of true [.maybe Tree.verdict m]]) := by
  refine JudgedWith.demand_bind ?_
  cases h with
  | none => exact JudgedWith.pure.congr (by simp)
  | some he =>
    cases allowed with
    | true => exact he.said.bind_pure.congr (by simp)
    | false => exact JudgedWith.fail fun hformed => by simp [Verdict.of] at hformed

theorem withDefault_judged {d : Option ExprView} {m : Option (Node .expr)} (ha : a.Judged n)
    (hd : Option.Rel ExprView.Judged d m) :
    (withDefault allowed a d).Judged false (judge allowed n + .maybe Tree.verdict m) :=
  (ha allowed).bind fun _ => (ExprView.after_judged hd).bind_pure

/-- The verdict on defaults that may be missing. -/
def Aligned (ds : List (Option ExprView)) (w : Verdict) : Prop :=
  ∃ ms : List (Option (Node .expr)), Forall₂ (Option.Rel ExprView.Judged) ds ms ∧
    Verdict.total (.maybe Tree.verdict) ms = w

theorem aligned_absent (count : Nat) : Aligned (replicate count none) 0 := by
  refine ⟨replicate count none, ?_, by simp [Verdict.total]⟩
  induction count with
  | zero => exact Forall₂.nil
  | succ count ih => exact Forall₂.cons Option.Rel.none ih

theorem alignDefaults_aligned (count : Nat) (hes : Forall₂ ExprView.Judged es ts) :
    Aligned (alignDefaults count es) (.total Tree.verdict ts) := by
  obtain ⟨absent, habsent, hzero⟩ := aligned_absent (count - es.length)
  refine ⟨absent ++ ts.map some, rel_append habsent ?_, ?_⟩
  · rw [forall₂_map_left_iff, forall₂_map_right_iff]
    exact hes.imp fun _ _ he => Option.Rel.some he
  · rw [Verdict.total_append, hzero, zero_add]
    simp [Verdict.total, Function.comp_def]

theorem alignKeywordDefaults_aligned (count : Nat)
    (hds : Forall₂ (Option.Rel ExprView.Judged) ds ms) :
    Aligned (alignKeywordDefaults count ds) (.total (.maybe Tree.verdict) ms) := by
  cases hds with
  | nil => exact aligned_absent count
  | cons hd hds => exact ⟨_, Forall₂.cons hd hds, rfl⟩

theorem withDefaults_judged {w : Verdict} (has : Forall₂ ArgView.Judged as ns)
    (hds : Aligned ds w) (hlength : as.length = ds.length) :
    (withDefaults allowed as ds).Judged false (.total (judge allowed) ns + w) := by
  obtain ⟨ms, hms, rfl⟩ := hds
  refine JudgedWith.zip (judge allowed) (.maybe Tree.verdict) has hms hlength ?_
  rintro ⟨a, d⟩ ⟨n, m⟩ ⟨ha, hd⟩
  exact withDefault_judged ha hd

theorem star_judged {keywordOnly : Bool} (ho : Option.Rel ArgView.Judged o m) :
    (star allowed keywordOnly o).Judged false (.total (judge allowed) m.toList) := by
  cases ho with
  | none => exact JudgedWith.pure
  | some ha => exact (ha allowed).bind_pure.congr (by simp [judge])

theorem doubleStar_judged (ho : Option.Rel ArgView.Judged o m) :
    (doubleStar allowed o).Judged false (.total (judge allowed) m.toList) := by
  cases ho with
  | none => exact JudgedWith.pure
  | some ha => exact (ha allowed).bind_pure.congr (by simp [judge])

theorem arguments_judged {posonly args kwonly : List ArgView} {vararg kwarg : Option ArgView}
    {ps qs ks : List (Node .arg)} {v w : Option (Node .arg)}
    (hposonly : Forall₂ ArgView.Judged posonly ps) (hargs : Forall₂ ArgView.Judged args qs)
    (hvararg : Option.Rel ArgView.Judged vararg v) (hkwonly : Forall₂ ArgView.Judged kwonly ks)
    (hds : Forall₂ (Option.Rel ExprView.Judged) ds ms)
    (hkwarg : Option.Rel ArgView.Judged kwarg w) (hes : Forall₂ ExprView.Judged es ts)
    (allowed : Bool) :
    (arguments posonly args vararg kwonly ds kwarg es allowed).Judged false
      (.of (allowed || (Kind.allParameters ps qs v ks w).all (!·.isAnnotated))
        [.of (ts.length ≤ ps.length + qs.length && (ms.isEmpty || ms.length == ks.length))
          [.total Tree.verdict ps, .total Tree.verdict qs, .maybe Tree.verdict v,
            .total Tree.verdict ks, .total (.maybe Tree.verdict) ms, .maybe Tree.verdict w,
            .total Tree.verdict ts]]) := by
  have hpositional := rel_append hposonly hargs
  refine (JudgedWith.demand_bind (JudgedWith.refuse_bind fun hcount =>
    JudgedWith.refuse_bind fun hkeywords =>
      (withDefaults_judged hpositional (alignDefaults_aligned _ hes) ?_).bind fun _ =>
        (star_judged hvararg).bind fun _ =>
          (withDefaults_judged hkwonly (alignKeywordDefaults_aligned _ hds) ?_).bind fun _ =>
            (doubleStar_judged hkwarg).bind_pure)).congr ?_
  · rw [length_alignDefaults]
    simpa using hcount
  · rw [length_alignKeywordDefaults hkeywords]
  · have hdefaults : (decide ((posonly ++ args).length < es.length) = false) =
        (ts.length ≤ ps.length + qs.length) := by
      simp [hposonly.length_eq, hargs.length_eq, hes.length_eq]
    have hkeywords : ((!ds.isEmpty && ds.length != kwonly.length) = false) =
        (ms.isEmpty = true ∨ ms.length = ks.length) := by
      rw [forall₂_isEmpty hds, hds.length_eq, hkwonly.length_eq]
      simp [or_iff_not_imp_left]
    -- The parameters are rendered in the order in which they are listed, with defaults between.
    have hparameters := total_judge allowed (Kind.allParameters ps qs v ks w)
    simp only [Verdict.of, Kind.allParameters, Bool.and_eq_true, Verdict.asks_and,
      decide_eq_true_eq, Bool.or_eq_true, beq_iff_eq, sum_cons, sum_nil, hdefaults, hkeywords,
      Verdict.total_append, Verdict.total_toList] at hparameters ⊢
    calc
      _ = Verdict.total (judge allowed) ps + Verdict.total (judge allowed) qs +
            Verdict.maybe (judge allowed) v + Verdict.total (judge allowed) ks +
            Verdict.maybe (judge allowed) w +
          (Verdict.asks (ts.length ≤ ps.length + qs.length) +
            Verdict.asks (ms.isEmpty = true ∨ ms.length = ks.length) +
            Verdict.total Tree.verdict ts + Verdict.total (.maybe Tree.verdict) ms) := by abel
      _ = _ := by
        rw [hparameters]
        abel

end Unparse.Render.Parameters
