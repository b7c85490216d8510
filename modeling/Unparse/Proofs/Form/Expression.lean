import Unparse.Proofs.Form.View

/-! The verdicts on expressions. Each rule asks for what its kind asks for and for nothing
else, and uses each of its fields once. -/
namespace Unparse

open Draft List

variable {lays : Bool}

namespace ExprView

variable {f : Family} {e : ExprView} {t : Node f} {es : List ExprView} {ts : List (Node f)}
  {o : Option ExprView} {m : Option (Node f)}

theorem Judged.said (h : e.Judged t) : e.text.Judged lays t.verdict :=
  h.text.laying

theorem texts_judged (h : Forall₂ Judged es ts) :
    (texts es).Judged lays (.total Tree.verdict ts) := by
  apply JudgedWith.all
  rw [forall₂_map_left_iff]
  exact h.imp fun _ _ he => he.said

theorem joined_judged {separator : String} (h : Forall₂ Judged es ts) :
    (joined separator es).Judged lays (.total Tree.verdict ts) :=
  (texts_judged h).bind_pure

theorem after_judged {lead : String} (h : Option.Rel Judged o m) :
    (after lead o).Judged lays (.maybe Tree.verdict m) := by
  cases h with
  | none => exact JudgedWith.pure
  | some he => exact he.said.bind_pure

theorem part_judged {lead : String} (h : Option.Rel Judged o m) :
    (part lead o).Judged lays (.maybe Tree.verdict m) := by
  cases h with
  | none => exact JudgedWith.pure
  | some he => exact he.said.bind_pure

end ExprView

namespace Render.Expression

open ExprView

variable {a b c : ExprView} {s t u : Node .expr} {es fs : List ExprView}
  {ts us : List (Node .expr)} {o p q : Option ExprView} {l m n : Option (Node .expr)}

theorem boolOp_judged {op : Kind} {k : Node .boolOp} (hk : k.verdict = 0)
    (hes : Forall₂ Judged es ts) :
    (boolOp op es).text.Judged false
      (.of (2 ≤ ts.length) [k.verdict, .total Tree.verdict ts]) := by
  refine (JudgedWith.demand_bind (JudgedWith.demand_bind
    (JudgedWith.refuse_single hes (joined_judged hes).bind_pure))).congr ?_
  simp [Verdict.of, hk]

theorem namedExpr_judged (ha : a.Judged s) (hb : b.Judged t) :
    (namedExpr a b).text.Judged false (.of true [s.verdict, t.verdict]) := by
  refine (JudgedWith.demand_bind (ha.said.bind fun _ => hb.said.bind_pure)).congr ?_
  simp

theorem binOp_judged {op : Kind} {k : Node .operator} (ha : a.Judged s) (hk : k.verdict = 0)
    (hb : b.Judged t) :
    (binOp a op b).text.Judged false (.of true [s.verdict, k.verdict, t.verdict]) := by
  refine (JudgedWith.demand_bind (JudgedWith.demand_bind
    (ha.said.bind fun _ => hb.said.bind_pure))).congr ?_
  simp [hk]

theorem unaryOp_judged {op : Kind} {k : Node .unaryOp} (hk : k.verdict = 0) (ha : a.Judged s) :
    (unaryOp op a).text.Judged false (.of true [k.verdict, s.verdict]) := by
  refine (JudgedWith.demand_bind (JudgedWith.demand_bind ha.said.bind_pure)).congr ?_
  simp [hk]

/-- The parameters of a lambda are rendered where annotations are not allowed. -/
theorem lambda_judged {args : Bool → Draft String} {k : Node .arguments}
    (hargs : View.Judged .arguments args k) (ha : a.Judged s) :
    (lambda args a).text.Judged false
      (.of (k.parameters.all (!·.isAnnotated)) [k.verdict, s.verdict]) := by
  refine (JudgedWith.demand_bind ((hargs false).bind fun _ => ha.said.bind_pure)).congr ?_
  simp [Verdict.of, add_assoc]

theorem ifExp_judged (ha : a.Judged s) (hb : b.Judged t) (hc : c.Judged u) :
    (ifExp a b c).text.Judged false (.of true [s.verdict, t.verdict, u.verdict]) := by
  refine (JudgedWith.demand_bind (hb.said.bind fun _ => ha.said.bind fun _ =>
    hc.said.bind_pure)).congr ?_
  simp only [Verdict.of_true, sum_cons, sum_nil]
  abel

theorem dictEntry_judged (ho : Option.Rel Judged o m) (ha : a.Judged s) :
    (dictEntry o a).Judged false (.maybe Tree.verdict m + s.verdict) := by
  cases ho with
  | none => exact ha.said.bind_pure.congr (zero_add _).symm
  | some hkey => exact hkey.said.bind fun _ => ha.said.bind_pure

theorem dict_judged {keys : List (Option ExprView)} {ks : List (Option (Node .expr))}
    (hkeys : Forall₂ (Option.Rel Judged) keys ks) (hes : Forall₂ Judged es ts) :
    (dict keys es).text.Judged false
      (.of (ks.length == ts.length)
        [.total (.maybe Tree.verdict) ks, .total Tree.verdict ts]) := by
  refine (JudgedWith.demand_bind (JudgedWith.refuse_unequal hkeys hes fun hlength =>
    (JudgedWith.zip (.maybe Tree.verdict) Tree.verdict hkeys hes hlength ?_).bind_pure)).congr ?_
  · rintro ⟨k, e⟩ ⟨m, t⟩ ⟨hk, he⟩
    exact dictEntry_judged hk he
  · simp [Verdict.of]

theorem set_judged (hes : Forall₂ Judged es ts) :
    (set es).text.Judged false (.of true [.total Tree.verdict ts]) := by
  refine (JudgedWith.demand_bind ?_).congr (Verdict.of_true _).symm
  cases hes with
  | nil => exact JudgedWith.pure.congr (by simp)
  | cons he hes =>
    refine (joined_judged (Forall₂.cons he hes)).bind_pure.congr ?_
    simp

theorem comprehension_judged {async : Bool} (ha : a.Judged s) (hb : b.Judged t)
    (hes : Forall₂ Judged es ts) :
    (comprehension a b es async).Judged false
      (.of true [s.verdict, t.verdict, .total Tree.verdict ts]) := by
  have hconditions : (Draft.all (es.map fun c => return "if " ++ (← c.text))).Judged false
      (.total Tree.verdict ts) := by
    apply JudgedWith.all
    rw [forall₂_map_left_iff]
    exact hes.imp fun _ _ he => he.said.bind_pure
  refine (JudgedWith.demand_bind (ha.said.bind fun _ => hb.said.bind fun _ =>
    hconditions.bind_pure)).congr ?_
  simp

theorem comprehended_judged {k : Kind} {left right : String} {head : Draft String} {w : Verdict}
    {generators : List (Draft (List String))} {gs : List (Node .comprehension)}
    (hhead : head.Judged false w)
    (hgenerators : Forall₂ (View.Judged .comprehension) generators gs) :
    (comprehended k left head generators right).text.Judged false
      (.of (!gs.isEmpty) [w, .total Tree.verdict gs]) := by
  refine (JudgedWith.demand_bind (hhead.bind fun _ => JudgedWith.refuse_empty hgenerators fun _ =>
    (JudgedWith.all hgenerators).bind_pure)).congr ?_
  simp only [Verdict.of, sum_cons, sum_nil]
  abel

/-- The head of a comprehension of pairs has two parts. -/
theorem comprehendedPair_judged {k : Kind} {left right : String}
    {generators : List (Draft (List String))} {gs : List (Node .comprehension)}
    (ha : a.Judged s) (hb : b.Judged t)
    (hgenerators : Forall₂ (View.Judged .comprehension) generators gs) :
    (comprehended k left (keyed a b) generators right).text.Judged false
      (.of (!gs.isEmpty) [s.verdict, t.verdict, .total Tree.verdict gs]) := by
  have hhead : (keyed a b).Judged false (s.verdict + t.verdict) :=
    ha.said.bind fun _ => hb.said.bind_pure
  refine (comprehended_judged hhead hgenerators).congr ?_
  simp only [Verdict.of, sum_cons, sum_nil, add_assoc]

/-- The rules that only put something around an expression. -/
theorem wrapped_judged {k : Kind} {wrap : String → String} (ha : a.Judged s) :
    (ExprView.plain k do return wrap (← a.text)).text.Judged false (.of true [s.verdict]) :=
  (JudgedWith.demand_bind ha.said.bind_pure).congr (by simp)

theorem yield_judged (ho : Option.Rel Judged o m) :
    (yield o).text.Judged false (.of true [.maybe Tree.verdict m]) :=
  (JudgedWith.demand_bind (after_judged ho).bind_pure).congr (by simp)

theorem comparison_judged {op : Kind} (ha : a.Judged s) :
    (comparison op a).Judged false (0 + s.verdict) :=
  (JudgedWith.demand_bind ha.said.bind_pure).congr (zero_add _).symm

theorem compare_judged {ops : List Kind} {ks : List (Node .cmpOp)} (ha : a.Judged s)
    (hops : Forall₂ (View.Judged .cmpOp) ops ks) (hes : Forall₂ Judged es ts) :
    (compare a ops es).text.Judged false
      (.of (!ks.isEmpty && ks.length == ts.length)
        [s.verdict, .total Tree.verdict ks, .total Tree.verdict ts]) := by
  refine (JudgedWith.demand_bind (JudgedWith.refuse_empty hops fun _ =>
    JudgedWith.refuse_unequal hops hes fun hlength => ha.said.bind fun _ =>
      (JudgedWith.zip Tree.verdict Tree.verdict hops hes hlength ?_).bind_pure)).congr ?_
  · rintro ⟨op, e⟩ ⟨k, t⟩ ⟨hk, he⟩
    exact (comparison_judged he).congr (by rw [show k.verdict = 0 from hk])
  · simp only [Verdict.of, Bool.and_eq_true, Verdict.asks_and, sum_cons, sum_nil]
    abel

theorem keyword_judged {id : Option String} (ha : a.Judged s) :
    (keyword id a).Judged false (.of true [s.verdict]) :=
  (JudgedWith.demand_bind ha.said.bind_pure).congr (by simp)

theorem call_judged {keywords : List (Draft String)} {ks : List (Node .keyword)}
    (ha : a.Judged s) (hes : Forall₂ Judged es ts)
    (hkeywords : Forall₂ (View.Judged .keyword) keywords ks) (ho : Option.Rel Judged o m)
    (hp : Option.Rel Judged p n) :
    (call a es keywords o p).text.Judged false
      (.of true [s.verdict, .total Tree.verdict ts, .total Tree.verdict ks,
        .maybe Tree.verdict m, .maybe Tree.verdict n]) := by
  refine (JudgedWith.demand_bind ((texts_judged hes).bind fun _ =>
    (JudgedWith.all hkeywords).bind fun _ => (part_judged ho).bind fun _ =>
      (part_judged hp).bind fun _ => ha.said.bind_pure)).congr ?_
  simp only [Verdict.of_true, sum_cons, sum_nil]
  abel

theorem leaf_judged {k : Kind} {text : String} :
    (ExprView.plain k (pure text)).text.Judged false (.of true []) := by
  apply JudgedWith.demand_bind
  rw [Verdict.of_true]
  exact JudgedWith.pure

theorem constant_judged {t : Node .expr} {c : Constant} (hkind : t.kind = .constant)
    (htext : t.isText = Kind.isText .constant (c, ())) :
    (constant c).JudgedAs (.of true []) t where
  kind := hkind.symm
  text := leaf_judged
  form := by
    change (constantForm c).JudgedAs _ t
    cases c <;> simp [constantForm, ExprForm.JudgedAs, hkind, htext, Kind.isText, Kind.isFString]

theorem num_judged {t : Node .expr} {n : Number} (hkind : t.kind = .num)
    (htext : t.isText = false) : (num n).JudgedAs (.of true []) t where
  kind := hkind.symm
  text := leaf_judged
  form := by
    change (numberForm n).JudgedAs _ t
    cases n <;> simp [numberForm, ExprForm.JudgedAs, hkind, htext, Kind.isFString]

theorem str_judged {t : Node .expr} {text : String} (hkind : t.kind = .str)
    (htext : t.isText = true) : (str text).JudgedAs (.of true []) t where
  kind := hkind.symm
  text := leaf_judged
  form := ⟨⟨htext, by rw [hkind]; rfl⟩, Verdict.of_true []⟩

/-- The elements of a tuple are judged as the tuple is. -/
theorem subscriptText_judged {f : Family} {t : Node f} (ha : a.Judged t) :
    (subscriptText a).Judged false t.verdict := by
  have hform := ha.form
  unfold subscriptText
  split
  · exact ha.text
  · next elements _ h =>
    rw [h] at hform
    exact JudgedWith.demand_bind hform.2.bind_pure
  · exact ha.text

theorem subscript_judged {f : Family} {t : Node f} (ha : a.Judged s) (hb : b.Judged t) :
    (subscript a b).text.Judged false (.of true [s.verdict, t.verdict]) := by
  refine (JudgedWith.demand_bind ((subscriptText_judged hb).bind fun _ =>
    ha.said.bind_pure)).congr ?_
  simp only [Verdict.of_true, sum_cons, sum_nil]
  abel

theorem list_judged (hes : Forall₂ Judged es ts) :
    (list es).text.Judged false (.of true [.total Tree.verdict ts]) :=
  (JudgedWith.demand_bind (joined_judged hes).bind_pure).congr (by simp)

theorem tuple_judged (hes : Forall₂ Judged es ts) :
    (tuple es).text.Judged false (.of true [.total Tree.verdict ts]) :=
  (JudgedWith.demand_bind (texts_judged hes).bind_pure).congr (by simp)

/-- A tuple is judged as its elements are, where they stand bare. -/
theorem elements_judged (hes : Forall₂ Judged es ts) :
    (Draft.all (es.map ExprView.text)).Judged false (.of true [.total Tree.verdict ts]) :=
  (texts_judged hes).congr (by simp)

theorem slice_judged (ho : Option.Rel Judged o l) (hp : Option.Rel Judged p m)
    (hq : Option.Rel Judged q n) :
    (slice o p q).text.Judged false
      (.of true [.maybe Tree.verdict l, .maybe Tree.verdict m, .maybe Tree.verdict n]) :=
  (JudgedWith.demand_bind ((after_judged ho).bind fun _ => (after_judged hp).bind fun _ =>
    (after_judged hq).bind_pure)).congr (by simp)

theorem index_judged (ha : a.Judged s) :
    (index a).text.Judged false (.of true [s.verdict]) :=
  (JudgedWith.demand_bind ha.said).congr (by simp)

theorem extSlice_judged (hes : Forall₂ Judged es ts) :
    (extSlice es).text.Judged false (.of (!ts.isEmpty) [.total Tree.verdict ts]) := by
  refine (JudgedWith.demand_bind (JudgedWith.refuse_empty hes fun _ =>
    (texts_judged hes).bind_pure)).congr ?_
  simp [Verdict.of]

end Render.Expression

end Unparse
