import Unparse.Proofs.Weight.View
import Unparse.Render.Expression

/-! The rules for expressions keep the balance: what the fields of an expression weigh is
what its text weighs, together with the demands that are made on the way. -/
namespace Unparse

open Draft

variable {m : Scale}

namespace ExprView

variable {k : Kind} {w : Weight}

theorem formed_weighs {form : ExprForm} {text : Draft String} (htext : text.Says m w)
    (hform : form.Weighs m k (.kind k + w)) :
    (formed k form text).Weighs m (.kind k + w) :=
  ⟨Weighs.demand_bind htext, hform⟩

theorem plain_weighs {text : Draft String} (htext : text.Says m w) :
    (plain k text).Weighs m (.kind k + w) :=
  formed_weighs htext trivial

theorem texts_weighs {es : List ExprView} (h : Together (Weighs m) es w) :
    (texts es).Lists m w :=
  Lists.all (h.map fun _ _ he => he.text)

theorem joined_weighs {separator : String} {es : List ExprView}
    (hseparator : isAscii separator = true) (h : Together (Weighs m) es w) :
    (joined separator es).Says m w :=
  (texts_weighs h).bind_pure fun ss => by rw [m.text_intercalate hseparator, Nat.zero_add]

theorem after_weighs {lead : String} {e : Option ExprView} (hlead : isAscii lead = true)
    (h : Maybe (Weighs m) e w) : (after lead e).Says m w := by
  cases e with
  | none =>
    rw [show w = 0 from h]
    exact Weighs.done rfl
  | some e =>
    exact h.text.bind_pure fun text => by rw [m.text_append, m.text_ascii hlead]

theorem part_weighs {lead : String} {e : Option ExprView} (hlead : isAscii lead = true)
    (h : Maybe (Weighs m) e w) : (part lead e).Lists m w := by
  cases e with
  | none =>
    rw [show w = 0 from h]
    exact Weighs.done rfl
  | some e =>
    refine h.text.bind_pure fun text => ?_
    rw [m.texts_cons, m.text_append, m.text_ascii hlead, m.texts_nil, Nat.add_zero]

end ExprView

namespace Render.Expression

open ExprView

variable {u v w : Weight}

theorem boolOp_weighs {op : Kind} {values : List ExprView}
    (hvalues : Together (ExprView.Weighs m) values v) :
    (boolOp op values).Weighs m (.kind .boolOp + (.kind op + v)) := by
  refine plain_weighs (Weighs.demand_bind (Weighs.refuse_bind fun _ => ?_))
  have hseparator : isAscii (" " ++ op.token ++ " ") = true := by
    have htoken := Scale.isAscii_token op
    simp only [isAscii, List.all_eq_true, decide_eq_true_eq] at htoken
    simpa using htoken
  exact (joined_weighs hseparator hvalues).bind_pure fun text => by simp

theorem namedExpr_weighs {target value : ExprView} (htarget : target.Weighs m u)
    (hvalue : value.Weighs m v) :
    (namedExpr target value).Weighs m (.kind .namedExpr + (u + v)) := by
  refine plain_weighs (htarget.text.bind fun left => hvalue.text.bind_pure fun right => ?_)
  simp

theorem binOp_weighs {left right : ExprView} {op : Kind} (hleft : left.Weighs m u)
    (hright : right.Weighs m v) :
    (binOp left op right).Weighs m (.kind .binOp + (.kind op + (u + v))) := by
  refine plain_weighs (Weighs.demand_bind ?_)
  exact hleft.text.bind fun l => hright.text.bind_pure fun r => by simp

theorem unaryOp_weighs {op : Kind} {operand : ExprView} (hoperand : operand.Weighs m u) :
    (unaryOp op operand).Weighs m (.kind .unaryOp + (.kind op + u)) := by
  have htoken : m.text (unaryToken op) = 0 := by
    unfold unaryToken
    split <;> simp
  refine plain_weighs (Weighs.demand_bind ?_)
  exact hoperand.text.bind_pure fun text => by simp [htoken]

theorem lambda_weighs {args : Bool → Draft String} {body : ExprView}
    (hargs : ∀ allowed, (args allowed).Says m u) (hbody : body.Weighs m v) :
    (lambda args body).Weighs m (.kind .lambda + (u + v)) := by
  refine plain_weighs ((hargs false).bind fun params => ?_)
  refine hbody.text.bind_pure fun text => ?_
  by_cases h : params.isEmpty = true
  · have hparams : params = "" := by simpa using h
    subst hparams
    simp
  · simp [h]

theorem ifExp_weighs {test body orelse : ExprView} (htest : test.Weighs m u)
    (hbody : body.Weighs m v) (horelse : orelse.Weighs m w) :
    (ifExp test body orelse).Weighs m (.kind .ifExp + (v + (u + w))) := by
  refine plain_weighs (hbody.text.bind fun b => htest.text.bind fun t => ?_)
  exact horelse.text.bind_pure fun o => by simp

theorem dictEntry_weighs {key : Option ExprView} {value : ExprView}
    (hkey : Maybe (ExprView.Weighs m) key u) (hvalue : value.Weighs m v) :
    (dictEntry key value).Says m (u + v) := by
  cases key with
  | none =>
    rw [show u = 0 from hkey, zero_add]
    exact hvalue.text.bind_pure fun text => by simp
  | some key => exact Weighs.bind hkey.text fun k => hvalue.text.bind_pure fun text => by simp

@[simp] theorem text_braced (text : String) : m.text (braced text) = m.text text := by
  simp [braced]

theorem dict_weighs {keys : List (Option ExprView)} {values : List ExprView}
    (hkeys : Together (Maybe (ExprView.Weighs m)) keys u)
    (hvalues : Together (ExprView.Weighs m) values v) :
    (dict keys values).Weighs m (.kind .dict + (u + v)) := by
  refine plain_weighs (Weighs.refuse_bind fun hlength => ?_)
  have hentries := hkeys.zip hvalues (by simpa using hlength)
  refine (Lists.all (hentries.map ?_)).bind_pure fun entries => ?_
  · rintro ⟨k, e⟩ _ ⟨a, b, hk, he, rfl⟩
    exact dictEntry_weighs hk he
  · rw [text_braced, m.text_intercalate (by decide), Nat.zero_add]

theorem set_weighs {elements : List ExprView} (h : Together (ExprView.Weighs m) elements u) :
    (set elements).Weighs m (.kind .set + u) := by
  refine plain_weighs ?_
  by_cases hempty : elements.isEmpty = true
  · rw [if_pos hempty]
    rw [List.isEmpty_iff.mp hempty] at h
    rw [show u = 0 from h]
    exact Weighs.pure (by simp)
  · rw [if_neg hempty]
    exact (joined_weighs (by decide) h).bind_pure fun text => by simp

theorem comprehension_weighs {target iter : ExprView} {conditions : List ExprView} {async : Bool}
    (htarget : target.Weighs m u) (hiter : iter.Weighs m v)
    (hconditions : Together (ExprView.Weighs m) conditions w) :
    (comprehension target iter conditions async).Lists m
      (.kind .comprehension + (u + (v + w))) := by
  have hkeyword : m.text (if async then "async for" else "for") = 0 := by
    split <;> simp
  refine Weighs.demand_bind (htarget.text.bind fun t => hiter.text.bind fun i => ?_)
  refine (Lists.all (hconditions.map ?_)).bind_pure fun rest => ?_
  · intro c w hc
    exact hc.text.bind_pure fun text => by simp
  · simp [hkeyword]

theorem texts_indented (ss : List String) : m.texts (ss.map ("\n  " ++ ·)) = m.texts ss := by
  induction ss with
  | nil => rfl
  | cons s ss ih => simp [ih]

theorem texts_flatten (sss : List (List String)) :
    m.texts sss.flatten = (sss.map m.texts).sum := by
  induction sss with
  | nil => rfl
  | cons ss sss ih => simp [ih]

theorem comprehended_weighs {k : Kind} {left right : String} {head : Draft String}
    {generators : List (Draft (List String))} (hleft : isAscii left = true)
    (hright : isAscii right = true) (hhead : head.Says m u)
    (hgenerators : Together (Lists m) generators v) :
    (comprehended k left head generators right).Weighs m (.kind k + (u + v)) := by
  refine plain_weighs (hhead.bind fun text => Weighs.refuse_bind fun _ => ?_)
  refine (Weighs.all hgenerators).bind_pure fun lines => ?_
  simp only [Scale.text_append, m.text_ascii hleft, m.text_ascii hright, Scale.text_join,
    texts_indented, texts_flatten]
  simp

theorem keyed_weighs {key value : ExprView} (hkey : key.Weighs m u) (hvalue : value.Weighs m v) :
    (keyed key value).Says m (u + v) :=
  hkey.text.bind fun k => hvalue.text.bind_pure fun text => by simp

theorem await_weighs {value : ExprView} (h : value.Weighs m u) :
    (await value).Weighs m (.kind .await + u) :=
  plain_weighs (h.text.bind_pure fun text => by simp)

theorem yield_weighs {value : Option ExprView} (h : Maybe (ExprView.Weighs m) value u) :
    (yield value).Weighs m (.kind .yield + u) :=
  plain_weighs ((after_weighs (by decide) h).bind_pure fun text => by simp)

theorem yieldFrom_weighs {value : ExprView} (h : value.Weighs m u) :
    (yieldFrom value).Weighs m (.kind .yieldFrom + u) :=
  plain_weighs (h.text.bind_pure fun text => by simp)

theorem comparison_weighs {op : Kind} {comparator : ExprView} (h : comparator.Weighs m u) :
    (comparison op comparator).Says m (.kind op + u) :=
  Weighs.demand_bind (h.text.bind_pure fun text => by simp)

theorem compare_weighs {left : ExprView} {ops : List Kind} {comparators : List ExprView}
    (hleft : left.Weighs m u) (hops : Together (fun k w => w = Weight.kind k) ops v)
    (hcomparators : Together (ExprView.Weighs m) comparators w) :
    (compare left ops comparators).Weighs m (.kind .compare + (u + (v + w))) := by
  refine plain_weighs (Weighs.refuse_bind fun _ => Weighs.refuse_bind fun hlength => ?_)
  have hpairs := hops.zip hcomparators (by simpa using hlength)
  refine hleft.text.bind fun first => (Lists.all (hpairs.map ?_)).bind_pure fun rest => ?_
  · rintro ⟨op, c⟩ _ ⟨a, b, rfl, hc, rfl⟩
    exact comparison_weighs hc
  · simp

theorem keyword_weighs {name : Option String} {value : ExprView}
    (hname : Maybe (fun s w => w = m.scalar .text s) name u) (hvalue : value.Weighs m v) :
    (keyword name value).Says m (.kind .keyword + (v + u)) := by
  refine Weighs.demand_bind (hvalue.text.bind fun text => ?_)
  cases name with
  | none =>
    rw [show u = 0 from hname]
    exact Weighs.done (by simp)
  | some name =>
    rw [show u = m.scalar .text name from hname]
    exact Weighs.pure (by simp [Scalar.strings, Nat.add_comm])

theorem call_weighs {func : ExprView} {args : List ExprView} {keywords : List (Draft String)}
    {starargs kwargs : Option ExprView} {a b c d e : Weight} (hfunc : func.Weighs m a)
    (hargs : Together (ExprView.Weighs m) args b) (hkeywords : Together (Says m) keywords c)
    (hstarargs : Maybe (ExprView.Weighs m) starargs d)
    (hkwargs : Maybe (ExprView.Weighs m) kwargs e) :
    (call func args keywords starargs kwargs).Weighs m
      (.kind .call + (b + (c + (d + (e + a))))) := by
  refine plain_weighs ((texts_weighs hargs).bind fun positional => ?_)
  refine (Lists.all hkeywords).bind fun named => ?_
  refine (part_weighs (by decide) hstarargs).bind fun star => ?_
  refine (part_weighs (by decide) hkwargs).bind fun doubleStar => ?_
  refine hfunc.text.bind_pure fun callee => ?_
  simp
  omega

theorem repr_weighs {value : ExprView} (h : value.Weighs m u) :
    (repr value).Weighs m (.kind .repr + u) :=
  plain_weighs (h.text.bind_pure fun text => by simp)

theorem constant_weighs (value : Constant) :
    (constant value).Weighs m (.kind .constant + m.scalar .constant value) := by
  refine formed_weighs (Weighs.pure ?_) ?_
  · rw [m.text_constant]
    cases value <;> simp [Scale.constant, Scalar.strings]
  · cases value <;> simp [constantForm, ExprForm.Weighs, Scale.scalar, Scalar.strings]

theorem num_weighs (n : Number) : (num n).Weighs m (.kind .num + m.scalar .number n) := by
  refine formed_weighs (Weighs.pure ?_) ?_
  · rw [m.text_number]
    rfl
  · cases n <;> trivial

theorem str_weighs (s : String) : (str s).Weighs m (.kind .str + m.scalar .text s) := by
  refine formed_weighs (Weighs.pure ?_) ?_
  · rw [m.text_string]
    simp [Scalar.strings]
  · simp [ExprForm.Weighs, Scale.scalar, Scalar.strings]

theorem bytes_weighs (bs : List UInt8) : (bytes bs).Weighs m (.kind .bytes + 0) :=
  plain_weighs (Weighs.done (m.text_bytes bs))

theorem nameConstant_weighs (value : Singleton) :
    (nameConstant value).Weighs m (.kind .nameConstant + 0) :=
  plain_weighs (Weighs.done (m.text_singleton value))

theorem ellipsis_weighs : ellipsis.Weighs m (.kind .ellipsis + 0) :=
  plain_weighs (Weighs.done (by simp))

theorem attributeOf_weighs {value : ExprView} {attr : String} (h : value.Weighs m u) :
    (attributeOf value attr).Weighs m (.kind .attribute + (u + m.scalar .text attr)) := by
  have hbase (text : String) : m.text (attributeBase value.form text) = m.text text := by
    unfold attributeBase
    split
    · split <;> simp
    · rfl
  exact plain_weighs (h.text.bind fun text => Weighs.pure (by simp [hbase, Scalar.strings]))

@[simp] theorem text_commaList (ss : List String) : m.text (commaList ss) = m.texts ss := by
  unfold commaList
  split
  · simp
  · exact m.text_intercalate (by decide) _

theorem subscriptText_weighs {slice : ExprView} (h : slice.Weighs m u) :
    (subscriptText slice).Says m u := by
  have hform := h.form
  unfold subscriptText
  split
  next => exact h.text
  next elements _ heq =>
    rw [heq] at hform
    obtain ⟨v, helements, rfl⟩ := hform
    refine Weighs.demand_bind ((Lists.all helements).bind_pure fun ss => ?_)
    rw [text_commaList, Nat.zero_add]
  next => exact h.text

theorem subscript_weighs {value slice : ExprView} (hvalue : value.Weighs m u)
    (hslice : slice.Weighs m v) :
    (subscript value slice).Weighs m (.kind .subscript + (v + u)) := by
  refine plain_weighs ((subscriptText_weighs hslice).bind fun inner => ?_)
  exact hvalue.text.bind_pure fun text => by simp; omega

theorem starred_weighs {value : ExprView} (h : value.Weighs m u) :
    (starred value).Weighs m (.kind .starred + u) :=
  plain_weighs (h.text.bind_pure fun text => by simp)

theorem name_weighs (id : String) : (name id).Weighs m (.kind .nameExpr + m.scalar .text id) :=
  plain_weighs (Weighs.pure (by simp [Scalar.strings]))

theorem list_weighs {elements : List ExprView} (h : Together (ExprView.Weighs m) elements u) :
    (list elements).Weighs m (.kind .list + u) :=
  plain_weighs ((joined_weighs (by decide) h).bind_pure fun text => by simp)

theorem tuple_weighs {elements : List ExprView} (h : Together (ExprView.Weighs m) elements u) :
    (tuple elements).Weighs m (.kind .tuple + u) := by
  refine formed_weighs ((texts_weighs h).bind_pure fun ss => by simp) ?_
  exact ⟨u, h.map fun _ _ he => he.text, rfl⟩

theorem slice_weighs {lower upper step : Option ExprView}
    (hlower : Maybe (ExprView.Weighs m) lower u) (hupper : Maybe (ExprView.Weighs m) upper v)
    (hstep : Maybe (ExprView.Weighs m) step w) :
    (slice lower upper step).Weighs m (.kind .slice + (u + (v + w))) := by
  refine plain_weighs ((after_weighs (by decide) hlower).bind fun a => ?_)
  refine (after_weighs (by decide) hupper).bind fun b => ?_
  exact (after_weighs (by decide) hstep).bind_pure fun c => by simp

theorem index_weighs {value : ExprView} (h : value.Weighs m u) :
    (index value).Weighs m (.kind .index + u) :=
  plain_weighs h.text

theorem extSlice_weighs {dims : List ExprView} (h : Together (ExprView.Weighs m) dims u) :
    (extSlice dims).Weighs m (.kind .extSlice + u) := by
  refine plain_weighs (Weighs.refuse_bind fun _ => ?_)
  exact (texts_weighs h).bind_pure fun ss => by simp

end Render.Expression

end Unparse
