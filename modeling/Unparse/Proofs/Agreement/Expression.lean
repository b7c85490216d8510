import Unparse.Proofs.Agreement.Draft
import Unparse.Render.FString
import Unparse.Render.Parameters

/-! Expressions that look alike. Views are alike if their drafts agree and if the rules that look
at more than a draft find the same in both; the kind of an expression counts only where it is a
name. Every rule makes views that are alike of views that are alike. -/
namespace Unparse

open Draft List

/-- What some rules ask of an expression beside its text. -/
inductive ExprForm.Alike : ExprForm → ExprForm → Prop where
  | plain : Alike .plain .plain
  | integer : Alike .integer .integer
  | string (text : String) : Alike (.string text) (.string text)
  | tuple {es fs : List (Draft String)} (h : Forall₂ Agrees es fs) : Alike (.tuple es) (.tuple fs)
  | field {x y : Draft (List Segment)} (h : x.Agrees y) : Alike (.field x) (.field y)
  | joined {x y : Draft (List Segment)} (h : x.Agrees y) : Alike (.joined x) (.joined y)

structure ExprView.Alike (e e' : ExprView) : Prop where
  isName : e.kind = .nameExpr ↔ e'.kind = .nameExpr
  form : e.form.Alike e'.form
  text : e.text.Agrees e'.text

structure ArgView.Alike (a a' : ArgView) : Prop where
  annotated : a.annotated = a'.annotated
  text : ∀ allowed, (a.text allowed).Agrees (a'.text allowed)

namespace ExprView

variable {e e' : ExprView} {es es' : List ExprView} {o o' : Option ExprView} {k : Kind}
  {x y : Draft String}

theorem Alike.formed {form form' : ExprForm} (hform : form.Alike form') (hxy : x.Agrees y) :
    (formed k form x).Alike (formed k form' y) :=
  ⟨Iff.rfl, hform, Agrees.demand_bind hxy⟩

theorem Alike.plain (hxy : x.Agrees y) : (plain k x).Alike (plain k y) :=
  .formed .plain hxy

theorem texts_agree (h : Forall₂ Alike es es') : (texts es).Agrees (texts es') := by
  apply Agrees.all
  rw [forall₂_map_left_iff, forall₂_map_right_iff]
  exact h.imp fun _ _ he => he.text

theorem joined_agree {separator : String} (h : Forall₂ Alike es es') :
    (joined separator es).Agrees (joined separator es') :=
  (texts_agree h).before _

theorem after_agree {lead : String} (h : Option.Rel Alike o o') :
    (after lead o).Agrees (after lead o') := by
  cases h with
  | none => exact Agrees.refl _
  | some he => exact he.text.before _

theorem part_agree {lead : String} (h : Option.Rel Alike o o') :
    (part lead o).Agrees (part lead o') := by
  cases h with
  | none => exact Agrees.refl _
  | some he => exact he.text.before _

end ExprView

namespace Render.Expression

open ExprView

variable {a b c a' b' c' : ExprView} {es es' : List ExprView} {o p q o' p' q' : Option ExprView}
  {k op : Kind}

theorem boolOp_alike (hes : Forall₂ Alike es es') : (boolOp op es).Alike (boolOp op es') := by
  refine .plain (Agrees.demand_bind (Agrees.refuse_bind ?_ ((joined_agree hes).before _)))
  rw [hes.length_eq]

theorem namedExpr_alike (ha : a.Alike a') (hb : b.Alike b') :
    (namedExpr a b).Alike (namedExpr a' b') :=
  .plain (ha.text.bind fun _ => hb.text.before _)

theorem binOp_alike (ha : a.Alike a') (hb : b.Alike b') : (binOp a op b).Alike (binOp a' op b') :=
  .plain (Agrees.demand_bind (ha.text.bind fun _ => hb.text.before _))

theorem unaryOp_alike (ha : a.Alike a') : (unaryOp op a).Alike (unaryOp op a') :=
  .plain (Agrees.demand_bind (ha.text.before _))

theorem lambda_alike {args args' : Bool → Draft String}
    (hargs : ∀ allowed, (args allowed).Agrees (args' allowed)) (ha : a.Alike a') :
    (lambda args a).Alike (lambda args' a') :=
  .plain ((hargs false).bind fun _ => ha.text.before _)

theorem ifExp_alike (ha : a.Alike a') (hb : b.Alike b') (hc : c.Alike c') :
    (ifExp a b c).Alike (ifExp a' b' c') :=
  .plain (hb.text.bind fun _ => ha.text.bind fun _ => hc.text.before _)

theorem dictEntry_agree (ho : Option.Rel Alike o o') (ha : a.Alike a') :
    (dictEntry o a).Agrees (dictEntry o' a') := by
  cases ho with
  | none => exact ha.text.before _
  | some hkey => exact hkey.text.bind fun _ => ha.text.before _

theorem dict_alike {keys keys' : List (Option ExprView)}
    (hkeys : Forall₂ (Option.Rel Alike) keys keys') (hes : Forall₂ Alike es es') :
    (dict keys es).Alike (dict keys' es') := by
  refine .plain (Agrees.refuse_bind ?_ ((Agrees.all ?_).before _))
  · rw [hkeys.length_eq, hes.length_eq]
  · rw [forall₂_map_left_iff, forall₂_map_right_iff]
    exact (forall₂_zip hkeys hes).imp fun _ _ h => dictEntry_agree h.1 h.2

theorem set_alike (hes : Forall₂ Alike es es') : (set es).Alike (set es') := by
  refine .plain ?_
  cases hes with
  | nil => exact Agrees.refl _
  | cons he hes => exact (joined_agree (Forall₂.cons he hes)).before _

theorem comprehension_agree {async : Bool} (ha : a.Alike a') (hb : b.Alike b')
    (hes : Forall₂ Alike es es') :
    (comprehension a b es async).Agrees (comprehension a' b' es' async) := by
  refine Agrees.demand_bind (ha.text.bind fun _ => hb.text.bind fun _ => (Agrees.all ?_).before _)
  rw [forall₂_map_left_iff, forall₂_map_right_iff]
  exact hes.imp fun _ _ he => he.text.before _

theorem comprehended_alike {left right : String} {head head' : Draft String}
    {generators generators' : List (Draft (List String))} (hhead : head.Agrees head')
    (hgenerators : Forall₂ Agrees generators generators') :
    (comprehended k left head generators right).Alike
      (comprehended k left head' generators' right) := by
  refine .plain (hhead.bind fun _ => Agrees.refuse_bind ?_ ((Agrees.all hgenerators).before _))
  exact forall₂_isEmpty hgenerators

theorem keyed_agree (ha : a.Alike a') (hb : b.Alike b') : (keyed a b).Agrees (keyed a' b') :=
  ha.text.bind fun _ => hb.text.before _

/-- The rules that only put something around an expression. -/
theorem wrapped_alike (ha : a.Alike a') (wrap : String → String) :
    (ExprView.plain k do return wrap (← a.text)).Alike
      (ExprView.plain k do return wrap (← a'.text)) :=
  .plain (ha.text.before _)

theorem yield_alike (ho : Option.Rel Alike o o') : (yield o).Alike (yield o') :=
  .plain ((after_agree ho).before _)

theorem comparison_agree (ha : a.Alike a') : (comparison op a).Agrees (comparison op a') :=
  Agrees.demand_bind (ha.text.before _)

theorem compare_alike {ops : List Kind} (ha : a.Alike a') (hes : Forall₂ Alike es es') :
    (compare a ops es).Alike (compare a' ops es') := by
  refine .plain (Agrees.refuse_bind rfl (Agrees.refuse_bind ?_ (ha.text.bind fun _ =>
    (Agrees.all ?_).before _)))
  · rw [hes.length_eq]
  · rw [forall₂_map_left_iff, forall₂_map_right_iff]
    have hops : Forall₂ Eq ops ops := forall₂_same.mpr fun op _ => rfl
    refine (forall₂_zip hops hes).imp ?_
    rintro ⟨op, c⟩ ⟨_, c'⟩ ⟨rfl, hc⟩
    exact comparison_agree hc

theorem keyword_agree {id : Option String} (ha : a.Alike a') :
    (keyword id a).Agrees (keyword id a') :=
  Agrees.demand_bind (ha.text.before _)

theorem call_alike {keywords keywords' : List (Draft String)} (ha : a.Alike a')
    (hes : Forall₂ Alike es es') (hkeywords : Forall₂ Agrees keywords keywords')
    (ho : Option.Rel Alike o o') (hp : Option.Rel Alike p p') :
    (call a es keywords o p).Alike (call a' es' keywords' o' p') :=
  .plain ((texts_agree hes).bind fun _ => (Agrees.all hkeywords).bind fun _ =>
    (part_agree ho).bind fun _ => (part_agree hp).bind fun _ => ha.text.before _)

/-- Only an integer is told apart, and it looks the same in both. -/
theorem attributeOf_alike {attr : String} (ha : a.Alike a') :
    (attributeOf a attr).Alike (attributeOf a' attr) := by
  have hbase : attributeBase a.form = attributeBase a'.form := by
    have hform := ha.form
    generalize a.form = form, a'.form = form' at hform
    cases hform <;> rfl
  refine .plain ?_
  rw [hbase]
  exact ha.text.before _

theorem subscriptText_agree (ha : a.Alike a') : (subscriptText a).Agrees (subscriptText a') := by
  have hform := ha.form
  unfold subscriptText
  generalize a.form = form, a'.form = form' at hform
  cases hform with
  | tuple helements =>
    cases helements with
    | nil => exact ha.text
    | cons he hes => exact Agrees.demand_bind ((Agrees.all (Forall₂.cons he hes)).before _)
  | plain => exact ha.text
  | integer => exact ha.text
  | string text => exact ha.text
  | field h => exact ha.text
  | joined h => exact ha.text

theorem subscript_alike (ha : a.Alike a') (hb : b.Alike b') :
    (subscript a b).Alike (subscript a' b') :=
  .plain ((subscriptText_agree hb).bind fun _ => ha.text.before _)

theorem list_alike (hes : Forall₂ Alike es es') : (list es).Alike (list es') :=
  .plain ((joined_agree hes).before _)

theorem tuple_alike (hes : Forall₂ Alike es es') : (tuple es).Alike (tuple es') := by
  refine .formed (.tuple ?_) ((texts_agree hes).before _)
  rw [forall₂_map_left_iff, forall₂_map_right_iff]
  exact hes.imp fun _ _ he => he.text

theorem slice_alike (ho : Option.Rel Alike o o') (hp : Option.Rel Alike p p')
    (hq : Option.Rel Alike q q') : (slice o p q).Alike (slice o' p' q') :=
  .plain ((after_agree ho).bind fun _ => (after_agree hp).bind fun _ => (after_agree hq).before _)

theorem index_alike (ha : a.Alike a') : (index a).Alike (index a') :=
  .plain ha.text

theorem extSlice_alike (hes : Forall₂ Alike es es') : (extSlice es).Alike (extSlice es') :=
  .plain (Agrees.refuse_bind (forall₂_isEmpty hes) ((texts_agree hes).before _))

end Render.Expression

namespace Render.FString

variable {e e' : ExprView} {es es' : List ExprView} {o o' : Option ExprView} {k : Kind}

theorem part_agree (he : e.Alike e') : (part e).Agrees (part e') := by
  have hform := he.form
  unfold part
  generalize e.form = form, e'.form = form' at hform
  cases hform with
  | string text => exact Agrees.demand_bind (Agrees.refl _)
  | field h => exact h
  | plain => exact Agrees.fail
  | integer => exact Agrees.fail
  | tuple h => exact Agrees.fail
  | joined h => exact Agrees.fail

theorem parts_agree (hes : Forall₂ ExprView.Alike es es') : (parts es).Agrees (parts es') := by
  refine (Agrees.all ?_).before _
  rw [forall₂_map_left_iff, forall₂_map_right_iff]
  exact hes.imp fun _ _ he => part_agree he

theorem spec_agree (ho : Option.Rel ExprView.Alike o o') : (spec o).Agrees (spec o') := by
  cases ho with
  | none => exact Agrees.refl _
  | @some e e' he =>
    have hform := he.form
    dsimp only [spec]
    generalize e.form = form, e'.form = form' at hform
    cases hform with
    | joined h => exact Agrees.demand_bind (h.before _)
    | string text => exact Agrees.fail
    | field h => exact Agrees.fail
    | plain => exact Agrees.fail
    | integer => exact Agrees.fail
    | tuple h => exact Agrees.fail

theorem field_agree {conversion : Option Conversion} (he : e.Alike e')
    (ho : Option.Rel ExprView.Alike o o') :
    (field e conversion o).Agrees (field e' conversion o') :=
  Agrees.demand_bind (he.text.bind fun _ => (spec_agree ho).before _)

theorem formattedValue_alike {conversion : Option Conversion} (he : e.Alike e')
    (ho : Option.Rel ExprView.Alike o o') :
    (formattedValue e conversion o).Alike (formattedValue e' conversion o') :=
  .formed (.field (field_agree he ho)) ((field_agree he ho).before _)

theorem joinedStr_alike (hes : Forall₂ ExprView.Alike es es') :
    (joinedStr es).Alike (joinedStr es') :=
  .formed (.joined (parts_agree hes)) ((parts_agree hes).before _)

end Render.FString

namespace Render.Parameters

variable {allowed : Bool} {a a' : ArgView} {as as' : List ArgView} {o o' : Option ArgView}
  {t t' : Option ExprView} {es es' : List ExprView} {ds ds' : List (Option ExprView)}

theorem arg_alike {name : String} (ht : Option.Rel ExprView.Alike t t') :
    (arg name t).Alike (arg name t') where
  annotated := by cases ht <;> rfl
  text allowed := by
    refine Agrees.demand_bind ?_
    cases ht with
    | none => exact Agrees.refl _
    | some he =>
      cases allowed with
      | true => exact he.text.before _
      | false => exact Agrees.fail

theorem withDefault_agree (ha : a.Alike a') (ht : Option.Rel ExprView.Alike t t') :
    (withDefault allowed a t).Agrees (withDefault allowed a' t') := by
  refine (ha.text allowed).bind fun _ => ?_
  rw [ha.annotated]
  exact (ExprView.after_agree ht).before _

theorem alignDefaults_alike (n : Nat) (hes : Forall₂ ExprView.Alike es es') :
    Forall₂ (Option.Rel ExprView.Alike) (alignDefaults n es) (alignDefaults n es') := by
  unfold alignDefaults
  rw [hes.length_eq]
  refine rel_append (forall₂_same.mpr fun d hd => ?_) ?_
  · rw [eq_of_mem_replicate hd]
    exact Option.Rel.none
  · rw [forall₂_map_left_iff, forall₂_map_right_iff]
    exact hes.imp fun _ _ he => Option.Rel.some he

theorem alignKeywordDefaults_alike (n : Nat) (hds : Forall₂ (Option.Rel ExprView.Alike) ds ds') :
    Forall₂ (Option.Rel ExprView.Alike) (alignKeywordDefaults n ds)
      (alignKeywordDefaults n ds') := by
  cases hds with
  | nil =>
    refine forall₂_same.mpr fun d hd => ?_
    rw [eq_of_mem_replicate hd]
    exact Option.Rel.none
  | cons hd hds => exact Forall₂.cons hd hds

theorem withDefaults_agree (has : Forall₂ ArgView.Alike as as')
    (hds : Forall₂ (Option.Rel ExprView.Alike) ds ds') :
    (withDefaults allowed as ds).Agrees (withDefaults allowed as' ds') := by
  apply Agrees.all
  rw [forall₂_map_left_iff, forall₂_map_right_iff]
  exact (forall₂_zip has hds).imp fun _ _ h => withDefault_agree h.1 h.2

theorem star_agree {keywordOnly : Bool} (ho : Option.Rel ArgView.Alike o o') :
    (star allowed keywordOnly o).Agrees (star allowed keywordOnly o') := by
  cases ho with
  | none => exact Agrees.refl _
  | some ha => exact (ha.text allowed).before _

theorem doubleStar_agree (ho : Option.Rel ArgView.Alike o o') :
    (doubleStar allowed o).Agrees (doubleStar allowed o') := by
  cases ho with
  | none => exact Agrees.refl _
  | some ha => exact (ha.text allowed).before _

theorem arguments_agree {posonly posonly' kwonly kwonly' : List ArgView}
    {kwarg kwarg' : Option ArgView} (hposonly : Forall₂ ArgView.Alike posonly posonly')
    (has : Forall₂ ArgView.Alike as as') (ho : Option.Rel ArgView.Alike o o')
    (hkwonly : Forall₂ ArgView.Alike kwonly kwonly')
    (hds : Forall₂ (Option.Rel ExprView.Alike) ds ds')
    (hkwarg : Option.Rel ArgView.Alike kwarg kwarg') (hes : Forall₂ ExprView.Alike es es') :
    (arguments posonly as o kwonly ds kwarg es allowed).Agrees
      (arguments posonly' as' o' kwonly' ds' kwarg' es' allowed) := by
  have hpositional : Forall₂ ArgView.Alike (posonly ++ as) (posonly' ++ as') :=
    rel_append hposonly has
  dsimp only [arguments]
  rw [hpositional.length_eq, hes.length_eq, hds.length_eq, hkwonly.length_eq,
    forall₂_isEmpty hds, forall₂_isEmpty hkwonly, hposonly.length_eq]
  refine Agrees.demand_bind (Agrees.refuse_bind rfl (Agrees.refuse_bind rfl ?_))
  exact (withDefaults_agree hpositional (alignDefaults_alike _ hes)).bind fun _ =>
    (star_agree ho).bind fun _ =>
      (withDefaults_agree hkwonly (alignKeywordDefaults_alike _ hds)).bind fun _ =>
        (doubleStar_agree hkwarg).before _

end Render.Parameters

end Unparse
