import Unparse.Proofs.Draft.Giving
import Unparse.Proofs.Form.Rule
import Unparse.Proofs.Gating
import Unparse.Proofs.Positions
import Unparse.Proofs.Reader.Signature
import Unparse.Proofs.Tree.Parameters

/-! The text of a parameter list. It is a signature in which every parameter stands with its own
name, type and default, and with the signs between the groups where they belong. A parameter list
of plain words can be read off its text. -/
namespace Unparse

open Draft List Render

section Lists

variable {A B C : Type} {R : A → B → Prop} {as : List A} {bs : List B}

theorem isSome_of_rel {o : Option A} {p : Option B} (h : Option.Rel R o p) :
    o.isSome = p.isSome := by
  cases h <;> rfl

theorem exists_getElem?_of_forall₂ (h : Forall₂ R as bs) {i : Nat} {b : B}
    (hb : bs[i]? = some b) : ∃ a, as[i]? = some a ∧ R a b := by
  induction h generalizing i with
  | nil => cases hb
  | cons h _ ih =>
    cases i with
    | zero =>
      cases hb
      exact ⟨_, rfl, h⟩
    | succ i => exact ih hb

theorem exists_map_of_forall₂ {g : B → C} {cs : List C}
    (h : Forall₂ (fun a c => ∃ b, R a b ∧ c = g b) as cs) :
    ∃ bs, Forall₂ R as bs ∧ cs = bs.map g := by
  induction h with
  | nil => exact ⟨[], .nil, rfl⟩
  | cons h _ ih =>
    obtain ⟨b, hb, rfl⟩ := h
    obtain ⟨bs, hbs, rfl⟩ := ih
    exact ⟨b :: bs, .cons hb hbs, rfl⟩

theorem map_eq_of_forall₂ {P : B → Prop} {g : A → C} {h : B → C} (hR : Forall₂ R as bs)
    (hP : ∀ a b, a ∈ as → R a b → P b ∧ g a = h b) : (∀ b ∈ bs, P b) ∧ as.map g = bs.map h := by
  induction hR with
  | nil => exact ⟨fun b hb => (not_mem_nil hb).elim, rfl⟩
  | @cons a b as bs hab _ ih =>
    obtain ⟨hb, heq⟩ := hP a b (mem_cons_self ..) hab
    obtain ⟨hbs, hmap⟩ := ih fun a b ha => hP a b (mem_cons_of_mem _ ha)
    refine ⟨fun c hc => ?_, by rw [map_cons, map_cons, heq, hmap]⟩
    rcases mem_cons.mp hc with rfl | hc
    · exact hb
    · exact hbs c hc

end Lists

namespace Node

/-- The expression has this text where it stands alone. -/
def Renders (width : Nat) (e : Node .expr) (text : String) : Prop :=
  e.render ⟨.permissive, width⟩ = .ok text

/-- The parameter is declared by its own name and the text of its own type. -/
def Declares (width : Nat) (a : Node .arg) (d : Declaration) : Prop :=
  a.declared.1 = d.name ∧ Option.Rel (Renders width) a.declared.2 d.type

variable (width : Nat)

theorem text_renders (e : Node .expr) : (view e).text.Gives (Renders width e) := by
  have hquiet := (view_judged e).text.quiet rfl
  refine ⟨hquiet, fun text houtcome => ?_⟩
  have hresult : e.draft.result .permissive = .ok text :=
    result_eq_ok_iff.mpr ⟨houtcome, fun need _ => met_permissive need⟩
  have hlines : e.draft.lines .permissive = [] := lines_of_quiet hquiet hresult
  refine render_eq_ok_iff.mpr ⟨text, hresult, ?_⟩
  change text = ((Page.blank width).print (e.draft.lines .permissive)).text ++ text
  rw [hlines]
  exact String.empty_append.symm

theorem after_renders (o : Option (Node .expr)) (lead : String) :
    (ExprView.after lead (o.map fun e : Node .expr => view e)).Gives fun text =>
      ∃ written, Option.Rel (Renders width) o written ∧ text = written.elim "" (lead ++ ·) := by
  cases o with
  | none => exact .pure ⟨none, .none, rfl⟩
  | some e => exact (text_renders width e).bind_pure fun text h => ⟨some text, .some h, rfl⟩

theorem arg_declares (a : Node .arg) : ((view a).text true).Gives fun text =>
    ∃ d, Declares width a d ∧ text = d.text := by
  rw [view_arg]
  refine Gives.demand_bind ?_
  unfold Declares
  cases a.declared.2 with
  | none => exact .pure ⟨⟨a.declared.1, none⟩, ⟨rfl, .none⟩, by simp [Declaration.text]⟩
  | some e =>
    exact (text_renders width e).bind_pure fun text h =>
      ⟨⟨a.declared.1, some text⟩, ⟨rfl, .some h⟩, by
        simp [Declaration.text, String.append_assoc]⟩

end Node

namespace Signature

/-- A slash is put after the first parameters, if any of them is positional-only. -/
theorem slashAfter_pieces {ps : List Parameter} {m : Nat} (hm : m ≤ ps.length)
    (v w : Option Declaration) (ks : List Parameter) :
    Parameters.slashAfter m (ps.map Parameter.text) =
      ((ps.take m).map Piece.parameter ++ slash ⟨ps.take m, ps.drop m, v, ks, w⟩ ++
        (ps.drop m).map Piece.parameter).map Piece.text := by
  have htexts (qs : List Parameter) : (qs.map Piece.parameter).map Piece.text =
      qs.map Parameter.text := map_map
  unfold Parameters.slashAfter
  split
  · next hzero =>
    subst hzero
    simp [slash, Piece.text]
  · next hpos =>
    have hne : (ps.take m).isEmpty = false := by
      rw [isEmpty_eq_false_iff, ne_eq, take_eq_nil_iff, not_or]
      exact ⟨hpos, ne_nil_of_length_pos (by omega)⟩
    rw [slash, if_neg (by rw [hne]; decide), map_append, map_append, htexts, htexts,
      map_take, map_drop, append_assoc]
    rfl

/-- The text of the signature whose first `m` parameters are positional-only. -/
theorem text_split {ps : List Parameter} {m : Nat} (hm : m ≤ ps.length)
    (v w : Option Declaration) (ks : List Parameter) :
    String.intercalate ", " (Parameters.slashAfter m (ps.map Parameter.text) ++
      (Piece.beforeKeywords (!ks.isEmpty) v).map Piece.text ++ ks.map Parameter.text ++
      (w.toList.map Piece.keywords).map Piece.text) =
      text ⟨ps.take m, ps.drop m, v, ks, w⟩ := by
  rw [slashAfter_pieces hm v w ks, text, pieces, star]
  simp only [map_append, map_map, append_assoc]
  rfl

end Signature

/-- A parameter with its default is written as the second parameter says. -/
def Node.Carries (width : Nat) (p : Node .arg × Option (Node .expr)) (q : Parameter) : Prop :=
  p.1.Declares width q.toDeclaration ∧ Option.Rel (Renders width) p.2 q.default

theorem Node.forall₂_of_carries {width : Nat} {as : List (Node .arg)}
    {ds : List (Option (Node .expr))} {qs : List Parameter} (hlength : as.length = ds.length)
    (h : Forall₂ (Carries width) (as.zip ds) qs) :
    Forall₂ (fun p (q : Parameter) => p.Declares width q.toDeclaration) as qs ∧
      Forall₂ (fun o (q : Parameter) => Option.Rel (Renders width) o q.default) ds qs := by
  induction as generalizing ds qs with
  | nil =>
    cases ds with
    | nil =>
      cases h
      exact ⟨.nil, .nil⟩
    | cons d ds => cases hlength
  | cons a as ih =>
    cases ds with
    | nil => cases hlength
    | cons d ds =>
      obtain ⟨⟩ | ⟨⟨hdeclares, hdefault⟩, hmore⟩ := h
      obtain ⟨hall, hdefaults⟩ := ih (Nat.succ.inj hlength) hmore
      exact ⟨.cons hdeclares hall, .cons hdefault hdefaults⟩

namespace Render.Parameters

open Node

variable (width : Nat)

theorem withDefault_carries (a : Node .arg) (o : Option (Node .expr)) :
    (withDefault true (view a) (o.map fun e : Node .expr => view e)).Gives fun text =>
      ∃ q, Carries width (a, o) q ∧ text = q.text := by
  refine (arg_declares width a).bind ?_
  rintro _ ⟨d, hd, rfl⟩
  refine (after_renders width o _).bind_pure ?_
  rintro _ ⟨written, hwritten, rfl⟩
  refine ⟨⟨d, written⟩, ⟨hd, hwritten⟩, ?_⟩
  have hannotated : (view a).annotated = d.type.isSome := by
    rw [view_arg]
    exact Option.isSome_map.trans (isSome_of_rel hd.2)
  rw [hannotated]
  rfl

theorem withDefaults_carries (as : List (Node .arg)) (ds : List (Option (Node .expr))) :
    (withDefaults true (as.map fun a : Node .arg => view a)
      (ds.map (Option.map fun e : Node .expr => view e))).Gives fun texts =>
      ∃ ps, Forall₂ (Carries width) (as.zip ds) ps ∧ texts = ps.map Parameter.text := by
  refine Gives.imp (Gives.allFor ?_) fun _ h => exists_map_of_forall₂ h
  rw [zip_map, map_map, forall₂_map_right_iff]
  exact forall₂_same.mpr fun p _ => withDefault_carries width p.1 p.2

theorem star_declares (keywordOnly : Bool) (o : Option (Node .arg)) :
    (star true keywordOnly (o.map fun a : Node .arg => view a)).Gives fun texts =>
      ∃ v, Option.Rel (Declares width) o v ∧
        texts = (Piece.beforeKeywords keywordOnly v).map Piece.text := by
  cases o with
  | none => exact .pure ⟨none, .none, by cases keywordOnly <;> rfl⟩
  | some a =>
    refine (arg_declares width a).bind_pure ?_
    rintro _ ⟨d, hd, rfl⟩
    exact ⟨some d, .some hd, rfl⟩

theorem doubleStar_declares (o : Option (Node .arg)) :
    (doubleStar true (o.map fun a : Node .arg => view a)).Gives fun texts =>
      ∃ v, Option.Rel (Declares width) o v ∧
        texts = (v.toList.map Piece.keywords).map Piece.text := by
  cases o with
  | none => exact .pure ⟨none, .none, rfl⟩
  | some a =>
    refine (arg_declares width a).bind_pure ?_
    rintro _ ⟨d, hd, rfl⟩
    exact ⟨some d, .some hd, rfl⟩

end Render.Parameters

namespace ParameterList

/-- The signature says what the parameter list holds. -/
structure Says (width : Nat) (a : ParameterList) (σ : Signature) : Prop where
  surplus : a.defaults.length ≤ a.positional.length
  unmatched : a.kwDefaults = [] ∨ a.kwDefaults.length = a.kwonly.length
  posonly : Forall₂ (fun p (q : Parameter) => p.Declares width q.toDeclaration) a.posonly σ.posonly
  args : Forall₂ (fun p (q : Parameter) => p.Declares width q.toDeclaration) a.args σ.args
  vararg : Option.Rel (Node.Declares width) a.vararg σ.vararg
  kwonly : Forall₂ (fun p (q : Parameter) => p.Declares width q.toDeclaration) a.kwonly σ.kwonly
  kwarg : Option.Rel (Node.Declares width) a.kwarg σ.kwarg
  defaults : Forall₂ (fun o (q : Parameter) => Option.Rel (Node.Renders width) o q.default)
    a.positionalDefaults σ.positional
  kwDefaults : Forall₂ (fun o (q : Parameter) => Option.Rel (Node.Renders width) o q.default)
    a.keywordDefaults σ.kwonly

/-- The parameters with their defaults, of which the first ones are positional-only. -/
theorem Says.of_carries {width : Nat} {a : ParameterList}
    (hn : a.defaults.length ≤ a.positional.length)
    (hk : a.kwDefaults = [] ∨ a.kwDefaults.length = a.kwonly.length) {ps ks : List Parameter}
    {v w : Option Declaration}
    (hps : Forall₂ (Node.Carries width) (a.positional.zip a.positionalDefaults) ps)
    (hv : Option.Rel (Node.Declares width) a.vararg v)
    (hks : Forall₂ (Node.Carries width) (a.kwonly.zip a.keywordDefaults) ks)
    (hw : Option.Rel (Node.Declares width) a.kwarg w) :
    a.Says width ⟨ps.take a.posonly.length, ps.drop a.posonly.length, v, ks, w⟩ := by
  obtain ⟨hdeclared, hdefaults⟩ :=
    Node.forall₂_of_carries (length_positionalDefaults hn).symm hps
  obtain ⟨hkwonly, hkwDefaults⟩ :=
    Node.forall₂_of_carries (length_keywordDefaults hk).symm hks
  have hposonly := forall₂_take a.posonly.length hdeclared
  have hargs := forall₂_drop a.posonly.length hdeclared
  rw [positional, take_left' rfl] at hposonly
  rw [positional, drop_left' rfl] at hargs
  refine ⟨hn, hk, hposonly, hargs, hv, hkwonly, hw, ?_, hkwDefaults⟩
  rw [Signature.positional, take_append_drop]
  exact hdefaults

theorem draft_gives (width : Nat) (a : ParameterList) (mark : Mark .arguments) :
    (a.node mark).draft.Gives fun text => ∃ σ, a.Says width σ ∧ text = σ.text := by
  have hpositional : (a.posonly.map fun p : Node .arg => view p) ++
      (a.args.map fun p : Node .arg => view p) = a.positional.map fun p : Node .arg => view p :=
    map_append.symm
  change (view (a.node mark) true).Gives _
  rw [view_node]
  refine Gives.demand_bind
    (Gives.refuse_bind fun hsurplus => Gives.refuse_bind fun hunmatched => ?_)
  have hn : a.defaults.length ≤ a.positional.length := by
    simpa [positional] using hsurplus
  have hk : a.kwDefaults = [] ∨ a.kwDefaults.length = a.kwonly.length := by
    simpa [or_iff_not_imp_left] using hunmatched
  -- After the checks every parameter has a place for its default.
  rw [hpositional, length_map, length_map, length_map, alignDefaults_views,
    alignKeywordDefaults_views, isEmpty_map]
  refine (Parameters.withDefaults_carries width a.positional a.positionalDefaults).bind ?_
  rintro _ ⟨ps, hps, rfl⟩
  refine (Parameters.star_declares width _ a.vararg).bind ?_
  rintro _ ⟨v, hv, rfl⟩
  refine (Parameters.withDefaults_carries width a.kwonly a.keywordDefaults).bind ?_
  rintro _ ⟨ks, hks, rfl⟩
  refine (Parameters.doubleStar_declares width a.kwarg).bind_pure ?_
  rintro _ ⟨w, hw, rfl⟩
  have hsays := Says.of_carries hn hk hps hv hks hw
  have hm : a.posonly.length ≤ ps.length := by
    have hlength := hps.length_eq
    rw [length_zip, length_positionalDefaults hn, Nat.min_self, positional,
      length_append] at hlength
    omega
  refine ⟨_, hsays, ?_⟩
  rw [forall₂_isEmpty hsays.kwonly, Signature.text_split hm]

/-- Every parameter stands in its own group with its own name and type, and the defaults and the
signs between the groups stand where they belong. -/
structure Aligned (width : Nat) (a : ParameterList) (σ : Signature) : Prop where
  posonly : Forall₂ (fun p (q : Parameter) => p.Declares width q.toDeclaration) a.posonly σ.posonly
  args : Forall₂ (fun p (q : Parameter) => p.Declares width q.toDeclaration) a.args σ.args
  vararg : Option.Rel (Node.Declares width) a.vararg σ.vararg
  kwonly : Forall₂ (fun p (q : Parameter) => p.Declares width q.toDeclaration) a.kwonly σ.kwonly
  kwarg : Option.Rel (Node.Declares width) a.kwarg σ.kwarg
  surplus : a.defaults.length ≤ a.positional.length
  /-- The last positional parameters carry a default, each its own. -/
  default : ∀ (i : Nat) (q : Parameter), σ.positional[i]? = some q →
    (q.default.isSome ↔ a.positional.length - a.defaults.length ≤ i) ∧
    Option.Rel (Node.Renders width)
      (if a.positional.length - a.defaults.length ≤ i then
        a.defaults[i - (a.positional.length - a.defaults.length)]? else none) q.default
  /-- After a parameter with a default each one has a default. -/
  trailing : σ.positional.Pairwise fun p q : Parameter => p.default.isSome → q.default.isSome
  unmatched : a.kwDefaults = [] ∨ a.kwDefaults.length = a.kwonly.length
  keywordDefault : ∀ (j : Nat) (q : Parameter), σ.kwonly[j]? = some q →
    Option.Rel (Node.Renders width) a.kwDefaults[j]?.join q.default
  slash_count : σ.pieces.count .slash = if a.posonly = [] then 0 else 1
  slash_place : a.posonly ≠ [] →
    σ.pieces.take (a.posonly.length + 1) = σ.posonly.map .parameter ++ [.slash]
  star : .star ∈ σ.pieces ↔ a.kwonly ≠ [] ∧ a.vararg = none

section Saying

variable {width : Nat} {a : ParameterList} {σ : Signature}

theorem Says.default (h : a.Says width σ) (i : Nat) (q : Parameter)
    (hq : σ.positional[i]? = some q) :
    (q.default.isSome ↔ a.positional.length - a.defaults.length ≤ i) ∧
    Option.Rel (Node.Renders width)
      (if a.positional.length - a.defaults.length ≤ i then
        a.defaults[i - (a.positional.length - a.defaults.length)]? else none) q.default := by
  obtain ⟨o, ho, hrel⟩ := exists_getElem?_of_forall₂ h.defaults hq
  obtain ⟨hsome, hvalue⟩ := of_positionalDefaults ho
  rw [← hvalue, ← isSome_of_rel hrel]
  exact ⟨hsome, hrel⟩

theorem Says.trailing (h : a.Says width σ) :
    σ.positional.Pairwise fun p q : Parameter => p.default.isSome → q.default.isSome := by
  rw [pairwise_iff_getElem]
  intro i j hi hj hij hsome
  have hfirst := (h.default i _ (getElem?_eq_getElem hi)).1.mp hsome
  exact (h.default j _ (getElem?_eq_getElem hj)).1.mpr (by omega)

theorem Says.keywordDefault (h : a.Says width σ) (j : Nat) (q : Parameter)
    (hq : σ.kwonly[j]? = some q) :
    Option.Rel (Node.Renders width) a.kwDefaults[j]?.join q.default := by
  obtain ⟨o, ho, hrel⟩ := exists_getElem?_of_forall₂ h.kwDefaults hq
  rw [← of_keywordDefaults ho]
  exact hrel

theorem Says.posonly_eq_nil (h : a.Says width σ) : a.posonly = [] ↔ σ.posonly = [] := by
  rw [← length_eq_zero_iff, ← length_eq_zero_iff, h.posonly.length_eq]

theorem Says.star (h : a.Says width σ) :
    .star ∈ σ.pieces ↔ a.kwonly ≠ [] ∧ a.vararg = none := by
  have hkwonly : a.kwonly = [] ↔ σ.kwonly = [] := by
    rw [← length_eq_zero_iff, ← length_eq_zero_iff, h.kwonly.length_eq]
  have hvararg : a.vararg = none ↔ σ.vararg = none := by
    rw [← Option.not_isSome_iff_eq_none, ← Option.not_isSome_iff_eq_none, isSome_of_rel h.vararg]
  rw [Signature.star_mem_pieces, ne_eq, ne_eq, hkwonly, hvararg]

theorem Says.aligned (h : a.Says width σ) : a.Aligned width σ where
  posonly := h.posonly
  args := h.args
  vararg := h.vararg
  kwonly := h.kwonly
  kwarg := h.kwarg
  surplus := h.surplus
  default := h.default
  trailing := h.trailing
  unmatched := h.unmatched
  keywordDefault := h.keywordDefault
  slash_count := by simp only [σ.count_slash, h.posonly_eq_nil]
  slash_place := by
    intro hne
    rw [h.posonly.length_eq]
    exact Signature.take_pieces fun hnil => hne (h.posonly_eq_nil.mpr hnil)
  star := h.star

end Saying

end ParameterList

def Declaration.tree (d : Declaration) : Node .arg :=
  .of .arg (d.name, d.type.map Expr.name, ())

namespace Node

variable {width : Nat}

/-- The expression is a plain word. -/
def IsPlainName (e : Node .expr) : Prop :=
  ∃ id, Text.isPlain id = true ∧ e.erase = Expr.name id

/-- The name of the parameter is a plain word, and so is its type if it has one. -/
def IsPlainArg (a : Node .arg) : Prop :=
  Text.isPlain a.declared.1 = true ∧ ∀ e ∈ a.declared.2, e.IsPlainName

theorem Renders.plain {e : Node .expr} {text : String} (h : Renders width e text)
    (he : e.IsPlainName) : Text.isPlain text = true ∧ e.erase = Expr.name text := by
  obtain ⟨id, hid, herase⟩ := he
  have hrender : (Expr.name id).render ⟨.permissive, width⟩ = .ok text := by
    rw [← herase, render_erase]
    exact h
  have hgives : (Expr.name id).draft.Gives (· = id) := Gives.demand_bind (.pure rfl)
  rw [holds_of_render_ok hgives hrender]
  exact ⟨hid, herase⟩

theorem plain_of_rel {o : Option (Node .expr)} {written : Option String}
    (h : Option.Rel (Renders width) o written) (ho : ∀ e ∈ o, e.IsPlainName) :
    written.all Text.isPlain = true ∧
      (o.map fun e : Node .expr => Tree.erase e) = written.map Expr.name := by
  cases h with
  | none => exact ⟨rfl, rfl⟩
  | some h =>
    obtain ⟨hplain, herase⟩ := h.plain (ho _ rfl)
    exact ⟨hplain, congrArg some herase⟩

theorem plain_of_defaults {ds : List (Option (Node .expr))} {qs : List Parameter}
    (h : Forall₂ (fun o (q : Parameter) => Option.Rel (Renders width) o q.default) ds qs)
    (hds : ∀ e, some e ∈ ds → e.IsPlainName) :
    (∀ q ∈ qs, q.default.all Text.isPlain = true) ∧
      ds.map (Option.map fun e : Node .expr => Tree.erase e) =
        qs.map fun q => q.default.map Expr.name := by
  refine map_eq_of_forall₂ h fun o q ho hq => plain_of_rel hq fun e he => hds e ?_
  rw [← Option.mem_def.mp he]
  exact ho

theorem Declares.plain {a : Node .arg} {d : Declaration} (h : a.Declares width d)
    (ha : a.IsPlainArg) : d.isPlain = true ∧ a.erase = d.tree := by
  obtain ⟨hname, htype⟩ := h
  obtain ⟨hplain, herase⟩ := plain_of_rel htype ha.2
  constructor
  · rw [Declaration.isPlain, ← hname, ha.1, hplain]
    rfl
  · rw [erase_arg, hname, herase]
    rfl

theorem plain_of_declarations {as : List (Node .arg)} {qs : List Parameter}
    (h : Forall₂ (fun p (q : Parameter) => p.Declares width q.toDeclaration) as qs)
    (has : ∀ a ∈ as, a.IsPlainArg) :
    (∀ q ∈ qs, q.toDeclaration.isPlain = true) ∧
      (as.map fun a : Node .arg => Tree.erase a) = qs.map fun q => q.toDeclaration.tree :=
  map_eq_of_forall₂ h fun a _ ha hq => hq.plain (has a ha)

theorem plain_of_declaration {o : Option (Node .arg)} {v : Option Declaration}
    (h : Option.Rel (Declares width) o v) (ho : ∀ a ∈ o, a.IsPlainArg) :
    (∀ d ∈ v, d.isPlain = true) ∧
      (o.map fun a : Node .arg => Tree.erase a) = v.map Declaration.tree := by
  cases h with
  | none => exact ⟨fun d hd => (Option.not_mem_none d hd).elim, rfl⟩
  | some h =>
    obtain ⟨hplain, herase⟩ := h.plain (ho _ rfl)
    refine ⟨fun d hd => ?_, congrArg some herase⟩
    cases hd
    exact hplain

end Node

namespace Signature

/-- The parameter list that a signature of plain words says. -/
def list (σ : Signature) : ParameterList where
  posonly := σ.posonly.map fun q => q.toDeclaration.tree
  args := σ.args.map fun q => q.toDeclaration.tree
  vararg := σ.vararg.map Declaration.tree
  kwonly := σ.kwonly.map fun q => q.toDeclaration.tree
  kwDefaults := σ.kwonly.map fun q => q.default.map Expr.name
  kwarg := σ.kwarg.map Declaration.tree
  defaults := σ.positional.filterMap fun q => q.default.map Expr.name

end Signature

namespace ParameterList

/-- All names, types and defaults are plain words. -/
structure IsPlain (a : ParameterList) : Prop where
  parameters : ∀ p ∈ Kind.allParameters a.posonly a.args a.vararg a.kwonly a.kwarg, p.IsPlainArg
  defaults : ∀ e ∈ a.defaults, e.IsPlainName
  kwDefaults : ∀ e, some e ∈ a.kwDefaults → e.IsPlainName

/-- A parameter list of plain words is what its signature says. -/
theorem Says.plain {width : Nat} {a : ParameterList} {σ : Signature} (h : a.Says width σ)
    (ha : a.IsPlain) : σ.isPlain = true ∧ a.padded.erased = σ.list := by
  have hparameters := ha.parameters
  simp only [Kind.allParameters, forall_mem_append, Option.mem_toList] at hparameters
  obtain ⟨⟨⟨⟨hposonly, hargs⟩, hvararg⟩, hkwonly⟩, hkwarg⟩ := hparameters
  obtain ⟨hplainPosonly, hposonlyTrees⟩ := Node.plain_of_declarations h.posonly hposonly
  obtain ⟨hplainArgs, hargsTrees⟩ := Node.plain_of_declarations h.args hargs
  obtain ⟨hplainVararg, hvarargTree⟩ := Node.plain_of_declaration h.vararg hvararg
  obtain ⟨hplainKwonly, hkwonlyTrees⟩ := Node.plain_of_declarations h.kwonly hkwonly
  obtain ⟨hplainKwarg, hkwargTree⟩ := Node.plain_of_declaration h.kwarg hkwarg
  obtain ⟨hplainDefaults, hnames⟩ :=
    Node.plain_of_defaults h.defaults fun e he => ha.defaults e (mem_of_positionalDefaults he)
  obtain ⟨hplainKwDefaults, hkwNames⟩ :=
    Node.plain_of_defaults h.kwDefaults fun e he => ha.kwDefaults e (mem_of_keywordDefaults he)
  have hplain : ∀ q ∈ σ.positional, q.toDeclaration.isPlain = true :=
    forall_mem_append.mpr ⟨hplainPosonly, hplainArgs⟩
  constructor
  · exact Signature.isPlain_of
      (fun q hq => Bool.and_eq_true_iff.mpr ⟨hplain q hq, hplainDefaults q hq⟩) hplainVararg
      (fun q hq => Bool.and_eq_true_iff.mpr ⟨hplainKwonly q hq, hplainKwDefaults q hq⟩) hplainKwarg
  · have hdefaults := congrArg (filterMap id) hnames
    rw [filterMap_map, filterMap_map] at hdefaults
    have hvalues : (a.defaults.map fun e : Node .expr => Tree.erase e) =
        σ.positional.filterMap fun q => q.default.map Expr.name :=
      (filterMap_positionalDefaults a).symm.trans hdefaults
    rw [erased, padded, Signature.list, hposonlyTrees, hargsTrees, hvarargTree, hkwonlyTrees,
      hkwNames, hkwargTree, hvalues]

/-- The text of a parameter list is a signature that says of every parameter what the list holds
for it. A list of plain words can be read off its text, but for whether the absence of all
keyword-only defaults is recorded. -/
theorem render_aligned (width : Nat) :
    (∀ (t : Node .arguments) (text : String), t.render ⟨.permissive, width⟩ = .ok text →
      ∃ (a : ParameterList) (mark : Mark .arguments) (σ : Signature),
        t = a.node mark ∧ text = σ.text ∧ a.Aligned width σ) ∧
    ∀ (a b : ParameterList) (mark mark' : Mark .arguments) (text : String),
      a.IsPlain → b.IsPlain → (a.node mark).render ⟨.permissive, width⟩ = .ok text →
      (b.node mark').render ⟨.permissive, width⟩ = .ok text →
      (a.padded.node mark).erase = (b.padded.node mark').erase := by
  constructor
  · intro t text h
    obtain ⟨a, mark, rfl⟩ := exists_eq_node t
    obtain ⟨σ, hσ, rfl⟩ := Node.holds_of_render_ok (draft_gives width a mark) h
    exact ⟨a, mark, σ, rfl, rfl, hσ.aligned⟩
  · intro a b mark mark' text ha hb hat hbt
    obtain ⟨σ, hσ, rfl⟩ := Node.holds_of_render_ok (draft_gives width a mark) hat
    obtain ⟨τ, hτ, htext⟩ := Node.holds_of_render_ok (draft_gives width b mark') hbt
    obtain ⟨hσplain, hσlist⟩ := hσ.plain ha
    obtain ⟨hτplain, hτlist⟩ := hτ.plain hb
    have hsame : σ = τ := by
      rw [← Signature.read_text hσplain, htext, Signature.read_text hτplain]
    rw [erase_node, erase_node, hσlist, hτlist, hsame]

/-- A parameter whose type has a position. -/
def typed (mark : Mark .expr) : Node .arg :=
  .of .arg ("a", some (Node.marked .nameExpr ("é", ()) mark), ())

/-- Parameters of every group but the variadic one. -/
def sample (kwDefaults : List (Option (Node .expr))) (mark : Mark .expr) : ParameterList where
  posonly := [typed mark]
  args := [Stmt.arg "b"]
  vararg := none
  kwonly := [Stmt.arg "c", Stmt.arg "d"]
  kwDefaults := kwDefaults
  kwarg := some (Stmt.arg "e")
  defaults := [Node.marked .nameExpr ("f", ()) mark]

theorem sample_isPlain (mark : Mark .expr) (kwDefaults : List (Option (Node .expr)))
    (h : ∀ e, some e ∉ kwDefaults) : (sample kwDefaults mark).IsPlain := by
  have hname (id : String) (hid : Text.isPlain id = true) :
      Node.IsPlainName (Node.marked .nameExpr (id, ()) mark) := ⟨id, hid, rfl⟩
  have harg (id : String) (hid : Text.isPlain id = true) : Node.IsPlainArg (Stmt.arg id) :=
    ⟨hid, fun e he => by cases he⟩
  have htyped : Node.IsPlainArg (typed mark) := by
    have ha : Text.isPlain "a" = true := by decide
    refine ⟨ha, fun e he => ?_⟩
    cases he
    exact hname "é" (by decide)
  refine ⟨?_, ?_, fun e he => (h e he).elim⟩
  · change ∀ p ∈ [typed mark, Stmt.arg "b", Stmt.arg "c", Stmt.arg "d", Stmt.arg "e"],
      p.IsPlainArg
    simp only [forall_mem_cons]
    exact ⟨htyped, harg "b" (by decide), harg "c" (by decide), harg "d" (by decide),
      harg "e" (by decide), fun p hp => (not_mem_nil hp).elim⟩
  · exact forall_mem_singleton.mpr (hname "f" (by decide))

theorem sample_aligned :
    (sample [none, none] (.at ⟨1, 2⟩ rfl)).IsPlain ∧ (sample [] .none).IsPlain ∧
    ((sample [none, none] (.at ⟨1, 2⟩ rfl)).node .none).render {} =
      .ok "a: é, /, b=f, *, c, d, **e" ∧
    ((sample [] .none).node .none).render {} = .ok "a: é, /, b=f, *, c, d, **e" ∧
    (∃ (a : ParameterList) (mark : Mark .arguments) (σ : Signature),
      (sample [] .none).node .none = a.node mark ∧
        "a: é, /, b=f, *, c, d, **e" = σ.text ∧ a.Aligned 4 σ) ∧
    ((sample [none, none] (.at ⟨1, 2⟩ rfl)).padded.node .none).erase =
      ((sample [] .none).padded.node .none).erase := by
  have hplain := sample_isPlain (.at ⟨1, 2⟩ rfl) [none, none] (by simp)
  have hplain' := sample_isPlain .none [] (by simp)
  obtain ⟨haligned, hread⟩ := render_aligned 4
  exact ⟨hplain, hplain', rfl, rfl, haligned _ _ rfl, hread _ _ _ _ _ hplain hplain' rfl rfl⟩

end ParameterList

end Unparse
