import Unparse.Proofs.Literal.Numeral
import Unparse.Proofs.Reader.Expression

/-! Views and the reader: every rule of the parenthesised core, given views that spell the
parts of an expression, gives a view that spells the expression. -/
namespace Unparse

open Draft Reader

def ExprForm.Spells (e : Node .expr) : ExprForm → Prop
  | .tuple elements =>
    ∃ es, e = Expr.tuple es ∧
      List.Forall₂ (fun e (x : Draft String) => x.Gives (Spelled e)) es elements
  | _ => True

structure ExprView.Spells (e : Node .expr) (v : ExprView) : Prop where
  text : v.text.Gives (Spelled e)
  form : v.form.Spells e

namespace ExprView

theorem formed_spells {e : Node .expr} {k : Kind} {form : ExprForm} {x : Draft String}
    (hx : x.Gives (Spelled e)) (hform : form.Spells e) : (formed k form x).Spells e :=
  ⟨Gives.demand_bind hx, hform⟩

theorem plain_spells {e : Node .expr} {k : Kind} {x : Draft String} (hx : x.Gives (Spelled e)) :
    (plain k x).Spells e :=
  formed_spells hx trivial

theorem texts_spelled {es : List (Node .expr)} {vs : List ExprView}
    (h : List.Forall₂ Spells es vs) : (texts vs).Gives (List.Forall₂ Spelled es) := by
  apply Gives.allFor
  rw [List.forall₂_map_right_iff]
  exact h.imp fun _ _ hv => hv.text

end ExprView

namespace Render.Expression

open ExprView

variable {e f g : Node .expr} {v w u : ExprView} {es : List (Node .expr)} {vs : List ExprView}

theorem name_spells {id : String} (hid : isIdentifier id = true) :
    (name id).Spells (Expr.name id) :=
  plain_spells (Gives.pure (spelled_name hid))

theorem str_spells (s : String) : (constant (.str s)).Spells (Expr.str s) :=
  formed_spells (Gives.pure (spelled_str s)) trivial

theorem int_spells (n : Nat) : (constant (.int n)).Spells (Expr.int n) := by
  apply formed_spells
  · apply Gives.pure
    have htext : Literal.constant (.int n) = Text.decimal n :=
      (Literal.ledByDigit_decimal n).guardSign_eq
    rw [htext]
    exact spelled_int n
  · trivial

theorem attributeOf_spells (h : v.Spells e) {attr : String} (hattr : isIdentifier attr = true) :
    (attributeOf v attr).Spells (Expr.attributeOf e attr) := by
  apply plain_spells
  apply h.text.bind_pure
  intro text htext
  have hbase : Spelled e (attributeBase v.form text) := by
    unfold attributeBase
    split
    · split
      · exact htext
      · exact spelled_group (Content.single htext) rfl
    · exact htext
  exact spelled_attribute hbase hattr

theorem comma_content {ss : List String} (h : List.Forall₂ Spelled es ss) :
    Content (separated [","] es) [] (String.intercalate ", " ss) :=
  content_intercalate (fun _ _ ht => Led.comma ht) h

theorem call_spells (h : v.Spells e) (hs : List.Forall₂ ExprView.Spells es vs) :
    (call v vs [] none none).Spells (Expr.call e es) := by
  apply plain_spells
  apply (texts_spelled hs).bind
  intro positional hpositional
  have hnone : (pure [] : Draft (List String)).Gives (· = []) := Gives.pure rfl
  apply hnone.bind
  rintro _ rfl
  apply hnone.bind
  rintro _ rfl
  apply hnone.bind
  rintro _ rfl
  apply h.text.bind_pure
  intro callee hcallee
  have hcall := spelled_call hcallee (comma_content hpositional)
  rw [map_snd_separated] at hcall
  simpa using hcall

theorem list_spells (hs : List.Forall₂ ExprView.Spells es vs) :
    (list vs).Spells (Expr.list es) := by
  apply plain_spells
  apply Gives.bind_pure ((texts_spelled hs).bind_pure fun _ hss => comma_content hss)
  intro text htext
  have hlist := spelled_list htext
  rw [map_snd_separated] at hlist
  exact hlist

/-- A lone element is followed by a comma. -/
def trailing (es : List (Node .expr)) : List String :=
  if es.length = 1 then [","] else []

theorem commaList_content {ss : List String} (h : List.Forall₂ Spelled es ss) :
    Content (separated [","] es) (trailing es) (commaList ss) := by
  match h with
  | .nil => exact comma_content .nil
  | .cons hs .nil =>
    have hcomma := (Content.single hs).signs (c := ',') (by decide) (by decide)
    exact hcomma
  | .cons hs (.cons ht hmore) => exact comma_content (.cons hs (.cons ht hmore))

theorem grouped_trailing (es : List (Node .expr)) :
    grouped (separated [","] es) (trailing es) = some (Expr.tuple es) := by
  match es with
  | [] => rfl
  | [e] => rfl
  | e :: f :: es =>
    change operation e [","] f (es.map fun x => ([","], x)) = _
    simp [operation, Function.comp_def]

theorem tuple_spells (hs : List.Forall₂ ExprView.Spells es vs) :
    (tuple vs).Spells (Expr.tuple es) := by
  apply formed_spells
  · apply (texts_spelled hs).bind_pure
    intro ss hss
    exact spelled_group (commaList_content hss) (grouped_trailing es)
  · refine ⟨es, rfl, ?_⟩
    rw [List.forall₂_map_right_iff]
    exact hs.imp fun _ _ hv => hv.text

theorem indexed_trailing (h : es ≠ []) :
    indexed (separated [","] es) (trailing es) = Expr.tuple es := by
  match es, h with
  | [e], _ => rfl
  | e :: f :: es, _ => simp [indexed, separated, trailing, Function.comp_def]

/-- Between brackets the parentheses of a tuple may be missing. -/
theorem subscriptText_content (h : v.Spells e) :
    (subscriptText v).Gives fun s => ∃ cs last, Content cs last s ∧ indexed cs last = e := by
  have hwhole : v.text.Gives fun s => ∃ cs last, Content cs last s ∧ indexed cs last = e :=
    h.text.imp fun _ hs => ⟨_, _, Content.single hs, rfl⟩
  have hform := h.form
  unfold subscriptText
  split
  next => exact hwhole
  next elements hne heq =>
    rw [heq] at hform
    obtain ⟨es, rfl, hes⟩ := hform
    apply Gives.demand_bind
    apply (Gives.allFor hes).bind_pure
    intro ss hss
    have hes : es ≠ [] := by
      rintro rfl
      cases hes
      exact hne rfl
    exact ⟨_, _, commaList_content hss, indexed_trailing hes⟩
  next => exact hwhole

theorem subscript_spells (h : v.Spells e) (hw : w.Spells f) :
    (subscript v w).Spells (Expr.subscript e f) := by
  apply plain_spells
  apply (subscriptText_content hw).bind
  rintro inner ⟨cs, last, hinner, rfl⟩
  apply h.text.bind_pure
  intro value hvalue
  exact spelled_subscript hvalue hinner

theorem namedExpr_spells (h : v.Spells e) (hw : w.Spells f) :
    (namedExpr v w).Spells (.of .namedExpr (e, f, ())) := by
  apply plain_spells
  apply h.text.bind
  intro target htarget
  apply hw.text.bind_pure
  intro value hvalue
  have hgroup := spelled_group ((Content.single htarget).led (Led.named hvalue)) rfl
  simpa only [String.append_assoc] using hgroup

theorem ifExp_spells (h : v.Spells e) (hw : w.Spells f) (hu : u.Spells g) :
    (ifExp v w u).Spells (.of .ifExp (e, f, g, ())) := by
  apply plain_spells
  apply hw.text.bind
  intro body hbody
  apply h.text.bind
  intro test htest
  apply hu.text.bind_pure
  intro orelse horelse
  have hif : Led (["if"], e) (" if " ++ test) := Led.keyword (by decide) htest
  have helse : Led (["else"], g) (" else " ++ orelse) := Led.keyword (by decide) horelse
  have hgroup := spelled_group (((Content.single hbody).led hif).led helse) rfl
  simpa only [String.append_assoc] using hgroup

theorem binOp_spells (op : Node .operator) (h : v.Spells e) (hw : w.Spells f) :
    (binOp v op.kind w).Spells (Expr.binOp e op.erase f) := by
  apply plain_spells
  apply Gives.demand_bind
  apply h.text.bind
  intro left hleft
  apply hw.text.bind_pure
  intro right hright
  have hled := Led.operator (k := op.kind) (by rw [Node.place_kind op]; rfl) hright
  have hgroup := spelled_group ((Content.single hleft).led hled) (operation_binOp e f op)
  simpa only [String.append_assoc] using hgroup

theorem boolOp_spells (op : Node .boolOp) (hs : List.Forall₂ ExprView.Spells es vs) :
    (boolOp op.kind vs).Spells (Expr.boolOp op.erase es) := by
  apply plain_spells
  apply Gives.demand_bind
  apply Gives.refuse_bind
  intro hmany
  apply Gives.bind_pure ((texts_spelled hs).bind_pure fun _ hss => content_intercalate
    (fun _ _ ht => Led.operator (k := op.kind) (by rw [Node.place_kind op]; rfl) ht) hss)
  intro text htext
  apply spelled_group htext
  have hlength : es.length = vs.length := hs.length_eq
  match es, hlength with
  | [], hlength => simp [← hlength] at hmany
  | [e], hlength => simp [← hlength] at hmany
  | e :: f :: es, _ =>
    have hop := operation_boolOp e f op (es.map fun x => (op.kind.marks, x))
    simpa [grouped, separated, Function.comp_def] using hop

theorem read_unaryToken {k : Kind} (hk : k.place = .unaryOp) (r : Reader) (rest : List Char) :
    r.read ((unaryToken k).toList ++ rest) = (r.pushAll (k.marks.map .mark)).read rest := by
  cases k with
  | not => exact (read_keyword (w := "not") (by decide) (boundary_blank rest)).trans read_blank
  | invert | uAdd | uSub => exact read_signs (by decide)
  | _ => exact absurd hk (by decide)

theorem unaryToken_content {k : Kind} (hk : k.place = .unaryOp) {text : String}
    (h : Spelled e text) : Content [(k.marks, e)] [] (unaryToken k ++ text) := by
  have hmarks : endsReady k.marks = true := by
    revert hk
    cases k <;> decide
  intro outer rest hrest
  rw [String.toList_append, List.append_assoc, read_unaryToken hk,
    h _ rest (ready_pushAll hmarks _) hrest]
  simp [pushAll, push, chunkItems]

theorem unaryOp_spells (op : Node .unaryOp) (h : v.Spells e) :
    (unaryOp op.kind v).Spells (Expr.unaryOp op.erase e) := by
  have hplace : op.kind.place = .unaryOp := Node.place_kind op
  apply plain_spells
  apply Gives.demand_bind
  apply h.text.bind_pure
  intro text htext
  have hcontent := unaryToken_content hplace htext
  have hop := operator?_kind rfl op
  cases hmarks : op.kind.marks with
  | nil =>
    rw [hmarks] at hop
    cases hop
  | cons m marks =>
    rw [hmarks] at hop hcontent
    have hgroup := spelled_group hcontent (congrArg (Option.map (Expr.unaryOp · e)) hop)
    simpa only [String.append_assoc] using hgroup

theorem comparisons_led (ops : List (Node .cmpOp)) (hs : List.Forall₂ ExprView.Spells es vs) :
    List.Forall₂ (fun c (x : Draft String) => x.Gives (Led c)) (comparisons ops es)
      (((ops.map Node.kind).zip vs).map fun (op, c) => comparison op c) := by
  induction ops generalizing es vs with
  | nil => exact .nil
  | cons op ops ih =>
    cases hs with
    | nil => exact .nil
    | cons h hs =>
      refine .cons ?_ (ih hs)
      apply Gives.demand_bind
      apply h.text.bind_pure
      intro text htext
      exact Led.operator (by rw [Node.place_kind op]; rfl) htext

theorem compare_spells (ops : List (Node .cmpOp)) (h : v.Spells e)
    (hs : List.Forall₂ ExprView.Spells es vs) :
    (compare v (ops.map Node.kind) vs).Spells
      (.of .compare (e, ops.map Tree.erase, es, ())) := by
  apply plain_spells
  apply Gives.refuse_bind
  intro hsome
  apply Gives.refuse_bind
  intro hequal
  apply h.text.bind
  intro left hleft
  apply (Gives.allFor (comparisons_led ops hs)).bind_pure
  intro rest hrest
  have hlength : ops.length = es.length := by
    rw [hs.length_eq]
    simpa using hequal
  have hcontent := (Content.single hleft).join hrest
  cases hchunks : comparisons ops es with
  | nil =>
    have hzero := congrArg List.length hchunks
    simp [comparisons, ← hlength] at hzero
    simp [hzero] at hsome
  | cons c more =>
    rw [hchunks] at hcontent
    have hgroup := spelled_group hcontent (operation_compare e c.2 hlength hchunks)
    simpa only [String.append_assoc] using hgroup

end Render.Expression

end Unparse
