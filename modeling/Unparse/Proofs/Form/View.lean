import Mathlib.Data.Option.Basic
import Unparse.Proofs.Form.Verdict

/-! The verdicts on trees, and what they say of views: a rule may use the view of a node in
several ways, and each of them ends as the verdict on the node has it. -/
namespace Unparse

open Render

/-- The verdict on a node alone, without the nodes inside of it. -/
def AnyNode.verdict (n : AnyNode) : Verdict :=
  ⟨n.isWellFormed = true, n.HasQuote, n.HasBackslash⟩

namespace Tree

/-- The verdict on all nodes of a tree. -/
def verdict : {s : Shape} → Tree s → Verdict
  | _, .node k fields mark => AnyNode.verdict ⟨k.place, .node k fields mark⟩ + fields.verdict
  | _, .scalar _ => 0
  | _, .absent => 0
  | _, .present content => content.verdict
  | _, .nil => 0
  | _, .cons head tail => head.verdict + tail.verdict
  | _, .done => 0
  | _, .field value more => value.verdict + more.verdict

theorem verdict_eq {s : Shape} (t : Tree s) :
    t.verdict = ⟨∀ n ∈ t.preorder, n.isWellFormed = true, ∀ n ∈ t.preorder, n.HasQuote,
      ∃ n ∈ t.preorder, n.HasBackslash⟩ := by
  induction t with
  | node k fields mark ih =>
    simp [verdict, preorder, ih, AnyNode.verdict, Verdict.ext_iff]
  | scalar value => simp [verdict, preorder, Verdict.ext_iff]
  | absent => simp [verdict, preorder, Verdict.ext_iff]
  | present content ih => simpa [verdict, preorder] using ih
  | nil => simp [verdict, preorder, Verdict.ext_iff]
  | cons head tail ihHead ihTail =>
    simp [verdict, preorder, ihHead, ihTail, Verdict.ext_iff, or_imp, forall_and, or_and_right,
      exists_or]
  | done => simp [verdict, preorder, Verdict.ext_iff]
  | field value more ihValue ihMore =>
    simp [verdict, preorder, ihValue, ihMore, Verdict.ext_iff, or_imp, forall_and, or_and_right,
      exists_or]

end Tree

/-- There are no nodes in fields of this shape. -/
def Shape.isData : Shape → Bool
  | .scalar _ => true
  | .option s => s.isData
  | .list s => s.isData
  | _ => false

namespace Value

/-- The verdict on a record of nodes. Fields without nodes are passed over. -/
def verdict : (s : Shape) → Value Node s → Verdict
  | .node _, t => Tree.verdict t
  | .scalar _, _ => 0
  | .option s, v => .maybe (verdict s) v
  | .list s, vs => .total (verdict s) vs
  | .done, _ => 0
  | .field _ _ s rest, v =>
    bif s.isData then verdict rest v.2 else verdict s v.1 + verdict rest v.2

theorem verdict_of_isData {s : Shape} (h : s.isData = true) (v : Value Node s) :
    verdict s v = 0 := by
  induction s with
  | scalar => rfl
  | option s ih =>
    cases v with
    | none => rfl
    | some v => exact ih h v
  | list s ih =>
    induction v with
    | nil => rfl
    | cons v vs ihs =>
      simp only [verdict, Verdict.total_cons] at ihs ⊢
      rw [ih h v, ihs, add_zero]
  | node => cases h
  | done => cases h
  | field => cases h

theorem verdict_field {name : String} {presence : Presence} {s rest : Shape}
    (v : Value Node (.field name presence s rest)) :
    verdict (.field name presence s rest) v = verdict s v.1 + verdict rest v.2 := by
  cases h : s.isData with
  | true => simp [verdict, h, verdict_of_isData h]
  | false => simp [verdict, h]

end Value

theorem Tree.verdict_values {s : Shape} (t : Tree s) : Value.verdict s t.values = t.verdict := by
  induction t with
  | node k fields mark ih => rfl
  | scalar value => rfl
  | absent => rfl
  | present content ih => exact ih
  | nil => rfl
  | cons head tail ihHead ihTail =>
    simp only [values, verdict, Value.verdict, Verdict.total_cons] at ihTail ⊢
    rw [ihHead, ihTail]
  | done => rfl
  | field value more ihValue ihMore =>
    rw [Value.verdict_field]
    simp only [values, verdict]
    rw [ihValue, ihMore]

section View

variable {f : Family}

/-- What a form promises about the node that it is the form of. -/
def ExprForm.JudgedAs (w : Verdict) (t : Node f) : ExprForm → Prop
  | .plain => t.isText = false ∧ t.kind.isFString = false
  | .integer => t.isText = false ∧ t.kind.isFString = false
  | .string _ => (t.isText = true ∧ t.kind.isFString = false) ∧ w = 0
  | .tuple elements =>
    (t.isText = false ∧ t.kind.isFString = false) ∧ (Draft.all elements).Judged false w
  | .field segments => t.kind = .formattedValue ∧ segments.Gathers w
  | .joined segments => (t.isText = false ∧ t.kind = .joinedStr) ∧ segments.Gathers w

structure ExprView.JudgedAs (w : Verdict) (e : ExprView) (t : Node f) : Prop where
  kind : e.kind = t.kind
  text : e.text.Judged false w
  form : e.form.JudgedAs w t

abbrev ExprView.Judged (e : ExprView) (t : Node f) : Prop :=
  e.JudgedAs t.verdict t

def StmtForm.JudgedAs (w : Verdict) : StmtForm → Prop
  | .docstring _ _ => w = 0
  | .tryExcept clauses => clauses.Judged true w
  | _ => True

structure StmtView.JudgedAs (w : Verdict) (s : StmtView) : Prop where
  draft : s.draft.Judged true w
  form : s.form.JudgedAs w

abbrev StmtView.Judged (s : StmtView) (t : Node f) : Prop :=
  s.JudgedAs t.verdict

/-- Where annotations are not allowed, a parameter must have none. -/
def ArgView.JudgedAs (w : Verdict) (a : ArgView) (t : Node f) : Prop :=
  ∀ allowed, (a.text allowed).Judged false (.of (allowed || !t.isAnnotated) [w])

abbrev ArgView.Judged (a : ArgView) (t : Node f) : Prop :=
  a.JudgedAs t.verdict t

end View

/-- Operators are always well formed. Handlers of starred clauses must have a type, and the
parameters of a list where annotations are not allowed must not have any. -/
def View.JudgedAs (w : Verdict) : (f : Family) → View f → Node f → Prop
  | .mod, draft, _ => Draft.Judged true w draft
  | .stmt, v, _ => StmtView.JudgedAs w v
  | .expr, v, t => ExprView.JudgedAs w v t
  | .slice, v, t => ExprView.JudgedAs w v t
  | .boolOp, _, _ => w = 0
  | .operator, _, _ => w = 0
  | .unaryOp, _, _ => w = 0
  | .cmpOp, _, _ => w = 0
  | .handler, draft, t => ∀ star, Draft.Judged true (.of (!star || t.isTyped) [w]) (draft star)
  | .pattern, text, _ => Draft.Judged false w text
  | .typeParam, text, _ => Draft.Judged false w text
  | .comprehension, lines, _ => Draft.Judged false w lines
  | .arguments, text, t => ∀ allowed,
      Draft.Judged false (.of (allowed || t.parameters.all (!·.isAnnotated)) [w]) (text allowed)
  | .arg, v, t => ArgView.JudgedAs w v t
  | .keyword, text, _ => Draft.Judged false w text
  | .importedName, text, _ => Draft.Judged false w text
  | .withItem, text, _ => Draft.Judged false w text
  | .matchCase, draft, _ => Draft.Judged true w draft

/-- The view of a node ends as the verdict on the node has it. -/
abbrev View.Judged (f : Family) (v : View f) (t : Node f) : Prop :=
  View.JudgedAs t.verdict f v t

/-- Records whose nodes are related one by one, and that are the same in everything else. -/
def Value.Related {V W : Family → Type} (R : (f : Family) → V f → W f → Prop) :
    (s : Shape) → Value V s → Value W s → Prop
  | .node f, v, w => R f v w
  | .scalar _, value, other => value = other
  | .option s, v, w => Option.Rel (Value.Related R s) v w
  | .list s, vs, ws => List.Forall₂ (Value.Related R s) vs ws
  | .done, _, _ => True
  | .field _ _ s rest, v, w => Value.Related R s v.1 w.1 ∧ Value.Related R rest v.2 w.2

/-- A record of views and the record of nodes that they are the views of. -/
abbrev Value.Judged (s : Shape) (v : Value View s) (t : Value Node s) : Prop :=
  Value.Related View.Judged s v t

/-- What every rule keeps up, from the fields of a node to the node, holds of every tree. -/
theorem Tree.fold_related {R : (f : Family) → View f → Node f → Prop}
    (hrule : ∀ (k : Kind) (fields : Tree k.shape) (mark : Mark k.place),
      Value.Related R k.shape (fields.fold fun k v _ => rule k v) fields.values →
      R k.place (view (.node k fields mark)) (.node k fields mark))
    {s : Shape} (t : Tree s) : Value.Related R s (t.fold fun k v _ => rule k v) t.values := by
  induction t with
  | node k fields mark ih => exact hrule k fields mark ih
  | scalar value => rfl
  | absent => exact Option.Rel.none
  | present content ih => exact Option.Rel.some ih
  | nil => exact List.Forall₂.nil
  | cons head tail ihHead ihTail => exact List.Forall₂.cons ihHead ihTail
  | done => trivial
  | field value more ihValue ihMore => exact ⟨ihValue, ihMore⟩

end Unparse
