import Unparse.Proofs.Tree.Reachable
import Unparse.Proofs.Weight.Draft
import Unparse.Render.View

/-! What trees and views weigh. A tree weighs as much as its kinds and the strings in its
own fields; a view is in balance with a tree if every use that a rule can make of it has
the weight of the tree. -/
namespace Unparse

namespace Scale

variable (m : Scale)

def scalar (a : Scalar) (value : a.Carrier) : Weight :=
  .said (m.texts (a.strings value))

/-- What the strings of a node count for. -/
def own (n : AnyNode) : Nat :=
  m.texts n.strings

end Scale

namespace Tree

def weight (m : Scale) : {s : Shape} → Tree s → Weight
  | _, .node k fields _ => .kind k + fields.weight m
  | _, .scalar (a := a) value => m.scalar a value
  | _, .absent => 0
  | _, .present content => content.weight m
  | _, .nil => 0
  | _, .cons head tail => head.weight m + tail.weight m
  | _, .done => 0
  | _, .field value more => value.weight m + more.weight m

theorem mem_kinds_weight {s : Shape} (m : Scale) (t : Tree s) (k : Kind) :
    k ∈ (t.weight m).kinds ↔ ∃ n ∈ t.preorder, n.kind = k := by
  induction t with
  | node other fields mark ih =>
    simp [weight, preorder, ih, AnyNode.kind, Node.kind, eq_comm]
  | scalar value => simp [weight, preorder, Scale.scalar]
  | absent => simp [weight, preorder]
  | present content ih => simpa [weight, preorder] using ih
  | nil => simp [weight, preorder]
  | cons head tail ihHead ihTail => simp [weight, preorder, ihHead, ihTail, or_and_right, exists_or]
  | done => simp [weight, preorder]
  | field value more ihValue ihMore =>
    simp [weight, preorder, ihValue, ihMore, or_and_right, exists_or]

theorem count_weight_eq {s : Shape} (m : Scale) (t : Tree s) :
    (t.weight m).count = m.texts t.strings + (t.preorder.map m.own).sum := by
  induction t with
  | node k fields mark ih =>
    simp only [weight, strings, preorder, List.map_cons, List.sum_cons, Weight.count_add,
      Weight.count_kind, ih, Scale.texts_nil, Scale.own, AnyNode.strings, Node.strings]
  | scalar value => simp [weight, strings, preorder, Scale.scalar]
  | absent => rfl
  | present content ih => simpa [weight, strings, preorder] using ih
  | nil => rfl
  | cons head tail ihHead ihTail =>
    simp only [weight, strings, preorder, List.map_append, List.sum_append, Scale.texts_append,
      Weight.count_add, ihHead, ihTail]
    omega
  | done => rfl
  | field value more ihValue ihMore =>
    simp only [weight, strings, preorder, List.map_append, List.sum_append, Scale.texts_append,
      Weight.count_add, ihValue, ihMore]
    omega

/-- A node counts for as much as all the nodes that it reaches. -/
theorem count_weight_node {f : Family} (m : Scale) (t : Node f) :
    (t.weight m).count = (t.preorder.map m.own).sum := by
  rw [count_weight_eq]
  cases t with
  | node k fields mark => simp [strings]

end Tree

namespace Scale

variable (m : Scale)

def segment : Segment → Nat
  | .literal text => m.text text
  | .code text => m.text text

def segments (ss : List Segment) : Nat :=
  (ss.map m.segment).sum

end Scale

section View

variable (m : Scale)

/-- What a form promises about an expression of weight `w`. -/
def ExprForm.Weighs (kind : Kind) (w : Weight) : ExprForm → Prop
  | .string text => w = Weight.kind kind + .said (m.text text)
  | .tuple elements =>
    ∃ v, Together (Draft.Says m) elements v ∧ w = .kind .tuple + v
  | .field segments => segments.Weighs m m.segments 0 w
  | .joined segments => ∃ v, segments.Weighs m m.segments 0 v ∧ w = .kind .joinedStr + v
  | _ => True

structure ExprView.Weighs (e : ExprView) (w : Weight) : Prop where
  text : e.text.Says m w
  form : e.form.Weighs m e.kind w

/-- What a form promises about a statement of weight `w`. -/
def StmtForm.Weighs (w : Weight) : StmtForm → Prop
  | .docstring value text => w = Weight.kind .exprStmt + (.kind value + .said (m.text text))
  | .tryExcept clauses => ∃ v, clauses.Lays m v ∧ w = .kind .tryExcept + v
  | _ => True

structure StmtView.Weighs (s : StmtView) (w : Weight) : Prop where
  draft : s.draft.Lays m w
  form : s.form.Weighs m w

/-- A parameter weighs the same where annotations are allowed and where they are not. -/
def ArgView.Weighs (a : ArgView) (w : Weight) : Prop :=
  ∀ allowed, (a.text allowed).Says m w

def View.Weighs : (f : Family) → View f → Weight → Prop
  | .mod, draft, w => Draft.Lays m draft w
  | .stmt, v, w => StmtView.Weighs m v w
  | .expr, v, w => ExprView.Weighs m v w
  | .slice, v, w => ExprView.Weighs m v w
  | .boolOp, k, w => w = .kind k
  | .operator, k, w => w = .kind k
  | .unaryOp, k, w => w = .kind k
  | .cmpOp, k, w => w = .kind k
  | .handler, draft, w => ∀ star, Draft.Lays m (draft star) w
  | .pattern, text, w => Draft.Says m text w
  | .typeParam, text, w => Draft.Says m text w
  | .comprehension, lines, w => Draft.Lists m lines w
  | .arguments, text, w => ∀ allowed, Draft.Says m (text allowed) w
  | .arg, v, w => ArgView.Weighs m v w
  | .keyword, text, w => Draft.Says m text w
  | .importedName, text, w => Draft.Says m text w
  | .withItem, text, w => Draft.Says m text w
  | .matchCase, draft, w => Draft.Lays m draft w

/-- The weight of a record of views. -/
def Value.Weighs : (s : Shape) → Value View s → Weight → Prop
  | .node f, v, w => View.Weighs m f v w
  | .scalar a, value, w => w = m.scalar a value
  | .option s, v, w => Maybe (Value.Weighs s) v w
  | .list s, vs, w => Together (Value.Weighs s) vs w
  | .done, _, w => w = 0
  | .field _ _ s rest, v, w => ∃ a, Value.Weighs s v.1 a ∧ ∃ b, w = a + b ∧ Value.Weighs rest v.2 b

end View

theorem View.Weighs.of_eq {m : Scale} {f : Family} {v : View f} {u w : Weight}
    (h : View.Weighs m f v u) (e : u = w) : View.Weighs m f v w :=
  e ▸ h

/-- If every rule keeps the balance, every view is in balance with its tree. -/
theorem Tree.fold_weighs {m : Scale}
    {rule : (k : Kind) → Value View k.shape → Mark k.place → View k.place}
    (hrule : ∀ k v mark w, Value.Weighs m k.shape v w →
      View.Weighs m k.place (rule k v mark) (.kind k + w))
    {s : Shape} (t : Tree s) : Value.Weighs m s (t.fold rule) (t.weight m) := by
  induction t with
  | node k fields mark ih => exact hrule k _ mark _ ih
  | scalar value => rfl
  | absent => rfl
  | present content ih => exact ih
  | nil => rfl
  | cons head tail ihHead ihTail => exact ⟨_, _, ihHead, ihTail, rfl⟩
  | done => rfl
  | field value more ihValue ihMore => exact ⟨_, ihValue, _, rfl, ihMore⟩

end Unparse
