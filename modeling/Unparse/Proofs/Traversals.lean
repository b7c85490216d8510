import Unparse.Proofs.Traversal.Revisions
import Unparse.Proofs.Traversal.Walks
import Unparse.Tree.Build

/-! The ways through a tree. Accumulating, walking and revising see the same nodes in the same
order, but that revising leaves out the operators. -/
namespace Unparse

/-- The node that is entered, if one is. -/
def Event.entered? : Event → Option AnyNode
  | visit n => some n
  | leave _ => none

/-- Goes on at every node. -/
def Strategy.onward : Strategy := fun _ _ => .proceed

theorem Visitor.strategy_eq_onward {S : Type} {v : Visitor S}
    (hproceed : ∀ st n, (v.visit st n).2 = .proceed) (start : S) :
    v.strategy start = Strategy.onward := by
  funext past n
  exact hproceed _ n

/-- Whoever goes on at every node enters the nodes in the order of their listing. -/
theorem Walked.entered_onward {past events : List Event} {ns : List AnyNode} {control : Control}
    (h : Walked Strategy.onward past ns events control) :
    control = .proceed ∧
      events.filterMap Event.entered? = ns.flatMap fun n => n.node.preorder := by
  induction h with
  | nil => exact ⟨rfl, rfl⟩
  | stop decision => cases decision
  | skip decision later ih => cases decision
  | within decision inside ih => cases ih.1
  | @through past inner events n more control decision inside later ihInside ihLater =>
    refine ⟨ihLater.1, ?_⟩
    rw [List.flatMap_cons, n.preorder_node, ← ihInside.2, ← ihLater.2]
    simp [Event.entered?, List.filterMap_cons]

theorem Tree.mapPositions_self {s : Shape} (t : Tree s) : t.mapPositions (fun p => p) = t := by
  induction t with
  | node k fields mark ih => cases mark <;> simp only [mapPositions, ih, Mark.map]
  | scalar value => rfl
  | absent => rfl
  | present content ih => rw [mapPositions, ih]
  | nil => rfl
  | cons head tail ihHead ihTail => rw [mapPositions, ihHead, ihTail]
  | done => rfl
  | field value more ihValue ihMore => rw [mapPositions, ihValue, ihMore]

namespace Node

variable {f : Family}

theorem walk_onward {S : Type} {v : Visitor S} (hproceed : ∀ st n, (v.visit st n).2 = .proceed)
    (t : Node f) (start : S) :
    t.walk v start = (v.replay start (t.trace .onward).1, .proceed) := by
  rw [walk_eq_replay, Visitor.strategy_eq_onward hproceed,
    (Walked.entered_onward (Walked.of_trace .onward t)).1]

theorem revise_untouched {S : Type} {r : Reviser S}
    (hproceed : ∀ st n, (r.visit st n).2 = .proceed) (htext : r.text = fun _ text => text)
    (hposition : r.position = fun p => p) (t : Node f) (start : S) :
    t.revise r start = (t, ⟨t.replaceable.foldl (fun st n => (r.visit st n).1) start, false⟩) := by
  rw [revise_eq_reviseFrom, Tree.reviseFrom_of_proceeds hproceed,
    Tree.rewrite_eq_mapPositions htext, hposition, Tree.mapPositions_self]

/-- Accumulating passes through the listing, in which each node stands before the listings of its
children. So does every visitor that goes on at each node. A reviser that does so, too, and changes
nothing passes through the listing without the operators, since at each node the children that can
be replaced are those that are not operators. -/
theorem traversals_agree (t : Node f) :
    t.preorder = ⟨f, t⟩ :: t.children.flatMap (fun n => n.node.preorder) ∧
    (∀ {S : Type} (step : S → AnyNode → S) (start : S),
      t.accumulate step start = t.preorder.foldl step start) ∧
    (t.trace .onward).1.filterMap Event.entered? = t.preorder ∧
    (∀ {S : Type} (v : Visitor S) (start : S), (∀ st n, (v.visit st n).2 = .proceed) →
      t.walk v start = (v.replay start (t.trace .onward).1, .proceed)) ∧
    (∀ {S : Type} (r : Reviser S) (start : S), (∀ st n, (r.visit st n).2 = .proceed) →
      r.text = (fun _ text => text) → r.position = (fun p => p) →
      t.revise r start = (t, ⟨(t.preorder.filter (!·.isOperator)).foldl
        (fun st n => (r.visit st n).1) start, false⟩)) ∧
    ∀ n ∈ t.preorder, n.mutableChildren = n.children.filter (!·.isOperator) := by
  refine ⟨AnyNode.preorder_node ⟨f, t⟩, ?_, ?_, ?_, ?_, ?_⟩
  · intro S step start
    exact AnyNode.accumulate_eq_foldl step ⟨f, t⟩ start
  · simpa using (Walked.entered_onward (Walked.of_trace .onward t)).2
  · intro S v start hproceed
    exact walk_onward hproceed t start
  · intro S r start hproceed htext hposition
    exact revise_untouched hproceed htext hposition t start
  · intro n _
    exact mutableChildren_eq_filter n.node

/-- The expression `-x * y`. -/
def negatedProduct : Node .expr :=
  Expr.binOp (Expr.unaryOp (Node.of .uSub ()) (Expr.name "x")) (Node.of .mult ()) (Expr.name "y")

/-- A visitor that takes note of the kinds of nodes. -/
def kindNoting : Visitor (List Kind) where
  visit seen n := (seen ++ [n.kind], .proceed)
  leave seen _ := seen

/-- A reviser that takes note of the kinds of nodes. -/
def kindRevising : Reviser (List Kind) where
  visit := kindNoting.visit

theorem negatedProduct_agree :
    negatedProduct.accumulate (fun seen n => seen ++ [n.kind]) [] =
      [.binOp, .unaryOp, .uSub, .nameExpr, .mult, .nameExpr] ∧
    negatedProduct.walk kindNoting [] =
      ([.binOp, .unaryOp, .uSub, .nameExpr, .mult, .nameExpr], .proceed) ∧
    negatedProduct.revise kindRevising [] =
      (negatedProduct, ⟨[.binOp, .unaryOp, .nameExpr, .nameExpr], false⟩) := by
  obtain ⟨_, haccumulate, _, hwalk, hrevise, _⟩ := traversals_agree negatedProduct
  refine ⟨(haccumulate _ _).trans rfl, (hwalk kindNoting [] fun _ _ => rfl).trans rfl, ?_⟩
  exact (hrevise kindRevising [] (fun _ _ => rfl) rfl rfl).trans rfl

end Node

end Unparse
