import Mathlib.Logic.Relation
import Unparse.Proofs.Traversal.Children

/-! The nodes that can be reached from a node by going from nodes to their children, which
are exactly those of its listing, and the strings that a node holds itself. -/
namespace Unparse

namespace AnyNode

/-- `m` is `n` itself, or can be reached from it by going from nodes to children. -/
def Reaches : AnyNode → AnyNode → Prop :=
  Relation.ReflTransGen fun n m => m ∈ n.children

end AnyNode

namespace Tree

/-- A listing is the listings of the outermost nodes, one after the other. -/
theorem preorder_eq_flatMap_roots {s : Shape} (t : Tree s) :
    t.preorder = t.roots.flatMap fun n => n.node.preorder := by
  induction t with
  | node k fields mark ih => simp [roots]
  | scalar value => rfl
  | absent => rfl
  | present content ih => simpa [preorder, roots] using ih
  | nil => rfl
  | cons head tail ihHead ihTail => simp [preorder, roots, ihHead, ihTail]
  | done => rfl
  | field value more ihValue ihMore => simp [preorder, roots, ihValue, ihMore]

theorem mem_preorder_iff {s : Shape} {t : Tree s} {m : AnyNode} :
    m ∈ t.preorder ↔ ∃ n ∈ t.roots, m ∈ n.node.preorder := by
  rw [preorder_eq_flatMap_roots]
  simp

end Tree

namespace AnyNode

/-- The listing of a node: the node, then the listings of its children. -/
theorem preorder_node (n : AnyNode) :
    n.node.preorder = n :: n.children.flatMap fun m => m.node.preorder := by
  obtain ⟨f, t⟩ := n
  cases t with
  | node k fields mark =>
    rw [Tree.preorder, Tree.preorder_eq_flatMap_roots fields, children, Node.children_eq_roots]

theorem self_mem_preorder (n : AnyNode) : n ∈ n.node.preorder := by
  rw [preorder_node]
  exact List.mem_cons_self ..

theorem children_subset_preorder {s : Shape} {t : Tree s} {n m : AnyNode}
    (hn : n ∈ t.preorder) (hm : m ∈ n.children) : m ∈ t.preorder := by
  induction t with
  | node k fields mark ih =>
    rcases List.mem_cons.mp hn with rfl | hin
    · rw [children, Node.children_eq_roots] at hm
      exact List.mem_cons_of_mem _ (Tree.mem_preorder_iff.mpr ⟨m, hm, self_mem_preorder m⟩)
    · exact List.mem_cons_of_mem _ (ih hin)
  | scalar value => simp [Tree.preorder] at hn
  | absent => simp [Tree.preorder] at hn
  | present content ih => exact ih hn
  | nil => simp [Tree.preorder] at hn
  | cons head tail ihHead ihTail =>
    rcases List.mem_append.mp hn with hin | hin
    · exact List.mem_append_left _ (ihHead hin)
    · exact List.mem_append_right _ (ihTail hin)
  | done => simp [Tree.preorder] at hn
  | field value more ihValue ihMore =>
    rcases List.mem_append.mp hn with hin | hin
    · exact List.mem_append_left _ (ihValue hin)
    · exact List.mem_append_right _ (ihMore hin)

/-- Whatever a tree lists is reached from one of its outermost nodes. -/
theorem exists_root_reaches {s : Shape} {t : Tree s} {m : AnyNode} (hm : m ∈ t.preorder) :
    ∃ n ∈ t.roots, n.Reaches m := by
  induction t with
  | node k fields mark ih =>
    refine ⟨⟨k.place, .node k fields mark⟩, by simp [Tree.roots], ?_⟩
    rcases List.mem_cons.mp hm with rfl | hin
    · exact Relation.ReflTransGen.refl
    · obtain ⟨n, hn, hreach⟩ := ih hin
      rw [← Node.children_eq_roots] at hn
      exact Relation.ReflTransGen.head hn hreach
  | scalar value => simp [Tree.preorder] at hm
  | absent => simp [Tree.preorder] at hm
  | present content ih => exact ih hm
  | nil => simp [Tree.preorder] at hm
  | cons head tail ihHead ihTail =>
    rcases List.mem_append.mp hm with hin | hin
    · obtain ⟨n, hn, hreach⟩ := ihHead hin
      exact ⟨n, List.mem_append_left _ hn, hreach⟩
    · obtain ⟨n, hn, hreach⟩ := ihTail hin
      exact ⟨n, List.mem_append_right _ hn, hreach⟩
  | done => simp [Tree.preorder] at hm
  | field value more ihValue ihMore =>
    rcases List.mem_append.mp hm with hin | hin
    · obtain ⟨n, hn, hreach⟩ := ihValue hin
      exact ⟨n, List.mem_append_left _ hn, hreach⟩
    · obtain ⟨n, hn, hreach⟩ := ihMore hin
      exact ⟨n, List.mem_append_right _ hn, hreach⟩

theorem reaches_iff_mem_preorder {n m : AnyNode} : n.Reaches m ↔ m ∈ n.node.preorder := by
  constructor
  · intro h
    induction h with
    | refl => exact self_mem_preorder n
    | tail _ hstep ih => exact children_subset_preorder ih hstep
  · intro h
    obtain ⟨f, t⟩ := n
    cases t with
    | node k fields mark =>
      obtain ⟨r, hr, hreach⟩ := exists_root_reaches h
      simp only [Tree.roots, List.mem_singleton] at hr
      exact hr ▸ hreach

end AnyNode

/-- The texts that a value holds: the value of a text, or of a constant that is a string. -/
def Scalar.strings : (a : Scalar) → a.Carrier → List String
  | .text, s => [s]
  | .constant, .str s => [s]
  | _, _ => []

/-- The strings in the fields of a record, without those inside of other nodes. -/
def Tree.strings : {s : Shape} → Tree s → List String
  | _, .node _ _ _ => []
  | _, .scalar (a := a) value => a.strings value
  | _, .absent => []
  | _, .present content => content.strings
  | _, .nil => []
  | _, .cons head tail => head.strings ++ tail.strings
  | _, .done => []
  | _, .field value more => value.strings ++ more.strings

def Node.strings {f : Family} : Node f → List String
  | .node _ fields _ => Tree.strings fields

/-- The strings in the own fields of a node. -/
def AnyNode.strings (n : AnyNode) : List String :=
  n.node.strings

end Unparse
