import Unparse.Traversal.Children

/-! The nodes of a tree as lists: the children of a node, and all of its nodes with
each one before those inside of it. -/
namespace Unparse

/-- A node of some family. -/
structure AnyNode where
  family : Family
  node : Node family

namespace AnyNode

def kind (n : AnyNode) : Kind :=
  n.node.kind

def position? (n : AnyNode) : Option Position :=
  n.node.position?

def isOperator (n : AnyNode) : Bool :=
  n.kind.isOperator

end AnyNode

/-- Every node, each before those inside of it, in field order. -/
def Tree.preorder : {s : Shape} → Tree s → List AnyNode
  | _, node k fields mark => ⟨k.place, node k fields mark⟩ :: fields.preorder
  | _, scalar _ => []
  | _, absent => []
  | _, present content => content.preorder
  | _, nil => []
  | _, cons head tail => head.preorder ++ tail.preorder
  | _, done => []
  | _, field value more => value.preorder ++ more.preorder

namespace Node

def children {f : Family} : Node f → List AnyNode
  | .node k fields _ => k.children (fun n => ⟨_, n⟩) fields.values

/-- Adds a node to those that have been seen. -/
def note {f : Family} (n : Node f) : StateM (List AnyNode) (Node f) := do
  modify fun seen => seen ++ [⟨f, n⟩]
  return n

/-- The children that can be replaced, in the order of their places. -/
def mutableChildren {f : Family} : Node f → List AnyNode
  | .node k fields _ => ((k.eachChild note fields.values).run []).2

/-- Passes a state through a node, and then through each of its children in the same way. -/
def accumulate {S : Type} {f : Family} (step : S → AnyNode → S) (t : Node f) : S → S :=
  Tree.foldWith (V := fun _ => S → S) (fun k fields mark inner st =>
    (k.children (fun pass => pass) inner).foldl (fun st pass => pass st)
      (step st ⟨k.place, .node k fields mark⟩)) t

end Node

namespace AnyNode

def children (n : AnyNode) : List AnyNode :=
  n.node.children

def mutableChildren (n : AnyNode) : List AnyNode :=
  n.node.mutableChildren

end AnyNode

end Unparse
