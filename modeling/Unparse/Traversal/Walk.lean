import Unparse.Traversal.Listing

/-! Walks. A visitor is called on every node twice, before and after its children, and may
leave out the children or end the walk. -/
namespace Unparse

/-- What a visitor decides on entering a node. -/
inductive Control where
  | proceed | skip | stop
deriving DecidableEq, Repr

structure Visitor (S : Type) where
  visit : S → AnyNode → S × Control
  leave : S → AnyNode → S

namespace Visitor

variable {S : Type}

/-- A visitor that does nothing. -/
def idle : Visitor Unit where
  visit st _ := (st, .proceed)
  leave st _ := st

/-- One walk after the other, until one of them is stopped. -/
def inTurn : List (S → S × Control) → S → S × Control
  | [], st => (st, .proceed)
  | walk :: more, st =>
    match walk st with
    | (st, .stop) => (st, .stop)
    | (st, _) => inTurn more st

/-- The walk of a node, given the walks of its children. A node whose children are skipped is
still left; after a stop nothing happens any more. -/
def around (v : Visitor S) (n : AnyNode) (inner : List (S → S × Control)) (st : S) :
    S × Control :=
  match v.visit st n with
  | (st, .stop) => (st, .stop)
  | (st, .skip) => (v.leave st n, .proceed)
  | (st, .proceed) =>
    match inTurn inner st with
    | (st, .stop) => (st, .stop)
    | (st, _) => (v.leave st n, .proceed)

end Visitor

/-- The state of the visitor at the end of a walk, and how the walk ended. -/
def Node.walk {S : Type} {f : Family} (v : Visitor S) (t : Node f) : S → S × Control :=
  Tree.foldWith (V := fun _ => S → S × Control) (fun k fields mark inner =>
    v.around ⟨k.place, .node k fields mark⟩ (k.children (fun walk => walk) inner)) t

/-- What happens to a visitor. -/
inductive Event where
  | visit (node : AnyNode)
  | leave (node : AnyNode)

namespace Event

def isVisit : Event → Bool
  | visit _ => true
  | leave _ => false

/-- The number of visits among the events. -/
def visits (events : List Event) : Nat :=
  events.countP isVisit

end Event

/-- Decides on a node by what has happened before, the first event first. -/
abbrev Strategy : Type :=
  List Event → AnyNode → Control

/-- A visitor that keeps the events in mind. -/
def Strategy.visitor (strategy : Strategy) : Visitor (List Event) where
  visit past n := (past ++ [.visit n], strategy past n)
  leave past n := past ++ [.leave n]

/-- The events of a walk, and how it ended. -/
def Node.trace {f : Family} (strategy : Strategy) (t : Node f) : List Event × Control :=
  t.walk strategy.visitor []

end Unparse
