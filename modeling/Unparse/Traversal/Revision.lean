import Unparse.Traversal.Walk

/-! Walks that change a tree in place. A reviser is called on every node but the operators,
before its children, and changes what the node itself holds. -/
namespace Unparse

/-- Changes a value if it is a text. -/
def Scalar.mapText (change : String → String) : (a : Scalar) → a.Carrier → a.Carrier
  | .text, value => change value
  | _, value => value

/-- Changes the texts that stand directly in these fields, and none inside of a node. -/
def Tree.mapTexts (change : String → String) : {s : Shape} → Tree s → Tree s
  | _, node k fields mark => node k fields mark
  | _, @scalar a value => scalar (a.mapText change value)
  | _, absent => absent
  | _, present content => present (content.mapTexts change)
  | _, nil => nil
  | _, cons head tail => cons (head.mapTexts change) (tail.mapTexts change)
  | _, done => done
  | _, field value more => field (value.mapTexts change) (more.mapTexts change)

/-- A visitor that changes the texts and the position of each node that it enters. -/
structure Reviser (S : Type) where
  visit : S → AnyNode → S × Control
  text : Kind → String → String := fun _ s => s
  position : Position → Position := fun p => p

/-- A revision under way. -/
structure Progress (S : Type) where
  state : S
  stopped : Bool
deriving Repr

/-- A revision ends by stopping or by running out of nodes. -/
def Progress.result {S : Type} (p : Progress S) : Control :=
  if p.stopped then .stop else .proceed

/-- A node in its place, and how it is to be revised. -/
structure Handle (S : Type) (f : Family) where
  node : Node f
  revise : S → Node f × Progress S

/-- Revises a node in its place. After a stop it stays as it is. -/
def Handle.enter {S : Type} {f : Family} (h : Handle S f) :
    StateM (Progress S) (Handle S f) := fun p =>
  if p.stopped then (h, p)
  else
    let (node, p) := h.revise p.state
    ({ h with node := node }, p)

namespace Reviser

variable {S : Type} (r : Reviser S)

/-- The node of a kind with the changes that the reviser makes to it. -/
def revised (k : Kind) (fields : Tree k.shape) (mark : Mark k.place) : Node k.place :=
  .node k (fields.mapTexts (r.text k)) (mark.map r.position)

/-- How a node is revised, given how its children are. -/
def around (k : Kind) (fields : Tree k.shape) (mark : Mark k.place)
    (inner : Value (Handle S) k.shape) : Handle S k.place where
  node := .node k fields mark
  revise st :=
    match r.visit st ⟨k.place, .node k fields mark⟩ with
    | (st, .stop) => (r.revised k fields mark, ⟨st, true⟩)
    | (st, .skip) => (r.revised k fields mark, ⟨st, false⟩)
    | (st, .proceed) =>
      let (inner, p) := (k.eachChild Handle.enter inner).run ⟨st, false⟩
      let fields := Tree.ofValue k.shape (Value.mapNodes (fun _ => Handle.node) k.shape inner)
      (r.revised k fields mark, p)

end Reviser

namespace Node

variable {S : Type} {f : Family}

def handle (r : Reviser S) (t : Node f) : Handle S f :=
  Tree.foldWith r.around t

/-- Revises a node and what lies inside of it. An operator has no place of its own. -/
def revise (r : Reviser S) (start : S) (t : Node f) : Node f × Progress S :=
  if t.kind.isOperator then (t, ⟨start, false⟩) else (t.handle r).revise start

end Node

/-- Appends `suffix` to the identifiers of name expressions. -/
def renameText (suffix : String) (k : Kind) (s : String) : String :=
  if k = .nameExpr then s ++ suffix else s

end Unparse
