import Unparse.Traversal.Revision

/-! Walks that follow a fixed plan. -/
namespace Unparse

/-- Kinds to skip, kinds to stop at, and a number of visits to stop after. -/
structure Itinerary where
  skip : List String := []
  stop : List String := []
  stopAt : Option Nat := none
deriving DecidableEq, Repr

/-- The decision at the `visits`-th visit. -/
def Itinerary.control (plan : Itinerary) (visits : Nat) (k : Kind) : Control :=
  if plan.stop.contains k.name || plan.stopAt == some visits then .stop
  else if plan.skip.contains k.name then .skip
  else .proceed

def Itinerary.strategy (plan : Itinerary) : Strategy := fun past n =>
  plan.control (Event.visits past + 1) n.kind

/-- Decides by the kinds of the nodes that have been entered, the last of which is the one at
hand. -/
def Itinerary.decide (plan : Itinerary) (kinds : List Kind) : Control :=
  match kinds.getLast? with
  | some k => plan.control kinds.length k
  | none => .proceed

/-- Renames and takes note of the nodes that it enters, and decides by their kinds. -/
def renamer (decide : List Kind → Control) (suffix : String) : Reviser (List AnyNode) where
  visit seen n := (seen ++ [n], decide ((seen ++ [n]).map AnyNode.kind))
  text := renameText suffix

namespace Node

variable {f : Family}

/-- The renamed tree, the nodes entered in order, and how the walk ended. -/
def renameBy (decide : List Kind → Control) (suffix : String) (t : Node f) :
    Node f × List AnyNode × Control :=
  let (revised, p) := t.revise (renamer decide suffix) []
  (revised, p.state, p.result)

/-- Renames as planned. Of the nodes entered only the kinds are given. -/
def rename (plan : Itinerary) (suffix : String) (t : Node f) : Node f × List Kind × Control :=
  let (revised, entered, control) := t.renameBy plan.decide suffix
  (revised, entered.map AnyNode.kind, control)

end Node

end Unparse
