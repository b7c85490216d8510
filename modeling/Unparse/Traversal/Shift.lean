import Unparse.Traversal.Revision

/-! Moving recorded positions, for a tree that becomes part of a larger file. -/
namespace Unparse

structure Offset where
  lines : UInt32
  columns : UInt32
deriving DecidableEq, Repr

/-- The sum, or the greatest value if the sum does not fit. -/
def addCapped (a b : UInt32) : UInt32 :=
  if a.toNat + b.toNat < UInt32.size then a + b else UInt32.ofNat (UInt32.size - 1)

def Position.shift (o : Offset) (p : Position) : Position :=
  ⟨addCapped p.line o.lines, addCapped p.column o.columns⟩

/-- Shifts positions and counts them. -/
def Offset.reviser (o : Offset) : Reviser Nat where
  visit count n := (if n.position?.isSome then count + 1 else count, .proceed)
  position := Position.shift o

/-- The shifted tree, and how many positions were shifted. -/
def Node.adjust {f : Family} (o : Offset) (t : Node f) : Node f × Nat :=
  let (shifted, p) := t.revise o.reviser 0
  (shifted, p.state)

namespace Tree

/-- Changes every recorded position. -/
def mapPositions (change : Position → Position) : {s : Shape} → Tree s → Tree s
  | _, node k fields mark => node k (fields.mapPositions change) (mark.map change)
  | _, scalar value => scalar value
  | _, absent => absent
  | _, present content => present (content.mapPositions change)
  | _, nil => nil
  | _, cons head tail => cons (head.mapPositions change) (tail.mapPositions change)
  | _, done => done
  | _, field value more => field (value.mapPositions change) (more.mapPositions change)

def shift {s : Shape} (o : Offset) (t : Tree s) : Tree s :=
  t.mapPositions (Position.shift o)

end Tree

end Unparse
