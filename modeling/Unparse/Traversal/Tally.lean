import Unparse.Traversal.Listing

/-! What a traversal gathers: the names that a tree uses, and how many nodes of each
kind it has. -/
namespace Unparse

def Kind.identifier? : (k : Kind) → Tree k.shape → Option String
  | .nameExpr, .field (.scalar id) _ => some id
  | _, _ => none

/-- The identifier of a name expression. -/
def Node.identifier? {f : Family} : Node f → Option String
  | .node k fields _ => k.identifier? fields

def AnyNode.identifier? (n : AnyNode) : Option String :=
  n.node.identifier?

/-- Names in the order in which they were noted, with the set of them. -/
structure Vocabulary where
  names : List String := []
  seen : List String := []
  mem_seen : ∀ id, id ∈ seen ↔ id ∈ names := by simp

namespace Vocabulary

/-- A name is noted at its first occurrence only. -/
def insert (v : Vocabulary) (id : String) : Vocabulary :=
  if v.seen.contains id then v
  else ⟨v.names ++ [id], id :: v.seen, by simp [v.mem_seen, or_comm]⟩

def note (v : Vocabulary) (n : AnyNode) : Vocabulary :=
  match n.identifier? with
  | some id => v.insert id
  | none => v

end Vocabulary

/-- The identifiers in use, each once. -/
def Node.names {f : Family} (t : Node f) : List String :=
  (t.accumulate Vocabulary.note {}).names

/-- Counts of kinds in the order of the catalogue; a kind that does not occur has none. -/
abbrev Tally : Type :=
  List (Kind × Nat)

namespace Tally

def add (k : Kind) : Tally → Tally
  | [] => [(k, 1)]
  | (other, n) :: more =>
    if k = other then (other, n + 1) :: more
    else if k.ctorIdx < other.ctorIdx then (k, 1) :: (other, n) :: more
    else (other, n) :: add k more

def total (t : Tally) : Nat :=
  t.foldr (fun (_, n) rest => n + rest) 0

def insertByName (entry : Kind × Nat) : Tally → Tally
  | [] => [entry]
  | other :: more =>
    if entry.1.name ≤ other.1.name then entry :: other :: more
    else other :: insertByName entry more

/-- The counts by name of their kind. -/
def byName (t : Tally) : Tally :=
  t.foldr insertByName []

end Tally

def Node.tally {f : Family} (t : Node f) : Tally :=
  t.accumulate (fun tally n => tally.add n.kind) []

end Unparse
