import Unparse.Grammar.Layout
import Unparse.Payload

/-! Syntax trees. One family of types, indexed by shape, holds nodes and everything
inside them, so that a node has exactly the fields of its kind and each function on
trees has one case per shape and none per kind. -/
namespace Unparse

/-- Where a node stood in the source: lines count from one, columns from zero. -/
structure Position where
  line : UInt32
  column : UInt32
deriving DecidableEq, Repr

/-- The recorded position of a node; only some families have room for one. -/
inductive Mark (f : Family) where
  | none
  | at (position : Position) (positioned : f.isPositioned = true)
deriving DecidableEq, Repr

namespace Mark

def position? {f : Family} : Mark f → Option Position
  | none => Option.none
  | .at p _ => some p

/-- A family without room for a position records none. -/
def ofPosition (f : Family) : Option Position → Mark f
  | Option.none => none
  | some p => if h : f.isPositioned = true then .at p h else none

def map {f : Family} (change : Position → Position) : Mark f → Mark f
  | none => none
  | .at p h => .at (change p) h

theorem eq_none {k : Kind} (hoperator : k.isOperator = true) (mark : Mark k.place) :
    mark = none := by
  cases mark with
  | none => rfl
  | «at» p hpositioned =>
    rw [Kind.isPositioned_of_isOperator hoperator] at hpositioned
    cases hpositioned

end Mark

inductive Tree : Shape → Type where
  | node (kind : Kind) (fields : Tree kind.shape) (mark : Mark kind.place) : Tree (.node kind.place)
  | scalar {a : Scalar} (value : a.Carrier) : Tree (.scalar a)
  | absent {s : Shape} : Tree (.option s)
  | present {s : Shape} (content : Tree s) : Tree (.option s)
  | nil {s : Shape} : Tree (.list s)
  | cons {s : Shape} (head : Tree s) (tail : Tree (.list s)) : Tree (.list s)
  | done : Tree .done
  | field {name : String} {presence : Presence} {s rest : Shape}
      (value : Tree s) (more : Tree rest) : Tree (.field name presence s rest)

/-- A node that may stand where the family is asked for. -/
abbrev Node (f : Family) : Type :=
  Tree (.node f)

/-- What a tree of a shape becomes when each of its nodes has become a value of `V`. -/
abbrev Value (V : Family → Type) : Shape → Type
  | .node f => V f
  | .scalar a => a.Carrier
  | .option s => Option (Value V s)
  | .list s => List (Value V s)
  | .done => Unit
  | .field _ _ s rest => Value V s × Value V rest

/-- Changes the nodes in a record of values. -/
def Value.mapNodes {V W : Family → Type} (g : (f : Family) → V f → W f) :
    (s : Shape) → Value V s → Value W s
  | .node f, v => g f v
  | .scalar _, v => v
  | .option s, v => Option.map (Value.mapNodes g s) v
  | .list s, vs => List.map (Value.mapNodes g s) vs
  | .done, _ => ()
  | .field _ _ s rest, v => (Value.mapNodes g s v.1, Value.mapNodes g rest v.2)

namespace Tree

/-- Computes from the leaves up: `rule` says what a node of a kind becomes, given what its
fields have become. -/
def fold {V : Family → Type}
    (rule : (k : Kind) → Value V k.shape → Mark k.place → V k.place) :
    {s : Shape} → Tree s → Value V s
  | _, node k fields mark => rule k (fold rule fields) mark
  | _, scalar value => value
  | _, absent => none
  | _, present content => some (fold rule content)
  | _, nil => []
  | _, cons head tail => fold rule head :: fold rule tail
  | _, done => ()
  | _, field value more => (fold rule value, fold rule more)

/-- Computes as `fold` does, by a rule that is also given the fields themselves. -/
def foldWith {V : Family → Type}
    (rule : (k : Kind) → Tree k.shape → Mark k.place → Value V k.shape → V k.place) :
    {s : Shape} → Tree s → Value V s
  | _, node k fields mark => rule k fields mark (fields.foldWith rule)
  | _, scalar value => value
  | _, absent => none
  | _, present content => some (content.foldWith rule)
  | _, nil => []
  | _, cons head tail => head.foldWith rule :: tail.foldWith rule
  | _, done => ()
  | _, field value more => (value.foldWith rule, more.foldWith rule)

/-- The fields of a record as a tuple. -/
def values : {s : Shape} → Tree s → Value Node s
  | _, node k fields mark => node k fields mark
  | _, scalar value => value
  | _, absent => none
  | _, present content => some content.values
  | _, nil => []
  | _, cons head tail => head.values :: tail.values
  | _, done => ()
  | _, field value more => (value.values, more.values)

def ofValue : (s : Shape) → Value Node s → Tree s
  | .node _, t => t
  | .scalar _, v => scalar v
  | .option _, none => absent
  | .option s, some v => present (ofValue s v)
  | .list s, vs => vs.foldr (fun v t => cons (ofValue s v) t) nil
  | .done, _ => done
  | .field _ _ s rest, (v, more) => field (ofValue s v) (ofValue rest more)

end Tree

namespace Node

/-- The node of a kind with the given fields and no recorded position. -/
def of (k : Kind) (fields : Value Node k.shape) : Node k.place :=
  .node k (Tree.ofValue k.shape fields) .none

def kind {f : Family} : Node f → Kind
  | .node k _ _ => k

def position? {f : Family} : Node f → Option Position
  | .node _ _ mark => mark.position?

/-- Records a position; a node without room for one stays as it is. -/
def withPosition {f : Family} (p : Position) : Node f → Node f
  | .node k fields _ => .node k fields (Mark.ofPosition k.place (some p))

end Node

end Unparse
