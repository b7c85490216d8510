import Unparse.Grammar.Kind

/-! The index of a dialect: its kinds as a classification tree of three levels. The
root holds the abstract families, each of which holds its kinds; kinds that are a
family of their own stand directly below the root. -/
namespace Unparse

/-- A classification tree. -/
inductive Index.Item where
  | group (name : String) (members : List Item)
  | leaf (k : Kind)
deriving Repr

namespace Index.Item

def name : Item → String
  | group name _ => name
  | leaf k => k.name

def isLeaf : Item → Bool
  | group .. => false
  | leaf _ => true

def children : Item → List Item
  | group _ members => members
  | leaf _ => []

def fields : Item → List String
  | group .. => []
  | leaf k => k.fields

mutual

/-- The kinds in a tree, from left to right. -/
def leaves : Item → List Kind
  | group _ members => leavesAmong members
  | leaf k => [k]

def leavesAmong : List Item → List Kind
  | [] => []
  | item :: more => item.leaves ++ leavesAmong more

end

mutual

/-- The first item of a name, where every item comes before those below it. -/
def find? (name : String) : Item → Option Item
  | group label members =>
    if label == name then some (group label members) else findAmong? name members
  | leaf k => if k.name == name then some (leaf k) else none

def findAmong? (name : String) : List Item → Option Item
  | [] => none
  | item :: more => (item.find? name).or (findAmong? name more)

end

end Index.Item

structure Index where
  dialect : Dialect
  root : Index.Item
deriving Repr

namespace Index

/-- What stands below the root for a family: nothing if the dialect has none of its kinds. -/
def entries (d : Dialect) (f : Family) : List Item :=
  let leaves := (f.kinds.filter d.supports).map Item.leaf
  if leaves.isEmpty then []
  else if f.isAbstract then [.group f.name leaves]
  else leaves

def build (d : Dialect) : Index :=
  ⟨d, .group "AST" (Family.all.flatMap (entries d))⟩

def leaves (i : Index) : List Kind :=
  i.root.leaves

def leavesOf (i : Index) (f : Family) : List Kind :=
  i.leaves.filter (·.family == f)

def lookup (i : Index) (name : String) : Option Item :=
  i.root.find? name

def contains (i : Index) (name : String) : Bool :=
  (i.lookup name).isSome

def fields (i : Index) (name : String) : Option (List String) :=
  (i.lookup name).map Item.fields

/-- The families of which the dialect has a kind. -/
def families (i : Index) : List Family :=
  Family.all.filter fun f => f.kinds.any i.dialect.supports

def size (i : Index) : Nat :=
  i.leaves.length

def isEmpty (i : Index) : Bool :=
  i.root.children.isEmpty

end Index

end Unparse
