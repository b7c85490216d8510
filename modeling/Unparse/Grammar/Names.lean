import Unparse.Grammar.Kind

/-! Kinds and families by name, and what a dialect is known for. -/
namespace Unparse

/-- A name that the catalogue does not have. -/
inductive UnknownName where
  | kind (name : String)
  | family (name : String)
deriving DecidableEq, Repr

def UnknownName.message : UnknownName → String
  | kind name => "unknown node kind '" ++ name ++ "'"
  | family name => "unknown node family '" ++ name ++ "'"

def Kind.ofName (name : String) : Except UnknownName Kind :=
  match Kind.ofName? name with
  | some k => .ok k
  | none => .error (.kind name)

def Family.ofName (name : String) : Except UnknownName Family :=
  match Family.ofName? name with
  | some f => .ok f
  | none => .error (.family name)

namespace Dialect

def isPermissive (d : Dialect) : Bool :=
  d == .permissive

def hasPrintStatement (d : Dialect) : Bool :=
  d.supports .print

/-- One node for all the clauses of a try statement. -/
def hasUnifiedTry (d : Dialect) : Bool :=
  d.supports .tryBlock

def hasWithItems (d : Dialect) : Bool :=
  d.supports .withBlock

/-- One node kind for all literals. -/
def hasConstantLiterals (d : Dialect) : Bool :=
  d.supports .constant

def hasExceptionGroups (d : Dialect) : Bool :=
  d.supports .tryStar

def hasPatternMatching (d : Dialect) : Bool :=
  d.supports .matchBlock

def hasTypeParams (d : Dialect) : Bool :=
  d.supports .typeAlias

end Dialect

end Unparse
