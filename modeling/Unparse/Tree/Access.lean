import Unparse.Tree

/-! Questions to single nodes. -/
namespace Unparse

/-- An absolute import from `__future__`. -/
def isFuture (source : Option String) (level : UInt32) : Bool :=
  source == some "__future__" && level == 0

namespace Kind

/-- The block of a root, a handler or a case; a root that is an expression has none. -/
def block? : (k : Kind) → Tree k.shape → Option (List (Node .stmt))
  | .module, fields => some fields.values.1
  | .interactive, fields => some fields.values.1
  | .suite, fields => some fields.values.1
  | .exceptHandler, fields => some fields.values.2.2.1
  | .legacyExceptHandler, fields => some fields.values.2.2.1
  | .matchCase, fields => some fields.values.2.2.1
  | _, _ => none

def isFutureImport : (k : Kind) → Tree k.shape → Bool
  | .importFrom, fields => isFuture fields.values.1 fields.values.2.2.1
  | _, _ => false

/-- The type of exception that a handler is for. -/
def caught? : (k : Kind) → Tree k.shape → Option (Node .expr)
  | .exceptHandler, fields => fields.values.1
  | .legacyExceptHandler, fields => fields.values.1
  | _, _ => none

/-- The name of a type parameter. -/
def parameterName? : (k : Kind) → Tree k.shape → Option String
  | .typeVar, fields => some fields.values.1
  | .paramSpec, fields => some fields.values.1
  | .typeVarTuple, fields => some fields.values.1
  | _, _ => none

end Kind

namespace Node

def block? {f : Family} : Node f → Option (List (Node .stmt))
  | .node k fields _ => k.block? fields

def isFutureImport {f : Family} : Node f → Bool
  | .node k fields _ => k.isFutureImport fields

def caught? {f : Family} : Node f → Option (Node .expr)
  | .node k fields _ => k.caught? fields

def parameterName? {f : Family} : Node f → Option String
  | .node k fields _ => k.parameterName? fields

end Node

end Unparse
