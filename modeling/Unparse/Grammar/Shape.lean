/-! Families of nodes and the shapes of what a node holds. A record of fields is
itself a shape, with the name of each field and the rule for leaving it out. -/
namespace Unparse

/-- An abstract group of node kinds. -/
inductive Family where
  | mod | stmt | expr | slice | boolOp | operator | unaryOp | cmpOp | handler | pattern | typeParam
  | comprehension | arguments | arg | keyword | importedName | withItem | matchCase
deriving DecidableEq, Repr

namespace Family

def all : List Family :=
  [.mod, .stmt, .expr, .slice, .boolOp, .operator, .unaryOp, .cmpOp, .handler, .pattern, .typeParam,
    .comprehension, .arguments, .arg, .keyword, .importedName, .withItem, .matchCase]

def name : Family → String
  | mod => "mod"
  | stmt => "stmt"
  | expr => "expr"
  | slice => "slice"
  | boolOp => "boolop"
  | operator => "operator"
  | unaryOp => "unaryop"
  | cmpOp => "cmpop"
  | handler => "excepthandler"
  | pattern => "pattern"
  | typeParam => "type_param"
  | comprehension => "comprehension"
  | arguments => "arguments"
  | arg => "arg"
  | keyword => "keyword"
  | importedName => "alias"
  | withItem => "withitem"
  | matchCase => "match_case"

def ofName? (name : String) : Option Family :=
  all.find? (·.name == name)

/-- Families with several kinds; each other family has one kind of the family's own name. -/
def isAbstract : Family → Bool
  | mod | stmt | expr | slice | boolOp | operator | unaryOp | cmpOp | handler | pattern
  | typeParam => true
  | comprehension | arguments | arg | keyword | importedName | withItem | matchCase => false

def isOperator : Family → Bool
  | boolOp | operator | unaryOp | cmpOp => true
  | _ => false

/-- Whether nodes of the family may record where they stood in the source. -/
def isPositioned : Family → Bool
  | stmt | expr | slice | handler | pattern | typeParam | arg => true
  | _ => false

end Family

/-- The sorts of values that are not nodes. A flag carries its default. -/
inductive Scalar where
  | text | flag (default : Bool) | level | byte | number | constant | singleton | conversion
deriving DecidableEq, Repr

/-- When a field may be missing from a written record, and when it is left out.
A `stated` field is always written; if it holds an option it may be missing from an object.
A `defaulted` field is always written and may always be missing.
An `elided` field may always be missing, and is left out when it is empty. -/
inductive Presence where
  | stated | defaulted | elided
deriving DecidableEq, Repr

inductive Shape where
  | node (family : Family)
  | scalar (sort : Scalar)
  | option (shape : Shape)
  | list (shape : Shape)
  | done
  | field (name : String) (presence : Presence) (shape rest : Shape)
deriving DecidableEq, Repr

structure Field where
  name : String
  presence : Presence
  shape : Shape
deriving DecidableEq, Repr

namespace Shape

def record : List Field → Shape
  | [] => done
  | f :: more => field f.name f.presence f.shape (record more)

/-- The fields of a record, in order; other shapes have none. -/
def fields : Shape → List Field
  | field name presence shape rest => ⟨name, presence, shape⟩ :: rest.fields
  | _ => []

def fieldNames (s : Shape) : List String :=
  s.fields.map Field.name

@[simp] theorem fields_record (fs : List Field) : (record fs).fields = fs := by
  induction fs with
  | nil => rfl
  | cons f more ih => simp [record, fields, ih]

end Shape

end Unparse
