import Unparse.Payload
import Unparse.Render.Draft
import Unparse.Tree

/-! What a node shows to the rule of the node around it: its draft, and the little
that some rules ask beyond it. -/
namespace Unparse

/-- A piece of an f-string: text that is still to be escaped, or code that stands as it is. -/
inductive Segment where
  | literal (text : String)
  | code (text : String)
deriving DecidableEq, Repr

inductive ExprForm where
  | plain
  | integer
  | string (text : String)
  | tuple (elements : List (Draft String))
  /-- A replacement field, as a part of an f-string. -/
  | field (segments : Draft (List Segment))
  /-- An f-string, as a part of another one. -/
  | joined (segments : Draft (List Segment))

structure ExprView where
  kind : Kind
  form : ExprForm
  text : Draft String

inductive StmtForm where
  | plain
  /-- A string that stands alone; its expression is of kind `value`. -/
  | docstring (value : Kind) (text : String)
  | futureImport
  /-- A try statement with handlers, as a part of one with a final block. -/
  | tryExcept (clauses : Draft Unit)

structure StmtView where
  kind : Kind
  form : StmtForm
  draft : Draft Unit

structure ArgView where
  name : String
  annotated : Bool
  /-- The text of the parameter, if it may be annotated or not. -/
  text : Bool → Draft String

/-- Operators show their kind. Handlers are drafted for plain or starred clauses, parameter
lists with annotations allowed or not. -/
abbrev View : Family → Type
  | .mod => Draft Unit
  | .stmt => StmtView
  | .expr | .slice => ExprView
  | .boolOp | .operator | .unaryOp | .cmpOp => Kind
  | .handler => Bool → Draft Unit
  | .pattern => Draft String
  | .typeParam => Draft String
  | .comprehension => Draft (List String)
  | .arguments => Bool → Draft String
  | .arg => ArgView
  | .keyword => Draft String
  | .importedName => Draft String
  | .withItem => Draft String
  | .matchCase => Draft Unit

namespace ExprView

/-- The view of an expression: its kind is demanded before anything else. -/
def formed (k : Kind) (form : ExprForm) (text : Draft String) : ExprView where
  kind := k
  form := form
  text := do
    Draft.demand k
    text

def plain (k : Kind) (text : Draft String) : ExprView :=
  formed k .plain text

/-- The texts of some expressions. -/
def texts (es : List ExprView) : Draft (List String) :=
  Draft.all (es.map text)

/-- The texts with a separator between them. -/
def joined (separator : String) (es : List ExprView) : Draft String :=
  return String.intercalate separator (← texts es)

/-- The text of an expression that may be absent, as a part of a list. -/
def part (lead : String) : Option ExprView → Draft (List String)
  | none => pure []
  | some e => return [lead ++ (← e.text)]

/-- The text of an expression that may be absent, after a lead-in. -/
def after (lead : String) : Option ExprView → Draft String
  | none => pure ""
  | some e => return lead ++ (← e.text)

end ExprView

end Unparse
