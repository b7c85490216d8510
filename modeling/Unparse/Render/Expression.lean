import Unparse.Literal.Numeric
import Unparse.Render.View

/-! Expressions. Every operation stands in parentheses, so that the text says nothing
by precedence. -/
namespace Unparse.Render.Expression

def boolOp (op : Kind) (values : List ExprView) : ExprView :=
  .plain .boolOp do
    Draft.demand op
    Draft.refuse (values.length < 2) .boolOp .fewOperands
    return "(" ++ (← ExprView.joined (" " ++ op.token ++ " ") values) ++ ")"

def namedExpr (target value : ExprView) : ExprView :=
  .plain .namedExpr do
    return "(" ++ (← target.text) ++ " := " ++ (← value.text) ++ ")"

def binOp (left : ExprView) (op : Kind) (right : ExprView) : ExprView :=
  .plain .binOp do
    Draft.demand op
    return "(" ++ (← left.text) ++ " " ++ op.token ++ " " ++ (← right.text) ++ ")"

/-- Only a word needs a blank before its operand. -/
def unaryToken (op : Kind) : String :=
  if op = .not then op.token ++ " " else op.token

def unaryOp (op : Kind) (operand : ExprView) : ExprView :=
  .plain .unaryOp do
    Draft.demand op
    return "(" ++ unaryToken op ++ (← operand.text) ++ ")"

def lambda (args : Bool → Draft String) (body : ExprView) : ExprView :=
  .plain .lambda do
    let params ← args false
    let lead := if params.isEmpty then "(lambda: " else "(lambda " ++ params ++ ": "
    return lead ++ (← body.text) ++ ")"

def ifExp (test body orelse : ExprView) : ExprView :=
  .plain .ifExp do
    return "(" ++ (← body.text) ++ " if " ++ (← test.text) ++ " else " ++ (← orelse.text) ++ ")"

/-- A value without a key is a mapping to be unpacked. -/
def dictEntry (key : Option ExprView) (value : ExprView) : Draft String :=
  match key with
  | some k => return (← k.text) ++ ": " ++ (← value.text)
  | none => return "**" ++ (← value.text)

def braced (text : String) : String :=
  "\x7b" ++ text ++ "\x7d"

def dict (keys : List (Option ExprView)) (values : List ExprView) : ExprView :=
  .plain .dict do
    Draft.refuse (keys.length != values.length) .dict (.keysAndValues keys.length values.length)
    let entries ← Draft.all ((keys.zip values).map fun (k, v) => dictEntry k v)
    return braced (String.intercalate ", " entries)

/-- Empty braces would be a mapping. -/
def set (elements : List ExprView) : ExprView :=
  .plain .set do
    if elements.isEmpty then return "set()"
    return braced (← ExprView.joined ", " elements)

/-- The line of a clause, and one for each of its conditions. -/
def comprehension (target iter : ExprView) (conditions : List ExprView) (async : Bool) :
    Draft (List String) := do
  Draft.demand .comprehension
  let keyword := if async then "async for" else "for"
  let head := keyword ++ " " ++ (← target.text) ++ " in " ++ (← iter.text)
  let rest ← Draft.all (conditions.map fun c => return "if " ++ (← c.text))
  return head :: rest

/-- A comprehension has one line per clause and condition, and cannot do without a clause. -/
def comprehended (k : Kind) (left : String) (head : Draft String)
    (generators : List (Draft (List String))) (right : String) : ExprView :=
  .plain k do
    let text ← head
    Draft.refuse generators.isEmpty k .noGenerators
    let lines := (← Draft.all generators).flatten
    return left ++ " " ++ text ++ String.join (lines.map ("\n  " ++ ·)) ++ " " ++ right

def keyed (key value : ExprView) : Draft String :=
  return (← key.text) ++ ": " ++ (← value.text)

def await (value : ExprView) : ExprView :=
  .plain .await do return "(await " ++ (← value.text) ++ ")"

def yield (value : Option ExprView) : ExprView :=
  .plain .yield do return "(yield" ++ (← ExprView.after " " value) ++ ")"

def yieldFrom (value : ExprView) : ExprView :=
  .plain .yieldFrom do return "(yield from " ++ (← value.text) ++ ")"

def comparison (op : Kind) (comparator : ExprView) : Draft String := do
  Draft.demand op
  return " " ++ op.token ++ " " ++ (← comparator.text)

def compare (left : ExprView) (ops : List Kind) (comparators : List ExprView) : ExprView :=
  .plain .compare do
    Draft.refuse ops.isEmpty .compare .noComparisons
    Draft.refuse (ops.length != comparators.length) .compare
      (.operatorsAndComparators ops.length comparators.length)
    let first ← left.text
    let rest ← Draft.all ((ops.zip comparators).map fun (op, c) => comparison op c)
    return "(" ++ first ++ String.join rest ++ ")"

/-- A keyword argument without a name is a mapping to be unpacked. -/
def keyword (name : Option String) (value : ExprView) : Draft String := do
  Draft.demand .keyword
  let text ← value.text
  return match name with
    | some n => n ++ "=" ++ text
    | none => "**" ++ text

/-- The arguments are rendered before what is called. -/
def call (func : ExprView) (args : List ExprView) (keywords : List (Draft String))
    (starargs kwargs : Option ExprView) : ExprView :=
  .plain .call do
    let positional ← ExprView.texts args
    let named ← Draft.all keywords
    let star ← ExprView.part "*" starargs
    let doubleStar ← ExprView.part "**" kwargs
    let callee ← func.text
    let parts := positional ++ named ++ star ++ doubleStar
    return callee ++ "(" ++ String.intercalate ", " parts ++ ")"

def repr (value : ExprView) : ExprView :=
  .plain .repr do return "\x60" ++ (← value.text) ++ "\x60"

def constantForm : Constant → ExprForm
  | .int _ => .integer
  | .str s => .string s
  | _ => .plain

def constant (value : Constant) : ExprView :=
  .formed .constant (constantForm value) (pure (Literal.constant value))

def numberForm : Number → ExprForm
  | .int _ => .integer
  | _ => .plain

def num (n : Number) : ExprView :=
  .formed .num (numberForm n) (pure (Literal.number n))

def str (s : String) : ExprView :=
  .formed .str (.string s) (pure (Literal.string s))

def bytes (bs : List UInt8) : ExprView :=
  .plain .bytes (pure (Literal.bytes bs))

def nameConstant (value : Singleton) : ExprView :=
  .plain .nameConstant (pure value.text)

def ellipsis : ExprView :=
  .plain .ellipsis (pure "...")

/-- A point right after the digits of an integer would read as a fraction. -/
def attributeBase (form : ExprForm) (text : String) : String :=
  match form with
  | .integer => if Text.startsWith text "(" then text else "(" ++ text ++ ")"
  | _ => text

def attributeOf (value : ExprView) (attr : String) : ExprView :=
  .plain .attribute do
    return attributeBase value.form (← value.text) ++ "." ++ attr

/-- A single element keeps a comma. -/
def commaList : List String → String
  | [single] => single ++ ","
  | parts => String.intercalate ", " parts

/-- The elements of a tuple stand bare between brackets, unless there are none. -/
def subscriptText (slice : ExprView) : Draft String :=
  match slice.form with
  | .tuple [] => slice.text
  | .tuple elements => do
    Draft.demand .tuple
    return commaList (← Draft.all elements)
  | _ => slice.text

/-- The slice is rendered before what it is taken of. -/
def subscript (value slice : ExprView) : ExprView :=
  .plain .subscript do
    let inner ← subscriptText slice
    return (← value.text) ++ "[" ++ inner ++ "]"

def starred (value : ExprView) : ExprView :=
  .plain .starred do return "*" ++ (← value.text)

def name (id : String) : ExprView :=
  .plain .nameExpr (pure id)

def list (elements : List ExprView) : ExprView :=
  .plain .list do return "[" ++ (← ExprView.joined ", " elements) ++ "]"

def tuple (elements : List ExprView) : ExprView :=
  .formed .tuple (.tuple (elements.map ExprView.text)) do
    return "(" ++ commaList (← ExprView.texts elements) ++ ")"

def slice (lower upper step : Option ExprView) : ExprView :=
  .plain .slice do
    return (← ExprView.after "" lower) ++ ":" ++ (← ExprView.after "" upper)
      ++ (← ExprView.after ":" step)

def index (value : ExprView) : ExprView :=
  .plain .index value.text

def extSlice (dims : List ExprView) : ExprView :=
  .plain .extSlice do
    Draft.refuse dims.isEmpty .extSlice .noDimensions
    return commaList (← ExprView.texts dims)

end Unparse.Render.Expression
