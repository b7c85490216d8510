import Unparse.Tree

/-! Constructors for the trees that programs make by hand. What they build has no
recorded position. -/
namespace Unparse

namespace Expr

def name (id : String) : Node .expr :=
  .of .nameExpr (id, ())

def constant (value : Constant) : Node .expr :=
  .of .constant (value, ())

def int (i : Int) : Node .expr :=
  constant (.int i)

def float (x : Binary64) : Node .expr :=
  constant (.float x)

def str (s : String) : Node .expr :=
  constant (.str s)

def bool (b : Bool) : Node .expr :=
  constant (.bool b)

def none : Node .expr :=
  constant .none

/-- A number of the dialects before there were constants. -/
def legacyNum (n : Number) : Node .expr :=
  .of .num (n, ())

def legacyStr (s : String) : Node .expr :=
  .of .str (s, ())

def attributeOf (value : Node .expr) (attr : String) : Node .expr :=
  .of .attribute (value, attr, ())

def keyword (name : String) (value : Node .expr) : Node .keyword :=
  .of .keyword (some name, value, ())

def callWithKeywords (func : Node .expr) (args : List (Node .expr))
    (keywords : List (Node .keyword)) : Node .expr :=
  .of .call (func, args, keywords, Option.none, Option.none, ())

def call (func : Node .expr) (args : List (Node .expr)) : Node .expr :=
  callWithKeywords func args []

/-- A comparison by one operator. -/
def compare (left : Node .expr) (op : Node .cmpOp) (right : Node .expr) : Node .expr :=
  .of .compare (left, [op], [right], ())

def binOp (left : Node .expr) (op : Node .operator) (right : Node .expr) : Node .expr :=
  .of .binOp (left, op, right, ())

def boolOp (op : Node .boolOp) (values : List (Node .expr)) : Node .expr :=
  .of .boolOp (op, values, ())

def unaryOp (op : Node .unaryOp) (operand : Node .expr) : Node .expr :=
  .of .unaryOp (op, operand, ())

def tuple (elements : List (Node .expr)) : Node .expr :=
  .of .tuple (elements, ())

def list (elements : List (Node .expr)) : Node .expr :=
  .of .list (elements, ())

def subscript (value slice : Node .expr) : Node .expr :=
  .of .subscript (value, slice, ())

def starred (value : Node .expr) : Node .expr :=
  .of .starred (value, ())

def comprehension (target iter : Node .expr) (conditions : List (Node .expr)) :
    Node .comprehension :=
  .of .comprehension (target, iter, conditions, false, ())

def listComp (element : Node .expr) (generators : List (Node .comprehension)) : Node .expr :=
  .of .listComp (element, generators, ())

end Expr

namespace Stmt

def expr (value : Node .expr) : Node .stmt :=
  .of .exprStmt (value, ())

def assign (targets : List (Node .expr)) (value : Node .expr) : Node .stmt :=
  .of .assign (targets, value, ())

def returns (value : Option (Node .expr)) : Node .stmt :=
  .of .returnStmt (value, ())

def pass : Node .stmt :=
  .of .pass ()

def assert (test : Node .expr) (message : Option (Node .expr)) : Node .stmt :=
  .of .assert (test, message, ())

def conditional (test : Node .expr) (body orelse : List (Node .stmt)) : Node .stmt :=
  .of .conditional (test, body, orelse, ())

def whileLoop (test : Node .expr) (body : List (Node .stmt)) : Node .stmt :=
  .of .whileLoop (test, body, [], ())

def forLoop (target iter : Node .expr) (body : List (Node .stmt)) : Node .stmt :=
  .of .forLoop (target, iter, body, [], ())

def importedName (name : String) (asname : Option String) : Node .importedName :=
  .of .importedName (name, asname, ())

def importNames (names : List (Node .importedName)) : Node .stmt :=
  .of .importNames (names, ())

def importFrom (source : String) (names : List (Node .importedName)) : Node .stmt :=
  .of .importFrom (some source, names, (0 : UInt32), ())

def arg (name : String) : Node .arg :=
  .of .arg (name, none, ())

/-- Positional parameters without defaults. -/
def positional (names : List String) : Node .arguments :=
  .of .arguments ([], names.map arg, none, [], [], none, [], ())

def functionDef (name : String) (args : Node .arguments) (body : List (Node .stmt)) :
    Node .stmt :=
  .of .functionDef (name, args, body, [], none, [], ())

def classDef (name : String) (bases : List (Node .expr)) (body : List (Node .stmt)) :
    Node .stmt :=
  .of .classDef (name, bases, [], body, [], [], ())

def withItem (context : Node .expr) (vars : Option (Node .expr)) : Node .withItem :=
  .of .withItem (context, vars, ())

def withBlock (items : List (Node .withItem)) (body : List (Node .stmt)) : Node .stmt :=
  .of .withBlock (items, body, ())

def matchCase (pattern : Node .pattern) (guard : Option (Node .expr))
    (body : List (Node .stmt)) : Node .matchCase :=
  .of .matchCase (pattern, guard, body, ())

def matchBlock (subject : Node .expr) (cases : List (Node .matchCase)) : Node .stmt :=
  .of .matchBlock (subject, cases, ())

/-- A type variable without a bound. -/
def typeVar (name : String) : Node .typeParam :=
  .of .typeVar (name, none, ())

def typeAlias (name : Node .expr) (params : List (Node .typeParam)) (value : Node .expr) :
    Node .stmt :=
  .of .typeAlias (name, params, value, ())

def module (body : List (Node .stmt)) : Node .mod :=
  .of .module (body, ())

end Stmt

namespace Pattern

/-- Matches anything and gives it a name. -/
def capture (name : String) : Node .pattern :=
  .of .matchAs (none, some name, ())

def wildcard : Node .pattern :=
  .of .matchAs (none, none, ())

def value (e : Node .expr) : Node .pattern :=
  .of .matchValue (e, ())

def sequence (patterns : List (Node .pattern)) : Node .pattern :=
  .of .matchSequence (patterns, ())

def anyOf (patterns : List (Node .pattern)) : Node .pattern :=
  .of .matchOr (patterns, ())

end Pattern

end Unparse
