import Unparse.Dialect
import Unparse.Grammar.Shape

/-! The catalogue of node kinds: one row per kind with its name, its family, the versions
that have it, and the names of its fields. What the fields hold is not said here. -/
namespace Unparse

/-- A concrete node kind. -/
inductive Kind where
  | module | interactive | expression | suite
  | functionDef | asyncFunctionDef | classDef | returnStmt | delete | assign | augAssign
  | annAssign | print | forLoop | asyncFor | whileLoop | conditional | withBlock | asyncWith
  | legacyWith | raise | legacyRaise | tryBlock | tryStar | tryExcept | tryFinally | assert
  | importNames | importFrom | exec | matchBlock | typeAlias | global | nonlocal | exprStmt
  | pass | breakLoop | continueLoop
  | boolOp | namedExpr | binOp | unaryOp | lambda | ifExp | dict | set | listComp | setComp
  | dictComp | generatorExp | await | yield | yieldFrom | compare | call | repr | formattedValue
  | joinedStr | constant | num | str | bytes | nameConstant | ellipsis | attribute | subscript
  | starred | nameExpr | list | tuple
  | slice | index | extSlice
  | and | or
  | add | sub | mult | matMult | div | mod | pow | lShift | rShift | bitOr | bitXor | bitAnd
  | floorDiv
  | invert | not | uAdd | uSub
  | eq | notEq | lt | ltE | gt | gtE | is | isNot | isIn | notIn
  | exceptHandler | legacyExceptHandler
  | matchValue | matchSingleton | matchSequence | matchMapping | matchClass | matchStar | matchAs
  | matchOr
  | typeVar | paramSpec | typeVarTuple
  | comprehension
  | arguments
  | arg
  | keyword
  | importedName
  | withItem
  | matchCase
deriving DecidableEq, Repr

namespace Kind

def all : List Kind :=
  [.module, .interactive, .expression, .suite, .functionDef, .asyncFunctionDef, .classDef,
    .returnStmt, .delete, .assign, .augAssign, .annAssign, .print, .forLoop, .asyncFor,
    .whileLoop, .conditional, .withBlock, .asyncWith, .legacyWith, .raise, .legacyRaise,
    .tryBlock, .tryStar, .tryExcept, .tryFinally, .assert, .importNames, .importFrom, .exec,
    .matchBlock, .typeAlias, .global, .nonlocal, .exprStmt, .pass, .breakLoop, .continueLoop,
    .boolOp, .namedExpr, .binOp, .unaryOp, .lambda, .ifExp, .dict, .set, .listComp, .setComp,
    .dictComp, .generatorExp, .await, .yield, .yieldFrom, .compare, .call, .repr,
    .formattedValue, .joinedStr, .constant, .num, .str, .bytes, .nameConstant, .ellipsis,
    .attribute, .subscript, .starred, .nameExpr, .list, .tuple, .slice, .index, .extSlice, .and,
    .or, .add, .sub, .mult, .matMult, .div, .mod, .pow, .lShift, .rShift, .bitOr, .bitXor,
    .bitAnd, .floorDiv, .invert, .not, .uAdd, .uSub, .eq, .notEq, .lt, .ltE, .gt, .gtE, .is,
    .isNot, .isIn, .notIn, .exceptHandler, .legacyExceptHandler, .matchValue, .matchSingleton,
    .matchSequence, .matchMapping, .matchClass, .matchStar, .matchAs, .matchOr, .typeVar,
    .paramSpec, .typeVarTuple, .comprehension, .arguments, .arg, .keyword, .importedName, .withItem,
    .matchCase]

/-- A row of the catalogue. -/
structure Entry where
  name : String
  family : Family
  availability : Availability
  fields : List String

def since (major minor : Nat) : Availability :=
  ⟨⟨major, minor⟩, none⟩

def between (major minor untilMajor untilMinor : Nat) : Availability :=
  ⟨⟨major, minor⟩, some ⟨untilMajor, untilMinor⟩⟩

def entry : Kind → Entry
  | .module => ⟨"Module", .mod, since 2 0, ["body"]⟩
  | .interactive => ⟨"Interactive", .mod, since 2 0, ["body"]⟩
  | .expression => ⟨"Expression", .mod, since 2 0, ["body"]⟩
  | .suite => ⟨"Suite", .mod, between 2 0 3 9, ["body"]⟩
  | .functionDef => ⟨"FunctionDef", .stmt, since 2 0, ["name", "args", "body", "decorator_list",
      "returns", "type_params"]⟩
  | .asyncFunctionDef => ⟨"AsyncFunctionDef", .stmt, since 3 5, ["name", "args", "body",
      "decorator_list", "returns", "type_params"]⟩
  | .classDef => ⟨"ClassDef", .stmt, since 2 0, ["name", "bases", "keywords", "body",
      "decorator_list", "type_params"]⟩
  | .returnStmt => ⟨"Return", .stmt, since 2 0, ["value"]⟩
  | .delete => ⟨"Delete", .stmt, since 2 0, ["targets"]⟩
  | .assign => ⟨"Assign", .stmt, since 2 0, ["targets", "value"]⟩
  | .augAssign => ⟨"AugAssign", .stmt, since 2 0, ["target", "op", "value"]⟩
  | .annAssign => ⟨"AnnAssign", .stmt, since 3 6, ["target", "annotation", "value", "simple"]⟩
  | .print => ⟨"Print", .stmt, between 2 0 3 0, ["dest", "values", "nl"]⟩
  | .forLoop => ⟨"For", .stmt, since 2 0, ["target", "iter", "body", "orelse"]⟩
  | .asyncFor => ⟨"AsyncFor", .stmt, since 3 5, ["target", "iter", "body", "orelse"]⟩
  | .whileLoop => ⟨"While", .stmt, since 2 0, ["test", "body", "orelse"]⟩
  | .conditional => ⟨"If", .stmt, since 2 0, ["test", "body", "orelse"]⟩
  | .withBlock => ⟨"With", .stmt, since 3 3, ["items", "body"]⟩
  | .asyncWith => ⟨"AsyncWith", .stmt, since 3 5, ["items", "body"]⟩
  | .legacyWith => ⟨"LegacyWith", .stmt, between 2 5 3 3, ["context_expr", "optional_vars", "body"]⟩
  | .raise => ⟨"Raise", .stmt, since 3 0, ["exc", "cause"]⟩
  | .legacyRaise => ⟨"LegacyRaise", .stmt, between 2 0 3 0, ["type", "inst", "tback"]⟩
  | .tryBlock => ⟨"Try", .stmt, since 3 3, ["body", "handlers", "orelse", "finalbody"]⟩
  | .tryStar => ⟨"TryStar", .stmt, since 3 11, ["body", "handlers", "orelse", "finalbody"]⟩
  | .tryExcept => ⟨"TryExcept", .stmt, between 2 0 3 3, ["body", "handlers", "orelse"]⟩
  | .tryFinally => ⟨"TryFinally", .stmt, between 2 0 3 3, ["body", "finalbody"]⟩
  | .assert => ⟨"Assert", .stmt, since 2 0, ["test", "msg"]⟩
  | .importNames => ⟨"Import", .stmt, since 2 0, ["names"]⟩
  | .importFrom => ⟨"ImportFrom", .stmt, since 2 0, ["module", "names", "level"]⟩
  | .exec => ⟨"Exec", .stmt, between 2 0 3 0, ["body", "globals", "locals"]⟩
  | .matchBlock => ⟨"Match", .stmt, since 3 10, ["subject", "cases"]⟩
  | .typeAlias => ⟨"TypeAlias", .stmt, since 3 12, ["name", "type_params", "value"]⟩
  | .global => ⟨"Global", .stmt, since 2 0, ["names"]⟩
  | .nonlocal => ⟨"Nonlocal", .stmt, since 3 0, ["names"]⟩
  | .exprStmt => ⟨"Expr", .stmt, since 2 0, ["value"]⟩
  | .pass => ⟨"Pass", .stmt, since 2 0, []⟩
  | .breakLoop => ⟨"Break", .stmt, since 2 0, []⟩
  | .continueLoop => ⟨"Continue", .stmt, since 2 0, []⟩
  | .boolOp => ⟨"BoolOp", .expr, since 2 0, ["op", "values"]⟩
  | .namedExpr => ⟨"NamedExpr", .expr, since 3 8, ["target", "value"]⟩
  | .binOp => ⟨"BinOp", .expr, since 2 0, ["left", "op", "right"]⟩
  | .unaryOp => ⟨"UnaryOp", .expr, since 2 0, ["op", "operand"]⟩
  | .lambda => ⟨"Lambda", .expr, since 2 0, ["args", "body"]⟩
  | .ifExp => ⟨"IfExp", .expr, since 2 5, ["test", "body", "orelse"]⟩
  | .dict => ⟨"Dict", .expr, since 2 0, ["keys", "values"]⟩
  | .set => ⟨"Set", .expr, since 2 7, ["elts"]⟩
  | .listComp => ⟨"ListComp", .expr, since 2 0, ["elt", "generators"]⟩
  | .setComp => ⟨"SetComp", .expr, since 2 7, ["elt", "generators"]⟩
  | .dictComp => ⟨"DictComp", .expr, since 2 7, ["key", "value", "generators"]⟩
  | .generatorExp => ⟨"GeneratorExp", .expr, since 2 4, ["elt", "generators"]⟩
  | .await => ⟨"Await", .expr, since 3 5, ["value"]⟩
  | .yield => ⟨"Yield", .expr, since 2 0, ["value"]⟩
  | .yieldFrom => ⟨"YieldFrom", .expr, since 3 3, ["value"]⟩
  | .compare => ⟨"Compare", .expr, since 2 0, ["left", "ops", "comparators"]⟩
  | .call => ⟨"Call", .expr, since 2 0, ["func", "args", "keywords", "starargs", "kwargs"]⟩
  | .repr => ⟨"Repr", .expr, between 2 0 3 0, ["value"]⟩
  | .formattedValue => ⟨"FormattedValue", .expr, since 3 6, ["value", "conversion", "format_spec"]⟩
  | .joinedStr => ⟨"JoinedStr", .expr, since 3 6, ["values"]⟩
  | .constant => ⟨"Constant", .expr, since 3 8, ["value"]⟩
  | .num => ⟨"Num", .expr, between 2 0 3 8, ["n"]⟩
  | .str => ⟨"Str", .expr, between 2 0 3 8, ["s"]⟩
  | .bytes => ⟨"Bytes", .expr, between 3 0 3 8, ["s"]⟩
  | .nameConstant => ⟨"NameConstant", .expr, between 3 4 3 8, ["value"]⟩
  | .ellipsis => ⟨"Ellipsis", .expr, between 2 0 3 8, []⟩
  | .attribute => ⟨"Attribute", .expr, since 2 0, ["value", "attr"]⟩
  | .subscript => ⟨"Subscript", .expr, since 2 0, ["value", "slice"]⟩
  | .starred => ⟨"Starred", .expr, since 3 0, ["value"]⟩
  | .nameExpr => ⟨"Name", .expr, since 2 0, ["id"]⟩
  | .list => ⟨"List", .expr, since 2 0, ["elts"]⟩
  | .tuple => ⟨"Tuple", .expr, since 2 0, ["elts"]⟩
  | .slice => ⟨"Slice", .slice, since 2 0, ["lower", "upper", "step"]⟩
  | .index => ⟨"Index", .slice, between 2 0 3 9, ["value"]⟩
  | .extSlice => ⟨"ExtSlice", .slice, between 2 0 3 9, ["dims"]⟩
  | .and => ⟨"And", .boolOp, since 2 0, []⟩
  | .or => ⟨"Or", .boolOp, since 2 0, []⟩
  | .add => ⟨"Add", .operator, since 2 0, []⟩
  | .sub => ⟨"Sub", .operator, since 2 0, []⟩
  | .mult => ⟨"Mult", .operator, since 2 0, []⟩
  | .matMult => ⟨"MatMult", .operator, since 3 5, []⟩
  | .div => ⟨"Div", .operator, since 2 0, []⟩
  | .mod => ⟨"Mod", .operator, since 2 0, []⟩
  | .pow => ⟨"Pow", .operator, since 2 0, []⟩
  | .lShift => ⟨"LShift", .operator, since 2 0, []⟩
  | .rShift => ⟨"RShift", .operator, since 2 0, []⟩
  | .bitOr => ⟨"BitOr", .operator, since 2 0, []⟩
  | .bitXor => ⟨"BitXor", .operator, since 2 0, []⟩
  | .bitAnd => ⟨"BitAnd", .operator, since 2 0, []⟩
  | .floorDiv => ⟨"FloorDiv", .operator, since 2 0, []⟩
  | .invert => ⟨"Invert", .unaryOp, since 2 0, []⟩
  | .not => ⟨"Not", .unaryOp, since 2 0, []⟩
  | .uAdd => ⟨"UAdd", .unaryOp, since 2 0, []⟩
  | .uSub => ⟨"USub", .unaryOp, since 2 0, []⟩
  | .eq => ⟨"Eq", .cmpOp, since 2 0, []⟩
  | .notEq => ⟨"NotEq", .cmpOp, since 2 0, []⟩
  | .lt => ⟨"Lt", .cmpOp, since 2 0, []⟩
  | .ltE => ⟨"LtE", .cmpOp, since 2 0, []⟩
  | .gt => ⟨"Gt", .cmpOp, since 2 0, []⟩
  | .gtE => ⟨"GtE", .cmpOp, since 2 0, []⟩
  | .is => ⟨"Is", .cmpOp, since 2 0, []⟩
  | .isNot => ⟨"IsNot", .cmpOp, since 2 0, []⟩
  | .isIn => ⟨"In", .cmpOp, since 2 0, []⟩
  | .notIn => ⟨"NotIn", .cmpOp, since 2 0, []⟩
  | .exceptHandler => ⟨"ExceptHandler", .handler, since 3 0, ["type", "name", "body"]⟩
  | .legacyExceptHandler => ⟨"LegacyExceptHandler", .handler, between 2 0 3 0, ["type", "name",
      "body"]⟩
  | .matchValue => ⟨"MatchValue", .pattern, since 3 10, ["value"]⟩
  | .matchSingleton => ⟨"MatchSingleton", .pattern, since 3 10, ["value"]⟩
  | .matchSequence => ⟨"MatchSequence", .pattern, since 3 10, ["patterns"]⟩
  | .matchMapping => ⟨"MatchMapping", .pattern, since 3 10, ["keys", "patterns", "rest"]⟩
  | .matchClass => ⟨"MatchClass", .pattern, since 3 10, ["cls", "patterns", "kwd_attrs",
      "kwd_patterns"]⟩
  | .matchStar => ⟨"MatchStar", .pattern, since 3 10, ["name"]⟩
  | .matchAs => ⟨"MatchAs", .pattern, since 3 10, ["pattern", "name"]⟩
  | .matchOr => ⟨"MatchOr", .pattern, since 3 10, ["patterns"]⟩
  | .typeVar => ⟨"TypeVar", .typeParam, since 3 12, ["name", "bound"]⟩
  | .paramSpec => ⟨"ParamSpec", .typeParam, since 3 12, ["name"]⟩
  | .typeVarTuple => ⟨"TypeVarTuple", .typeParam, since 3 12, ["name"]⟩
  | .comprehension => ⟨"comprehension", .comprehension, since 2 0, ["target", "iter", "ifs",
      "is_async"]⟩
  | .arguments => ⟨"arguments", .arguments, since 2 0, ["posonlyargs", "args", "vararg",
      "kwonlyargs", "kw_defaults", "kwarg", "defaults"]⟩
  | .arg => ⟨"arg", .arg, since 2 0, ["arg", "annotation"]⟩
  | .keyword => ⟨"keyword", .keyword, since 2 0, ["arg", "value"]⟩
  | .importedName => ⟨"alias", .importedName, since 2 0, ["name", "asname"]⟩
  | .withItem => ⟨"withitem", .withItem, since 3 3, ["context_expr", "optional_vars"]⟩
  | .matchCase => ⟨"match_case", .matchCase, since 3 10, ["pattern", "guard", "body"]⟩

def name (k : Kind) : String :=
  k.entry.name

def family (k : Kind) : Family :=
  k.entry.family

def availability (k : Kind) : Availability :=
  k.entry.availability

/-- The names of the fields, in the order in which they are traversed. -/
def fields (k : Kind) : List String :=
  k.entry.fields

/-- The family whose places the kind may take: slices stand where expressions stand. -/
def place (k : Kind) : Family :=
  match k.family with
  | .slice => .expr
  | f => f

def ofName? (name : String) : Option Kind :=
  all.find? (·.name == name)

/-- The kinds that may take a place of the family. -/
def inPlace (f : Family) : List Kind :=
  all.filter (·.place == f)

def isStmt (k : Kind) : Bool :=
  k.family == .stmt

def isExpr (k : Kind) : Bool :=
  k.place == .expr

def isOperator (k : Kind) : Bool :=
  k.family.isOperator

theorem isOperator_place (k : Kind) : k.place.isOperator = k.isOperator := by
  cases k <;> rfl

theorem isPositioned_of_isOperator {k : Kind} :
    k.isOperator = true → k.place.isPositioned = false := by
  cases k <;> decide

/-- The source text of an operator; other kinds have none. -/
def token : Kind → String
  | .and => "and"
  | .or => "or"
  | .add => "+"
  | .sub => "-"
  | .mult => "*"
  | .matMult => "@"
  | .div => "/"
  | .mod => "%"
  | .pow => "**"
  | .lShift => "<<"
  | .rShift => ">>"
  | .bitOr => "|"
  | .bitXor => "^"
  | .bitAnd => "&"
  | .floorDiv => "//"
  | .invert => "~"
  | .not => "not"
  | .uAdd => "+"
  | .uSub => "-"
  | .eq => "=="
  | .notEq => "!="
  | .lt => "<"
  | .ltE => "<="
  | .gt => ">"
  | .gtE => ">="
  | .is => "is"
  | .isNot => "is not"
  | .isIn => "in"
  | .notIn => "not in"
  | _ => ""

end Kind

/-- The kinds of a family, whatever the dialect. -/
def Family.kinds (f : Family) : List Kind :=
  Kind.all.filter (·.family == f)

/-- Whether the dialect has the kind. -/
def Dialect.supports (d : Dialect) (k : Kind) : Bool :=
  d.covers k.availability

end Unparse
