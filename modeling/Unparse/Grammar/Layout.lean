import Unparse.Grammar.Kind

/-! The layout of nodes: one row per kind with the word for the kind in a written node, and
the fields with what they hold and when they may be missing. -/
namespace Unparse

namespace Kind

/-- What a node of a kind consists of. The word is written where a family has several kinds. -/
structure Layout where
  word : String
  fields : List Field

def stated (name : String) (shape : Shape) : Field :=
  ⟨name, .stated, shape⟩

def defaulted (name : String) (shape : Shape) : Field :=
  ⟨name, .defaulted, shape⟩

def elided (name : String) (shape : Shape) : Field :=
  ⟨name, .elided, shape⟩

def maybe (family : Family) : Shape :=
  .option (.node family)

def many (family : Family) : Shape :=
  .list (.node family)

def layout : Kind → Layout
  | .module => ⟨"Module", [stated "body" (many .stmt)]⟩
  | .interactive => ⟨"Interactive", [stated "body" (many .stmt)]⟩
  | .expression => ⟨"Expression", [stated "body" (.node .expr)]⟩
  | .suite => ⟨"Suite", [stated "body" (many .stmt)]⟩
  | .functionDef => ⟨"FunctionDef", [stated "name" (.scalar .text),
      stated "args" (.node .arguments), defaulted "body" (many .stmt),
      defaulted "decorator_list" (many .expr), stated "returns" (maybe .expr),
      elided "type_params" (many .typeParam)]⟩
  | .asyncFunctionDef => ⟨"AsyncFunctionDef", [stated "name" (.scalar .text),
      stated "args" (.node .arguments), defaulted "body" (many .stmt),
      defaulted "decorator_list" (many .expr), stated "returns" (maybe .expr),
      elided "type_params" (many .typeParam)]⟩
  | .classDef => ⟨"ClassDef", [stated "name" (.scalar .text), defaulted "bases" (many .expr),
      defaulted "keywords" (many .keyword), defaulted "body" (many .stmt),
      defaulted "decorator_list" (many .expr), elided "type_params" (many .typeParam)]⟩
  | .returnStmt => ⟨"Return", [stated "value" (maybe .expr)]⟩
  | .delete => ⟨"Delete", [defaulted "targets" (many .expr)]⟩
  | .assign => ⟨"Assign", [defaulted "targets" (many .expr), stated "value" (.node .expr)]⟩
  | .augAssign => ⟨"AugAssign", [stated "target" (.node .expr), stated "op" (.node .operator),
      stated "value" (.node .expr)]⟩
  | .annAssign => ⟨"AnnAssign", [stated "target" (.node .expr), stated "annotation" (.node .expr),
      stated "value" (maybe .expr), defaulted "simple" (.scalar (.flag true))]⟩
  | .print => ⟨"Print", [stated "dest" (maybe .expr), defaulted "values" (many .expr),
      defaulted "nl" (.scalar (.flag true))]⟩
  | .forLoop => ⟨"For", [stated "target" (.node .expr), stated "iter" (.node .expr),
      defaulted "body" (many .stmt), defaulted "orelse" (many .stmt)]⟩
  | .asyncFor => ⟨"AsyncFor", [stated "target" (.node .expr), stated "iter" (.node .expr),
      defaulted "body" (many .stmt), defaulted "orelse" (many .stmt)]⟩
  | .whileLoop => ⟨"While", [stated "test" (.node .expr), defaulted "body" (many .stmt),
      defaulted "orelse" (many .stmt)]⟩
  | .conditional => ⟨"If", [stated "test" (.node .expr), defaulted "body" (many .stmt),
      defaulted "orelse" (many .stmt)]⟩
  | .withBlock => ⟨"With", [defaulted "items" (many .withItem), defaulted "body" (many .stmt)]⟩
  | .asyncWith => ⟨"AsyncWith", [defaulted "items" (many .withItem), defaulted "body" (many .stmt)]⟩
  | .legacyWith => ⟨"LegacyWith", [stated "context_expr" (.node .expr),
      stated "optional_vars" (maybe .expr), defaulted "body" (many .stmt)]⟩
  | .raise => ⟨"Raise", [stated "exc" (maybe .expr), stated "cause" (maybe .expr)]⟩
  | .legacyRaise => ⟨"LegacyRaise", [stated "type" (maybe .expr), stated "inst" (maybe .expr),
      stated "tback" (maybe .expr)]⟩
  | .tryBlock => ⟨"Try", [defaulted "body" (many .stmt), defaulted "handlers" (many .handler),
      defaulted "orelse" (many .stmt), defaulted "finalbody" (many .stmt)]⟩
  | .tryStar => ⟨"TryStar", [defaulted "body" (many .stmt), defaulted "handlers" (many .handler),
      defaulted "orelse" (many .stmt), defaulted "finalbody" (many .stmt)]⟩
  | .tryExcept => ⟨"TryExcept", [defaulted "body" (many .stmt),
      defaulted "handlers" (many .handler), defaulted "orelse" (many .stmt)]⟩
  | .tryFinally => ⟨"TryFinally", [defaulted "body" (many .stmt),
      defaulted "finalbody" (many .stmt)]⟩
  | .assert => ⟨"Assert", [stated "test" (.node .expr), stated "msg" (maybe .expr)]⟩
  | .importNames => ⟨"Import", [defaulted "names" (many .importedName)]⟩
  | .importFrom => ⟨"ImportFrom", [stated "module" (.option (.scalar .text)),
      defaulted "names" (many .importedName), defaulted "level" (.scalar .level)]⟩
  | .exec => ⟨"Exec", [stated "body" (.node .expr), stated "globals" (maybe .expr),
      stated "locals" (maybe .expr)]⟩
  | .matchBlock => ⟨"Match", [stated "subject" (.node .expr), defaulted "cases" (many .matchCase)]⟩
  | .typeAlias => ⟨"TypeAlias", [stated "name" (.node .expr),
      defaulted "type_params" (many .typeParam), stated "value" (.node .expr)]⟩
  | .global => ⟨"Global", [defaulted "names" (.list (.scalar .text))]⟩
  | .nonlocal => ⟨"Nonlocal", [defaulted "names" (.list (.scalar .text))]⟩
  | .exprStmt => ⟨"Expr", [stated "value" (.node .expr)]⟩
  | .pass => ⟨"Pass", []⟩
  | .breakLoop => ⟨"Break", []⟩
  | .continueLoop => ⟨"Continue", []⟩
  | .boolOp => ⟨"BoolOp", [stated "op" (.node .boolOp), defaulted "values" (many .expr)]⟩
  | .namedExpr => ⟨"NamedExpr", [stated "target" (.node .expr), stated "value" (.node .expr)]⟩
  | .binOp => ⟨"BinOp", [stated "left" (.node .expr), stated "op" (.node .operator),
      stated "right" (.node .expr)]⟩
  | .unaryOp => ⟨"UnaryOp", [stated "op" (.node .unaryOp), stated "operand" (.node .expr)]⟩
  | .lambda => ⟨"Lambda", [stated "args" (.node .arguments), stated "body" (.node .expr)]⟩
  | .ifExp => ⟨"IfExp", [stated "test" (.node .expr), stated "body" (.node .expr),
      stated "orelse" (.node .expr)]⟩
  | .dict => ⟨"Dict", [defaulted "keys" (.list (maybe .expr)), defaulted "values" (many .expr)]⟩
  | .set => ⟨"Set", [defaulted "elts" (many .expr)]⟩
  | .listComp => ⟨"ListComp", [stated "elt" (.node .expr),
      defaulted "generators" (many .comprehension)]⟩
  | .setComp => ⟨"SetComp", [stated "elt" (.node .expr),
      defaulted "generators" (many .comprehension)]⟩
  | .dictComp => ⟨"DictComp", [stated "key" (.node .expr), stated "value" (.node .expr),
      defaulted "generators" (many .comprehension)]⟩
  | .generatorExp => ⟨"GeneratorExp", [stated "elt" (.node .expr),
      defaulted "generators" (many .comprehension)]⟩
  | .await => ⟨"Await", [stated "value" (.node .expr)]⟩
  | .yield => ⟨"Yield", [stated "value" (maybe .expr)]⟩
  | .yieldFrom => ⟨"YieldFrom", [stated "value" (.node .expr)]⟩
  | .compare => ⟨"Compare", [stated "left" (.node .expr), defaulted "ops" (many .cmpOp),
      defaulted "comparators" (many .expr)]⟩
  | .call => ⟨"Call", [stated "func" (.node .expr), defaulted "args" (many .expr),
      defaulted "keywords" (many .keyword), elided "starargs" (maybe .expr),
      elided "kwargs" (maybe .expr)]⟩
  | .repr => ⟨"Repr", [stated "value" (.node .expr)]⟩
  | .formattedValue => ⟨"FormattedValue", [stated "value" (.node .expr),
      stated "conversion" (.option (.scalar .conversion)), stated "format_spec" (maybe .expr)]⟩
  | .joinedStr => ⟨"JoinedStr", [defaulted "values" (many .expr)]⟩
  | .constant => ⟨"Constant", [stated "value" (.scalar .constant)]⟩
  | .num => ⟨"Num", [stated "n" (.scalar .number)]⟩
  | .str => ⟨"Str", [stated "s" (.scalar .text)]⟩
  | .bytes => ⟨"Bytes", [stated "s" (.list (.scalar .byte))]⟩
  | .nameConstant => ⟨"NameConstant", [stated "value" (.scalar .singleton)]⟩
  | .ellipsis => ⟨"Ellipsis", []⟩
  | .attribute => ⟨"Attribute", [stated "value" (.node .expr), stated "attr" (.scalar .text)]⟩
  | .subscript => ⟨"Subscript", [stated "value" (.node .expr), stated "slice" (.node .expr)]⟩
  | .starred => ⟨"Starred", [stated "value" (.node .expr)]⟩
  | .nameExpr => ⟨"Name", [stated "id" (.scalar .text)]⟩
  | .list => ⟨"List", [defaulted "elts" (many .expr)]⟩
  | .tuple => ⟨"Tuple", [defaulted "elts" (many .expr)]⟩
  | .slice => ⟨"Slice", [stated "lower" (maybe .expr), stated "upper" (maybe .expr),
      stated "step" (maybe .expr)]⟩
  | .index => ⟨"Index", [stated "value" (.node .expr)]⟩
  | .extSlice => ⟨"ExtSlice", [defaulted "dims" (many .expr)]⟩
  | .and => ⟨"And", []⟩
  | .or => ⟨"Or", []⟩
  | .add => ⟨"Add", []⟩
  | .sub => ⟨"Sub", []⟩
  | .mult => ⟨"Mult", []⟩
  | .matMult => ⟨"MatMult", []⟩
  | .div => ⟨"Div", []⟩
  | .mod => ⟨"Mod", []⟩
  | .pow => ⟨"Pow", []⟩
  | .lShift => ⟨"LShift", []⟩
  | .rShift => ⟨"RShift", []⟩
  | .bitOr => ⟨"BitOr", []⟩
  | .bitXor => ⟨"BitXor", []⟩
  | .bitAnd => ⟨"BitAnd", []⟩
  | .floorDiv => ⟨"FloorDiv", []⟩
  | .invert => ⟨"Invert", []⟩
  | .not => ⟨"Not", []⟩
  | .uAdd => ⟨"UAdd", []⟩
  | .uSub => ⟨"USub", []⟩
  | .eq => ⟨"Eq", []⟩
  | .notEq => ⟨"NotEq", []⟩
  | .lt => ⟨"Lt", []⟩
  | .ltE => ⟨"LtE", []⟩
  | .gt => ⟨"Gt", []⟩
  | .gtE => ⟨"GtE", []⟩
  | .is => ⟨"Is", []⟩
  | .isNot => ⟨"IsNot", []⟩
  | .isIn => ⟨"In", []⟩
  | .notIn => ⟨"NotIn", []⟩
  | .exceptHandler => ⟨"ExceptHandler", [stated "type" (maybe .expr),
      stated "name" (.option (.scalar .text)), defaulted "body" (many .stmt)]⟩
  | .legacyExceptHandler => ⟨"LegacyExceptHandler", [stated "type" (maybe .expr),
      stated "name" (maybe .expr), defaulted "body" (many .stmt)]⟩
  | .matchValue => ⟨"MatchValue", [stated "value" (.node .expr)]⟩
  | .matchSingleton => ⟨"MatchSingleton", [stated "value" (.scalar .singleton)]⟩
  | .matchSequence => ⟨"MatchSequence", [defaulted "patterns" (many .pattern)]⟩
  | .matchMapping => ⟨"MatchMapping", [defaulted "keys" (many .expr),
      defaulted "patterns" (many .pattern), stated "rest" (.option (.scalar .text))]⟩
  | .matchClass => ⟨"MatchClass", [stated "cls" (.node .expr), defaulted "patterns" (many .pattern),
      defaulted "kwd_attrs" (.list (.scalar .text)), defaulted "kwd_patterns" (many .pattern)]⟩
  | .matchStar => ⟨"MatchStar", [stated "name" (.option (.scalar .text))]⟩
  | .matchAs => ⟨"MatchAs", [stated "pattern" (maybe .pattern),
      stated "name" (.option (.scalar .text))]⟩
  | .matchOr => ⟨"MatchOr", [defaulted "patterns" (many .pattern)]⟩
  | .typeVar => ⟨"TypeVar", [stated "name" (.scalar .text), stated "bound" (maybe .expr)]⟩
  | .paramSpec => ⟨"ParamSpec", [stated "name" (.scalar .text)]⟩
  | .typeVarTuple => ⟨"TypeVarTuple", [stated "name" (.scalar .text)]⟩
  | .comprehension => ⟨"Comprehension", [stated "target" (.node .expr), stated "iter" (.node .expr),
      defaulted "ifs" (many .expr), defaulted "is_async" (.scalar (.flag false))]⟩
  | .arguments => ⟨"Arguments", [defaulted "posonlyargs" (many .arg), defaulted "args" (many .arg),
      stated "vararg" (maybe .arg), defaulted "kwonlyargs" (many .arg),
      defaulted "kw_defaults" (.list (maybe .expr)), stated "kwarg" (maybe .arg),
      defaulted "defaults" (many .expr)]⟩
  | .arg => ⟨"Arg", [stated "arg" (.scalar .text), stated "annotation" (maybe .expr)]⟩
  | .keyword => ⟨"Keyword", [stated "arg" (.option (.scalar .text)), stated "value" (.node .expr)]⟩
  | .importedName => ⟨"Alias", [stated "name" (.scalar .text),
      stated "asname" (.option (.scalar .text))]⟩
  | .withItem => ⟨"WithItem", [stated "context_expr" (.node .expr),
      stated "optional_vars" (maybe .expr)]⟩
  | .matchCase => ⟨"MatchCase", [stated "pattern" (.node .pattern), stated "guard" (maybe .expr),
      defaulted "body" (many .stmt)]⟩

def word (k : Kind) : String :=
  k.layout.word

def shape (k : Kind) : Shape :=
  .record k.layout.fields

theorem shape_of_isOperator {k : Kind} : k.isOperator = true → k.shape = .done := by
  cases k <;> decide

end Kind

end Unparse
