import Unparse.Render.FString
import Unparse.Render.Parameters
import Unparse.Render.Statement

/-! The rule of every kind: the view of a node, given the views of its fields. -/
namespace Unparse.Render

def rule : (k : Kind) → Value View k.shape → View k.place
  | .module, (body, _) => Statement.module body
  | .interactive, (body, _) => Statement.sequence .interactive body
  | .expression, (body, _) => Statement.expression body
  | .suite, (body, _) => Statement.sequence .suite body
  | .functionDef, (name, args, body, decorators, returns, typeParams, _) =>
    Statement.functionDef .functionDef "def" name args body decorators returns typeParams
  | .asyncFunctionDef, (name, args, body, decorators, returns, typeParams, _) =>
    Statement.functionDef .asyncFunctionDef "async def" name args body decorators returns
      typeParams
  | .classDef, (name, bases, keywords, body, decorators, typeParams, _) =>
    Statement.classDef name bases keywords body decorators typeParams
  | .returnStmt, (value, _) => Statement.returnStmt value
  | .delete, (targets, _) => Statement.delete targets
  | .assign, (targets, value, _) => Statement.assign targets value
  | .augAssign, (target, op, value, _) => Statement.augAssign target op value
  | .annAssign, (target, type, value, simple, _) => Statement.annAssign target type value simple
  | .print, (dest, values, newline, _) => Statement.print dest values newline
  | .forLoop, (target, iter, body, orelse, _) =>
    Statement.forLoop .forLoop "for" target iter body orelse
  | .asyncFor, (target, iter, body, orelse, _) =>
    Statement.forLoop .asyncFor "async for" target iter body orelse
  | .whileLoop, (test, body, orelse, _) => Statement.tested .whileLoop "while" test body orelse
  | .conditional, (test, body, orelse, _) => Statement.tested .conditional "if" test body orelse
  | .withBlock, (items, body, _) => Statement.withBlock .withBlock "with" items body
  | .asyncWith, (items, body, _) => Statement.withBlock .asyncWith "async with" items body
  | .legacyWith, (expr, vars, body, _) => Statement.legacyWith expr vars body
  | .raise, (exc, cause, _) => Statement.raise exc cause
  | .legacyRaise, (type, inst, tback, _) => Statement.legacyRaise type inst tback
  | .tryBlock, (body, handlers, orelse, final, _) =>
    Statement.tryBlock .tryBlock false body handlers orelse final
  | .tryStar, (body, handlers, orelse, final, _) =>
    Statement.tryBlock .tryStar true body handlers orelse final
  | .tryExcept, (body, handlers, orelse, _) => Statement.tryExcept body handlers orelse
  | .tryFinally, (body, final, _) => Statement.tryFinally body final
  | .assert, (test, message, _) => Statement.assert test message
  | .importNames, (names, _) => Statement.importNames names
  | .importFrom, (source, names, level, _) => Statement.importFrom source names level
  | .exec, (body, globals, locals, _) => Statement.exec body globals locals
  | .matchBlock, (subject, cases, _) => Statement.matchBlock subject cases
  | .typeAlias, (name, typeParams, value, _) => Statement.typeAlias name typeParams value
  | .global, (names, _) => Statement.declaration .global "global" names
  | .nonlocal, (names, _) => Statement.declaration .nonlocal "nonlocal" names
  | .exprStmt, (value, _) => Statement.exprStmt value
  | .pass, _ => Statement.word .pass "pass"
  | .breakLoop, _ => Statement.word .breakLoop "break"
  | .continueLoop, _ => Statement.word .continueLoop "continue"
  | .boolOp, (op, values, _) => Expression.boolOp op values
  | .namedExpr, (target, value, _) => Expression.namedExpr target value
  | .binOp, (left, op, right, _) => Expression.binOp left op right
  | .unaryOp, (op, operand, _) => Expression.unaryOp op operand
  | .lambda, (args, body, _) => Expression.lambda args body
  | .ifExp, (test, body, orelse, _) => Expression.ifExp test body orelse
  | .dict, (keys, values, _) => Expression.dict keys values
  | .set, (elements, _) => Expression.set elements
  | .listComp, (element, generators, _) =>
    Expression.comprehended .listComp "[" element.text generators "]"
  | .setComp, (element, generators, _) =>
    Expression.comprehended .setComp "\x7b" element.text generators "\x7d"
  | .dictComp, (key, value, generators, _) =>
    Expression.comprehended .dictComp "\x7b" (Expression.keyed key value) generators "\x7d"
  | .generatorExp, (element, generators, _) =>
    Expression.comprehended .generatorExp "(" element.text generators ")"
  | .await, (value, _) => Expression.await value
  | .yield, (value, _) => Expression.yield value
  | .yieldFrom, (value, _) => Expression.yieldFrom value
  | .compare, (left, ops, comparators, _) => Expression.compare left ops comparators
  | .call, (func, args, keywords, starargs, kwargs, _) =>
    Expression.call func args keywords starargs kwargs
  | .repr, (value, _) => Expression.repr value
  | .formattedValue, (value, conversion, format, _) =>
    FString.formattedValue value conversion format
  | .joinedStr, (values, _) => FString.joinedStr values
  | .constant, (value, _) => Expression.constant value
  | .num, (n, _) => Expression.num n
  | .str, (s, _) => Expression.str s
  | .bytes, (bs, _) => Expression.bytes bs
  | .nameConstant, (value, _) => Expression.nameConstant value
  | .ellipsis, _ => Expression.ellipsis
  | .attribute, (value, attr, _) => Expression.attributeOf value attr
  | .subscript, (value, slice, _) => Expression.subscript value slice
  | .starred, (value, _) => Expression.starred value
  | .nameExpr, (id, _) => Expression.name id
  | .list, (elements, _) => Expression.list elements
  | .tuple, (elements, _) => Expression.tuple elements
  | .slice, (lower, upper, step, _) => Expression.slice lower upper step
  | .index, (value, _) => Expression.index value
  | .extSlice, (dims, _) => Expression.extSlice dims
  | .and, _ => Kind.and
  | .or, _ => Kind.or
  | .add, _ => Kind.add
  | .sub, _ => Kind.sub
  | .mult, _ => Kind.mult
  | .matMult, _ => Kind.matMult
  | .div, _ => Kind.div
  | .mod, _ => Kind.mod
  | .pow, _ => Kind.pow
  | .lShift, _ => Kind.lShift
  | .rShift, _ => Kind.rShift
  | .bitOr, _ => Kind.bitOr
  | .bitXor, _ => Kind.bitXor
  | .bitAnd, _ => Kind.bitAnd
  | .floorDiv, _ => Kind.floorDiv
  | .invert, _ => Kind.invert
  | .not, _ => Kind.not
  | .uAdd, _ => Kind.uAdd
  | .uSub, _ => Kind.uSub
  | .eq, _ => Kind.eq
  | .notEq, _ => Kind.notEq
  | .lt, _ => Kind.lt
  | .ltE, _ => Kind.ltE
  | .gt, _ => Kind.gt
  | .gtE, _ => Kind.gtE
  | .is, _ => Kind.is
  | .isNot, _ => Kind.isNot
  | .isIn, _ => Kind.isIn
  | .notIn, _ => Kind.notIn
  | .exceptHandler, (type, name, body, _) => Statement.exceptHandler type name body
  | .legacyExceptHandler, (type, target, body, _) =>
    Statement.legacyExceptHandler type target body
  | .matchValue, (value, _) => Pattern.matchValue value
  | .matchSingleton, (value, _) => Pattern.matchSingleton value
  | .matchSequence, (patterns, _) => Pattern.matchSequence patterns
  | .matchMapping, (keys, patterns, rest, _) => Pattern.matchMapping keys patterns rest
  | .matchClass, (cls, patterns, attrs, values, _) =>
    Pattern.matchClass cls patterns attrs values
  | .matchStar, (name, _) => Pattern.matchStar name
  | .matchAs, (pattern, name, _) => Pattern.matchAs pattern name
  | .matchOr, (patterns, _) => Pattern.matchOr patterns
  | .typeVar, (name, bound, _) => Pattern.typeVar name bound
  | .paramSpec, (name, _) => Pattern.paramSpec name
  | .typeVarTuple, (name, _) => Pattern.typeVarTuple name
  | .comprehension, (target, iter, conditions, async, _) =>
    Expression.comprehension target iter conditions async
  | .arguments, (posonly, args, vararg, kwonly, kwDefaults, kwarg, defaults, _) =>
    Parameters.arguments posonly args vararg kwonly kwDefaults kwarg defaults
  | .arg, (name, type, _) => Parameters.arg name type
  | .keyword, (name, value, _) => Expression.keyword name value
  | .importedName, (name, asname, _) => Statement.importedName name asname
  | .withItem, (expr, vars, _) => Statement.withItem expr vars
  | .matchCase, (pattern, guard, body, _) => Statement.matchCase pattern guard body

/-- The view of a node. Recorded positions play no part in it. -/
def view {f : Family} (t : Node f) : View f :=
  t.fold fun k fields _ => rule k fields

/-- A node that stands alone. Nodes that lay out lines have no text beside them. -/
def standalone : (f : Family) → View f → Draft String
  | .mod, draft => do draft; return ""
  | .stmt, v => do v.draft; return ""
  | .expr, v => v.text
  | .slice, v => v.text
  | .boolOp, k => do Draft.demand k; return k.token
  | .operator, k => do Draft.demand k; return k.token
  | .unaryOp, k => do Draft.demand k; return k.token
  | .cmpOp, k => do Draft.demand k; return k.token
  | .handler, draft => do draft false; return ""
  | .pattern, text => text
  | .typeParam, text => text
  | .comprehension, lines => return String.intercalate "\n" (← lines)
  | .arguments, text => text true
  | .arg, v => v.text true
  | .keyword, text => text
  | .importedName, text => text
  | .withItem, text => text
  | .matchCase, draft => do draft; return ""

end Unparse.Render
