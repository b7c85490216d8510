import Unparse.Tree

/-! The children of a node, kind by kind: one table for those who look at them, and one for those
who put something else in their place. Operators are shared between nodes, so that they are
listed in the first table but cannot be replaced by the second. -/
namespace Unparse

namespace Kind

/-- What the children give, field by field. A list gives one after the other what is in it, and
what is absent gives nothing. -/
def childLists {V : Family → Type} {A : Type} (give : {f : Family} → V f → A) :
    (k : Kind) → Value V k.shape → List (List A)
  | .module, (body, _) | .interactive, (body, _) | .suite, (body, _) => [body.map give]
  | .expression, (body, _) => [[give body]]
  | .functionDef, (_, args, body, decorators, returns, typeParams, _)
  | .asyncFunctionDef, (_, args, body, decorators, returns, typeParams, _) =>
    [[give args], body.map give, decorators.map give, returns.toList.map give,
      typeParams.map give]
  | .classDef, (_, bases, keywords, body, decorators, typeParams, _) =>
    [bases.map give, keywords.map give, body.map give, decorators.map give, typeParams.map give]
  | .returnStmt, (value, _) => [value.toList.map give]
  | .delete, (targets, _) => [targets.map give]
  | .assign, (targets, value, _) => [targets.map give, [give value]]
  | .augAssign, (target, op, value, _) => [[give target], [give op], [give value]]
  | .annAssign, (target, type, value, _) => [[give target], [give type], value.toList.map give]
  | .print, (dest, values, _) => [dest.toList.map give, values.map give]
  | .forLoop, (target, iter, body, orelse, _) | .asyncFor, (target, iter, body, orelse, _) =>
    [[give target], [give iter], body.map give, orelse.map give]
  | .whileLoop, (test, body, orelse, _) | .conditional, (test, body, orelse, _) =>
    [[give test], body.map give, orelse.map give]
  | .withBlock, (items, body, _) | .asyncWith, (items, body, _) => [items.map give, body.map give]
  | .legacyWith, (expr, vars, body, _) => [[give expr], vars.toList.map give, body.map give]
  | .raise, (exc, cause, _) => [exc.toList.map give, cause.toList.map give]
  | .legacyRaise, (type, inst, tback, _) =>
    [type.toList.map give, inst.toList.map give, tback.toList.map give]
  | .tryBlock, (body, handlers, orelse, final, _) | .tryStar, (body, handlers, orelse, final, _) =>
    [body.map give, handlers.map give, orelse.map give, final.map give]
  | .tryExcept, (body, handlers, orelse, _) => [body.map give, handlers.map give, orelse.map give]
  | .tryFinally, (body, final, _) => [body.map give, final.map give]
  | .assert, (test, message, _) => [[give test], message.toList.map give]
  | .importNames, (names, _) => [names.map give]
  | .importFrom, (_, names, _) => [names.map give]
  | .exec, (body, globals, locals, _) =>
    [[give body], globals.toList.map give, locals.toList.map give]
  | .matchBlock, (subject, cases, _) => [[give subject], cases.map give]
  | .typeAlias, (name, typeParams, value, _) => [[give name], typeParams.map give, [give value]]
  | .exprStmt, (value, _) => [[give value]]
  | .boolOp, (op, values, _) => [[give op], values.map give]
  | .namedExpr, (target, value, _) => [[give target], [give value]]
  | .binOp, (left, op, right, _) => [[give left], [give op], [give right]]
  | .unaryOp, (op, operand, _) => [[give op], [give operand]]
  | .lambda, (args, body, _) => [[give args], [give body]]
  | .ifExp, (test, body, orelse, _) => [[give test], [give body], [give orelse]]
  | .dict, (keys, values, _) => [(keys.flatMap Option.toList).map give, values.map give]
  | .set, (elements, _) => [elements.map give]
  | .listComp, (element, generators, _) | .setComp, (element, generators, _)
  | .generatorExp, (element, generators, _) => [[give element], generators.map give]
  | .dictComp, (key, value, generators, _) => [[give key], [give value], generators.map give]
  | .await, (value, _) => [[give value]]
  | .yield, (value, _) => [value.toList.map give]
  | .yieldFrom, (value, _) => [[give value]]
  | .compare, (left, ops, comparators, _) => [[give left], ops.map give, comparators.map give]
  | .call, (func, args, keywords, starargs, kwargs, _) =>
    [[give func], args.map give, keywords.map give, starargs.toList.map give,
      kwargs.toList.map give]
  | .repr, (value, _) => [[give value]]
  | .formattedValue, (value, _, format, _) => [[give value], format.toList.map give]
  | .joinedStr, (values, _) => [values.map give]
  | .attribute, (value, _) => [[give value]]
  | .subscript, (value, item, _) => [[give value], [give item]]
  | .starred, (value, _) => [[give value]]
  | .list, (elements, _) | .tuple, (elements, _) => [elements.map give]
  | .slice, (lower, upper, step, _) =>
    [lower.toList.map give, upper.toList.map give, step.toList.map give]
  | .index, (value, _) => [[give value]]
  | .extSlice, (dims, _) => [dims.map give]
  | .exceptHandler, (type, _, body, _) => [type.toList.map give, body.map give]
  | .legacyExceptHandler, (type, target, body, _) =>
    [type.toList.map give, target.toList.map give, body.map give]
  | .matchValue, (value, _) => [[give value]]
  | .matchSequence, (patterns, _) => [patterns.map give]
  | .matchMapping, (keys, patterns, _) => [keys.map give, patterns.map give]
  | .matchClass, (cls, patterns, _, values, _) => [[give cls], patterns.map give, values.map give]
  | .matchAs, (pattern, _) => [pattern.toList.map give]
  | .matchOr, (patterns, _) => [patterns.map give]
  | .typeVar, (_, bound, _) => [bound.toList.map give]
  | .comprehension, (target, iter, conditions, _) =>
    [[give target], [give iter], conditions.map give]
  | .arguments, (posonly, args, vararg, kwonly, kwDefaults, kwarg, defaults, _) =>
    [posonly.map give, args.map give, vararg.toList.map give, kwonly.map give,
      (kwDefaults.flatMap Option.toList).map give, kwarg.toList.map give, defaults.map give]
  | .arg, (_, type, _) => [type.toList.map give]
  | .keyword, (_, value, _) => [[give value]]
  | .withItem, (expr, vars, _) => [[give expr], vars.toList.map give]
  | .matchCase, (pattern, guard, body, _) =>
    [[give pattern], guard.toList.map give, body.map give]
  | _, _ => []

/-- What the children give, in the order of the fields. -/
def children {V : Family → Type} {A : Type} (give : {f : Family} → V f → A) (k : Kind)
    (fields : Value V k.shape) : List A :=
  (k.childLists give fields).flatten

/-- Acts on the children that can be replaced, in the order of the fields, and puts what comes of
each into its place. -/
def eachChild {M : Type → Type} [Monad M] {V : Family → Type}
    (act : {f : Family} → V f → M (V f)) : (k : Kind) → Value V k.shape → M (Value V k.shape)
  | .module, (body, u) | .interactive, (body, u) | .suite, (body, u) =>
    return (← body.mapM act, u)
  | .expression, (body, u) => return (← act body, u)
  | .functionDef, (name, args, body, decorators, returns, typeParams, u)
  | .asyncFunctionDef, (name, args, body, decorators, returns, typeParams, u) =>
    return (name, ← act args, ← body.mapM act, ← decorators.mapM act, ← returns.mapM act,
      ← typeParams.mapM act, u)
  | .classDef, (name, bases, keywords, body, decorators, typeParams, u) =>
    return (name, ← bases.mapM act, ← keywords.mapM act, ← body.mapM act,
      ← decorators.mapM act, ← typeParams.mapM act, u)
  | .returnStmt, (value, u) => return (← value.mapM act, u)
  | .delete, (targets, u) => return (← targets.mapM act, u)
  | .assign, (targets, value, u) => return (← targets.mapM act, ← act value, u)
  | .augAssign, (target, op, value, u) => return (← act target, op, ← act value, u)
  | .annAssign, (target, type, value, simple, u) =>
    return (← act target, ← act type, ← value.mapM act, simple, u)
  | .print, (dest, values, newline, u) => return (← dest.mapM act, ← values.mapM act, newline, u)
  | .forLoop, (target, iter, body, orelse, u) | .asyncFor, (target, iter, body, orelse, u) =>
    return (← act target, ← act iter, ← body.mapM act, ← orelse.mapM act, u)
  | .whileLoop, (test, body, orelse, u) | .conditional, (test, body, orelse, u) =>
    return (← act test, ← body.mapM act, ← orelse.mapM act, u)
  | .withBlock, (items, body, u) | .asyncWith, (items, body, u) =>
    return (← items.mapM act, ← body.mapM act, u)
  | .legacyWith, (expr, vars, body, u) =>
    return (← act expr, ← vars.mapM act, ← body.mapM act, u)
  | .raise, (exc, cause, u) => return (← exc.mapM act, ← cause.mapM act, u)
  | .legacyRaise, (type, inst, tback, u) =>
    return (← type.mapM act, ← inst.mapM act, ← tback.mapM act, u)
  | .tryBlock, (body, handlers, orelse, final, u) | .tryStar, (body, handlers, orelse, final, u) =>
    return (← body.mapM act, ← handlers.mapM act, ← orelse.mapM act, ← final.mapM act, u)
  | .tryExcept, (body, handlers, orelse, u) =>
    return (← body.mapM act, ← handlers.mapM act, ← orelse.mapM act, u)
  | .tryFinally, (body, final, u) => return (← body.mapM act, ← final.mapM act, u)
  | .assert, (test, message, u) => return (← act test, ← message.mapM act, u)
  | .importNames, (names, u) => return (← names.mapM act, u)
  | .importFrom, (source, names, level, u) => return (source, ← names.mapM act, level, u)
  | .exec, (body, globals, locals, u) =>
    return (← act body, ← globals.mapM act, ← locals.mapM act, u)
  | .matchBlock, (subject, cases, u) => return (← act subject, ← cases.mapM act, u)
  | .typeAlias, (name, typeParams, value, u) =>
    return (← act name, ← typeParams.mapM act, ← act value, u)
  | .exprStmt, (value, u) => return (← act value, u)
  | .boolOp, (op, values, u) => return (op, ← values.mapM act, u)
  | .namedExpr, (target, value, u) => return (← act target, ← act value, u)
  | .binOp, (left, op, right, u) => return (← act left, op, ← act right, u)
  | .unaryOp, (op, operand, u) => return (op, ← act operand, u)
  | .lambda, (args, body, u) => return (← act args, ← act body, u)
  | .ifExp, (test, body, orelse, u) => return (← act test, ← act body, ← act orelse, u)
  | .dict, (keys, values, u) =>
    return (← keys.mapM fun key => key.mapM act, ← values.mapM act, u)
  | .set, (elements, u) => return (← elements.mapM act, u)
  | .listComp, (element, generators, u) | .setComp, (element, generators, u)
  | .generatorExp, (element, generators, u) =>
    return (← act element, ← generators.mapM act, u)
  | .dictComp, (key, value, generators, u) =>
    return (← act key, ← act value, ← generators.mapM act, u)
  | .await, (value, u) => return (← act value, u)
  | .yield, (value, u) => return (← value.mapM act, u)
  | .yieldFrom, (value, u) => return (← act value, u)
  | .compare, (left, ops, comparators, u) =>
    return (← act left, ops, ← comparators.mapM act, u)
  | .call, (func, args, keywords, starargs, kwargs, u) =>
    return (← act func, ← args.mapM act, ← keywords.mapM act, ← starargs.mapM act,
      ← kwargs.mapM act, u)
  | .repr, (value, u) => return (← act value, u)
  | .formattedValue, (value, conversion, format, u) =>
    return (← act value, conversion, ← format.mapM act, u)
  | .joinedStr, (values, u) => return (← values.mapM act, u)
  | .attribute, (value, attr, u) => return (← act value, attr, u)
  | .subscript, (value, item, u) => return (← act value, ← act item, u)
  | .starred, (value, u) => return (← act value, u)
  | .list, (elements, u) | .tuple, (elements, u) => return (← elements.mapM act, u)
  | .slice, (lower, upper, step, u) =>
    return (← lower.mapM act, ← upper.mapM act, ← step.mapM act, u)
  | .index, (value, u) => return (← act value, u)
  | .extSlice, (dims, u) => return (← dims.mapM act, u)
  | .exceptHandler, (type, name, body, u) => return (← type.mapM act, name, ← body.mapM act, u)
  | .legacyExceptHandler, (type, target, body, u) =>
    return (← type.mapM act, ← target.mapM act, ← body.mapM act, u)
  | .matchValue, (value, u) => return (← act value, u)
  | .matchSequence, (patterns, u) => return (← patterns.mapM act, u)
  | .matchMapping, (keys, patterns, rest, u) =>
    return (← keys.mapM act, ← patterns.mapM act, rest, u)
  | .matchClass, (cls, patterns, attrs, values, u) =>
    return (← act cls, ← patterns.mapM act, attrs, ← values.mapM act, u)
  | .matchAs, (pattern, name, u) => return (← pattern.mapM act, name, u)
  | .matchOr, (patterns, u) => return (← patterns.mapM act, u)
  | .typeVar, (name, bound, u) => return (name, ← bound.mapM act, u)
  | .comprehension, (target, iter, conditions, async, u) =>
    return (← act target, ← act iter, ← conditions.mapM act, async, u)
  | .arguments, (posonly, args, vararg, kwonly, kwDefaults, kwarg, defaults, u) =>
    return (← posonly.mapM act, ← args.mapM act, ← vararg.mapM act, ← kwonly.mapM act,
      ← kwDefaults.mapM fun default => default.mapM act, ← kwarg.mapM act, ← defaults.mapM act, u)
  | .arg, (name, type, u) => return (name, ← type.mapM act, u)
  | .keyword, (name, value, u) => return (name, ← act value, u)
  | .withItem, (expr, vars, u) => return (← act expr, ← vars.mapM act, u)
  | .matchCase, (pattern, guard, body, u) =>
    return (← act pattern, ← guard.mapM act, ← body.mapM act, u)
  | _, fields => return fields

end Kind

end Unparse
