import Unparse.Proofs.Tree.Reachable
import Unparse.Render

/-! Well formed nodes. What is asked of the fields of a node is said here kind by kind,
apart from any rendering. What an f-string needs beyond that depends on the text of its
replacement fields. -/
namespace Unparse

namespace Kind

/-- The kinds that are written as f-strings. -/
def isFString (k : Kind) : Bool :=
  k == .joinedStr || k == .formattedValue

def allParameters (posonly args : List (Node .arg)) (vararg : Option (Node .arg))
    (kwonly : List (Node .arg)) (kwarg : Option (Node .arg)) : List (Node .arg) :=
  posonly ++ args ++ vararg.toList ++ kwonly ++ kwarg.toList

/-- The parameters in a parameter list. -/
def parameters : (k : Kind) → Value Node k.shape → List (Node .arg)
  | .arguments, (posonly, args, vararg, kwonly, _, kwarg, _) =>
    allParameters posonly args vararg kwonly kwarg
  | _, _ => []

/-- A parameter with a type. -/
def isAnnotated : (k : Kind) → Value Node k.shape → Bool
  | .arg, (_, type, _) => type.isSome
  | _, _ => false

/-- A handler of the newer kind, with a type. -/
def isTyped : (k : Kind) → Value Node k.shape → Bool
  | .exceptHandler, (type, _, _, _) => type.isSome
  | _, _ => false

/-- The literal of a string. -/
def isText : (k : Kind) → Value Node k.shape → Bool
  | .str, _ => true
  | .constant, (.str _, _) => true
  | _, _ => false

end Kind

namespace Node

variable {f : Family}

def parameters : Node f → List (Node .arg)
  | .node k fields _ => k.parameters fields.values

def isAnnotated : Node f → Bool
  | .node k fields _ => k.isAnnotated fields.values

def isTyped : Node f → Bool
  | .node k fields _ => k.isTyped fields.values

def isText : Node f → Bool
  | .node k fields _ => k.isText fields.values

/-- What may stand in an f-string: a string or a replacement field. -/
def isPart (e : Node f) : Bool :=
  e.isText || e.kind == .formattedValue

end Node

namespace Kind

/-- Handlers, or else a final block and nothing that would only run after handlers. -/
def completes (handlers : List (Node .handler)) (orelse final : List (Node .stmt)) : Bool :=
  !handlers.isEmpty || (!final.isEmpty && orelse.isEmpty)

/-- An import names a module, or how many packages up to look. -/
def hasOrigin (source : Option String) (level : UInt32) : Bool :=
  source.isSome || 0 < level

/-- What is asked of the fields of a node. -/
def isWellFormed : (k : Kind) → Value Node k.shape → Bool
  | .boolOp, (_, values, _) => 2 ≤ values.length
  | .compare, (_, ops, comparators, _) => !ops.isEmpty && ops.length == comparators.length
  | .dict, (keys, values, _) => keys.length == values.length
  | .listComp, (_, generators, _) => !generators.isEmpty
  | .setComp, (_, generators, _) => !generators.isEmpty
  | .dictComp, (_, _, generators, _) => !generators.isEmpty
  | .generatorExp, (_, generators, _) => !generators.isEmpty
  | .lambda, (args, _) => args.parameters.all (!·.isAnnotated)
  | .joinedStr, (values, _) => values.all Node.isPart
  | .formattedValue, (_, _, format, _) => format.all (·.kind == .joinedStr)
  | .extSlice, (dims, _) => !dims.isEmpty
  | .arguments, (posonly, args, _, kwonly, kwDefaults, _, defaults, _) =>
    defaults.length ≤ posonly.length + args.length &&
      (kwDefaults.isEmpty || kwDefaults.length == kwonly.length)
  | .delete, (targets, _) => !targets.isEmpty
  | .assign, (targets, _) => !targets.isEmpty
  | .withBlock, (items, _) => !items.isEmpty
  | .asyncWith, (items, _) => !items.isEmpty
  | .importNames, (names, _) => !names.isEmpty
  | .importFrom, (source, names, level, _) => !names.isEmpty && hasOrigin source level
  | .global, (names, _) => !names.isEmpty
  | .nonlocal, (names, _) => !names.isEmpty
  | .raise, (exc, cause, _) => exc.isSome || cause.isNone
  | .legacyRaise, (type, inst, tback, _) => type.isSome || (inst.isNone && tback.isNone)
  | .exec, (_, globals, locals, _) => globals.isSome || locals.isNone
  | .tryBlock, (_, handlers, orelse, final, _) => completes handlers orelse final
  | .tryStar, (_, handlers, orelse, final, _) =>
    handlers.all Node.isTyped && completes handlers orelse final
  | .tryExcept, (_, handlers, _) => !handlers.isEmpty
  | .exceptHandler, (type, name, _) => type.isSome || name.isNone
  | .legacyExceptHandler, (type, target, _) => type.isSome || target.isNone
  | .matchBlock, (_, cases, _) => !cases.isEmpty
  | .matchMapping, (keys, patterns, _) => keys.length == patterns.length
  | .matchClass, (_, _, attrs, values, _) => attrs.length == values.length
  | .matchAs, (pattern, name, _) => name.isSome || pattern.isNone
  | .matchOr, (patterns, _) => 2 ≤ patterns.length
  | _, _ => true

end Kind

def Node.isWellFormed {f : Family} : Node f → Bool
  | .node k fields _ => k.isWellFormed fields.values

/-- What is asked of the own fields of a node holds. -/
def AnyNode.isWellFormed (n : AnyNode) : Bool :=
  n.node.isWellFormed

/-- Each quote style is either in some replacement field, or is a short one while some field
has several lines. -/
def Render.FString.isCrowded (segments : List Segment) : Bool :=
  quotes.all fun q => codesContain segments q.text || (!q.triple && codesContain segments "\n")

/-- What an f-string is made of; other expressions have no segments. -/
def ExprView.segments? (e : ExprView) : Option (List Segment) :=
  match e.form with
  | .field segments => segments.outcome.toOption
  | .joined segments => segments.outcome.toOption
  | _ => none

def View.segments? : (f : Family) → View f → Option (List Segment)
  | .expr, v => ExprView.segments? v
  | _, _ => none

namespace AnyNode

/-- The segments of an f-string whose parts can all be rendered. -/
def segments? (n : AnyNode) : Option (List Segment) :=
  View.segments? n.family (Render.view n.node)

/-- If it is an f-string, some quote style is left for it. -/
def HasQuote (n : AnyNode) : Prop :=
  ∀ segments, n.segments? = some segments → Render.FString.isCrowded segments = false

/-- It is an f-string with a backslash in a replacement field. -/
def HasBackslash (n : AnyNode) : Prop :=
  ∃ segments, n.segments? = some segments ∧
    Render.FString.codesContain segments "\\" = true

end AnyNode

end Unparse
