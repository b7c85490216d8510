import Unparse.Literal.Quoted
import Unparse.Render.Pattern
import Unparse.Tree.Access

/-! Statements, handlers and roots. A statement lays out its header and then its
blocks, one level deeper. -/
namespace Unparse.Render.Statement

/-- The view of a statement: its kind is demanded before anything else. -/
def formed (k : Kind) (form : StmtForm) (draft : Draft Unit) : StmtView where
  kind := k
  form := form
  draft := do
    Draft.demand k
    draft

def plain (k : Kind) (draft : Draft Unit) : StmtView :=
  formed k .plain draft

def drafts (body : List StmtView) : Draft Unit :=
  Draft.each (body.map StmtView.draft)

/-- An empty block holds `pass`. -/
def block (body : List StmtView) : Draft Unit :=
  Draft.block (if body.isEmpty then Draft.emit "pass" else drafts body)

/-- A string that stands alone, laid out as a docstring. -/
def docstring (value : Kind) (text : String) : Draft Unit := do
  Draft.demand .exprStmt
  Draft.demand value
  Draft.verbatim (Literal.docstring text)

/-- A block whose first statement is a docstring if it is a string that stands alone. -/
def docBlock (body : List StmtView) : Draft Unit :=
  match body with
  | [] => block []
  | first :: rest =>
    match first.form with
    | .docstring value text => Draft.block do
      docstring value text
      drafts rest
    | _ => block (first :: rest)

/-- A header and its block, unless the block would be empty. -/
def optionalBlock (header : String) (body : List StmtView) : Draft Unit :=
  if body.isEmpty then pure ()
  else do
    Draft.emit header
    block body

def elseBlock (body : List StmtView) : Draft Unit :=
  optionalBlock "else:" body

def finallyBlock (body : List StmtView) : Draft Unit :=
  optionalBlock "finally:" body

def decorators (es : List ExprView) : Draft Unit :=
  Draft.each (es.map fun e => do Draft.emit ("@" ++ (← e.text)))

def functionDef (k : Kind) (keyword name : String) (args : Bool → Draft String)
    (body : List StmtView) (decoration : List ExprView) (returns : Option ExprView)
    (typeParams : List (Draft String)) : StmtView :=
  plain k do
    decorators decoration
    let generic ← Pattern.typeParams typeParams
    let params ← args true
    let result ← ExprView.after " -> " returns
    Draft.emit (keyword ++ " " ++ name ++ generic ++ "(" ++ params ++ ")" ++ result ++ ":")
    docBlock body

/-- Parentheses stand only around something. -/
def parenthesized (parts : List String) : String :=
  if parts.isEmpty then "" else "(" ++ String.intercalate ", " parts ++ ")"

def classDef (name : String) (bases : List ExprView) (keywords : List (Draft String))
    (body : List StmtView) (decoration : List ExprView) (typeParams : List (Draft String)) :
    StmtView :=
  plain .classDef do
    decorators decoration
    let positional ← ExprView.texts bases
    let named ← Draft.all keywords
    let generic ← Pattern.typeParams typeParams
    Draft.emit ("class " ++ name ++ generic ++ parenthesized (positional ++ named) ++ ":")
    docBlock body

def returnStmt (value : Option ExprView) : StmtView :=
  plain .returnStmt do Draft.emit ("return" ++ (← ExprView.after " " value))

def delete (targets : List ExprView) : StmtView :=
  plain .delete do
    Draft.refuse targets.isEmpty .delete .noTargets
    Draft.emit ("del " ++ (← ExprView.joined ", " targets))

def assign (targets : List ExprView) (value : ExprView) : StmtView :=
  plain .assign do
    Draft.refuse targets.isEmpty .assign .noTargets
    Draft.emit (← ExprView.joined " = " (targets ++ [value]))

def augAssign (target : ExprView) (op : Kind) (value : ExprView) : StmtView :=
  plain .augAssign do
    Draft.demand op
    Draft.emit ((← target.text) ++ " " ++ op.token ++ "= " ++ (← value.text))

/-- A name that is not a simple target stands in parentheses. -/
def annotatedTarget (k : Kind) (simple : Bool) (text : String) : String :=
  if k = .nameExpr && !simple then "(" ++ text ++ ")" else text

def annAssign (target type : ExprView) (value : Option ExprView) (simple : Bool) : StmtView :=
  plain .annAssign do
    let left := annotatedTarget target.kind simple (← target.text)
    Draft.emit (left ++ ": " ++ (← type.text) ++ (← ExprView.after " = " value))

/-- A comma at the end keeps the line open; it needs a value before it. -/
def printedValues (dest : Bool) (newline : Bool) (values : List ExprView) : Draft String := do
  if values.isEmpty then return ""
  let lead := if dest then ", " else " "
  return lead ++ (← ExprView.joined ", " values) ++ (if newline then "" else ",")

def print (dest : Option ExprView) (values : List ExprView) (newline : Bool) : StmtView :=
  plain .print do
    let target ← ExprView.after " >>" dest
    let printed ← printedValues dest.isSome newline values
    Draft.emit ("print" ++ target ++ printed)

def forLoop (k : Kind) (keyword : String) (target iter : ExprView)
    (body orelse : List StmtView) : StmtView :=
  plain k do
    Draft.emit (keyword ++ " " ++ (← target.text) ++ " in " ++ (← iter.text) ++ ":")
    block body
    elseBlock orelse

/-- A loop or a choice by a test. -/
def tested (k : Kind) (keyword : String) (test : ExprView) (body orelse : List StmtView) :
    StmtView :=
  plain k do
    Draft.emit (keyword ++ " " ++ (← test.text) ++ ":")
    block body
    elseBlock orelse

/-- A context and what it is bound to. -/
def context (expr : ExprView) (vars : Option ExprView) : Draft String :=
  return (← expr.text) ++ (← ExprView.after " as " vars)

def withItem (expr : ExprView) (vars : Option ExprView) : Draft String := do
  Draft.demand .withItem
  context expr vars

def withBlock (k : Kind) (keyword : String) (items : List (Draft String))
    (body : List StmtView) : StmtView :=
  plain k do
    Draft.refuse items.isEmpty k .noContextItems
    Draft.emit (keyword ++ " " ++ String.intercalate ", " (← Draft.all items) ++ ":")
    block body

def legacyWith (expr : ExprView) (vars : Option ExprView) (body : List StmtView) : StmtView :=
  plain .legacyWith do
    Draft.emit ("with " ++ (← context expr vars) ++ ":")
    block body

def raise (exc cause : Option ExprView) : StmtView :=
  plain .raise do
    Draft.refuse (exc.isNone && cause.isSome) .raise .causeAlone
    Draft.emit ("raise" ++ (← ExprView.after " " exc) ++ (← ExprView.after " from " cause))

/-- The place of a missing instance before a traceback is filled by `None`. -/
def raisedInstance (inst tback : Option ExprView) : Draft String :=
  match inst, tback with
  | none, some _ => pure ", None"
  | inst, _ => ExprView.after ", " inst

def legacyRaise (type inst tback : Option ExprView) : StmtView :=
  plain .legacyRaise do
    match type with
    | none =>
      Draft.refuse (inst.isSome || tback.isSome) .legacyRaise .instanceAlone
      Draft.emit "raise"
    | some t =>
      let first ← t.text
      let second ← raisedInstance inst tback
      Draft.emit ("raise " ++ first ++ second ++ (← ExprView.after ", " tback))

/-- The part of a try statement before its final block. -/
def tryClauses (body : List StmtView) (handlers : List (Bool → Draft Unit)) (star : Bool)
    (orelse : List StmtView) : Draft Unit := do
  Draft.emit "try:"
  block body
  Draft.each (handlers.map (· star))
  elseBlock orelse

def tryBlock (k : Kind) (star : Bool) (body : List StmtView)
    (handlers : List (Bool → Draft Unit)) (orelse final : List StmtView) : StmtView :=
  plain k do
    Draft.refuse (handlers.isEmpty && final.isEmpty) k .noHandlersNorFinally
    Draft.refuse (handlers.isEmpty && !orelse.isEmpty) k .elseWithoutHandlers
    tryClauses body handlers star orelse
    finallyBlock final

def tryExcept (body : List StmtView) (handlers : List (Bool → Draft Unit))
    (orelse : List StmtView) : StmtView :=
  let clauses := tryClauses body handlers false orelse
  formed .tryExcept (if handlers.isEmpty then .plain else .tryExcept clauses) do
    Draft.refuse handlers.isEmpty .tryExcept .noHandlers
    clauses

/-- A try statement that is all of the body becomes one statement with the final block. -/
def finallyBody (body : List StmtView) : Draft Unit :=
  let nested : Draft Unit := do
    Draft.emit "try:"
    block body
  match body with
  | [only] =>
    match only.form with
    | .tryExcept clauses => do
      Draft.demand .tryExcept
      clauses
    | _ => nested
  | _ => nested

def tryFinally (body final : List StmtView) : StmtView :=
  plain .tryFinally do
    finallyBody body
    Draft.emit "finally:"
    block final

def assert (test : ExprView) (message : Option ExprView) : StmtView :=
  plain .assert do
    Draft.emit ("assert " ++ (← test.text) ++ (← ExprView.after ", " message))

def importedName (name : String) (asname : Option String) : Draft String := do
  Draft.demand .importedName
  return match asname with
    | some other => name ++ " as " ++ other
    | none => name

def importNames (names : List (Draft String)) : StmtView :=
  plain .importNames do
    Draft.refuse names.isEmpty .importNames .noNames
    Draft.emit ("import " ++ String.intercalate ", " (← Draft.all names))

def importFrom (source : Option String) (names : List (Draft String)) (level : UInt32) :
    StmtView :=
  formed .importFrom (if isFuture source level then .futureImport else .plain) do
    Draft.refuse names.isEmpty .importFrom .noNames
    Draft.refuse (source.isNone && level == 0) .importFrom .absoluteWithoutModule
    let origin := Text.copies level.toNat "." ++ source.getD ""
    Draft.emit ("from " ++ origin ++ " import " ++ String.intercalate ", " (← Draft.all names))

def exec (body : ExprView) (globals locals : Option ExprView) : StmtView :=
  plain .exec do
    let code ← body.text
    Draft.refuse (globals.isNone && locals.isSome) .exec .localsAlone
    let scope ← ExprView.after " in " globals
    Draft.emit ("exec " ++ code ++ scope ++ (← ExprView.after ", " locals))

def matchCase (pattern : Draft String) (guard : Option ExprView) (body : List StmtView) :
    Draft Unit := do
  Draft.demand .matchCase
  Draft.emit ("case " ++ (← pattern) ++ (← ExprView.after " if " guard) ++ ":")
  block body

def matchBlock (subject : ExprView) (cases : List (Draft Unit)) : StmtView :=
  plain .matchBlock do
    Draft.refuse cases.isEmpty .matchBlock .noCases
    Draft.emit ("match " ++ (← subject.text) ++ ":")
    Draft.block (Draft.each cases)

def typeAlias (name : ExprView) (typeParams : List (Draft String)) (value : ExprView) :
    StmtView :=
  plain .typeAlias do
    let left ← name.text
    let generic ← Pattern.typeParams typeParams
    Draft.emit ("type " ++ left ++ generic ++ " = " ++ (← value.text))

def declaration (k : Kind) (keyword : String) (names : List String) : StmtView :=
  plain k do
    Draft.refuse names.isEmpty k .noNames
    Draft.emit (keyword ++ " " ++ String.intercalate ", " names)

def exprForm (e : ExprView) : StmtForm :=
  match e.form with
  | .string text => .docstring e.kind text
  | _ => .plain

def exprStmt (e : ExprView) : StmtView :=
  formed .exprStmt (exprForm e) do Draft.emit (← e.text)

def word (k : Kind) (text : String) : StmtView :=
  plain k (Draft.emit text)

def exceptWord (star : Bool) : String :=
  if star then "except*" else "except"

def exceptHandler (type : Option ExprView) (name : Option String) (body : List StmtView)
    (star : Bool) : Draft Unit := do
  Draft.demand .exceptHandler
  match type with
  | none =>
    Draft.refuse name.isSome .exceptHandler .nameWithoutType
    Draft.refuse star .exceptHandler .starWithoutType
    Draft.emit (exceptWord star ++ ":")
  | some t =>
    let bound := match name with
      | some n => " as " ++ n
      | none => ""
    Draft.emit (exceptWord star ++ " " ++ (← t.text) ++ bound ++ ":")
  block body

def legacyExceptHandler (type target : Option ExprView) (body : List StmtView) (star : Bool) :
    Draft Unit := do
  Draft.demand .legacyExceptHandler
  Draft.refuse star .tryStar .legacyInStar
  match type with
  | none =>
    Draft.refuse target.isSome .legacyExceptHandler .targetWithoutType
    Draft.emit "except:"
  | some t => Draft.emit ("except " ++ (← t.text) ++ (← ExprView.after ", " target) ++ ":")
  block body

def isFutureImport (s : StmtView) : Bool :=
  match s.form with
  | .futureImport => true
  | _ => false

/-- Imports from the future come before every other statement. -/
def hoisted (body : List StmtView) : List StmtView :=
  body.filter isFutureImport ++ body.filter (!isFutureImport ·)

def module (body : List StmtView) : Draft Unit := do
  Draft.demand .module
  match body with
  | [] => pure ()
  | first :: rest =>
    match first.form with
    | .docstring value text =>
      docstring value text
      drafts (hoisted rest)
    | _ => drafts (hoisted body)

/-- The other roots keep their statements in order. -/
def sequence (k : Kind) (body : List StmtView) : Draft Unit := do
  Draft.demand k
  drafts body

def expression (body : ExprView) : Draft Unit := do
  Draft.demand .expression
  Draft.emit (← body.text)

end Unparse.Render.Statement
