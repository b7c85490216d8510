import Unparse.Grammar.Kind

/-! Why a rendering fails. -/
namespace Unparse

/-- What is wrong with the fields of a node. -/
inductive Fault where
  | fewOperands
  | keysAndValues (keys values : Nat)
  | noGenerators
  | noComparisons
  | operatorsAndComparators (operators comparators : Nat)
  | noDimensions
  | annotatedParameter (name : String)
  | surplusDefaults
  | unmatchedKeywordDefaults
  | unexpectedPart (kind : Kind)
  | formatSpec (kind : Kind)
  | backslash
  | everyQuote
  | noTargets
  | noContextItems
  | causeAlone
  | instanceAlone
  | noHandlersNorFinally
  | elseWithoutHandlers
  | noHandlers
  | noNames
  | absoluteWithoutModule
  | localsAlone
  | noCases
  | starWithoutType
  | nameWithoutType
  | legacyInStar
  | targetWithoutType
  | keysAndPatterns (keys patterns : Nat)
  | keywordsAndPatterns (keywords patterns : Nat)
  | patternWithoutName
  | fewAlternatives
  /-- A fault that a client of the layout states in its own words. -/
  | stated (reason : String)
deriving DecidableEq, Repr

namespace Fault

def counts (n : Nat) (these : String) (m : Nat) (those : String) : String :=
  Text.decimal n ++ " " ++ these ++ " but " ++ Text.decimal m ++ " " ++ those

def reason : Fault → String
  | fewOperands => "fewer than two operands"
  | keysAndValues n m => counts n "keys" m "values"
  | noGenerators => "no generators"
  | noComparisons => "no comparisons"
  | operatorsAndComparators n m => counts n "operators" m "comparators"
  | noDimensions => "no dimensions"
  | annotatedParameter name => "parameter '" ++ name ++ "' is annotated"
  | surplusDefaults => "more defaults than positional parameters"
  | unmatchedKeywordDefaults => "keyword-only defaults do not match keyword-only parameters"
  | unexpectedPart kind => "unexpected '" ++ kind.name ++ "' part"
  | formatSpec kind => "format spec is a '" ++ kind.name ++ "' node"
  | backslash => "backslash inside a replacement field"
  | everyQuote => "replacement fields use every quote style"
  | noTargets => "no targets"
  | noContextItems => "no context items"
  | causeAlone => "cause without exception"
  | instanceAlone => "instance or traceback without exception type"
  | noHandlersNorFinally => "neither handlers nor finally block"
  | elseWithoutHandlers => "else block without handlers"
  | noHandlers => "no handlers"
  | noNames => "no names"
  | absoluteWithoutModule => "absolute import without a module"
  | localsAlone => "locals without globals"
  | noCases => "no cases"
  | starWithoutType => "except* without a type"
  | nameWithoutType => "name without exception type"
  | legacyInStar => "legacy handler in except* statement"
  | targetWithoutType => "target without exception type"
  | keysAndPatterns n m => counts n "keys" m "patterns"
  | keywordsAndPatterns n m => counts n "keyword names" m "keyword patterns"
  | patternWithoutName => "pattern without a name"
  | fewAlternatives => "fewer than two alternatives"
  | stated reason => reason

end Fault

/-- A fault and the kind of node it is blamed on. -/
structure Flaw where
  kind : Kind
  fault : Fault
deriving DecidableEq, Repr

inductive RenderError where
  | unsupported (kind : Kind) (dialect : Dialect)
  | malformed (flaw : Flaw)
deriving DecidableEq, Repr

namespace RenderError

def kind : RenderError → Kind
  | unsupported kind _ => kind
  | malformed flaw => flaw.kind

def message : RenderError → String
  | unsupported kind dialect =>
    "no render rule for node kind '" ++ kind.name ++ "' under Python " ++ dialect.text
  | malformed flaw => "malformed '" ++ flaw.kind.name ++ "' node: " ++ flaw.fault.reason

end RenderError

end Unparse
