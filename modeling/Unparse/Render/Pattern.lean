import Unparse.Render.Expression

/-! Patterns and type parameters. -/
namespace Unparse.Render.Pattern

/-- A pattern demands its kind before anything else. -/
def formed (k : Kind) (text : Draft String) : Draft String := do
  Draft.demand k
  text

def matchValue (value : ExprView) : Draft String :=
  formed .matchValue value.text

def matchSingleton (value : Singleton) : Draft String :=
  formed .matchSingleton (pure value.text)

def matchSequence (patterns : List (Draft String)) : Draft String :=
  formed .matchSequence do return "[" ++ String.intercalate ", " (← Draft.all patterns) ++ "]"

def mappingEntry (key : ExprView) (value : Draft String) : Draft String :=
  return (← key.text) ++ ": " ++ (← value)

def restEntry : Option String → List String
  | some name => ["**" ++ name]
  | none => []

def matchMapping (keys : List ExprView) (patterns : List (Draft String)) (rest : Option String) :
    Draft String :=
  formed .matchMapping do
    Draft.refuse (keys.length != patterns.length) .matchMapping
      (.keysAndPatterns keys.length patterns.length)
    let entries ← Draft.all ((keys.zip patterns).map fun (k, p) => mappingEntry k p)
    return Expression.braced (String.intercalate ", " (entries ++ restEntry rest))

def keywordEntry (attr : String) (value : Draft String) : Draft String :=
  return attr ++ "=" ++ (← value)

/-- The sub-patterns are rendered before the class. -/
def matchClass (cls : ExprView) (patterns : List (Draft String)) (attrs : List String)
    (values : List (Draft String)) : Draft String :=
  formed .matchClass do
    Draft.refuse (attrs.length != values.length) .matchClass
      (.keywordsAndPatterns attrs.length values.length)
    let positional ← Draft.all patterns
    let named ← Draft.all ((attrs.zip values).map fun (a, v) => keywordEntry a v)
    return (← cls.text) ++ "(" ++ String.intercalate ", " (positional ++ named) ++ ")"

def matchStar (name : Option String) : Draft String :=
  formed .matchStar (pure ("*" ++ name.getD "_"))

/-- Without a pattern it captures, without a name as well it is the wildcard. -/
def matchAs (pattern : Option (Draft String)) (name : Option String) : Draft String :=
  formed .matchAs do
    match pattern, name with
    | none, none => return "_"
    | none, some n => return n
    | some p, some n => return "(" ++ (← p) ++ " as " ++ n ++ ")"
    | some _, none => Draft.fail .matchAs .patternWithoutName

def matchOr (patterns : List (Draft String)) : Draft String :=
  formed .matchOr do
    Draft.refuse (patterns.length < 2) .matchOr .fewAlternatives
    return "(" ++ String.intercalate " | " (← Draft.all patterns) ++ ")"

def typeVar (name : String) (bound : Option ExprView) : Draft String :=
  formed .typeVar do return name ++ (← ExprView.after ": " bound)

def paramSpec (name : String) : Draft String :=
  formed .paramSpec (pure ("**" ++ name))

def typeVarTuple (name : String) : Draft String :=
  formed .typeVarTuple (pure ("*" ++ name))

/-- A list of type parameters in brackets, or nothing. -/
def typeParams (params : List (Draft String)) : Draft String := do
  if params.isEmpty then return ""
  return "[" ++ String.intercalate ", " (← Draft.all params) ++ "]"

end Unparse.Render.Pattern
