import Unparse.Render.View

/-! Parameter lists. -/
namespace Unparse.Render.Parameters

/-- Parameters of a lambda are never annotated. -/
def arg (name : String) (type : Option ExprView) : ArgView where
  name := name
  annotated := type.isSome
  text allowed := do
    Draft.demand .arg
    match type with
    | none => return name
    | some t =>
      if allowed then return name ++ ": " ++ (← t.text)
      else Draft.fail .lambda (.annotatedParameter name)

/-- Blanks stand around the sign of a default only after an annotation. -/
def withDefault (allowed : Bool) (a : ArgView) (default : Option ExprView) : Draft String := do
  let text ← a.text allowed
  let value ← ExprView.after (if a.annotated then " = " else "=") default
  return text ++ value

/-- Defaults belong to the last of the positional parameters. -/
def alignDefaults (positional : Nat) (defaults : List ExprView) : List (Option ExprView) :=
  List.replicate (positional - defaults.length) none ++ defaults.map some

theorem length_alignDefaults {positional : Nat} {defaults : List ExprView}
    (h : defaults.length ≤ positional) :
    (alignDefaults positional defaults).length = positional := by
  simp only [alignDefaults, List.length_append, List.length_replicate, List.length_map]
  omega

/-- Without any keyword-only default, no keyword-only parameter has one. -/
def alignKeywordDefaults (keywordOnly : Nat) (defaults : List (Option ExprView)) :
    List (Option ExprView) :=
  if defaults.isEmpty then List.replicate keywordOnly none else defaults

theorem length_alignKeywordDefaults {keywordOnly : Nat} {defaults : List (Option ExprView)}
    (h : (!defaults.isEmpty && defaults.length != keywordOnly) = false) :
    (alignKeywordDefaults keywordOnly defaults).length = keywordOnly := by
  unfold alignKeywordDefaults
  split
  next => exact List.length_replicate ..
  next hempty => simpa [hempty] using h

def withDefaults (allowed : Bool) (args : List ArgView) (defaults : List (Option ExprView)) :
    Draft (List String) :=
  Draft.all ((args.zip defaults).map fun (a, d) => withDefault allowed a d)

/-- A slash ends the positional-only parameters. -/
def slashAfter (count : Nat) (texts : List String) : List String :=
  if count = 0 then texts else texts.take count ++ "/" :: texts.drop count

/-- A bare star stands in for the missing variadic parameter before keyword-only ones. -/
def star (allowed : Bool) (keywordOnly : Bool) : Option ArgView → Draft (List String)
  | some a => return ["*" ++ (← a.text allowed)]
  | none => return if keywordOnly then ["*"] else []

def doubleStar (allowed : Bool) : Option ArgView → Draft (List String)
  | some a => return ["**" ++ (← a.text allowed)]
  | none => return []

def arguments (posonly args : List ArgView) (vararg : Option ArgView) (kwonly : List ArgView)
    (kwDefaults : List (Option ExprView)) (kwarg : Option ArgView) (defaults : List ExprView)
    (allowed : Bool) : Draft String := do
  Draft.demand .arguments
  let positional := posonly ++ args
  Draft.refuse (positional.length < defaults.length) .arguments .surplusDefaults
  Draft.refuse (!kwDefaults.isEmpty && kwDefaults.length != kwonly.length) .arguments
    .unmatchedKeywordDefaults
  let first ← withDefaults allowed positional (alignDefaults positional.length defaults)
  let variadic ← star allowed (!kwonly.isEmpty) vararg
  let keywords ← withDefaults allowed kwonly (alignKeywordDefaults kwonly.length kwDefaults)
  let last ← doubleStar allowed kwarg
  return String.intercalate ", " (slashAfter posonly.length first ++ variadic ++ keywords ++ last)

end Unparse.Render.Parameters
