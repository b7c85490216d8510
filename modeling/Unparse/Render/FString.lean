import Unparse.Literal.Quoted
import Unparse.Render.View

/-! F-strings. Segments are gathered from the parts and then joined under the first
quote style that no replacement field contains. -/
namespace Unparse.Render.FString

structure Quote where
  mark : Char
  triple : Bool
deriving DecidableEq, Repr

def Quote.text (q : Quote) : String :=
  String.ofList (List.replicate (if q.triple then 3 else 1) q.mark)

/-- The quote styles in order of preference. -/
def quotes : List Quote :=
  [⟨Literal.singleQuote, false⟩, ⟨Literal.doubleQuote, false⟩,
    ⟨Literal.singleQuote, true⟩, ⟨Literal.doubleQuote, true⟩]

def codes (segments : List Segment) : List String :=
  segments.filterMap fun
    | .code text => some text
    | .literal _ => none

/-- Whether some replacement field contains the text. -/
def codesContain (segments : List Segment) (needle : String) : Bool :=
  (codes segments).any (Text.contains · needle)

/-- Fields of several lines need a triple quote. -/
def quote? (segments : List Segment) : Option Quote :=
  let multiline := codesContain segments "\n"
  quotes.find? fun q => (!multiline || q.triple) && !codesContain segments q.text

theorem quote?_mem {segments : List Segment} {q : Quote} (h : quote? segments = some q) :
    q ∈ quotes := by
  unfold quote? at h
  exact List.mem_of_find?_eq_some h

/-- Outside of replacement fields a brace is written twice. -/
def doubleBrace (c : Char) : List Char :=
  if c = '\x7b' ∨ c = '\x7d' then [c, c] else [c]

def segmentText (q : Quote) : Segment → String
  | .literal text =>
    String.ofList ((Literal.escape Literal.isHidden q.mark text.toList).flatMap doubleBrace)
  | .code text => text

def body (q : Quote) (segments : List Segment) : String :=
  String.join (segments.map (segmentText q))

/-- The f-string of some segments, for a node of kind `k`. -/
def joined (k : Kind) (segments : List Segment) : Draft String := do
  if codesContain segments "\\" then Draft.demandBackslash k
  match quote? segments with
  | none => Draft.fail k .everyQuote
  | some q => return "f" ++ q.text ++ body q segments ++ q.text

/-- A part of an f-string is a string or a replacement field. -/
def part (e : ExprView) : Draft (List Segment) :=
  match e.form with
  | .string text => do
    Draft.demand e.kind
    return [.literal text]
  | .field segments => segments
  | _ => Draft.fail .joinedStr (.unexpectedPart e.kind)

def parts (es : List ExprView) : Draft (List Segment) :=
  return (← Draft.all (es.map part)).flatten

/-- Two opening braces in a row would read as one that is doubled. -/
def openField (text : String) : String :=
  if Text.startsWith text "\x7b" then "\x7b " ++ text else "\x7b" ++ text

def conversionText : Option Conversion → String
  | none => ""
  | some c => "!" ++ c.text

/-- A format spec is an f-string again. -/
def spec : Option ExprView → Draft (List Segment)
  | none => pure []
  | some e =>
    match e.form with
    | .joined segments => do
      Draft.demand .joinedStr
      return .code ":" :: (← segments)
    | _ => Draft.fail .formattedValue (.formatSpec e.kind)

def field (value : ExprView) (conversion : Option Conversion) (format : Option ExprView) :
    Draft (List Segment) := do
  Draft.demand .formattedValue
  let text ← value.text
  let more ← spec format
  return .code (openField text ++ conversionText conversion) :: (more ++ [.code "\x7d"])

def formattedValue (value : ExprView) (conversion : Option Conversion)
    (format : Option ExprView) : ExprView :=
  let segments := field value conversion format
  .formed .formattedValue (.field segments) do joined .formattedValue (← segments)

def joinedStr (values : List ExprView) : ExprView :=
  let segments := parts values
  .formed .joinedStr (.joined segments) do joined .joinedStr (← segments)

end Unparse.Render.FString
