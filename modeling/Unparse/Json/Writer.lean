import Unparse.Binary64.Shortest
import Unparse.Json

/-! Writing JSON text, on one line or indented by two spaces a level. -/
namespace Unparse.Json

/-- The short escapes of control characters. -/
def shortEscapes : List (Char × Char) :=
  [('\x08', 'b'), ('\t', 't'), ('\n', 'n'), ('\x0c', 'f'), ('\r', 'r')]

/-- Quote, backslash and the characters below U+0020 are escaped. -/
def writtenChar (c : Char) : List Char :=
  if c = '\x22' ∨ c = '\\' then ['\\', c]
  else match shortEscapes.lookup c with
    | some e => ['\\', e]
    | none => if c.toNat < 0x20 then '\\' :: 'u' :: Text.hex 4 c.toNat else [c]

def writtenText (s : String) : String :=
  String.ofList ('\x22' :: (s.toList.flatMap writtenChar ++ ['\x22']))

/-- Exponents from -5 to 15 are written positionally, others with no more digits than needed. -/
def floatLayout : Layout := ⟨-5, 16, 1⟩

/-- A double that is no number is written as `null`. -/
def writtenFloat (x : Binary64) : String :=
  if x.isFinite then
    let magnitude := String.ofList ((x.scientific .even).written floatLayout)
    if x.negative then "-" ++ magnitude else magnitude
  else "null"

/-- The written form of what is neither array nor object. -/
def writtenScalar : Json → String
  | bool true => "true"
  | bool false => "false"
  | int i => Text.signedDecimal i
  | float x => writtenFloat x
  | str s => writtenText s
  | _ => "null"

mutual

def compact : Json → String
  | arr items => "[" ++ String.intercalate "," (compactItems items) ++ "]"
  | obj members => "\x7b" ++ String.intercalate "," (compactMembers members) ++ "\x7d"
  | scalar => writtenScalar scalar

def compactItems : List Json → List String
  | [] => []
  | item :: more => item.compact :: compactItems more

def compactMembers : List (String × Json) → List String
  | [] => []
  | member :: more => compactMember member :: compactMembers more

def compactMember : String × Json → String
  | (name, value) => writtenText name ++ ":" ++ value.compact

end

def newline (level : Nat) : String :=
  "\n" ++ Text.copies level "  "

/-- The lines between two brackets; an empty container has none. -/
def bracketed (level : Nat) (left right : String) (parts : List String) : String :=
  if parts.isEmpty then left ++ right
  else
    let inner := newline (level + 1)
    left ++ inner ++ String.intercalate ("," ++ inner) parts ++ newline level ++ right

mutual

def indented (level : Nat) : Json → String
  | arr items => bracketed level "[" "]" (indentedItems (level + 1) items)
  | obj members => bracketed level "\x7b" "\x7d" (indentedMembers (level + 1) members)
  | scalar => writtenScalar scalar

def indentedItems (level : Nat) : List Json → List String
  | [] => []
  | item :: more => item.indented level :: indentedItems level more

def indentedMembers (level : Nat) : List (String × Json) → List String
  | [] => []
  | member :: more => indentedMember level member :: indentedMembers level more

def indentedMember (level : Nat) : String × Json → String
  | (name, value) => writtenText name ++ ": " ++ value.indented level

end

/-- The document on lines of its own. -/
def pretty (j : Json) : String :=
  j.indented 0

end Unparse.Json
