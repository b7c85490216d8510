import Unparse.Json
import Unparse.Tree

/-! Trees as documents. An operator is written as its word, any other node as an
object; the nodes of a family with several kinds give the word for their kind first. -/
namespace Unparse

/-- Families whose written nodes name their kind. -/
def Family.isTagged (f : Family) : Bool :=
  f.isAbstract && !f.isOperator

namespace Encode

def position (p : Position) : Json :=
  .obj [("lineno", .int p.line.toNat), ("col_offset", .int p.column.toNat)]

/-- An integer beyond 64 bits is written as a text. -/
def integer (i : Int) : Json :=
  if Json.isWordSized i then .int i else .str (Text.signedDecimal i)

def complex (real imag : Binary64) : Json :=
  .obj [("real", .float real), ("imag", .float imag)]

def byte (b : UInt8) : Json :=
  .int b.toNat

def number : Number → Json
  | .int i => integer i
  | .float x => .float x
  | .complex real imag => complex real imag

def constant : Constant → Json
  | .none => .str "none"
  | .ellipsis => .str "ellipsis"
  | .bool b => .obj [("bool", .bool b)]
  | .int i => .obj [("int", integer i)]
  | .float x => .obj [("float", .float x)]
  | .complex real imag => .obj [("complex", complex real imag)]
  | .str s => .obj [("str", .str s)]
  | .bytes bs => .obj [("bytes", .arr (bs.map byte))]

def scalar : (a : Scalar) → a.Carrier → Json
  | .text, s => .str s
  | .flag _, b => .bool b
  | .level, n => .int n.toNat
  | .byte, b => byte b
  | .number, n => number n
  | .constant, c => constant c
  | .singleton, v => .str v.text
  | .conversion, v => .str v.text

/-- Every node has become its document. -/
abbrev Documents (s : Shape) : Type :=
  Value (fun _ => Json) s

def value : (s : Shape) → Documents s → Json
  | .node _, j => j
  | .scalar a, v => scalar a v
  | .option _, none => .null
  | .option s, some v => value s v
  | .list s, vs => .arr (vs.map (value s))
  | .done, _ => .null
  | .field _ _ _ _, _ => .null

/-- Absent options and lists without items. -/
def isVoid : (s : Shape) → Documents s → Bool
  | .option _, v => v.isNone
  | .list _, vs => vs.isEmpty
  | _, _ => false

/-- The fields in order; an elided field is left out when it is void. -/
def members : (s : Shape) → Documents s → List (String × Json)
  | .field name presence s rest, (v, more) =>
    if presence = .elided ∧ isVoid s v then members rest more
    else (name, value s v) :: members rest more
  | _, _ => []

def markMembers {f : Family} : Mark f → List (String × Json)
  | .none => []
  | .at p _ => [("position", position p)]

def tagMembers (k : Kind) : List (String × Json) :=
  if k.place.isTagged then [("kind", .str k.word)] else []

def node (k : Kind) (fields : Documents k.shape) (mark : Mark k.place) : Json :=
  if k.isOperator then .str k.word
  else .obj (tagMembers k ++ members k.shape fields ++ markMembers mark)

end Encode

/-- The document of a node. -/
def Node.toJson {f : Family} (t : Node f) : Json :=
  Tree.fold (V := fun _ => Json) Encode.node t

end Unparse
