import Unparse.Binary64.Nearest
import Unparse.Text

/-! JSON documents. Members keep their order and may repeat a name; numbers are told
apart into integers of at most 64 bits and doubles. -/
namespace Unparse

inductive Json where
  | null
  | bool (b : Bool)
  | int (i : Int)
  | float (x : Binary64)
  | str (s : String)
  | arr (items : List Json)
  | obj (members : List (String × Json))
deriving Repr

namespace Json

/-- The integers that a number token can denote: those of 64 bits, signed or unsigned. -/
def isWordSized (i : Int) : Bool :=
  -0x8000000000000000 ≤ i && i < 0x10000000000000000

mutual

/-- How many arrays and objects are nested in each other. -/
def depth : Json → Nat
  | arr items => depthItems items + 1
  | obj members => depthMembers members + 1
  | _ => 0

def depthItems : List Json → Nat
  | [] => 0
  | item :: more => max item.depth (depthItems more)

def depthMembers : List (String × Json) → Nat
  | [] => 0
  | member :: more => max (depthMember member) (depthMembers more)

def depthMember : String × Json → Nat
  | (_, value) => value.depth

end

/-- The first member of a name; only objects have members. -/
def get? (j : Json) (name : String) : Option Json :=
  match j with
  | obj members => members.lookup name
  | _ => none

def str? : Json → Option String
  | str s => some s
  | _ => none

def nat? : Json → Option Nat
  | int (.ofNat n) => some n
  | _ => none

def bool? : Json → Option Bool
  | bool b => some b
  | _ => none

def items? : Json → Option (List Json)
  | arr items => some items
  | _ => none

/-- The double nearest to a number. -/
def double? : Json → Option Binary64
  | int i => Binary64.ofDecimal? (i < 0) i.natAbs 0
  | float x => some x
  | _ => none

end Json

end Unparse
