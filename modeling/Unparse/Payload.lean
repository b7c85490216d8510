import Unparse.Binary64
import Unparse.Grammar.Shape

/-! The values that trees hold beside nodes. -/
namespace Unparse

/-- A legacy numeric literal. -/
inductive Number where
  | int (i : Int)
  | float (x : Binary64)
  | complex (real imag : Binary64)
deriving DecidableEq, Repr

inductive Constant where
  | none
  | ellipsis
  | bool (b : Bool)
  | int (i : Int)
  | float (x : Binary64)
  | complex (real imag : Binary64)
  | str (s : String)
  | bytes (bs : List UInt8)
deriving DecidableEq, Repr

inductive Singleton where
  | none | true | false
deriving DecidableEq, Repr

/-- How a replacement field turns its value into text. -/
inductive Conversion where
  | str | repr | ascii
deriving DecidableEq, Repr

namespace Singleton

def all : List Singleton := [none, true, false]

def text : Singleton → String
  | none => "None"
  | true => "True"
  | false => "False"

end Singleton

namespace Conversion

def all : List Conversion := [str, repr, ascii]

def text : Conversion → String
  | str => "s"
  | repr => "r"
  | ascii => "a"

end Conversion

/-- The values of a sort. -/
abbrev Scalar.Carrier : Scalar → Type
  | .text => String
  | .flag _ => Bool
  | .level => UInt32
  | .byte => UInt8
  | .number => Number
  | .constant => Constant
  | .singleton => Singleton
  | .conversion => Conversion

instance (a : Scalar) : DecidableEq a.Carrier :=
  match a with
  | .text => inferInstanceAs (DecidableEq String)
  | .flag _ => inferInstanceAs (DecidableEq Bool)
  | .level => inferInstanceAs (DecidableEq UInt32)
  | .byte => inferInstanceAs (DecidableEq UInt8)
  | .number => inferInstanceAs (DecidableEq Number)
  | .constant => inferInstanceAs (DecidableEq Constant)
  | .singleton => inferInstanceAs (DecidableEq Singleton)
  | .conversion => inferInstanceAs (DecidableEq Conversion)

end Unparse
