import Unparse.Binary64.Shortest
import Unparse.Literal.Quoted
import Unparse.Payload

/-! Numbers and constants as source text. -/
namespace Unparse.Literal

/-- Exponents from -4 to 15 are written positionally, others with two digits or more. -/
def sourceLayout : Layout := ⟨-4, 16, 2⟩

/-- A literal that overflows stands for infinity. -/
def infinite : List Char := "1e309".toList

/-- The difference of two infinities stands for the number that is none. -/
def floatChars (x : Binary64) : List Char :=
  if x.isNaN then '(' :: (infinite ++ " - ".toList ++ infinite ++ [')'])
  else
    let magnitude :=
      if x.isInfinite then infinite else (x.scientific .up).written sourceLayout
    if x.negative then '-' :: magnitude else magnitude

def float (x : Binary64) : String :=
  String.ofList (floatChars x)

/-- A part of a complex number loses a fraction that is only a zero. -/
def dropPointZero (cs : List Char) : List Char :=
  if cs.drop (cs.length - 2) = ['.', '0'] then cs.take (cs.length - 2) else cs

def complexPart (x : Binary64) : List Char :=
  dropPointZero (floatChars x)

def infiniteDifference : List Char :=
  '(' :: (infinite ++ "j - ".toList ++ infinite ++ "j)".toList)

/-- A positive zero as real part is not written. -/
def complexChars (real imag : Binary64) : List Char :=
  if imag.isNaN then
    if real = .zero then infiniteDifference
    else '(' :: (complexPart real ++ " + ".toList ++ infiniteDifference ++ [')'])
  else if real = .zero then complexPart imag ++ ['j']
  else
    match complexPart imag with
    | '-' :: magnitude => '(' :: (complexPart real ++ '-' :: (magnitude ++ "j)".toList))
    | magnitude => '(' :: (complexPart real ++ '+' :: (magnitude ++ "j)".toList))

def complex (real imag : Binary64) : String :=
  String.ofList (complexChars real imag)

/-- A literal that begins with a minus sign stands in parentheses. -/
def guardSign (text : String) : String :=
  if Text.startsWith text "-" then "(" ++ text ++ ")" else text

def number : Number → String
  | .int i => guardSign (Text.signedDecimal i)
  | .float x => guardSign (float x)
  | .complex real imag => guardSign (complex real imag)

def constant : Constant → String
  | .none => "None"
  | .ellipsis => "..."
  | .bool true => "True"
  | .bool false => "False"
  | .int i => guardSign (Text.signedDecimal i)
  | .float x => guardSign (float x)
  | .complex real imag => guardSign (complex real imag)
  | .str s => string s
  | .bytes bs => bytes bs

end Unparse.Literal
