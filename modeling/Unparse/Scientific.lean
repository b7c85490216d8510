import Unparse.Text

/-! Decimal numbers in scientific form and their written layouts. -/
namespace Unparse

/-- The number `d₁.d₂d₃… · 10 ^ exponent` for the digits `d₁ d₂ d₃ …`. -/
structure Scientific where
  digits : List Char
  exponent : Int
deriving DecidableEq, Repr

/-- The exponents from `least` on and below `limit` are written positionally, all others with
at least `exponentDigits` digits. -/
structure Layout where
  least : Int
  limit : Int
  exponentDigits : Nat
deriving DecidableEq, Repr

namespace Scientific

def zeros (n : Nat) : List Char :=
  List.replicate n '0'

/-- Digits with a point at its own place; there is a digit on either side of it. -/
def positional (s : Scientific) : List Char :=
  if 0 ≤ s.exponent then
    let whole := s.exponent.toNat + 1
    if s.digits.length ≤ whole then s.digits ++ zeros (whole - s.digits.length) ++ ['.', '0']
    else s.digits.take whole ++ '.' :: s.digits.drop whole
  else '0' :: '.' :: (zeros ((-s.exponent).toNat - 1) ++ s.digits)

def mantissa (s : Scientific) : List Char :=
  match s.digits with
  | d :: more@(_ :: _) => d :: '.' :: more
  | short => short

/-- The exponent has a sign and at least `width` digits. -/
def exponential (width : Nat) (s : Scientific) : List Char :=
  let digits := Nat.toDigits 10 s.exponent.natAbs
  let sign := if s.exponent < 0 then '-' else '+'
  s.mantissa ++ 'e' :: sign :: (zeros (width - digits.length) ++ digits)

def written (layout : Layout) (s : Scientific) : List Char :=
  if layout.least ≤ s.exponent ∧ s.exponent < layout.limit then s.positional
  else s.exponential layout.exponentDigits

end Scientific

end Unparse
