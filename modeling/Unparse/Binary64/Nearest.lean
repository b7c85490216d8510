import Unparse.Binary64

/-! The double nearest to a rational or decimal number. A tie goes to the even neighbour. -/
namespace Unparse.Binary64

/-- The integer nearest to `num / den`, a half to the even one. -/
def roundHalfEven (num den : Nat) : Nat :=
  let whole := num / den
  let twice := 2 * (num % den)
  if twice < den then whole
  else if den < twice then whole + 1
  else whole + whole % 2

/-- `num / den · base ^ k` as a fraction. -/
def scaled (base num den : Nat) (k : Int) : Nat × Nat :=
  if 0 ≤ k then (num * base.pow k.toNat, den) else (num, den * base.pow (-k).toNat)

/-- The largest `e` with `2 ^ e ≤ num / den`, for positive `num` and `den`. -/
def binaryExponent (num den : Nat) : Int :=
  let estimate := (num.log2 : Int) - den.log2
  let (n, d) := scaled 2 num den (-estimate)
  if d ≤ n then estimate else estimate - 1

/-- The magnitude nearest to `num / den`. Rounding up past the last significand of a scale
gives the first magnitude of the next one. -/
def nearestMagnitude (num den : Nat) : Nat :=
  if num = 0 then 0
  else
    let shift := max (binaryExponent num den - 52) (-1074)
    let (n, d) := scaled 2 num den (-shift)
    (shift + 1074).toNat * fractionCount + roundHalfEven n d

/-- Decimal exponents beyond this bound decide the magnitude on their own. -/
def decimalBound : Int := 400

/-- The magnitude nearest to `digits · 10 ^ exponent`. -/
def decimalMagnitude (digits : Nat) (exponent : Int) : Nat :=
  let size := exponent + (Nat.toDigits 10 digits).length
  if digits = 0 ∨ size < -decimalBound then 0
  else if decimalBound < size then infiniteMagnitude
  else
    let (n, d) := scaled 10 digits 1 exponent
    nearestMagnitude n d

/-- The double nearest to a decimal number, if the number does not overflow. -/
def ofDecimal? (negative : Bool) (digits : Nat) (exponent : Int) : Option Binary64 :=
  let magnitude := decimalMagnitude digits exponent
  if magnitude < infiniteMagnitude then some (ofMagnitude negative magnitude) else none

end Unparse.Binary64
