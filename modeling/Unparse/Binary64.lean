/-! Double precision numbers by their three fields. The magnitudes, read as one
number `exponent · 2^52 + fraction`, are in the order of their values. -/
namespace Unparse

/-- Two to the power 52: the number of fractions under each exponent. -/
abbrev fractionCount : Nat := 0x10000000000000

structure Binary64 where
  negative : Bool
  exponent : Fin 2048
  fraction : Fin fractionCount
deriving DecidableEq, Repr

namespace Binary64

def ofMagnitude (negative : Bool) (magnitude : Nat) : Binary64 :=
  ⟨negative, Fin.ofNat 2048 (magnitude / fractionCount), Fin.ofNat fractionCount magnitude⟩

def ofBits (bits : Nat) : Binary64 :=
  ofMagnitude (bits.testBit 63) (bits % (2048 * fractionCount))

/-- The magnitudes from this one on are no numbers; the first of them is infinity. -/
def infiniteMagnitude : Nat :=
  2047 * fractionCount

def zero : Binary64 := ⟨false, 0, 0⟩

def infinity (negative : Bool) : Binary64 := ⟨negative, 2047, 0⟩

def nan : Binary64 := ⟨false, 2047, Fin.ofNat fractionCount (fractionCount / 2)⟩

def isFinite (x : Binary64) : Bool :=
  x.exponent != 2047

def isInfinite (x : Binary64) : Bool :=
  !x.isFinite && x.fraction == 0

def isNaN (x : Binary64) : Bool :=
  !x.isFinite && x.fraction != 0

def isZero (x : Binary64) : Bool :=
  x.exponent == 0 && x.fraction == 0

/-- A finite number is `significand · 2 ^ scale`, apart from its sign. -/
def significand (x : Binary64) : Nat :=
  if x.exponent.val = 0 then x.fraction.val else fractionCount + x.fraction.val

def scale (x : Binary64) : Int :=
  if x.exponent.val = 0 then -1074 else (x.exponent.val : Int) - 1075

end Binary64

end Unparse
