import Unparse.Binary64.Nearest
import Unparse.Scientific

/-! The shortest decimal that reads back as a given double. Of the decimals with the
fewest digits it is the one nearest to the double; an exact tie is the caller's choice. -/
namespace Unparse.Binary64

inductive Tie where
  | up | even
deriving DecidableEq, Repr

/-- The decimals that read back as a number: those between `low / den` and `high / den`, which
belong to them if `closed`. The number itself is `mid / den`. -/
structure Interval where
  low : Nat
  mid : Nat
  high : Nat
  den : Nat
  closed : Bool
deriving DecidableEq, Repr

/-- Half the way to either neighbour; below a power of two the neighbour is only half as far. -/
def interval (x : Binary64) : Interval :=
  let m := x.significand
  let (unit, den) := scaled 2 1 1 (x.scale - 2)
  let below := if x.fraction.val = 0 ∧ 1 < x.exponent.val then 1 else 2
  ⟨(4 * m - below) * unit, 4 * m * unit, (4 * m + 2) * unit, den, m % 2 == 0⟩

/-- Whether `n / d` lies in the interval. -/
def Interval.holds (i : Interval) (n d : Nat) : Bool :=
  if i.closed then i.low * d ≤ n * i.den && n * i.den ≤ i.high * d
  else i.low * d < n * i.den && n * i.den < i.high * d

/-- The largest `e` with `10 ^ e ≤ num / den`, for positive `num` and `den`. -/
def decimalExponent (num den : Nat) : Int :=
  if den ≤ num then ((Nat.toDigits 10 (num / den)).length : Int) - 1
  else -((Nat.toDigits 10 ((den - 1) / num)).length : Int)

/-- The decimal `n · 10 ^ grid` of the interval that is nearest to the number and has no digit
below `grid`, if there is one. -/
def Interval.onGrid? (tie : Tie) (i : Interval) (grid : Int) : Option Nat :=
  let (n, d) := scaled 10 i.mid i.den (-grid)
  let down := n / d
  let holds (k : Nat) : Bool :=
    let (kn, kd) := scaled 10 k 1 grid
    i.holds kn kd
  let twice := 2 * (n % d)
  let upNearer : Bool := match tie with
    | .up => d ≤ twice
    | .even => d < twice || (d == twice && down % 2 == 1)
  match holds down, holds (down + 1) with
  | true, true => some (if upNearer then down + 1 else down)
  | true, false => some down
  | false, true => some (down + 1)
  | false, false => none

def Interval.search (tie : Tie) (i : Interval) : Nat → Int → Nat × Int
  | 0, grid => (i.mid / i.den, grid)
  | fuel + 1, grid =>
    match i.onGrid? tie grid with
    | some n => (n, grid)
    | none => i.search tie fuel (grid - 1)

def dropZeros (digits : List Char) : List Char :=
  match (digits.reverse.dropWhile (· == '0')).reverse with
  | [] => ['0']
  | kept => kept

/-- Seventeen digits tell any two doubles apart. -/
def longest : Nat := 17

/-- The magnitude of a finite number in scientific form, with the fewest digits. -/
def scientific (tie : Tie) (x : Binary64) : Scientific :=
  if x.isZero then ⟨['0'], 0⟩
  else
    let i := x.interval
    let (n, grid) := i.search tie longest (decimalExponent i.mid i.den)
    let digits := Nat.toDigits 10 n
    ⟨dropZeros digits, grid + (digits.length - 1 : Nat)⟩

end Unparse.Binary64
