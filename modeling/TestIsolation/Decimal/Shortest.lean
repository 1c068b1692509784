import TestIsolation.Ieee.Double

/-!
# Shortest decimals

`Double.shortest` is the decimal with the fewest digits that lies in the interval of reals rounding to a given double,
and of those the nearest one. A grid of decimals meets the interval only if one of the double's two neighbours on that
grid does, so the search looks at two candidates per grid, from the coarsest grid down.
-/

namespace TestIsolation

set_option autoImplicit false

/-- A decimal `coefficient * 10 ^ exponent`. -/
structure Decimal where
  coefficient : Nat
  exponent : Int
  deriving DecidableEq, Repr

/-- Which way a value halfway between two decimals goes. -/
inductive Tie where
  | up
  | even
  deriving DecidableEq, Repr

namespace Decimal

/-- Number of decimal digits; none for zero. -/
def digitCount (n : Nat) : Nat := if n = 0 then 0 else (Nat.toDigits 10 n).length

/-- The exponent of the leading digit of `num / den`, a positive ratio. -/
def leadingExponent (num den : Nat) : Int :=
  if den ≤ num then (digitCount (num / den) : Int) - 1
  else -(digitCount ((den + num - 1) / num - 1) : Int)

/-- The reals that round to a double, as numerators over the common denominator `den`. -/
structure Interval where
  low : Nat
  value : Nat
  high : Nat
  den : Nat
  /-- The ends belong to the interval. -/
  closed : Bool

namespace Interval

/-- The interval of the double with a finite, positive magnitude. Below a power of two the neighbour is nearer. -/
def ofMagnitude (magnitude : Nat) : Interval :=
  let x := Ieee.binary64.dyadic magnitude
  let nearerBelow : Bool := x.significand = Ieee.binary64.leadingBit ∧ 2 * Ieee.binary64.leadingBit ≤ magnitude
  let (unit, den) := Ieee.overPowerOfTwo 1 1 (2 - x.exponent)
  { low := (4 * x.significand - if nearerBelow then 1 else 2) * unit
    value := 4 * x.significand * unit
    high := (4 * x.significand + 2) * unit
    den := den
    closed := x.significand % 2 = 0 }

/-- The interval measured in units of `10 ^ exponent`. -/
def atExponent (i : Interval) : Int → Interval
  | .ofNat e => { i with den := i.den * Nat.pow 10 e }
  | .negSucc e =>
    let units := Nat.pow 10 (e + 1)
    { i with low := i.low * units, value := i.value * units, high := i.high * units }

/-- Whether a whole number lies in the interval. -/
def contains (i : Interval) (n : Nat) : Bool :=
  if i.closed then i.low ≤ n * i.den && n * i.den ≤ i.high
  else i.low < n * i.den && n * i.den < i.high

/-- The whole number in the interval that is nearest to the value, if there is one. -/
def nearestWhole? (tie : Tie) (i : Interval) : Option Nat :=
  let below := i.value / i.den
  match i.contains below, i.contains (below + 1) with
  | false, false => none
  | true, false => some below
  | false, true => some (below + 1)
  | true, true =>
    match compare (2 * (i.value % i.den)) i.den, tie with
    | .lt, _ => some below
    | .gt, _ => some (below + 1)
    | .eq, .up => some (below + 1)
    | .eq, .even => some (below + below % 2)

end Interval

/-- Searches the grids of `fuel` exponents downwards; seventeen digits always suffice. -/
def searchGrids (tie : Tie) (i : Interval) (exponent : Int) : Nat → Decimal
  | 0 => ⟨(i.atExponent exponent).value / (i.atExponent exponent).den, exponent⟩
  | fuel + 1 =>
    match (i.atExponent exponent).nearestWhole? tie with
    | some n => ⟨n, exponent⟩
    | none => searchGrids tie i (exponent - 1) fuel

end Decimal

/-- The shortest decimal that reads back as the finite number `x`, sign aside. -/
def Ieee.Double.shortest (tie : Tie) (x : Ieee.Double) : Decimal :=
  if x.magnitude = 0 then ⟨0, 0⟩
  else
    let i := Decimal.Interval.ofMagnitude x.magnitude
    Decimal.searchGrids tie i (Decimal.leadingExponent i.value i.den + 1) 18

end TestIsolation
