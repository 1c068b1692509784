import TestIsolation.Ieee.Format

/-!
# Double-precision numbers

A `Double` is its 64 bits. The order is read off the bits (`Double.order`), so that nothing about it rests on the
machine's arithmetic; `Double.ofInt`, `Double.mul` and `Double.div` are the exact result rounded once.
-/

namespace TestIsolation.Ieee

set_option autoImplicit false

/-- An IEEE 754 binary64 datum. -/
structure Double where
  bits : UInt64
  deriving DecidableEq, Repr

namespace Double

/-- The value of the sign bit. -/
def signBit : Nat := 1 <<< 63

/-- Whether the sign bit is set. -/
def negative (x : Double) : Bool := signBit ≤ x.bits.toNat

/-- The bits without the sign. -/
def magnitude (x : Double) : Nat := x.bits.toNat % signBit

/-- The datum of a sign and a magnitude. -/
def ofMagnitude (negative : Bool) (magnitude : Nat) : Double :=
  ⟨UInt64.ofNat (magnitude + if negative then signBit else 0)⟩

/-- Neither finite nor infinite. -/
def isNaN (x : Double) : Bool := binary64.infinity < x.magnitude

/-- One of the two infinities. -/
def isInfinite (x : Double) : Bool := x.magnitude = binary64.infinity

/-- Either of the two zeros. -/
def isZero (x : Double) : Bool := x.magnitude = 0

/-- The quiet NaN. -/
def nan : Double := ⟨0x7ff8000000000000⟩

/-- The position of a number in the order: the signed magnitude, the same for both zeros. -/
def rank (x : Double) : Int := if x.negative then -x.magnitude else x.magnitude

/-- The IEEE order; NaN is unordered, itself included. -/
def order (x y : Double) : Option Ordering :=
  if x.isNaN || y.isNaN then none else some (compare x.rank y.rank)

/-- The double nearest to `num / den` with a sign. -/
def ofRatio (negative : Bool) (num den : Nat) : Double :=
  ofMagnitude negative (binary64.nearest num den)

/-- The double nearest to an integer. -/
def ofInt (n : Int) : Double := ofRatio (decide (n < 0)) n.natAbs 1

/-- The double nearest to a power of ten. -/
def pow10 (n : Nat) : Double := ofInt (Nat.pow 10 n)

/-- The number with the opposite sign. -/
def neg (x : Double) : Double := ofMagnitude (!x.negative) x.magnitude

/-- The rounded product of two finite numbers. -/
def mul (x y : Double) : Double :=
  let (a, b) := (binary64.dyadic x.magnitude).ratio
  let (c, d) := (binary64.dyadic y.magnitude).ratio
  ofRatio (x.negative != y.negative) (a * c) (b * d)

/-- The rounded quotient of two finite numbers, the second not zero. -/
def div (x y : Double) : Double :=
  let (a, b) := (binary64.dyadic x.magnitude).ratio
  let (c, d) := (binary64.dyadic y.magnitude).ratio
  ofRatio (x.negative != y.negative) (a * d) (b * c)

/-- The value of the sign bit in single precision. -/
def singleSignBit : Nat := 1 <<< 31

/-- A single-precision datum of the given bits, widened. -/
def ofSingle (bits : Nat) : Double :=
  let magnitude := bits % singleSignBit
  let negative : Bool := singleSignBit ≤ bits % (2 * singleSignBit)
  if binary32.infinity < magnitude then nan
  else if magnitude = binary32.infinity then ofMagnitude negative binary64.infinity
  else
    let (num, den) := (binary32.dyadic magnitude).ratio
    ofRatio negative num den

/-- The bits of the nearest single-precision datum; none for NaN. -/
def toSingle? (x : Double) : Option Nat :=
  if x.isNaN then none
  else
    let sign := if x.negative then singleSignBit else 0
    if x.isInfinite then some (sign + binary32.infinity)
    else
      let (num, den) := (binary64.dyadic x.magnitude).ratio
      some (sign + binary32.nearest num den)

end Double

end TestIsolation.Ieee
