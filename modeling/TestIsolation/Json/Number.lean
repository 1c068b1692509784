import TestIsolation.Json.Value

/-!
# Reading JSON numbers

`JsonNumber.ofChars?` reads the characters of one number. Integers that fit 64 bits stay exact. Every other number
becomes a double in two rounding steps: its leading digits as far as they fit 64 bits, and then the product or
quotient with a power of ten. A number beyond the doubles is refused.
-/

namespace TestIsolation

set_option autoImplicit false

namespace JsonNumber

/-- The parts of a number as it is written. -/
structure Written where
  negative : Bool
  whole : List Char
  fraction : List Char
  exponent : Int
  /-- Neither a fraction nor an exponent is written. -/
  isInteger : Bool
  deriving DecidableEq, Repr

/-- The number spelt by decimal digits. -/
def digitsValue (digits : List Char) : Nat := digits.foldl (fun n c => 10 * n + (c.toNat - '0'.toNat)) 0

/-- The exponent part, if there is one: a letter, an optional sign and at least one digit. -/
def exponent? : List Char → Option Int
  | [] => some 0
  | e :: rest =>
    let (negative, digits) :=
      match rest with
      | '-' :: digits => (true, digits)
      | '+' :: digits => (false, digits)
      | digits => (false, digits)
    if (e = 'e' ∨ e = 'E') ∧ digits ≠ [] ∧ digits.all Char.isDigit then
      some (if negative then -digitsValue digits else digitsValue digits)
    else none

/-- The parts of a number. No zero leads other digits, and a point has digits on both sides. -/
def written? (chars : List Char) : Option Written :=
  let (negative, chars) :=
    match chars with
    | '-' :: rest => (true, rest)
    | chars => (false, chars)
  let whole := chars.takeWhile Char.isDigit
  let rest := chars.dropWhile Char.isDigit
  if whole = [] ∨ (whole.head? = some '0' ∧ whole.length ≠ 1) then none
  else
    match rest with
    | '.' :: rest =>
      let fraction := rest.takeWhile Char.isDigit
      if fraction = [] then none
      else (exponent? (rest.dropWhile Char.isDigit)).map fun e => ⟨negative, whole, fraction, e, false⟩
    | rest => (exponent? rest).map fun e => ⟨negative, whole, [], e, rest = []⟩

/-- A decimal whose significand fits 64 bits. -/
structure Scaled where
  significand : Nat
  exponent : Int
  deriving DecidableEq, Repr

/-- The significand with one more digit, if it still fits. -/
def Scaled.extend? (x : Scaled) (digit : Char) : Option Nat :=
  let n := 10 * x.significand + (digit.toNat - '0'.toNat)
  if n < UInt64.size then some n else none

/-- Digits before the point: from the first that does not fit on, they only count. -/
def Scaled.whole (x : Scaled) : List Char → Scaled
  | [] => x
  | d :: rest =>
    match x.extend? d with
    | some n => Scaled.whole { x with significand := n } rest
    | none => { x with exponent := x.exponent + 1 + rest.length }

/-- Digits after the point, up to the first that does not fit. -/
def Scaled.fraction (x : Scaled) : List Char → Scaled
  | [] => x
  | d :: rest =>
    match x.extend? d with
    | some n => Scaled.fraction ⟨n, x.exponent - 1⟩ rest
    | none => x

/-- The largest power of ten that is a double. -/
def largestPower : Nat := 308

/-- A double over a power of ten, dividing by the largest power as often as needed. -/
def divideByPower (x : Ieee.Double) (n : Nat) : Ieee.Double :=
  if n ≤ largestPower then x.div (.pow10 n)
  else if x.isZero then x
  else divideByPower (x.div (.pow10 largestPower)) (n - largestPower)
termination_by n
decreasing_by simp only [largestPower] at *; omega

/-- The double nearest to the significand, scaled; nothing beyond the largest double. -/
def Scaled.toDouble? (x : Scaled) : Option Ieee.Double :=
  let start := Ieee.Double.ofInt x.significand
  match x.exponent with
  | .negSucc n => some (divideByPower start (n + 1))
  | .ofNat n =>
    if n ≤ largestPower then
      let product := start.mul (.pow10 n)
      if product.isInfinite then none else some product
    else if start.isZero then some start
    else none

/-- The double that a written number stands for. -/
def Written.toDouble? (w : Written) : Option Ieee.Double :=
  let scaled := ((Scaled.mk 0 0).whole w.whole).fraction w.fraction
  let x := (Scaled.mk scaled.significand (scaled.exponent + w.exponent)).toDouble?
  if w.negative then x.map .neg else x

/-- The number that the characters spell. A negative zero is a double, since no integer has its sign. -/
def ofChars? (chars : List Char) : Option JsonNumber := do
  let w ← written? chars
  let n := digitsValue w.whole
  if w.isInteger ∧ ¬w.negative ∧ n < UInt64.size then return integer n
  if w.isInteger ∧ w.negative ∧ 0 < n ∧ 2 * n ≤ UInt64.size then return integer (-n)
  return float (← w.toDouble?)

end JsonNumber

end TestIsolation
