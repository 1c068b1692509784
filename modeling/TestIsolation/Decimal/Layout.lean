import TestIsolation.Decimal.Shortest

/-!
# Layout of decimals

A `DecimalLayout` holds the choices of one written form of floating-point numbers: which magnitudes are written
positionally, and how an exponent looks. `Double.render` writes the shortest decimal in that form.
-/

namespace TestIsolation

set_option autoImplicit false

/-- The choices of a written form. The leading digit's exponent decides between positional and exponent form. -/
structure DecimalLayout where
  /-- The least leading exponent that is written positionally. -/
  leastPositional : Int
  /-- The least leading exponent above that which is not. -/
  positionalEnd : Int
  /-- A sign is written before exponents that are not negative. -/
  plusExponent : Bool
  /-- Where a value halfway between two shortest decimals goes. -/
  tie : Tie
  deriving DecidableEq, Repr

namespace DecimalLayout

/-- The digits with a point at `point` places from the left, at least one digit on either side of it. -/
def positional (digits : List Char) (point : Int) : List Char :=
  if point ≤ 0 then '0' :: '.' :: (List.replicate (-point).toNat '0' ++ digits)
  else
    let places := point.toNat
    let whole := digits.take places ++ List.replicate (places - digits.length) '0'
    let fraction := digits.drop places
    whole ++ '.' :: (if fraction.isEmpty then ['0'] else fraction)

/-- The first digit, a point before any others, and the exponent. -/
def scientific (layout : DecimalLayout) (digits : List Char) (exponent : Int) : List Char :=
  let sign := if exponent < 0 then ['-'] else if layout.plusExponent then ['+'] else []
  let mantissa :=
    match digits with
    | d :: rest@(_ :: _) => d :: '.' :: rest
    | short => short
  mantissa ++ 'e' :: (sign ++ Nat.toDigits 10 exponent.natAbs)

/-- A finite number written in this form. -/
def decimal (layout : DecimalLayout) (x : Decimal) : List Char :=
  if x.coefficient = 0 then ['0', '.', '0']
  else
    let digits := Nat.toDigits 10 x.coefficient
    let leading := x.exponent + digits.length - 1
    let kept := (digits.reverse.dropWhile (· = '0')).reverse
    if layout.leastPositional ≤ leading ∧ leading < layout.positionalEnd then positional kept (leading + 1)
    else scientific layout kept leading

end DecimalLayout

/-- The text of a double in a written form. -/
def Ieee.Double.render (layout : DecimalLayout) (x : Ieee.Double) : String :=
  if x.isNaN then "NaN"
  else
    let body := if x.isInfinite then ['i', 'n', 'f'] else layout.decimal (x.shortest layout.tie)
    String.ofList (if x.negative then '-' :: body else body)

end TestIsolation
