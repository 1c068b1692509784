/-!
# Binary floating-point formats

A `Format` is given by the widths of its two bit fields. A magnitude is the number its bits spell without the
sign: `Format.dyadic` reads it as `significand * 2 ^ exponent`, and `Format.nearest` is the magnitude nearest to a
ratio of natural numbers. Magnitudes of one format sort as their values do, which is why the order of doubles can be
decided on bits.
-/

namespace TestIsolation.Ieee

set_option autoImplicit false

/-- The quotient rounded to the nearest natural number, a half to the even neighbour. -/
def roundHalfEven (num den : Nat) : Nat :=
  let q := num / den
  let twice := 2 * (num % den)
  if twice < den then q else if den < twice then q + 1 else q + q % 2

/-- The ratio `num / den` over `2 ^ exponent`, again as a ratio. -/
def overPowerOfTwo (num den : Nat) : Int → Nat × Nat
  | .ofNat e => (num, den <<< e)
  | .negSucc e => (num <<< (e + 1), den)

/-- A finite magnitude `significand * 2 ^ exponent`. -/
structure Dyadic where
  significand : Nat
  exponent : Int
  deriving DecidableEq, Repr

/-- Field widths of an interchange format. -/
structure Format where
  fractionBits : Nat
  exponentBits : Nat
  deriving DecidableEq, Repr

/-- Double precision. -/
def binary64 : Format := ⟨52, 11⟩

/-- Single precision. -/
def binary32 : Format := ⟨23, 8⟩

namespace Format

/-- How many magnitudes share one exponent field; as a significand, the leading bit. -/
def leadingBit (f : Format) : Nat := 1 <<< f.fractionBits

/-- The magnitude of infinity; larger ones are not numbers. -/
def infinity (f : Format) : Nat := (1 <<< f.exponentBits - 1) * f.leadingBit

/-- The exponent of the least positive magnitude. -/
def minExponent (f : Format) : Int := 2 - (1 <<< (f.exponentBits - 1) : Nat) - f.fractionBits

/-- The value of a finite magnitude; the leading bit is implied unless the exponent field is zero. -/
def dyadic (f : Format) (magnitude : Nat) : Dyadic :=
  match magnitude / f.leadingBit with
  | 0 => ⟨magnitude, f.minExponent⟩
  | e + 1 => ⟨f.leadingBit + magnitude % f.leadingBit, f.minExponent + e⟩

/-- The exponent at which `num / den` has a significand of full width. -/
def exponentOf (f : Format) (num den : Nat) : Int :=
  let low : Int := (num.log2 : Int) - den.log2 - f.fractionBits - 1
  let (n, d) := overPowerOfTwo num den low
  max f.minExponent (if 2 * f.leadingBit ≤ n / d then low + 1 else low)

/-- The magnitude nearest to `num / den`, ties to even, infinity beyond the largest finite one. A significand that
rounds up to the next power of two carries into the exponent field, which is the right magnitude. -/
def nearest (f : Format) (num den : Nat) : Nat :=
  if num = 0 ∨ den = 0 then 0
  else
    let q := f.exponentOf num den
    let (n, d) := overPowerOfTwo num den q
    min f.infinity ((q - f.minExponent).toNat * f.leadingBit + roundHalfEven n d)

end Format

/-- The value of a dyadic number as a ratio. -/
def Dyadic.ratio (x : Dyadic) : Nat × Nat :=
  overPowerOfTwo x.significand 1 (-x.exponent)

end TestIsolation.Ieee
