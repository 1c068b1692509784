import TestIsolation.Decimal.Layout
import TestIsolation.Text.Bytes

/-!
# Compared values

A `Value` is a compared value widened into one of six domains. `Value.render` is its text in messages, where long
strings and memory blocks are cut.
-/

namespace TestIsolation

set_option autoImplicit false

/-- The domain a compared value belongs to. -/
inductive Domain where
  | signed
  | unsigned
  | float
  | string
  | pointer
  | memory
  deriving DecidableEq, Repr

namespace Domain

/-- The name of a domain in messages. -/
def name : Domain → String
  | signed => "signed"
  | unsigned => "unsigned"
  | float => "float"
  | string => "string"
  | pointer => "pointer"
  | memory => "memory"

/-- Integers and floating-point numbers. -/
def isNumeric : Domain → Bool
  | signed | unsigned | float => true
  | string | pointer | memory => false

end Domain

/-- A value tagged with its domain. -/
inductive Value where
  | signed (n : Int)
  | unsigned (n : Nat)
  | float (x : Ieee.Double)
  | string (bytes : Bytes)
  | pointer (address : Nat)
  | memory (bytes : Bytes)
  deriving DecidableEq, Repr

namespace Value

/-- The domain of a value. -/
def domain : Value → Domain
  | signed _ => .signed
  | unsigned _ => .unsigned
  | float _ => .float
  | string _ => .string
  | pointer _ => .pointer
  | memory _ => .memory

/-- The value of a text. -/
def ofText (s : String) : Value := string (Bytes.ofString s)

/-- The number an integer value stands for. -/
def integer? : Value → Option Int
  | signed n => some n
  | unsigned n => some n
  | _ => none

/-- A numeric value as a double; integers round to the nearest one. -/
def toDouble? : Value → Option Ieee.Double
  | signed n => some (.ofInt n)
  | unsigned n => some (.ofInt n)
  | float x => some x
  | _ => none

/-- Whether two values are the same: of one domain and equal there, so that NaN is not the same as itself. -/
def same : Value → Value → Bool
  | signed a, signed b => a == b
  | unsigned a, unsigned b => a == b
  | float x, float y => x.order y == some .eq
  | string a, string b => a == b
  | pointer a, pointer b => a == b
  | memory a, memory b => a == b
  | _, _ => false

/-- Numbers in messages are positional from `0.0001` to below `10 ^ 16`, and a halfway case goes up. -/
def floatLayout : DecimalLayout := ⟨-4, 16, false, .up⟩

/-- Bytes of a string that messages show. -/
def shownStringBytes : Nat := 256

/-- Bytes of a memory block that messages show. -/
def shownMemoryBytes : Nat := 16

/-- A number in lowercase hexadecimal. -/
def hexadecimal (n : Nat) : String := "0x" ++ String.ofList (Nat.toDigits 16 n)

/-- The text of a value in messages. -/
def render : Value → String
  | signed n => toString n
  | unsigned n => toString n
  | float x => x.render floatLayout
  | string bytes =>
    let shown := "\"" ++ String.ofList (Bytes.escaped (bytes.take shownStringBytes)) ++ "\""
    if bytes.length > shownStringBytes then shown ++ s!"... <{bytes.length} bytes>" else shown
  | pointer address => hexadecimal address
  | memory bytes =>
    let shown := (bytes.take shownMemoryBytes).flatMap fun b => ' ' :: Bytes.hexDigits b
    let rest := if bytes.length > shownMemoryBytes then " ...>" else ">"
    s!"<{bytes.length} bytes:" ++ String.ofList shown ++ rest

end Value

end TestIsolation
