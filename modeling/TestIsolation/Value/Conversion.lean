import TestIsolation.Value.Compare

/-!
# Conversion of values

`Value.convert` turns a value back into a typed one: exactly, or not at all. Only the two floating-point targets
round.
-/

namespace TestIsolation

set_option autoImplicit false

/-- The size of an integer type. -/
inductive IntegerSize where
  | bits8
  | bits16
  | bits32
  | bits64
  | bits128
  | word
  deriving DecidableEq, Repr

namespace IntegerSize

/-- The width in bits; a machine word has 64. -/
def bits : IntegerSize → Nat
  | bits8 => 8
  | bits16 => 16
  | bits32 => 32
  | bits64 | word => 64
  | bits128 => 128

/-- How many numbers a type of this size has. -/
def count (s : IntegerSize) : Nat := 1 <<< s.bits

/-- The size as type names spell it. -/
def suffix : IntegerSize → String
  | bits8 => "8"
  | bits16 => "16"
  | bits32 => "32"
  | bits64 => "64"
  | bits128 => "128"
  | word => "size"

end IntegerSize

/-- An integer type of fixed width. -/
structure IntegerType where
  signed : Bool
  size : IntegerSize
  deriving DecidableEq, Repr

namespace IntegerType

/-- The name of an integer type in messages. -/
def name (t : IntegerType) : String := (if t.signed then "i" else "u") ++ t.size.suffix

/-- The least number of the type. -/
def min (t : IntegerType) : Int := if t.signed then -(t.size.count / 2 : Nat) else 0

/-- The largest number of the type. -/
def max (t : IntegerType) : Int := ((if t.signed then t.size.count / 2 else t.size.count) - 1 : Nat)

/-- Whether a number belongs to the type. -/
def contains (t : IntegerType) (n : Int) : Bool := t.min ≤ n && n ≤ t.max

end IntegerType

/-- A type that a value can be converted to. -/
inductive Target where
  | integer (type : IntegerType)
  | boolean
  | single
  | double
  | text
  | bytes
  | constPointer
  | mutPointer
  | value
  deriving DecidableEq, Repr

namespace Target

/-- The name of a target in messages. -/
def name : Target → String
  | integer type => type.name
  | boolean => "bool"
  | single => "f32"
  | double => "f64"
  | text => "String"
  | bytes => "Vec<u8>"
  | constPointer => "*const T"
  | mutPointer => "*mut T"
  | value => "Value"

end Target

/-- A value converted to a target. -/
inductive Converted where
  | integer (type : IntegerType) (n : Int)
  | boolean (b : Bool)
  /-- Bits of a single-precision number, or a NaN. -/
  | single (bits : Option Nat)
  | double (x : Ieee.Double)
  | text (s : String)
  | bytes (content : Bytes)
  | pointer (address : Nat)
  | value (v : Value)
  deriving DecidableEq, Repr

namespace Converted

/-- A typed value widened into its domain again. -/
def toValue : Converted → Value
  | integer type n => if type.signed then .signed n else .unsigned n.toNat
  | boolean b => .unsigned b.toNat
  | single bits => .float ((bits.map Ieee.Double.ofSingle).getD .nan)
  | double x => .float x
  | text s => .ofText s
  | bytes content => .memory content
  | pointer address => .pointer address
  | value v => v

end Converted

namespace Value

/-- An integer value as a number for which `pick` finds a converted form. -/
def convertInteger (v : Value) (target : Target) (pick : Int → Option Converted) : Except CompareError Converted :=
  match v.integer? with
  | none => .error (.conversion v.domain target.name)
  | some n =>
    match pick n with
    | some converted => .ok converted
    | none => .error (.outOfRange v target.name)

/-- A value converted to a target, or the reason why it cannot be. -/
def convert (v : Value) (target : Target) : Except CompareError Converted :=
  let refused : Except CompareError Converted := .error (.conversion v.domain target.name)
  match target with
  | .integer type => v.convertInteger target fun n => if type.contains n then some (.integer type n) else none
  | .boolean =>
    v.convertInteger target fun n =>
      if n = 0 then some (.boolean false) else if n = 1 then some (.boolean true) else none
  | .double => match v.toDouble? with
    | some x => .ok (.double x)
    | none => refused
  | .single => match v.toDouble? with
    | some x => .ok (.single x.toSingle?)
    | none => refused
  | .text => match v with
    | string bytes => match bytes.toString? with
      | some s => .ok (.text s)
      | none => refused
    | _ => refused
  | .bytes => match v with
    | string bytes | memory bytes => .ok (.bytes bytes)
    | _ => refused
  | .constPointer | .mutPointer => match v with
    | pointer address => .ok (.pointer address)
    | _ => refused
  | .value => .ok (.value v)

end Value

end TestIsolation
