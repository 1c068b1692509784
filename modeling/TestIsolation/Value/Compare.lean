import TestIsolation.Value.Predicate

/-!
# Order of values

`Value.order` compares within a domain, and across the numeric ones: a signed with an unsigned number by
`Value.compareSignedUnsigned`, anything with a float as doubles. Other pairs cannot be compared. `CompareError` is every
way in which a comparison or a conversion of values is refused.
-/

namespace TestIsolation

set_option autoImplicit false

/-- Why a comparison or a conversion is refused. -/
inductive CompareError where
  | domainMismatch (actual expected : Domain)
  | unsupported (predicate : Predicate) (domain : Domain)
  | invertedRange (min max : Value)
  | outOfRange (value : Value) (target : String)
  | conversion (domain : Domain) (target : String)
  deriving DecidableEq, Repr

namespace CompareError

/-- The text of a refusal. -/
def message : CompareError → String
  | domainMismatch actual expected =>
    s!"cannot compare a {actual.name} value against a {expected.name} operand"
  | unsupported predicate domain => "predicate `" ++ predicate.name ++ s!"` is not defined for {domain.name} values"
  | invertedRange min max => s!"range lower bound {min.render} exceeds upper bound {max.render}"
  | outOfRange value target => s!"value {value.render} does not fit in `" ++ target ++ "`"
  | conversion domain target => s!"{domain.name} value cannot convert to `" ++ target ++ "`"

end CompareError

namespace Value

/-- Byte strings in lexicographic order. -/
def compareBytes : Bytes → Bytes → Ordering
  | [], [] => .eq
  | [], _ :: _ => .lt
  | _ :: _, [] => .gt
  | a :: as, b :: bs =>
    match compare a b with
    | .eq => compareBytes as bs
    | unequal => unequal

/-- The order of a signed and an unsigned number of 128 bits. A negative number comes first, and any other is compared
by its bits as an unsigned one. -/
def compareSignedUnsigned (signed : Int) (unsigned : Nat) : Ordering :=
  if signed < 0 then .lt else compare (BitVec.ofInt 128 signed).toNat unsigned

/-- The order of two values; nothing when a NaN is among them. -/
def order (a b : Value) : Except CompareError (Option Ordering) :=
  match a, b with
  | signed x, signed y => .ok (some (compare x y))
  | unsigned x, unsigned y => .ok (some (compare x y))
  | signed x, unsigned y => .ok (some (compareSignedUnsigned x y))
  | unsigned x, signed y => .ok (some (compareSignedUnsigned y x).swap)
  | string x, string y => .ok (some (compareBytes x y))
  | memory x, memory y => .ok (some (compareBytes x y))
  | pointer x, pointer y => .ok (some (compare x y))
  | a, b =>
    match a.toDouble?, b.toDouble? with
    | some x, some y => .ok (x.order y)
    | _, _ => .error (.domainMismatch a.domain b.domain)

end Value

end TestIsolation
