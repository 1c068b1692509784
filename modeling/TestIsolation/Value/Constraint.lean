import TestIsolation.Value.Compare

/-!
# Constraints

A `Condition` is a predicate with the operand that its family takes, so that no predicate meets an operand of another
shape; a `Constraint` adds the source text of the operand. `Constraint.evaluate` answers it for an actual value.
-/

namespace TestIsolation

set_option autoImplicit false

/-- A predicate with its expected operand. -/
inductive Condition where
  | order (relation : OrderRelation) (expected : Value)
  | range (inside : Bool) (min max : Value)
  | set (member : Bool) (items : List Value)
  | text (relation : TextRelation) (holds : Bool) (expected : Value)
  deriving DecidableEq, Repr

namespace Condition

/-- The predicate of a condition. -/
def predicate : Condition → Predicate
  | order relation _ => .order relation
  | range inside _ _ => .range inside
  | set member _ => .set member
  | text relation holds _ => .text relation holds

/-- The text of the operand in messages. -/
def operand : Condition → String
  | order _ expected | text _ _ expected => expected.render
  | range _ min max => "[" ++ min.render ++ ", " ++ max.render ++ "]"
  | set _ items => "\x7b" ++ ", ".intercalate (items.map Value.render) ++ "\x7d"

/-- The text of a condition in messages, such as `in_range [1, 5]`. -/
def describe (c : Condition) : String := c.predicate.name ++ " " ++ c.operand

/-- Whether a value lies in a closed range. A range whose bounds are in the wrong order is refused; a NaN lies in no
range, and in a range bounded by one lies nothing. -/
def insideRange (min max actual : Value) : Except CompareError Bool := do
  if (← Value.order min max) = some .gt then throw (.invertedRange min max)
  let fromBelow ← Value.order actual min
  let fromAbove ← Value.order actual max
  return OrderRelation.greaterEqual.test fromBelow && OrderRelation.lowerEqual.test fromAbove

/-- Whether a value equals one of the items, which are looked at in turn up to the first equal one. -/
def memberOf (actual : Value) : List Value → Except CompareError Bool
  | [] => .ok false
  | item :: rest => do
    if (← Value.order actual item) = some .eq then return true
    memberOf actual rest

/-- The answer for an actual value of a supported domain. -/
def holdsFor (actual : Value) : Condition → Except CompareError Bool
  | order relation expected => do return relation.test (← Value.order actual expected)
  | range inside min max => do return (← insideRange min max actual) == inside
  | set member items => do return (← memberOf actual items) == member
  | text relation holds expected =>
    match actual, expected with
    | .string whole, .string part => .ok (relation.test part whole == holds)
    | _, _ => .error (.domainMismatch actual.domain expected.domain)

/-- The answer for an actual value, refused where the predicate is not defined for its domain. -/
def evaluate (c : Condition) (actual : Value) : Except CompareError Bool :=
  if c.predicate.supports actual.domain then c.holdsFor actual
  else .error (.unsupported c.predicate actual.domain)

theorem evaluate_of_supports {c : Condition} {actual : Value} (supports : c.predicate.supports actual.domain = true) :
    c.evaluate actual = c.holdsFor actual := if_pos supports

end Condition

/-- A condition with the source text of its operand, if that is known. -/
structure Constraint where
  condition : Condition
  expr : Option String := none
  deriving DecidableEq, Repr

namespace Constraint

/-- The constraint with a source text; an empty one counts as unknown. -/
def withExpr (c : Constraint) (expr : String) : Constraint :=
  { c with expr := if expr = "" then none else some expr }

/-- The text of a constraint in messages. -/
def describe (c : Constraint) : String := c.condition.describe

/-- The answer for an actual value. -/
def evaluate (c : Constraint) (actual : Value) : Except CompareError Bool := c.condition.evaluate actual

end Constraint

end TestIsolation
