import TestIsolation.Value.Basic

/-!
# Predicates

The sixteen predicates come in four families, by the shape of what they compare with: one value in an order, a range,
a set, or a part of a text. The last three families hold a predicate and its negation.
-/

namespace TestIsolation

set_option autoImplicit false

/-- A question about the order of two values. -/
inductive OrderRelation where
  | equal
  | unequal
  | greater
  | greaterEqual
  | lower
  | lowerEqual
  deriving DecidableEq, Repr

/-- Where a part stands in a text. -/
inductive TextRelation where
  | begin
  | «end»
  | contain
  deriving DecidableEq, Repr

/-- A comparison predicate. -/
inductive Predicate where
  | order (relation : OrderRelation)
  | range (inside : Bool)
  | set (member : Bool)
  | text (relation : TextRelation) (holds : Bool)
  deriving DecidableEq, Repr

namespace OrderRelation

/-- The name of an order relation in messages. -/
def name : OrderRelation → String
  | equal => "equal"
  | unequal => "unequal"
  | greater => "greater"
  | greaterEqual => "greater_equal"
  | lower => "lower"
  | lowerEqual => "lower_equal"

/-- The answer for two values in the given order; unordered values are only unequal. -/
def test : OrderRelation → Option Ordering → Bool
  | equal, o => o == some .eq
  | unequal, o => o != some .eq
  | greater, o => o == some .gt
  | greaterEqual, o => o == some .gt || o == some .eq
  | lower, o => o == some .lt
  | lowerEqual, o => o == some .lt || o == some .eq

end OrderRelation

namespace TextRelation

/-- The name of a text relation in messages. -/
def name : TextRelation → String
  | begin => "begin"
  | «end» => "end"
  | contain => "contain"

/-- Whether `part` stands at this place of `whole`. -/
def test : TextRelation → (part whole : Bytes) → Bool
  | begin, part, whole => part.isPrefixOf whole
  | «end», part, whole => part.isSuffixOf whole
  | contain, part, whole => occursIn part whole

end TextRelation

namespace Predicate

/-- The name of a predicate in messages. -/
def name : Predicate → String
  | order relation => relation.name
  | range true => "in_range"
  | range false => "not_in_range"
  | set true => "in_set"
  | set false => "not_in_set"
  | text relation true => relation.name
  | text relation false => "not_" ++ relation.name

/-- All predicates, in the order in which they are listed. -/
def all : List Predicate :=
  [.equal, .unequal, .greater, .greaterEqual, .lower, .lowerEqual].map order
    ++ [range true, range false, set true, set false]
    ++ [.begin, .end, .contain].flatMap fun relation => [text relation true, text relation false]

/-- Whether a predicate is defined for values of a domain. -/
def supports : Predicate → Domain → Bool
  | order .equal, _ | order .unequal, _ => true
  | order _, d | range _, d => d.isNumeric || d == .pointer
  | set _, d => d != .memory
  | text _ _, d => d == .string

end Predicate

end TestIsolation
