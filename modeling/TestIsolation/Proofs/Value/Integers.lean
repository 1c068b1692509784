import TestIsolation.Value.Constraint

/-!
# Integers compare by their mathematical value

A value holds an integer in 128 bits, with a sign or without one (`WideInteger`). Two of one kind are compared as they
are, and of two kinds by a rule of its own (`Value.compareSignedUnsigned`). All of this is the order of the numbers that
the bits spell (`WideInteger.order_toValue`), since bits are looked at only where no sign is set, and there they spell
one number with a sign and without. So every predicate says about two integers what it says about their numbers
(`integers_compare_by_value`).
-/

namespace TestIsolation

set_option autoImplicit false

/-- What an order relation says about numbers. -/
def OrderRelation.Holds : OrderRelation → Int → Int → Prop
  | equal, x, y => x = y
  | unequal, x, y => x ≠ y
  | greater, x, y => y < x
  | greaterEqual, x, y => y ≤ x
  | lower, x, y => x < y
  | lowerEqual, x, y => x ≤ y

instance OrderRelation.decidableHolds : (relation : OrderRelation) → (x y : Int) → Decidable (relation.Holds x y)
  | equal, x, y => inferInstanceAs (Decidable (x = y))
  | unequal, x, y => inferInstanceAs (Decidable (x ≠ y))
  | greater, x, y => inferInstanceAs (Decidable (y < x))
  | greaterEqual, x, y => inferInstanceAs (Decidable (y ≤ x))
  | lower, x, y => inferInstanceAs (Decidable (x < y))
  | lowerEqual, x, y => inferInstanceAs (Decidable (x ≤ y))

/-- An integer as a value holds it. -/
inductive WideInteger where
  | signed (bits : BitVec 128)
  | unsigned (bits : BitVec 128)
  deriving DecidableEq

namespace WideInteger

/-- The number that the bits spell. -/
def number : WideInteger → Int
  | signed bits => bits.toInt
  | unsigned bits => bits.toNat

/-- The value that holds an integer. -/
def toValue : WideInteger → Value
  | signed bits => .signed bits.toInt
  | unsigned bits => .unsigned bits.toNat

/-- The answer that one integer is at most another. -/
def AtMost (a b : WideInteger) : Prop := (Condition.order .lowerEqual b.toValue).evaluate a.toValue = .ok true

end WideInteger

/-! ## The order -/

/-- The answer to a relation in the order of two numbers is what the relation says about them. -/
theorem OrderRelation.test_compare (relation : OrderRelation) (x y : Int) :
    relation.test (some (compare x y)) = decide (relation.Holds x y) := by
  rw [Bool.eq_iff_iff, decide_eq_true_iff]
  rcases Int.lt_trichotomy x y with less | rfl | more
  · rw [Int.compare_eq_lt.2 less]
    cases relation <;> simp [test, Holds] <;> omega
  · rw [Int.compare_eq_eq.2 rfl]
    cases relation <;> simp [test, Holds]
  · rw [Int.compare_eq_gt.2 more]
    cases relation <;> simp [test, Holds] <;> omega

/-- Natural numbers are in the order of the integers that they are. -/
theorem compare_natCast (m n : Nat) : compare (m : Int) n = compare m n := by
  simp only [compare, compareOfLessAndEq, Int.ofNat_lt, Int.ofNat_inj]

namespace Value

/-- Where no sign is set, bits spell one number with a sign and without. -/
theorem toNat_ofInt_toInt {bits : BitVec 128} (unset : ¬bits.toInt < 0) :
    ((BitVec.ofInt 128 bits.toInt).toNat : Int) = bits.toInt := by
  have spelt := bits.toInt_eq_toNat_cond
  have bound := bits.isLt
  rw [BitVec.ofInt_toInt]
  split at spelt <;> omega

/-- **A signed and an unsigned number are compared by their value.** -/
theorem compareSignedUnsigned_eq (a b : BitVec 128) :
    compareSignedUnsigned a.toInt b.toNat = compare a.toInt (b.toNat : Int) := by
  unfold compareSignedUnsigned
  split
  · rename_i negative
    exact (Int.compare_eq_lt.2 (by omega)).symm
  · rename_i unset
    rw [← compare_natCast, toNat_ofInt_toInt unset]

end Value

namespace WideInteger

/-- **The order of two integers is that of their numbers**, whichever of them have signs. -/
theorem order_toValue (a b : WideInteger) :
    Value.order a.toValue b.toValue = .ok (some (compare a.number b.number)) := by
  cases a with
  | signed a =>
    cases b with
    | signed b => rfl
    | unsigned b => simp only [toValue, number, Value.order, Value.compareSignedUnsigned_eq]
  | unsigned a =>
    cases b with
    | signed b => simp only [toValue, number, Value.order, Value.compareSignedUnsigned_eq, Int.compare_swap]
    | unsigned b => simp only [toValue, number, Value.order, compare_natCast]

example : Value.order (.signed (-1)) (.unsigned (2 ^ 128 - 1)) = .ok (some .lt) := rfl

/-! ## The predicates -/

/-- Every predicate but those on texts is defined for integers. -/
theorem evaluate_toValue {c : Condition} (a : WideInteger) (noText : ∀ relation holds part, c ≠ .text relation holds part) :
    c.evaluate a.toValue = c.holdsFor a.toValue := by
  refine Condition.evaluate_of_supports ?_
  cases c with
  | order relation expected => cases relation <;> cases a <;> rfl
  | range inside min max => cases a <;> rfl
  | set member items => cases a <;> rfl
  | text relation holds part => exact absurd rfl (noText relation holds part)

theorem evaluate_order (relation : OrderRelation) (a expected : WideInteger) :
    (Condition.order relation expected.toValue).evaluate a.toValue =
      .ok (decide (relation.Holds a.number expected.number)) := by
  rw [evaluate_toValue a (by simp), Condition.holdsFor, order_toValue]
  exact congrArg Except.ok (relation.test_compare a.number expected.number)

/-- A range of integers holds the numbers between its bounds. -/
theorem insideRange_toValue (min max a : WideInteger) :
    Condition.insideRange min.toValue max.toValue a.toValue =
      if max.number < min.number then .error (.invertedRange min.toValue max.toValue)
      else .ok (decide (min.number ≤ a.number ∧ a.number ≤ max.number)) := by
  simp only [Condition.insideRange, order_toValue, bind, Except.bind, Option.some.injEq, Int.compare_eq_gt]
  split
  · rfl
  · rw [OrderRelation.test_compare, OrderRelation.test_compare, ← Bool.decide_and]
    rfl

/-- An integer is one of some items if its number is one of theirs. -/
theorem memberOf_toValue (a : WideInteger) (items : List WideInteger) :
    Condition.memberOf a.toValue (items.map toValue) = .ok (decide (a.number ∈ items.map number)) := by
  induction items with
  | nil => rfl
  | cons item items ih =>
    simp only [List.map_cons, Condition.memberOf, order_toValue, bind, Except.bind, Option.some.injEq,
      Int.compare_eq_eq, List.mem_cons]
    by_cases same : a.number = item.number
    · simp [same, pure, Except.pure]
    · simp [same, ih]

theorem atMost_iff (a b : WideInteger) : a.AtMost b ↔ a.number ≤ b.number := by
  rw [AtMost, evaluate_order, Except.ok.injEq, decide_eq_true_iff]
  rfl

end WideInteger

open WideInteger in
/-- **Integers compare by their mathematical value.** -/
theorem integers_compare_by_value (expr : Option String) (actual : WideInteger) :
    (∀ (relation : OrderRelation) (expected : WideInteger),
      (Constraint.mk (.order relation expected.toValue) expr).evaluate actual.toValue =
        .ok (decide (relation.Holds actual.number expected.number))) ∧
    (∀ (inside : Bool) (min max : WideInteger),
      (Constraint.mk (.range inside min.toValue max.toValue) expr).evaluate actual.toValue =
        if max.number < min.number then .error (.invertedRange min.toValue max.toValue)
        else .ok (decide (min.number ≤ actual.number ∧ actual.number ≤ max.number) == inside)) ∧
    (∀ (member : Bool) (items : List WideInteger),
      (Constraint.mk (.set member (items.map toValue)) expr).evaluate actual.toValue =
        .ok (decide (actual.number ∈ items.map number) == member)) ∧
    (∀ a : WideInteger, actual.AtMost a ∨ a.AtMost actual) ∧
    (∀ a b : WideInteger, actual.AtMost a → a.AtMost b → actual.AtMost b) ∧
    (∀ a : WideInteger, actual.AtMost a → a.AtMost actual → actual.number = a.number) := by
  refine ⟨fun relation expected => evaluate_order relation actual expected, ?_, ?_, ?_, ?_, ?_⟩
  · intro inside min max
    rw [Constraint.evaluate, evaluate_toValue actual (by simp), Condition.holdsFor, insideRange_toValue]
    split <;> rfl
  · intro member items
    rw [Constraint.evaluate, evaluate_toValue actual (by simp), Condition.holdsFor, memberOf_toValue]
    rfl
  all_goals simp only [atMost_iff]
  · exact fun a => Int.le_total _ _
  · exact fun a b => Int.le_trans
  · exact fun a => Int.le_antisymm

end TestIsolation
