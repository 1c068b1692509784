import TestIsolation.Proofs.Value.Membership

/-!
# The families of predicates

A predicate and its contrary are defined for the same values and look at the same comparisons, so they give opposite
answers or are refused alike (`Constraint.outcome_of_contrary`). The families are tied to each other by what an answer
says about `Value.order`: an answer on a range is one on its two bounds (`Condition.evaluate_range_eq_ok_iff`), one on a
set comes from what equals its items (`Condition.memberOf_eq_true_iff`, `Condition.memberOf_eq_false_iff`), and two
values are in the same order seen from either side (`Value.order_swap`). A NaN is in no order with anything, and no
law makes an exception for it.
-/

namespace TestIsolation

set_option autoImplicit false

/-- What kind of refusal there is, whatever it is about. -/
inductive CompareError.Kind where
  | domainMismatch
  | unsupported
  | invertedRange
  | outOfRange
  | conversion
  deriving DecidableEq, Repr

/-- The kind of a refusal. -/
def CompareError.kind : CompareError → Kind
  | domainMismatch .. => .domainMismatch
  | unsupported .. => .unsupported
  | invertedRange .. => .invertedRange
  | outOfRange .. => .outOfRange
  | conversion .. => .conversion

/-- What comes of a constraint: its answer, or the kind of its refusal. -/
def Constraint.outcome (c : Constraint) (actual : Value) : Except CompareError.Kind Bool :=
  (c.evaluate actual).mapError CompareError.kind

/-! ## The order from either side -/

theorem Ieee.Double.order_swap (x y : Ieee.Double) : y.order x = (x.order y).map Ordering.swap := by
  cases nan : x.isNaN || y.isNaN with
  | true => simp [order, nan, Bool.or_comm y.isNaN]
  | false => simp [order, nan, Bool.or_comm y.isNaN, Int.compare_swap]

namespace Value

theorem compareBytes_swap (a b : Bytes) : compareBytes b a = (compareBytes a b).swap := by
  induction a generalizing b with
  | nil => cases b <;> rfl
  | cons x a ih =>
    cases b with
    | nil => rfl
    | cons y b =>
      rw [compareBytes, compareBytes, Std.OrientedOrd.eq_swap (a := y) (b := x)]
      cases compare x y with
      | lt | gt => rfl
      | eq => exact ih b

/-- **Two values are in the same order seen from either side.** -/
theorem order_swap {a b : Value} {o : Option Ordering} (ordered : order a b = .ok o) :
    order b a = .ok (o.map Ordering.swap) := by
  cases a <;> cases b <;> simp only [order, toDouble?, reduceCtorEq, Except.ok.injEq] at ordered ⊢ <;> subst ordered <;>
    simp [Int.compare_swap, Nat.compare_swap, ← compareBytes_swap, ← Ieee.Double.order_swap]

theorem compares_of_order {a b : Value} {o : Option Ordering} (ordered : order a b = .ok o) :
    a.domain.comparesWith b.domain = true := by
  cases compares : a.domain.comparesWith b.domain with
  | true => rfl
  | false => rw [order_of_apart compares] at ordered; cases ordered

end Value

namespace Predicate

/-- Numbers support the same predicates. -/
theorem supports_of_isNumeric {d : Domain} (numeric : d.isNumeric = true) (p : Predicate) :
    p.supports d = p.supports .signed := by
  cases d with
  | signed => rfl
  | unsigned | float => rcases p with (_ | _ | _ | _ | _ | _) | _ | _ | _ <;> rfl
  | string | pointer | memory => cases numeric

/-- A predicate is defined for both of two domains that compare with each other, or for neither. -/
theorem supports_of_compares {d e : Domain} (compares : d.comparesWith e = true) (p : Predicate) :
    p.supports d = p.supports e := by
  rw [Domain.comparesWith, Bool.or_eq_true, beq_iff_eq, Bool.and_eq_true] at compares
  rcases compares with rfl | ⟨first, second⟩
  · rfl
  · rw [supports_of_isNumeric first, supports_of_isNumeric second]

end Predicate

/-! ## Answers and comparisons -/

/-- What a text relation says of a part and the whole. -/
def TextRelation.Holds : TextRelation → (part whole : Bytes) → Prop
  | begin, part, whole => part <+: whole
  | «end», part, whole => part <:+ whole
  | contain, part, whole => part <:+: whole

theorem TextRelation.test_iff (relation : TextRelation) (part whole : Bytes) :
    relation.test part whole = true ↔ relation.Holds part whole := by
  cases relation with
  | begin => exact List.isPrefixOf_iff_prefix
  | «end» => exact List.isSuffixOf_iff_suffix
  | contain => exact occursIn_iff

instance TextRelation.decidableHolds (relation : TextRelation) (part whole : Bytes) :
    Decidable (relation.Holds part whole) := decidable_of_iff _ (relation.test_iff part whole)

namespace Condition

variable {actual : Value} {answer : Bool}

/-- An answer is given where the predicate is defined. -/
theorem evaluate_eq_ok_iff {c : Condition} : c.evaluate actual = .ok answer ↔
    c.predicate.supports actual.domain = true ∧ c.holdsFor actual = .ok answer := by
  cases supports : c.predicate.supports actual.domain with
  | true => rw [evaluate_of_supports supports]; exact ⟨fun held => ⟨rfl, held⟩, And.right⟩
  | false => simp [evaluate, supports]

/-- An answer on one value comes from a comparison with it. -/
theorem evaluate_order_eq_ok_iff {relation : OrderRelation} {expected : Value} :
    (order relation expected).evaluate actual = .ok answer ↔
      (Predicate.order relation).supports actual.domain = true ∧
      ∃ o, Value.order actual expected = .ok o ∧ relation.test o = answer := by
  rw [evaluate_eq_ok_iff, holdsFor]
  cases ordered : Value.order actual expected with
  | error e => simp [bind, Except.bind]
  | ok o => simp [bind, Except.bind, pure, Except.pure, predicate]

/-- **An answer on a range is one on its two bounds**, of which the lower must not exceed the upper. -/
theorem evaluate_range_eq_ok_iff {min max : Value} : (range true min max).evaluate actual = .ok answer ↔
    (order .greater max).evaluate min = .ok false ∧
    ∃ fromBelow fromAbove, (order .greaterEqual min).evaluate actual = .ok fromBelow ∧
      (order .lowerEqual max).evaluate actual = .ok fromAbove ∧ answer = (fromBelow && fromAbove) := by
  have inside : (range true min max).holdsFor actual = .ok answer ↔ ∃ o p q, Value.order min max = .ok o ∧
      o ≠ some .gt ∧ Value.order actual min = .ok p ∧ Value.order actual max = .ok q ∧
      answer = (OrderRelation.greaterEqual.test p && OrderRelation.lowerEqual.test q) := by
    rw [holdsFor, insideRange]
    cases Value.order min max with
    | error e => simp [bind, Except.bind]
    | ok o =>
      by_cases inverted : o = some .gt
      · simp [inverted, bind, Except.bind, throw, throwThe, MonadExceptOf.throw]
      · cases Value.order actual min <;> cases Value.order actual max <;>
          simp [inverted, bind, Except.bind, pure, Except.pure, eq_comm]
  rw [evaluate_eq_ok_iff, inside]
  simp only [evaluate_order_eq_ok_iff]
  constructor
  · rintro ⟨supports, o, p, q, bounds, apart, below, above, rfl⟩
    have same := Predicate.supports_of_compares (Value.compares_of_order below) (.range true)
    refine ⟨⟨same.symm.trans supports, o, bounds, beq_eq_false_iff_ne.2 apart⟩, _, _, ⟨supports, p, below, rfl⟩,
      ⟨supports, q, above, rfl⟩, rfl⟩
  · rintro ⟨⟨_, o, bounds, apart⟩, _, _, ⟨supports, p, below, rfl⟩, ⟨_, q, above, rfl⟩, rfl⟩
    exact ⟨supports, o, p, q, bounds, beq_eq_false_iff_ne.1 apart, below, above, rfl⟩

/-- What settles membership is what `equal` says, unless it denies. -/
theorem settledBy_eq (actual item : Value) : actual.settledBy item =
    match (order .equal item).evaluate actual with
    | .ok false => none
    | settled => some settled := by
  rw [evaluate_of_supports rfl, holdsFor, Value.settledBy]
  cases Value.order actual item with
  | error e => rfl
  | ok o =>
    cases o with
    | none => rfl
    | some o => cases o <;> rfl

theorem settledBy_eq_none_iff {item : Value} :
    actual.settledBy item = none ↔ (order .equal item).evaluate actual = .ok false := by
  rw [settledBy_eq]
  cases (order .equal item).evaluate actual with
  | error e => simp
  | ok holds => cases holds <;> simp

theorem settledBy_eq_true_iff {item : Value} :
    actual.settledBy item = some (.ok true) ↔ (order .equal item).evaluate actual = .ok true := by
  rw [settledBy_eq]
  cases (order .equal item).evaluate actual with
  | error e => simp
  | ok holds => cases holds <;> simp

theorem settledBy_ne_false (actual item : Value) : actual.settledBy item ≠ some (.ok false) := by
  rw [settledBy_eq]
  cases (order .equal item).evaluate actual with
  | error e => simp
  | ok holds => cases holds <;> simp

/-- **A member equals an item**, and none of those before it, with all of which it compares. -/
theorem memberOf_eq_true_iff {items : List Value} : memberOf actual items = .ok true ↔
    ∃ before item after, items = before ++ item :: after ∧ (order .equal item).evaluate actual = .ok true ∧
      ∀ other ∈ before, (order .equal other).evaluate actual = .ok false := by
  have found : memberOf actual items = .ok true ↔ items.findSome? actual.settledBy = some (.ok true) := by
    rw [memberOf_eq]
    cases items.findSome? actual.settledBy <;> simp
  simp only [found, List.findSome?_eq_some_iff, settledBy_eq_true_iff, settledBy_eq_none_iff]

/-- **What is no member equals no item**, and compares with all of them. -/
theorem memberOf_eq_false_iff {items : List Value} : memberOf actual items = .ok false ↔
    ∀ item ∈ items, (order .equal item).evaluate actual = .ok false := by
  simp only [← settledBy_eq_none_iff, ← List.findSome?_eq_none_iff]
  rw [memberOf_eq]
  cases found : items.findSome? actual.settledBy with
  | none => simp
  | some settled =>
    obtain ⟨item, _, by_item⟩ := List.exists_of_findSome?_eq_some found
    have denied : settled ≠ .ok false := by
      rintro rfl
      exact settledBy_ne_false actual item by_item
    simp [denied]

theorem evaluate_set_eq_ok_iff {items : List Value} : (set true items).evaluate actual = .ok answer ↔
    actual.domain ≠ .memory ∧ memberOf actual items = .ok answer := by
  have supports : (set true items).predicate.supports actual.domain = true ↔ actual.domain ≠ .memory := bne_iff_ne
  have same : (set true items).holdsFor actual = memberOf actual items := by
    rw [holdsFor]
    cases memberOf actual items with
    | error e => rfl
    | ok member => cases member <;> rfl
  rw [evaluate_eq_ok_iff, supports, same]

/-- One direction of `evaluate_lower_iff`, and the other with the values exchanged. -/
theorem evaluate_of_swap {relation mirrored : OrderRelation} {other : Value}
    (mirror : ∀ o : Option Ordering, mirrored.test (o.map Ordering.swap) = relation.test o)
    (alike : ∀ d, (Predicate.order mirrored).supports d = (Predicate.order relation).supports d)
    (answered : (order relation other).evaluate actual = .ok answer) :
    (order mirrored actual).evaluate other = .ok answer := by
  obtain ⟨supports, o, ordered, rfl⟩ := evaluate_order_eq_ok_iff.1 answered
  have same := Predicate.supports_of_compares (Value.compares_of_order ordered) (.order relation)
  exact evaluate_order_eq_ok_iff.2
    ⟨by rw [alike, ← same, supports], o.map Ordering.swap, Value.order_swap ordered, mirror o⟩

/-- **One value is lower than another exactly if that is greater than it.** -/
theorem evaluate_lower_iff {other : Value} : (order .lower other).evaluate actual = .ok answer ↔
    (order .greater actual).evaluate other = .ok answer := by
  have mirror (o : Option Ordering) : OrderRelation.greater.test (o.map Ordering.swap) = OrderRelation.lower.test o := by
    cases o with
    | none => rfl
    | some o => cases o <;> rfl
  have back (o : Option Ordering) : OrderRelation.lower.test (o.map Ordering.swap) = OrderRelation.greater.test o := by
    cases o with
    | none => rfl
    | some o => cases o <;> rfl
  exact ⟨evaluate_of_swap mirror fun d => rfl, evaluate_of_swap back fun d => rfl⟩

/-- **A text is asked where its part stands.** -/
theorem evaluate_text (relation : TextRelation) (part whole : Bytes) :
    (text relation true (.string part)).evaluate (.string whole) = .ok (decide (relation.Holds part whole)) := by
  have answered : (text relation true (.string part)).evaluate (.string whole) =
      .ok (relation.test part whole == true) := rfl
  rw [answered, beq_true, Bool.eq_iff_iff.2 ((relation.test_iff part whole).trans decide_eq_true_iff.symm)]

end Condition

namespace Constraint

variable {expr : Option String} {actual : Value}

theorem outcome_order (relation : OrderRelation) (expected : Value) :
    (mk (.order relation expected) expr).outcome actual =
      if (Predicate.order relation).supports actual.domain then
        ((Value.order actual expected).mapError CompareError.kind).map relation.test
      else .error .unsupported := by
  rw [outcome, evaluate, Condition.evaluate, Condition.predicate, Condition.holdsFor]
  split
  · cases Value.order actual expected <;> rfl
  · rfl

/-- **At least as great is greater or equal.** -/
theorem outcome_greaterEqual (expected : Value) : (mk (.order .greaterEqual expected) expr).outcome actual = do
    return (← (mk (.order .greater expected) expr).outcome actual) ||
      (← (mk (.order .equal expected) expr).outcome actual) := by
  have alike : (Predicate.order .greater).supports actual.domain =
      (Predicate.order .greaterEqual).supports actual.domain := rfl
  have always : (Predicate.order .equal).supports actual.domain = true := rfl
  simp only [outcome_order, alike, always]
  split
  · cases Value.order actual expected <;> rfl
  · rfl

/-- **A condition and its contrary have opposite answers, or are refused alike.** -/
theorem outcome_of_contrary {c d : Condition}
    (alike : c.predicate.supports actual.domain = d.predicate.supports actual.domain)
    (opposite : d.holdsFor actual = (c.holdsFor actual).map not) :
    (mk d expr).outcome actual = ((mk c expr).outcome actual).map not := by
  simp only [outcome, evaluate, Condition.evaluate, alike, opposite]
  split
  · cases c.holdsFor actual <;> rfl
  · rfl

theorem outcome_unequal (expected : Value) : (mk (.order .unequal expected) expr).outcome actual =
    ((mk (.order .equal expected) expr).outcome actual).map not := by
  refine outcome_of_contrary rfl ?_
  rw [Condition.holdsFor, Condition.holdsFor]
  cases Value.order actual expected <;> rfl

theorem outcome_outside (min max : Value) : (mk (.range false min max) expr).outcome actual =
    ((mk (.range true min max) expr).outcome actual).map not := by
  refine outcome_of_contrary rfl ?_
  rw [Condition.holdsFor, Condition.holdsFor]
  cases Condition.insideRange min max actual with
  | error e => rfl
  | ok inside => cases inside <;> rfl

theorem outcome_notMember (items : List Value) : (mk (.set false items) expr).outcome actual =
    ((mk (.set true items) expr).outcome actual).map not := by
  refine outcome_of_contrary rfl ?_
  rw [Condition.holdsFor, Condition.holdsFor]
  cases Condition.memberOf actual items with
  | error e => rfl
  | ok member => cases member <;> rfl

theorem outcome_textAbsent (relation : TextRelation) (part : Value) :
    (mk (.text relation false part) expr).outcome actual =
      ((mk (.text relation true part) expr).outcome actual).map not := by
  refine outcome_of_contrary rfl ?_
  match actual, part with
  | .string whole, .string part =>
    have asked (holds : Bool) : (Condition.text relation holds (.string part)).holdsFor (.string whole) =
        .ok (relation.test part whole == holds) := rfl
    rw [asked, asked]
    cases relation.test part whole <;> rfl
  | .string _, .signed _ | .string _, .unsigned _ | .string _, .float _ | .string _, .pointer _ | .string _, .memory _
  | .signed _, _ | .unsigned _, _ | .float _, _ | .pointer _, _ | .memory _, _ => rfl

end Constraint

open OrderRelation in
/-- **The families of predicates agree with each other.** -/
theorem predicates_agree (expr : Option String) (actual : Value) :
    (∀ expected, (Constraint.mk (.order unequal expected) expr).outcome actual =
      ((Constraint.mk (.order equal expected) expr).outcome actual).map not) ∧
    (∀ min max, (Constraint.mk (.range false min max) expr).outcome actual =
      ((Constraint.mk (.range true min max) expr).outcome actual).map not) ∧
    (∀ items, (Constraint.mk (.set false items) expr).outcome actual =
      ((Constraint.mk (.set true items) expr).outcome actual).map not) ∧
    (∀ relation part, (Constraint.mk (.text relation false part) expr).outcome actual =
      ((Constraint.mk (.text relation true part) expr).outcome actual).map not) ∧
    (∀ min max answer, (Constraint.mk (.range true min max) expr).evaluate actual = .ok answer ↔
      (Constraint.mk (.order greater max) expr).evaluate min = .ok false ∧
      ∃ fromBelow fromAbove, (Constraint.mk (.order greaterEqual min) expr).evaluate actual = .ok fromBelow ∧
        (Constraint.mk (.order lowerEqual max) expr).evaluate actual = .ok fromAbove ∧
        answer = (fromBelow && fromAbove)) ∧
    (∀ items, (Constraint.mk (.set true items) expr).evaluate actual = .ok true ↔
      actual.domain ≠ .memory ∧ ∃ before item after, items = before ++ item :: after ∧
        (Constraint.mk (.order equal item) expr).evaluate actual = .ok true ∧
        ∀ other ∈ before, (Constraint.mk (.order equal other) expr).evaluate actual = .ok false) ∧
    (∀ items, (Constraint.mk (.set true items) expr).evaluate actual = .ok false ↔
      actual.domain ≠ .memory ∧ ∀ item ∈ items, (Constraint.mk (.order equal item) expr).evaluate actual = .ok false) ∧
    (∀ expected, (Constraint.mk (.order greaterEqual expected) expr).outcome actual = do
      return (← (Constraint.mk (.order greater expected) expr).outcome actual) ||
        (← (Constraint.mk (.order equal expected) expr).outcome actual)) ∧
    (∀ other answer, (Constraint.mk (.order lower other) expr).evaluate actual = .ok answer ↔
      (Constraint.mk (.order greater actual) expr).evaluate other = .ok answer) ∧
    (∀ relation part whole, (Constraint.mk (.text relation true (.string part)) expr).evaluate (.string whole) =
      .ok (decide (relation.Holds part whole))) := by
  refine ⟨Constraint.outcome_unequal, Constraint.outcome_outside, Constraint.outcome_notMember,
    Constraint.outcome_textAbsent, fun min max answer => Condition.evaluate_range_eq_ok_iff, fun items => ?_,
    fun items => ?_, Constraint.outcome_greaterEqual, fun other answer => Condition.evaluate_lower_iff,
    Condition.evaluate_text⟩
  · exact Condition.evaluate_set_eq_ok_iff.trans (and_congr_right fun _ => Condition.memberOf_eq_true_iff)
  · exact Condition.evaluate_set_eq_ok_iff.trans (and_congr_right fun _ => Condition.memberOf_eq_false_iff)

/-- A range from a NaN to a NaN is in the right order, and no NaN lies in it. -/
example : (Constraint.mk (.range true (.float .nan) (.float .nan)) none).evaluate (.float .nan) = .ok false := rfl

end TestIsolation
