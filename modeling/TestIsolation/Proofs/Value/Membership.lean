import TestIsolation.Value.Constraint

/-!
# Membership in a set

The items of a set are looked at in turn, up to the first that settles the question: it equals the actual value, or it
cannot be compared with it, which is an error (`memberOf_eq`). Two lists with the same items may differ in which of them
comes first. The answer rests on the items alone exactly if all that settle the question settle it alike: where some
cannot be compared, they are of one domain and none is equal (`membership_ignores_order`).
-/

namespace TestIsolation

set_option autoImplicit false

/-- Values of two domains can be compared. -/
def Domain.comparesWith (d e : Domain) : Bool := d == e || d.isNumeric && e.isNumeric

namespace Value

/-- Two values can be compared and are equal. -/
def Equals (a b : Value) : Prop := order a b = .ok (some .eq)

/-- What an item says about membership, if it settles it. -/
def settledBy (actual item : Value) : Option (Except CompareError Bool) :=
  match order actual item with
  | .error error => some (.error error)
  | .ok (some .eq) => some (.ok true)
  | .ok _ => none

/-- Values that cannot be compared are told apart by an error that names their domains. -/
theorem order_of_apart {a b : Value} (apart : a.domain.comparesWith b.domain = false) :
    order a b = .error (.domainMismatch a.domain b.domain) := by
  cases a <;> cases b <;> simp_all [order, domain, toDouble?, Domain.comparesWith, Domain.isNumeric]

theorem exists_order {a b : Value} (compares : a.domain.comparesWith b.domain = true) : ∃ o, order a b = .ok o := by
  cases a <;> cases b <;> simp_all [order, domain, toDouble?, Domain.comparesWith, Domain.isNumeric]

/-- An item settles membership if it cannot be compared with the actual value, or is equal to it. -/
theorem settledBy_eq_some_iff {actual item : Value} {x : Except CompareError Bool} :
    actual.settledBy item = some x ↔
      (actual.domain.comparesWith item.domain = false ∧ x = .error (.domainMismatch actual.domain item.domain)) ∨
      (actual.domain.comparesWith item.domain = true ∧ actual.Equals item ∧ x = .ok true) := by
  cases compares : actual.domain.comparesWith item.domain with
  | false => simp [settledBy, order_of_apart compares, eq_comm]
  | true =>
    obtain ⟨o, ordered⟩ := exists_order compares
    rw [settledBy, Equals, ordered]
    match o with
    | none | some .lt | some .gt => simp
    | some .eq => simp [eq_comm]

end Value

/-- The first item that settles membership decides it. -/
theorem Condition.memberOf_eq (actual : Value) (items : List Value) :
    memberOf actual items = (items.findSome? actual.settledBy).getD (.ok false) := by
  induction items with
  | nil => rfl
  | cons item items ih =>
    rw [memberOf, List.findSome?_cons, Value.settledBy]
    cases ordered : Value.order actual item with
    | error error => rfl
    | ok o =>
      match o with
      | none | some .lt | some .gt => exact ih
      | some .eq => rfl

/-- If all items that settle something settle it alike, then only which items there are matters. -/
theorem findSome?_congr_mem {α β : Type} {f : α → Option β} {items others : List α}
    (same : ∀ v, v ∈ others ↔ v ∈ items)
    (alike : ∀ u ∈ items, ∀ v ∈ items, ∀ x ∈ f u, ∀ y ∈ f v, x = y) : others.findSome? f = items.findSome? f := by
  cases found : items.findSome? f with
  | none =>
    rw [List.findSome?_eq_none_iff] at found ⊢
    exact fun v mem => found v ((same v).1 mem)
  | some x =>
    obtain ⟨u, mem, settled⟩ := List.exists_of_findSome?_eq_some found
    have some_ : (others.findSome? f).isSome = true :=
      List.findSome?_isSome_iff.2 ⟨u, (same u).2 mem, by rw [settled]; rfl⟩
    obtain ⟨y, found'⟩ := Option.isSome_iff_exists.1 some_
    obtain ⟨v, mem', settled'⟩ := List.exists_of_findSome?_eq_some found'
    rw [found', alike u mem v ((same v).1 mem') x settled y settled']

namespace Value

/-- Beside an item that cannot be compared with the actual value stand only items of its domain, and such as can be
compared and are not equal. -/
def Undisputed (actual : Value) (items : List Value) : Prop :=
  ∀ u ∈ items, actual.domain.comparesWith u.domain = false →
    ∀ v ∈ items, v.domain = u.domain ∨ actual.domain.comparesWith v.domain = true ∧ ¬actual.Equals v

/-- Items are undisputed if all that settle membership settle it alike. -/
theorem undisputed_iff {actual : Value} {items : List Value} : actual.Undisputed items ↔
    ∀ u ∈ items, ∀ v ∈ items, ∀ x ∈ actual.settledBy u, ∀ y ∈ actual.settledBy v, x = y := by
  simp only [Option.mem_def, settledBy_eq_some_iff]
  constructor
  · -- Each of the two items is either one that cannot be compared or an equal one.
    rintro undisputed u mem v mem' x (⟨apart, rfl⟩ | ⟨compares, equal, rfl⟩) y
      (⟨apart', rfl⟩ | ⟨compares', equal', rfl⟩)
    · rcases undisputed u mem apart v mem' with same | ⟨compares, _⟩
      · rw [same]
      · exact absurd (apart'.symm.trans compares) Bool.false_ne_true
    · rcases undisputed u mem apart v mem' with same | ⟨_, unequal⟩
      · exact absurd (apart.symm.trans (same ▸ compares')) Bool.false_ne_true
      · exact absurd equal' unequal
    · rcases undisputed v mem' apart' u mem with same | ⟨_, unequal⟩
      · exact absurd (apart'.symm.trans (same ▸ compares)) Bool.false_ne_true
      · exact absurd equal unequal
    · rfl
  · intro alike u mem apart v mem'
    have settled := alike u mem v mem' _ (.inl ⟨apart, rfl⟩)
    cases compares : actual.domain.comparesWith v.domain with
    | false =>
      have named := settled _ (.inl ⟨compares, rfl⟩)
      exact .inl (by injection named with named; injection named with _ named; exact named.symm)
    | true => exact .inr ⟨rfl, fun equal => nomatch settled _ (.inr ⟨compares, equal, rfl⟩)⟩

end Value

/-- A set answers by its first item that settles membership, for any value but a memory block. -/
theorem Condition.evaluate_set {actual : Value} (noMemory : actual.domain ≠ .memory) (member : Bool)
    (items : List Value) : (Condition.set member items).evaluate actual =
      ((items.findSome? actual.settledBy).getD (.ok false)).map (· == member) := by
  have supports : (set member items).predicate.supports actual.domain = true := bne_iff_ne.2 noMemory
  rw [evaluate_of_supports supports, holdsFor, memberOf_eq]
  cases (items.findSome? actual.settledBy).getD (.ok false) <;> rfl

/-- Whether membership or its contrary is asked for, the answer tells which of the two was found. -/
theorem map_beq_injective {member : Bool} {x y : Except CompareError Bool}
    (same : x.map (· == member) = y.map (· == member)) : x = y := by
  cases x with
  | error e =>
    cases y with
    | error e' => exact congrArg Except.error (Except.error.inj same)
    | ok b => cases same
  | ok a =>
    cases y with
    | error e => cases same
    | ok b =>
      have answer : (a == member) = (b == member) := Except.ok.inj same
      cases member <;> simp_all

/-- **Order and repetitions of a set's items do not matter, exactly where no item is disputed.** -/
theorem membership_ignores_order (expr : Option String) (actual : Value) (member : Bool) (items : List Value) :
    (∀ others : List Value, (∀ v, v ∈ others ↔ v ∈ items) →
      (Constraint.mk (.set member others) expr).evaluate actual =
        (Constraint.mk (.set member items) expr).evaluate actual) ↔
    actual.domain = .memory ∨ actual.Undisputed items := by
  simp only [Constraint.evaluate]
  by_cases memory : actual.domain = .memory
  · have refused (others : List Value) : (Condition.set member others).evaluate actual =
        .error (.unsupported (.set member) .memory) := by
      simp [Condition.evaluate, Condition.predicate, Predicate.supports, memory]
    simp [refused, memory]
  · simp only [Condition.evaluate_set memory, memory, false_or, Value.undisputed_iff]
    constructor
    · intro free u mem v mem' x settled y settled'
      -- The same items, with one that settles membership put first.
      have first {w : Value} (mem : w ∈ items) := free (w :: items) fun v => by
        simp only [List.mem_cons, or_iff_right_iff_imp]
        exact fun same => same ▸ mem
      have alike := (first mem).trans (first mem').symm
      simp only [List.findSome?_cons, Option.mem_def.1 settled, Option.mem_def.1 settled'] at alike
      exact map_beq_injective alike
    · intro alike others same
      rw [findSome?_congr_mem same alike]

/-- An equal item before one that cannot be compared makes a member, and the other way round an error. -/
theorem order_of_items_matters :
    (∀ v, v ∈ [.ofText "a", .signed 1] ↔ v ∈ [.signed 1, Value.ofText "a"]) ∧
      (Constraint.mk (.set true [.signed 1, .ofText "a"]) none).evaluate (.signed 1) = .ok true ∧
      (Constraint.mk (.set true [.ofText "a", .signed 1]) none).evaluate (.signed 1) =
        .error (.domainMismatch .signed .string) := by
  exact ⟨fun v => (List.Perm.swap _ _ _).mem_iff, rfl, rfl⟩

end TestIsolation
