import Mathlib.Algebra.Ring.Int.Defs
import Mathlib.Algebra.Ring.Nat
import TestIsolation.Value.Conversion
import TestIsolation.Proofs.Outcome.Payload
import TestIsolation.Proofs.Value.Families

/-!
# Conversions that lose nothing

An integer or a truth value comes out of a value only as the very number that the value spells, and only if the target
has that number (`NumberTarget.convert_eq_ok_iff`). So what is put into a value comes back (`Value.convert_toValue`),
and what comes out of a value equals it (`Value.order_of_convert`). The same holds of texts, which come back from their
bytes.
-/

namespace TestIsolation

set_option autoImplicit false

/-- The numbers of an integer type. A sign takes one of the bits. -/
def IntegerType.InRange (t : IntegerType) (n : Int) : Prop :=
  if t.signed then -2 ^ (t.size.bits - 1) ≤ n ∧ n < 2 ^ (t.size.bits - 1) else 0 ≤ n ∧ n < 2 ^ t.size.bits

/-- The number that the bits of an integer type spell. -/
def IntegerType.number (t : IntegerType) (bits : BitVec t.size.bits) : Int :=
  if t.signed then bits.toInt else bits.toNat

/-- A value that holds an integer. -/
inductive Value.Spells : Value → Int → Prop where
  | signed (n : Int) : Spells (.signed n) n
  | unsigned (n : Nat) : Spells (.unsigned n) n

/-- A target whose values are some of the integers. -/
inductive NumberTarget where
  | integer (type : IntegerType)
  | boolean

namespace NumberTarget

/-- The target itself. -/
def target : NumberTarget → Target
  | integer type => .integer type
  | boolean => .boolean

/-- The numbers of the target. -/
def InRange : NumberTarget → Int → Prop
  | integer type, n => type.InRange n
  | boolean, n => n = 0 ∨ n = 1

/-- A number of the target. -/
def typed : NumberTarget → Int → Converted
  | integer type, n => .integer type n
  | boolean, n => .boolean (n == 1)

end NumberTarget

/-- A typed value that is told apart from all others by its bits. -/
inductive ExactValue where
  | integer (type : IntegerType) (bits : BitVec type.size.bits)
  | boolean (b : Bool)
  | text (s : String)

namespace ExactValue

/-- The type of the value. -/
def target : ExactValue → Target
  | integer type _ => .integer type
  | boolean _ => .boolean
  | text _ => .text

/-- The value as a converted one. -/
def converted : ExactValue → Converted
  | integer type bits => .integer type (type.number bits)
  | boolean b => .boolean b
  | text s => .text s

end ExactValue

/-- Whether all values of a target are told apart by their bits, and come out of a value as they are. -/
def Target.isExact : Target → Bool
  | integer _ | boolean | text => true
  | single | double | bytes | constPointer | mutPointer | value => false

/-! ## Ranges -/

namespace IntegerType

variable {t : IntegerType} {n : Int}

theorem contains_iff : t.contains n = true ↔ t.InRange n := by
  obtain ⟨signed, size⟩ := t
  cases signed <;> cases size <;>
    simp [contains, min, max, InRange, IntegerSize.count, IntegerSize.bits] <;> omega

theorem inRange_number (t : IntegerType) (bits : BitVec t.size.bits) : t.InRange (t.number bits) := by
  unfold InRange number
  split
  · exact ⟨bits.le_toInt, bits.toInt_lt⟩
  · exact ⟨Int.natCast_nonneg _, by exact_mod_cast bits.isLt⟩

theorem InRange.lt (inRange : t.InRange n) : n < 2 ^ 128 := by
  obtain ⟨signed, size⟩ := t
  cases signed <;> cases size <;> simp [InRange, IntegerSize.bits] at inRange <;> omega

theorem InRange.nonneg (inRange : t.InRange n) (unsigned : t.signed = false) : 0 ≤ n := by
  rw [InRange, unsigned] at inRange
  exact inRange.1

end IntegerType

/-! ## Numbers of a target -/

namespace Value

variable {v : Value} {target : Target} {pick : Int → Option Converted}

theorem spells_iff {n : Int} : v.Spells n ↔ v.integer? = some n := by
  constructor
  · rintro (_ | _) <;> rfl
  · intro found
    cases v with
    | signed m => cases found; exact .signed n
    | unsigned m => cases found; exact .unsigned m
    | float _ | string _ | pointer _ | memory _ => cases found

theorem integer?_eq_none_iff : v.integer? = none ↔ v.domain ≠ .signed ∧ v.domain ≠ .unsigned := by
  cases v <;> simp [integer?, domain]

theorem convertInteger_eq_ok_iff {c : Converted} :
    v.convertInteger target pick = .ok c ↔ ∃ n, v.Spells n ∧ pick n = some c := by
  simp only [spells_iff, convertInteger]
  cases v.integer? with
  | none => simp
  | some n => cases picked : pick n <;> simp [picked]

theorem convertInteger_eq_error_iff {e : CompareError} : v.convertInteger target pick = .error e ↔
    (∃ n, v.Spells n ∧ pick n = none ∧ e = .outOfRange v target.name) ∨
    (v.domain ≠ .signed ∧ v.domain ≠ .unsigned) ∧ e = .conversion v.domain target.name := by
  simp only [spells_iff, ← integer?_eq_none_iff, convertInteger]
  cases v.integer? with
  | none => simp [eq_comm]
  | some n => cases picked : pick n <;> simp [picked, eq_comm]

end Value

namespace NumberTarget

variable {t : NumberTarget} {v : Value}

/-- A target has a number if it finds it. -/
theorem exists_pick (t : NumberTarget) : ∃ pick : Int → Option Converted,
    (∀ v : Value, v.convert t.target = v.convertInteger t.target pick) ∧
    (∀ n c, pick n = some c ↔ t.InRange n ∧ c = t.typed n) ∧ ∀ n, pick n = none ↔ ¬t.InRange n := by
  cases t with
  | integer type =>
    refine ⟨_, fun v => rfl, fun n c => ?_, fun n => ?_⟩
    · by_cases has : type.contains n = true <;>
        simp [InRange, typed, ← IntegerType.contains_iff, has, @eq_comm _ c]
    · simp [InRange, ← IntegerType.contains_iff]
  | boolean =>
    refine ⟨_, fun v => rfl, fun n c => ?_, fun n => ?_⟩
    · by_cases zero : n = 0
      · simp [InRange, typed, zero, eq_comm]
      · by_cases one : n = 1 <;> simp [InRange, typed, zero, one, eq_comm]
    · by_cases zero : n = 0
      · simp [InRange, zero]
      · by_cases one : n = 1 <;> simp [InRange, zero, one]

/-- No target has numbers of more than 128 bits. -/
theorem lt_of_inRange (t : NumberTarget) {n : Int} (inRange : t.InRange n) : n < 2 ^ 128 := by
  cases t with
  | integer type => exact IntegerType.InRange.lt inRange
  | boolean => rcases inRange with rfl | rfl <;> decide

/-- **A number comes out of a value that spells it**, if the target has it. -/
theorem convert_eq_ok_iff {c : Converted} :
    v.convert t.target = .ok c ↔ ∃ n, v.Spells n ∧ t.InRange n ∧ c = t.typed n := by
  obtain ⟨pick, convert, found, _⟩ := t.exists_pick
  simp only [convert, Value.convertInteger_eq_ok_iff, found]

/-- **A refusal says whether the number is out of range, or there is none.** -/
theorem convert_eq_error_iff {e : CompareError} : v.convert t.target = .error e ↔
    (∃ n, v.Spells n ∧ ¬t.InRange n ∧ e = .outOfRange v t.target.name) ∨
    (v.domain ≠ .signed ∧ v.domain ≠ .unsigned) ∧ e = .conversion v.domain t.target.name := by
  obtain ⟨pick, convert, _, missing⟩ := t.exists_pick
  simp only [convert, Value.convertInteger_eq_error_iff, missing]

end NumberTarget

/-! ## Texts -/

theorem Bytes.ofString_of_toString? {bytes : Bytes} {s : String} (read : bytes.toString? = some s) :
    Bytes.ofString s = bytes := by
  rw [Bytes.toString?, String.fromUTF8?] at read
  split at read
  · cases read
    rfl
  · cases read

theorem Bytes.toString?_eq_some_iff {bytes : Bytes} {s : String} :
    bytes.toString? = some s ↔ bytes = Bytes.ofString s :=
  ⟨fun read => (ofString_of_toString? read).symm, fun same => same ▸ toString?_ofString s⟩

namespace Value

/-- A text comes out of its bytes, and out of nothing else. -/
theorem convert_text_eq_ok_iff {v : Value} {c : Converted} :
    v.convert .text = .ok c ↔ ∃ s, v = .ofText s ∧ c = .text s := by
  cases v with
  | string bytes =>
    simp only [convert, ofText, string.injEq, ← Bytes.toString?_eq_some_iff]
    cases bytes.toString? <;> simp [@eq_comm _ c]
  | signed _ | unsigned _ | float _ | pointer _ | memory _ => simp [convert, ofText]

/-! ## Equality with the value -/

theorem compareBytes_self (a : Bytes) : compareBytes a a = .eq := by
  have mirrored := compareBytes_swap a a
  cases same : compareBytes a a with
  | eq => rfl
  | lt | gt => rw [same] at mirrored; cases mirrored

theorem compareSignedUnsigned_self {n : Nat} (small : n < 2 ^ 128) : compareSignedUnsigned n n = .eq := by
  have bits : (BitVec.ofInt 128 n).toNat = n := by
    rw [BitVec.ofInt_natCast, BitVec.toNat_ofNat, Nat.mod_eq_of_lt small]
  rw [compareSignedUnsigned, if_neg (by omega), bits, Nat.compare_eq_eq]

/-- Two values that spell one number of at most 128 bits are equal. -/
theorem order_of_spells {a b : Value} {n : Int} (first : a.Spells n) (second : b.Spells n) (small : n < 2 ^ 128) :
    order a b = .ok (some .eq) := by
  cases first with
  | signed =>
    cases second with
    | signed => simp [order]
    | unsigned n => rw [order, compareSignedUnsigned_self (by omega)]
  | unsigned n =>
    generalize spelt : (n : Int) = m at second
    cases second with
    | signed =>
      subst spelt
      rw [order, compareSignedUnsigned_self (by omega)]
      rfl
    | unsigned m =>
      obtain rfl : n = m := by omega
      simp [order]

theorem spells_typed {t : NumberTarget} {n : Int} (inRange : t.InRange n) : (t.typed n).toValue.Spells n := by
  cases t with
  | integer type =>
    rw [NumberTarget.typed, Converted.toValue]
    split
    · exact .signed n
    · rename_i unsigned
      have natural := Int.toNat_of_nonneg (inRange.nonneg (Bool.eq_false_iff.2 unsigned))
      have spells := Spells.unsigned n.toNat
      rwa [natural] at spells
  | boolean =>
    rcases inRange with rfl | rfl
    · exact .unsigned 0
    · exact .unsigned 1

/-- **What comes out of a value equals it.** -/
theorem order_of_convert {v : Value} {target : Target} {c : Converted} (exact_ : target.isExact = true)
    (converted : v.convert target = .ok c) : order c.toValue v = .ok (some .eq) := by
  have number (t : NumberTarget) (converted : v.convert t.target = .ok c) : order c.toValue v = .ok (some .eq) := by
    obtain ⟨n, spells, inRange, rfl⟩ := NumberTarget.convert_eq_ok_iff.1 converted
    exact order_of_spells (spells_typed inRange) spells (t.lt_of_inRange inRange)
  cases target with
  | integer type => exact number (.integer type) converted
  | boolean => exact number .boolean converted
  | text =>
    obtain ⟨s, rfl, rfl⟩ := convert_text_eq_ok_iff.1 converted
    rw [Converted.toValue, ofText, order, compareBytes_self]
  | single | double | bytes | constPointer | mutPointer | value => cases exact_

/-- **What is put into a value comes back.** -/
theorem convert_toValue (x : ExactValue) : x.converted.toValue.convert x.target = .ok x.converted := by
  have number (t : NumberTarget) {n : Int} (inRange : t.InRange n) :
      (t.typed n).toValue.convert t.target = .ok (t.typed n) :=
    NumberTarget.convert_eq_ok_iff.2 ⟨n, spells_typed inRange, inRange, rfl⟩
  cases x with
  | integer type bits => exact number (.integer type) (type.inRange_number bits)
  | boolean b =>
    cases b with
    | false => exact number .boolean (.inl rfl)
    | true => exact number .boolean (.inr rfl)
  | text s => exact convert_text_eq_ok_iff.2 ⟨s, rfl, rfl⟩

end Value

/-- **Conversion back from a value is exact or refused.** -/
theorem conversion_exact_or_refused (expr : Option String) :
    (∀ (t : NumberTarget) (v : Value) (c : Converted), v.convert t.target = .ok c ↔
      ∃ n, v.Spells n ∧ t.InRange n ∧ c = t.typed n) ∧
    (∀ (t : NumberTarget) (v : Value) (e : CompareError), v.convert t.target = .error e ↔
      (∃ n, v.Spells n ∧ ¬t.InRange n ∧ e = .outOfRange v t.target.name) ∨
      (v.domain ≠ .signed ∧ v.domain ≠ .unsigned) ∧ e = .conversion v.domain t.target.name) ∧
    (∀ x : ExactValue, x.converted.toValue.convert x.target = .ok x.converted) ∧
    (∀ (v : Value) (target : Target) (c : Converted), target.isExact = true → v.convert target = .ok c →
      (Constraint.mk (.order .equal v) expr).evaluate c.toValue = .ok true) := by
  refine ⟨fun t v c => t.convert_eq_ok_iff, fun t v e => t.convert_eq_error_iff, Value.convert_toValue, ?_⟩
  intro v target c exact_ converted
  exact Condition.evaluate_order_eq_ok_iff.2 ⟨rfl, _, Value.order_of_convert exact_ converted, rfl⟩

/-- A signed value that fits into a byte. -/
theorem conversion_exact_or_refused_byte :
    Target.isExact (.integer ⟨false, .bits8⟩) = true ∧
      Value.convert (.signed 200) (.integer ⟨false, .bits8⟩) = .ok (.integer ⟨false, .bits8⟩ 200) ∧
      (Constraint.mk (.order .equal (.signed 200)) none).evaluate (.unsigned 200) = .ok true := by
  have read : Value.convert (.signed 200) (.integer ⟨false, .bits8⟩) = .ok (.integer ⟨false, .bits8⟩ 200) := by decide
  exact ⟨rfl, read, (conversion_exact_or_refused none).2.2.2 _ _ _ rfl read⟩

end TestIsolation
