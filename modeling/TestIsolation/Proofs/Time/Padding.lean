import Mathlib.Data.Nat.Digits.Defs
import TestIsolation.Proofs.Json.RoundTrip
import TestIsolation.Time.Calendar

/-!
# Numbers in decimal

Zeros before a number do not change it, so that no two numbers have the same text (`padded_injective`). Digits of one
length are in the order of the numbers they stand for (`digits_lt`), and so numbers that fit their width are in the
order of their texts, whatever follows these (`padded_append_lt`).
-/

namespace TestIsolation

set_option autoImplicit false

open JsonNumber (digitsValue digitsValue_toDigits isDigit_of_mem_toDigits)

theorem digitsValue_zeros (k : Nat) (digits : List Char) :
    digitsValue (List.replicate k '0' ++ digits) = digitsValue digits := by
  induction k with
  | zero => rfl
  | succ k ih => exact ih

@[simp]
theorem digitsValue_padded (width n : Nat) : digitsValue (padded width n).toList = n := by
  rw [padded, String.toList_ofList, digitsValue_zeros, digitsValue_toDigits]

/-- Zeros before a number do not change it. -/
theorem padded_injective (width : Nat) : Function.Injective (padded width) := by
  intro n m same
  rw [← digitsValue_padded width n, same, digitsValue_padded]

theorem isDigit_of_mem_padded {width n : Nat} : ∀ c ∈ (padded width n).toList, c.isDigit = true := by
  intro c mem
  rw [padded, String.toList_ofList, List.mem_append, List.mem_replicate] at mem
  rcases mem with ⟨-, rfl⟩ | mem
  · decide
  · exact isDigit_of_mem_toDigits c mem

/-- A number that fits its width fills it. -/
theorem length_padded {width n : Nat} (wide : 0 < width) (fits : n < 10 ^ width) :
    (padded width n).toList.length = width := by
  have short := Nat.toDigits_length 10 n width wide fits
  simp only [padded, String.toList_ofList, List.length_append, List.length_replicate]
  omega

/-! ## The order of digits -/

theorem digitsValue_cons (c : Char) (digits : List Char) :
    digitsValue (c :: digits) = 10 ^ digits.length * (c.toNat - '0'.toNat) + digitsValue digits := by
  have start : Nat.ofDigitChars 10 digits (10 * 0 + (c.toNat - '0'.toNat)) = _ := Nat.ofDigitChars_eq_ofDigitChars_zero
  rwa [← Nat.ofDigitChars_cons, Nat.ofDigitChars_eq_foldl, Nat.ofDigitChars_eq_foldl, Nat.mul_zero, Nat.zero_add]
    at start

theorem digitsValue_lt {digits : List Char} (all : ∀ c ∈ digits, c.isDigit = true) :
    digitsValue digits < 10 ^ digits.length := by
  induction digits with
  | nil => decide
  | cons c digits ih =>
    have rest := ih fun c mem => all c (List.mem_cons_of_mem _ mem)
    have small : c.toNat - '0'.toNat ≤ 9 := Nat.sub_le_of_le_add (Char.isDigit_iff_toNat.1 (all c List.mem_cons_self)).2
    have scaled := Nat.mul_le_mul_left (10 ^ digits.length) small
    rw [digitsValue_cons, List.length_cons, Nat.pow_succ]
    omega

/-- **Digits of one length are in the order of the numbers they stand for**, whatever follows them. -/
theorem digits_append_lt {left right : List Char} (alike : left.length = right.length)
    (allLeft : ∀ c ∈ left, c.isDigit = true) (allRight : ∀ c ∈ right, c.isDigit = true)
    (lt : digitsValue left < digitsValue right) (after after' : List Char) : left ++ after < right ++ after' := by
  induction left generalizing right with
  | nil =>
    obtain rfl := List.eq_nil_of_length_eq_zero alike.symm
    exact absurd lt (Nat.lt_irrefl _)
  | cons c left ih =>
    cases right with
    | nil => exact absurd alike (Nat.succ_ne_zero _)
    | cons d right =>
      rw [List.forall_mem_cons] at allLeft allRight
      rw [List.length_cons, List.length_cons, Nat.succ_inj] at alike
      have zero := (Char.isDigit_iff_toNat.1 allRight.1).1
      have below := digitsValue_lt allRight.2
      rw [digitsValue_cons, digitsValue_cons, alike] at lt
      refine List.cons_lt_cons_iff.2 ?_
      rcases Nat.lt_trichotomy c.toNat d.toNat with less | same | more
      · exact .inl less
      · rw [same] at lt
        exact .inr ⟨Char.toNat_inj.1 same, ih alike allLeft.2 allRight.2 (Nat.lt_of_add_lt_add_left lt)⟩
      · -- a larger digit outweighs all that follow the smaller one
        have outweighs : 10 ^ right.length * (d.toNat - '0'.toNat + 1) ≤ 10 ^ right.length * (c.toNat - '0'.toNat) :=
          Nat.mul_le_mul_left _ (by omega)
        rw [Nat.mul_add_one] at outweighs
        omega

/-- **Numbers that fit their width are in the order of their texts**, whatever follows these. -/
theorem padded_append_lt {width n m : Nat} (wide : 0 < width) (fits : m < 10 ^ width) (lt : n < m)
    (after after' : List Char) : (padded width n).toList ++ after < (padded width m).toList ++ after' := by
  refine digits_append_lt ?_ isDigit_of_mem_padded isDigit_of_mem_padded ?_ _ _
  · rw [length_padded wide (Nat.lt_trans lt fits), length_padded wide fits]
  · rwa [digitsValue_padded, digitsValue_padded]

end TestIsolation
