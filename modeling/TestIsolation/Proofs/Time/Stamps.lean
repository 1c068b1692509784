import Mathlib.Data.List.Forall2
import Mathlib.Data.String.Basic
import TestIsolation.Proofs.Time.Gregorian
import TestIsolation.Proofs.Time.Padding

/-!
# The texts of times

A time is written as numbers of fixed widths with a character after each that is no digit (`Timestamp.toList_utc`).
Such texts are read back in one way (`spelled_injective`), and while the numbers fit their widths the texts are in
the order of the numbers (`spelled_lt`). The numbers of a time begin with its date, so that they are in the order of
time (`Timestamp.fields_lt`). Years that fit are those up to 9999.
-/

namespace TestIsolation

set_option autoImplicit false

/-! ## Numbers with marks -/

/-- Numbers in decimal, each in its width and with a mark after it. -/
def spelled : List (Nat × Char) → List Nat → List Char
  | (width, mark) :: layout, n :: ns => (padded width n).toList ++ mark :: spelled layout ns
  | _, _ => []

/-- A mark that is no digit ends a number. -/
theorem spelled_injective {layout : List (Nat × Char)} (marks : ∀ part ∈ layout, part.2.isDigit = false)
    {ns ms : List Nat} (left : ns.length = layout.length) (right : ms.length = layout.length)
    (same : spelled layout ns = spelled layout ms) : ns = ms := by
  induction layout generalizing ns ms with
  | nil =>
    rw [List.eq_nil_of_length_eq_zero left, List.eq_nil_of_length_eq_zero right]
  | cons part layout ih =>
    obtain ⟨width, mark⟩ := part
    obtain ⟨n, ns, rfl⟩ := List.exists_cons_of_length_eq_add_one left
    obtain ⟨m, ms, rfl⟩ := List.exists_cons_of_length_eq_add_one right
    rw [List.forall_mem_cons] at marks
    have number (k : Nat) (rest : List Char) :
        ((padded width k).toList ++ mark :: rest).takeWhile Char.isDigit = (padded width k).toList := by
      rw [List.takeWhile_append_of_pos isDigit_of_mem_padded, List.takeWhile_cons_of_neg (by simp [marks.1]),
        List.append_nil]
    simp only [spelled] at same
    have digits := congrArg (List.takeWhile Char.isDigit) same
    rw [number, number, String.toList_inj] at digits
    obtain rfl := padded_injective width digits
    have rest := List.tail_eq_of_cons_eq (List.append_cancel_left same)
    rw [ih marks.2 (Nat.succ_inj.1 left) (Nat.succ_inj.1 right) rest]

/-- Numbers that fit the widths of a layout. -/
def WidthsFit : List (Nat × Char) → List Nat → Prop := List.Forall₂ fun part n => 0 < part.1 ∧ n < 10 ^ part.1

/-- **The texts of numbers that fit are in the order of the numbers.** -/
theorem spelled_lt {layout : List (Nat × Char)} {ns ms : List Nat} (left : ns.length = layout.length)
    (fits : WidthsFit layout ms) (lt : ns < ms) : spelled layout ns < spelled layout ms := by
  induction fits generalizing ns with
  | nil => exact absurd lt (List.not_lt_nil _)
  | @cons part m layout ms fits _ ih =>
    obtain ⟨width, mark⟩ := part
    obtain ⟨n, ns, rfl⟩ := List.exists_cons_of_length_eq_add_one left
    simp only [spelled]
    rcases List.cons_lt_cons_iff.1 lt with less | ⟨rfl, less⟩
    · exact padded_append_lt fits.1 fits.2 less _ _
    · exact List.append_left_lt (List.cons_lt_cons_iff.2 (.inr ⟨rfl, ih (Nat.succ_inj.1 left) less⟩))

namespace Timestamp

/-- The time that lies some seconds and milliseconds after the start of 1970. -/
def ofParts (seconds millis : Nat) : Timestamp := (seconds * 1000 + millis : Nat)

/-- The widths of the numbers of a time and their marks. -/
def layout : List (Nat × Char) := [(4, '-'), (2, '-'), (2, 'T'), (2, ':'), (2, ':'), (2, '.'), (3, 'Z')]

/-- The numbers of a time: year, month, day, hour, minute, second and millisecond. -/
def fields (seconds millis : Nat) : List Nat :=
  let date := Date.ofDay (seconds / 86400)
  [date.year, date.month, date.day, seconds % 86400 / 3600, seconds % 86400 % 3600 / 60, seconds % 86400 % 60, millis]

variable {seconds millis seconds' millis' : Nat}

/-- The text of a time spells its numbers. -/
theorem toList_utc (part : millis < 1000) :
    (utc (ofParts seconds millis)).toList = spelled layout (fields seconds millis) := by
  have whole : (ofParts seconds millis).toNat / 1000 = seconds := by simp only [ofParts, Int.toNat_natCast]; omega
  have left : (ofParts seconds millis).toNat % 1000 = millis := by simp only [ofParts, Int.toNat_natCast]; omega
  -- stated of any date and time of day, so that nothing tries to compute those of the time
  have text (date : Date) (rest : Nat) :
      (padded 4 date.year ++ "-" ++ padded 2 date.month ++ "-" ++ padded 2 date.day ++ "T"
        ++ padded 2 (rest / 3600) ++ ":" ++ padded 2 (rest % 3600 / 60) ++ ":" ++ padded 2 (rest % 60)
        ++ "." ++ padded 3 millis ++ "Z").toList =
      spelled layout [date.year, date.month, date.day, rest / 3600, rest % 3600 / 60, rest % 60, millis] := by
    simp [spelled, layout]
  rw [utc, whole, left]
  exact text (Date.ofDay (seconds / 86400)) (seconds % 86400)

theorem fields_injective (same : fields seconds millis = fields seconds' millis') :
    seconds = seconds' ∧ millis = millis' := by
  simp only [fields, List.cons.injEq, and_true] at same
  obtain ⟨year, month, day, hour, minute, second, rfl⟩ := same
  have date : Date.ofDay (seconds / 86400) = Date.ofDay (seconds' / 86400) := by
    cases left : Date.ofDay (seconds / 86400)
    cases right : Date.ofDay (seconds' / 86400)
    simp_all
  have number := (Date.number_ofDay (seconds / 86400)).2
  rw [date, (Date.number_ofDay (seconds' / 86400)).2] at number
  exact ⟨by omega, rfl⟩

/-- **The numbers of a time are in the order of time.** -/
theorem fields_lt (part : millis < 1000) (part' : millis' < 1000)
    (lt : ofParts seconds millis < ofParts seconds' millis') : fields seconds millis < fields seconds' millis' := by
  have before : seconds * 1000 + millis < seconds' * 1000 + millis' := Int.ofNat_lt.1 lt
  obtain ⟨proper, number⟩ := Date.number_ofDay (seconds / 86400)
  obtain ⟨proper', number'⟩ := Date.number_ofDay (seconds' / 86400)
  simp only [fields, List.cons_lt_cons_iff]
  rcases Nat.lt_or_ge (seconds / 86400) (seconds' / 86400) with earlier | late
  · have dates := Date.before_of_number_lt proper proper' (by omega)
    unfold Date.Before at dates
    omega
  · have same : seconds / 86400 = seconds' / 86400 := by omega
    rw [same]
    omega

/-- Up to the year 9999 the numbers of a time fit their widths. -/
theorem fields_fit (part : millis < 1000) (four : (Date.ofDay (seconds / 86400)).year ≤ 9999) :
    WidthsFit layout (fields seconds millis) := by
  obtain ⟨-, month, -, day⟩ := (Date.number_ofDay (seconds / 86400)).1
  have short := Date.monthLength_le (Date.ofDay (seconds / 86400)).year (Date.ofDay (seconds / 86400)).month
  simp only [WidthsFit, layout, fields, List.forall₂_cons, List.forall₂_nil_left_iff, and_true]
  omega

/-- **Times have the right date and texts that tell them apart.** A time has the one date of the calendar that lies
as many days after the first of January 1970 as the time has whole ones, and machine words are enough to find it.
No other time has its text, and the texts of later times are larger up to the year 9999. -/
theorem dated_and_told_apart (word : seconds < UInt64.size) (part : millis < 1000) :
    (∀ d : Date, d.IsProper ∧ (d.number : Int) - Date.epoch.number = (seconds / 86400 : Nat) ↔
      d = Date.ofDay (seconds / 86400)) ∧
    Date.ofDay? (seconds / 86400) = some (Date.ofDay (seconds / 86400)) ∧
    (∀ seconds' millis', millis' < 1000 → utc (ofParts seconds millis) = utc (ofParts seconds' millis') →
      seconds = seconds' ∧ millis = millis') ∧
    ∀ seconds' millis', millis' < 1000 → ofParts seconds millis < ofParts seconds' millis' →
      (Date.ofDay (seconds' / 86400)).year ≤ 9999 → utc (ofParts seconds millis) < utc (ofParts seconds' millis') := by
  refine ⟨fun d => d.eq_ofDay_iff _, Date.ofDay?_eq (Nat.div_le_div_right (Nat.le_of_lt word)), ?_, ?_⟩
  · intro seconds' millis' part' same
    have texts := congrArg String.toList same
    rw [toList_utc part, toList_utc part'] at texts
    exact fields_injective (spelled_injective (by decide) rfl rfl texts)
  · intro seconds' millis' part' later four
    rw [String.lt_iff_toList_lt, toList_utc part, toList_utc part']
    exact spelled_lt rfl (fields_fit part' four) (fields_lt part part' later)

/-- A leap day, and the end of the year after it. -/
theorem dated_and_told_apart_leap_day :
    Date.ofDay (1709210096 / 86400) = ⟨2024, 2, 29⟩ ∧ (⟨2024, 2, 29⟩ : Date).IsProper ∧
      Date.ofDay? (1709210096 / 86400) = some ⟨2024, 2, 29⟩ ∧
      utc (ofParts 1709210096 7) = "2024-02-29T12:34:56.007Z" ∧
      utc (ofParts 1709210096 7) < utc (ofParts 1767225599 999) := by
  have found : Date.ofDay (1709210096 / 86400) = ⟨2024, 2, 29⟩ := by decide +kernel
  obtain ⟨date, words, -, order⟩ :=
    @dated_and_told_apart 1709210096 7 (by decide +kernel) (by decide)
  rw [found] at date words
  exact ⟨found, ((date _).2 rfl).1, words, by decide +kernel,
    order 1767225599 999 (by decide) (by decide +kernel) (by decide +kernel)⟩

end Timestamp

end TestIsolation
