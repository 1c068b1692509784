import Mathlib.Tactic.IntervalCases
import TestIsolation.Time.Calendar

/-!
# The Gregorian calendar

The calendar is given by the lengths of its years and months, and days are counted by adding these up (`Date.number`).
Years that begin in March end with their leap day, so that the day on which one begins has a closed form
(`Date.marchStart`), and the years of a cycle are found by dividing the days that are left without leap days by 365
(`Date.yearOfCycle_bounds`). So `Date.ofDay` finds the one date that lies a number of days after the first of January
1970 (`Date.number_ofDay`), and machine words are enough for it (`Date.ofDay?_eq`).
-/

namespace TestIsolation

set_option autoImplicit false

namespace Date

/-! ## The calendar -/

/-- Every fourth year is a leap year, but of the years that end a century only every fourth. -/
def isLeap (year : Nat) : Bool := year % 4 == 0 && (year % 100 != 0 || year % 400 == 0)

/-- Days in a year. -/
def yearLength (year : Nat) : Nat := if isLeap year then 366 else 365

/-- Days in a month. -/
def monthLength (year : Nat) : Nat → Nat
  | 2 => if isLeap year then 29 else 28
  | 4 | 6 | 9 | 11 => 30
  | 1 | 3 | 5 | 7 | 8 | 10 | 12 => 31
  | _ => 0

/-- Days from the first of January of year zero to that of a year. -/
def yearStart : Nat → Nat
  | 0 => 0
  | year + 1 => yearStart year + yearLength year

/-- Days of a year before a month. -/
def monthStart (year : Nat) : Nat → Nat
  | 0 => 0
  | month + 1 => monthStart year month + monthLength year month

/-- Days from the first of January of year zero to a date. -/
def number (d : Date) : Nat := yearStart d.year + monthStart d.year d.month + (d.day - 1)

/-- A date that the calendar has. -/
structure IsProper (d : Date) : Prop where
  month_pos : 1 ≤ d.month
  month_le : d.month ≤ 12
  day_pos : 1 ≤ d.day
  day_le : d.day ≤ monthLength d.year d.month

/-- The first of January 1970. -/
def epoch : Date := ⟨1970, 1, 1⟩

/-- One date comes before another. -/
def Before (d e : Date) : Prop :=
  d.year < e.year ∨ d.year = e.year ∧ (d.month < e.month ∨ d.month = e.month ∧ d.day < e.day)

theorem yearLength_le (year : Nat) : yearLength year ≤ 366 := by
  unfold yearLength
  split <;> omega

theorem monthLength_le (year month : Nat) : monthLength year month ≤ 31 := by
  unfold monthLength
  split <;> (try split) <;> omega

theorem isLeap_iff {year : Nat} : isLeap year = true ↔ year % 4 = 0 ∧ (year % 100 ≠ 0 ∨ year % 400 = 0) := by
  simp [isLeap]

/-! ## The order of dates -/

theorem yearStart_mono {a b : Nat} (le : a ≤ b) : yearStart a ≤ yearStart b := by
  induction le with
  | refl => exact Nat.le_refl _
  | step _ ih => exact Nat.le_trans ih (Nat.le_add_right _ _)

theorem monthStart_mono {year a b : Nat} (le : a ≤ b) : monthStart year a ≤ monthStart year b := by
  induction le with
  | refl => exact Nat.le_refl _
  | step _ ih => exact Nat.le_trans ih (Nat.le_add_right _ _)

/-- The months make up the year. -/
theorem monthStart_end (year : Nat) : monthStart year 13 = yearLength year := by
  cases leap : isLeap year <;> simp [monthStart, monthLength, yearLength, leap]

variable {d e : Date}

theorem number_lt_yearStart (proper : d.IsProper) : d.number < yearStart (d.year + 1) := by
  obtain ⟨_, last, some_, within⟩ := proper
  have month : monthStart d.year (d.month + 1) ≤ monthStart d.year 13 := monthStart_mono (by omega)
  rw [monthStart_end] at month
  rw [number, yearStart]
  rw [monthStart] at month
  omega

/-- **The days of dates are numbered in order.** -/
theorem Before.number_lt (before : d.Before e) (first : d.IsProper) (second : e.IsProper) : d.number < e.number := by
  obtain ⟨year, month, day⟩ := e
  rcases before with earlier | ⟨rfl, earlier | ⟨rfl, earlier⟩⟩
  · have start := Nat.lt_of_lt_of_le (number_lt_yearStart first) (yearStart_mono earlier)
    exact Nat.lt_of_lt_of_le start (Nat.le_trans (Nat.le_add_right _ _) (Nat.le_add_right _ _))
  · have start : monthStart d.year (d.month + 1) ≤ monthStart d.year month := monthStart_mono earlier
    obtain ⟨_, _, some_, within⟩ := first
    rw [monthStart] at start
    simp only [number]
    omega
  · have some_ := first.day_pos
    simp only [number] at earlier ⊢
    omega

theorem before_or_eq_or_before (d e : Date) : d.Before e ∨ d = e ∨ e.Before d := by
  obtain ⟨year, month, day⟩ := d
  obtain ⟨year', month', day'⟩ := e
  simp only [Before, mk.injEq]
  omega

theorem before_of_number_lt (first : d.IsProper) (second : e.IsProper) (lt : d.number < e.number) : d.Before e := by
  rcases before_or_eq_or_before d e with before | rfl | before
  · exact before
  · exact absurd lt (Nat.lt_irrefl _)
  · exact absurd (before.number_lt second first) (Nat.lt_asymm lt)

/-- **No two dates are the same day.** -/
theorem eq_of_number (first : d.IsProper) (second : e.IsProper) (same : d.number = e.number) : d = e := by
  rcases before_or_eq_or_before d e with before | rfl | before
  · exact absurd same (Nat.ne_of_lt (before.number_lt first second))
  · rfl
  · exact absurd same.symm (Nat.ne_of_lt (before.number_lt second first))

/-! ## Years that begin in March -/

/-- Days from the first of March of year zero to that of a year. -/
def marchStart (year : Nat) : Nat := 365 * year + year / 4 - year / 100 + year / 400

theorem marchStart_succ (year : Nat) : marchStart (year + 1) = marchStart year + yearLength (year + 1) := by
  have fourth : (year + 1) / 4 = year / 4 + if 4 ∣ year + 1 then 1 else 0 := Nat.succ_div
  have century : (year + 1) / 100 = year / 100 + if 100 ∣ year + 1 then 1 else 0 := Nat.succ_div
  have cycle : (year + 1) / 400 = year / 400 + if 400 ∣ year + 1 then 1 else 0 := Nat.succ_div
  unfold marchStart yearLength
  split
  · rename_i leap
    rw [isLeap_iff] at leap
    rw [if_pos (by omega)] at fourth
    by_cases whole : 400 ∣ year + 1
    · rw [if_pos (by omega)] at century
      rw [if_pos whole] at cycle
      omega
    · rw [if_neg (by omega)] at century
      rw [if_neg whole] at cycle
      omega
  · rename_i common
    rw [isLeap_iff] at common
    rw [if_neg (by omega)] at cycle
    by_cases whole : 4 ∣ year + 1
    · rw [if_pos (by omega)] at century
      rw [if_pos whole] at fourth
      omega
    · rw [if_neg (by omega)] at century
      rw [if_neg whole] at fourth
      omega

/-- January begins 306 days after March. -/
theorem yearStart_succ (year : Nat) : yearStart (year + 1) = marchStart year + 366 := by
  induction year with
  | zero => rfl
  | succ year ih => rw [yearStart, ih, marchStart_succ]; omega

/-- Within a cycle every fourth century would be the next one. -/
theorem marchStart_of_lt {year : Nat} (short : year < 400) : marchStart year = 365 * year + year / 4 - year / 100 := by
  unfold marchStart
  omega

theorem marchStart_cycle (year cycle : Nat) :
    marchStart (year + cycle * 400) = marchStart year + cycle * cycleDays := by
  simp only [marchStart, cycleDays]
  omega

/-- The date on a day of a year that begins in March. -/
def ofMarch (year day : Nat) : Date :=
  let monthFromMarch := (5 * day + 2) / 153
  let month := if monthFromMarch < 10 then monthFromMarch + 3 else monthFromMarch - 9
  { year := year + if month ≤ 2 then 1 else 0
    month := month
    day := day - (153 * monthFromMarch + 2) / 5 + 1 }

/-- Days from the first of March to a month, which is counted from there. -/
def monthOffset (month : Nat) : Nat := (153 * month + 2) / 5

/-- **From March to December the months of every year fit into runs of 153 days**, five months each. -/
theorem month_offsets (year : Nat) {month : Nat} (ordinary : month < 10) :
    monthStart year (month + 3) + 306 = yearLength year + monthOffset month ∧
      monthLength year (month + 3) + monthOffset month = monthOffset (month + 1) := by
  cases leap : isLeap year <;> interval_cases month <;>
    simp [monthStart, monthLength, yearLength, monthOffset, leap]

theorem february_length (year : Nat) : monthLength year 2 + 337 = yearLength year := by
  cases leap : isLeap year <;> simp [monthLength, yearLength, leap]

/-- **A day of a year that begins in March is found in its month.** -/
theorem number_ofMarch {year day : Nat} (within : marchStart year + day < marchStart (year + 1)) :
    (ofMarch year day).IsProper ∧ (ofMarch year day).number = marchStart year + day + 60 := by
  have january := yearStart_succ year
  rw [marchStart_succ] at within
  have short := yearLength_le (year + 1)
  generalize counted : (5 * day + 2) / 153 = month
  rcases Nat.lt_or_ge month 10 with ordinary | late
  · obtain ⟨start, length⟩ := month_offsets year ordinary
    have found : ofMarch year day = ⟨year, month + 3, day - monthOffset month + 1⟩ := by
      simp [ofMarch, counted, ordinary, monthOffset]
    simp only [monthOffset] at start length
    rw [found]
    constructor
    · constructor <;> simp only [monthOffset] <;> omega
    · rw [yearStart] at january
      simp only [number, monthOffset]
      omega
  · have last : month = 10 ∨ month = 11 := by omega
    rcases last with rfl | rfl
    · have found : ofMarch year day = ⟨year + 1, 1, day - 306 + 1⟩ := by
        simp [ofMarch, counted]
      rw [found]
      constructor
      · constructor <;> simp only [monthLength] <;> omega
      · simp only [number, monthStart, monthLength]
        omega
    · have found : ofMarch year day = ⟨year + 1, 2, day - 337 + 1⟩ := by
        simp [ofMarch, counted]
      rw [found]
      constructor
      · have length := february_length (year + 1)
        constructor <;> simp only <;> omega
      · simp only [number, monthStart, monthLength]
        omega

/-! ## Years of a cycle -/

/-- The days of a cycle up to one, without the leap days among them. -/
def commonDays (day : Nat) : Nat := day - day / 1460 + day / 36524 - day / 146096

theorem commonDays_eq (day : Nat) : commonDays day = (day - day / 1460) + (day / 36524 - day / 36524 / 4) := by
  have fourth : day / 146096 = day / 36524 / 4 := (Nat.div_div_eq_div_mul day 36524 4).symm
  rw [commonDays, fourth]
  omega

theorem commonDays_mono {a b : Nat} (le : a ≤ b) : commonDays a ≤ commonDays b := by
  have days : a - a / 1460 ≤ b - b / 1460 := by
    have part : b / 1460 ≤ a / 1460 + (b - a) := by omega
    omega
  have centuries : a / 36524 ≤ b / 36524 := Nat.div_le_div_right le
  rw [commonDays_eq, commonDays_eq]
  omega

/-- Each year of a cycle begins and ends with as many days without leap days as it should. -/
theorem commonDays_ends : ∀ year < 400,
    365 * year ≤ commonDays (marchStart year) ∧ commonDays (marchStart (year + 1) - 1) < 365 * (year + 1) := by
  decide +kernel

/-- **The year of a day is found by its days without leap days**, which come to 365 a year. -/
theorem yearOfCycle_bounds {day : Nat} (within : day < cycleDays) : commonDays day / 365 < 400 ∧
    marchStart (commonDays day / 365) ≤ day ∧ day < marchStart (commonDays day / 365 + 1) := by
  rw [cycleDays] at within
  generalize counted : commonDays day / 365 = year
  have top : commonDays day ≤ 145999 := commonDays_mono (show day ≤ 146096 by omega)
  refine ⟨by omega, Nat.le_of_not_lt fun before => ?_, Nat.lt_of_not_le fun after => ?_⟩
  · cases year with
    | zero => exact absurd before (Nat.not_lt_zero _)
    | succ year =>
      have upper := (commonDays_ends year (by omega)).2
      have le : commonDays day ≤ commonDays (marchStart (year + 1) - 1) := commonDays_mono (by omega)
      omega
  · rcases Nat.lt_or_ge (year + 1) 400 with more | last
    · have lower := (commonDays_ends (year + 1) more).1
      have le := commonDays_mono after
      omega
    · obtain rfl : year = 399 := by omega
      have cycle : marchStart (399 + 1) = 146097 := rfl
      omega

/-! ## The date of a day -/

theorem ofDay_eq (n : Nat) :
    ofDay n =
      let day := (n + epochDay) % cycleDays
      let year := commonDays day / 365
      ofMarch (year + (n + epochDay) / cycleDays * 400) (day - (365 * year + year / 4 - year / 100)) := rfl

/-- **The date that is found is the one of the day.** -/
theorem number_ofDay (n : Nat) : (ofDay n).IsProper ∧ (ofDay n).number = epoch.number + n := by
  have start : epoch.number = epochDay + 60 := by decide +kernel
  rw [ofDay_eq, start]
  have within : (n + epochDay) % cycleDays < cycleDays := Nat.mod_lt _ (by decide)
  have whole := Nat.div_add_mod (n + epochDay) cycleDays
  generalize (n + epochDay) % cycleDays = day at within whole
  generalize (n + epochDay) / cycleDays = cycle at whole
  obtain ⟨short, lower, upper⟩ := yearOfCycle_bounds within
  simp only
  generalize commonDays day / 365 = year at short lower upper
  rw [← marchStart_of_lt short]
  have begins := marchStart_cycle year cycle
  have ends := marchStart_cycle (year + 1) cycle
  rw [Nat.add_right_comm] at ends
  have inYear : marchStart (year + cycle * 400) + (day - marchStart year) < marchStart (year + cycle * 400 + 1) := by
    omega
  obtain ⟨proper, number⟩ := number_ofMarch inYear
  refine ⟨proper, ?_⟩
  rw [number, begins]
  rw [Nat.mul_comm] at whole
  omega

/-- **A date lies a number of days after the first of January 1970 exactly if it is the one that is found.** -/
theorem eq_ofDay_iff (d : Date) (n : Nat) :
    d.IsProper ∧ (d.number : Int) - epoch.number = n ↔ d = ofDay n := by
  obtain ⟨proper, number⟩ := number_ofDay n
  constructor
  · rintro ⟨proper', distance⟩
    exact eq_of_number proper' proper (by omega)
  · rintro rfl
    exact ⟨proper, by omega⟩

/-! ## Machine words -/

/-- A number that is a machine word. -/
def word? (n : Nat) : Option Nat := if n < UInt64.size then some n else none

/-- The difference of two machine words, if it is one. -/
def difference? (a b : Nat) : Option Nat := if b ≤ a then some (a - b) else none

theorem bind_word? {α : Type} {n : Nat} (small : n < UInt64.size) (f : Nat → Option α) : (word? n).bind f = f n := by
  rw [word?, if_pos small, Option.bind_some]

theorem bind_difference? {α : Type} {a b : Nat} (le : b ≤ a) (f : Nat → Option α) :
    (difference? a b).bind f = f (a - b) := by
  rw [difference?, if_pos le, Option.bind_some]

/-- The year in a cycle that a day is of, and the day in that year. -/
def inCycle? (dayOfCycle : Nat) : Option (Nat × Nat) := do
  let quarters ← difference? dayOfCycle (dayOfCycle / 1460)
  let centuries ← word? (quarters + dayOfCycle / 36524)
  let common ← difference? centuries (dayOfCycle / 146096)
  let yearOfCycle := common / 365
  let years ← word? (365 * yearOfCycle)
  let julian ← word? (years + yearOfCycle / 4)
  let before ← difference? julian (yearOfCycle / 100)
  let dayOfYear ← difference? dayOfCycle before
  return (yearOfCycle, dayOfYear)

/-- The month of a day in a year that begins in March, and the day in that month. -/
def inYear? (dayOfYear : Nat) : Option (Nat × Nat) := do
  let scaled ← word? (5 * dayOfYear)
  let fifths ← word? (scaled + 2)
  let monthFromMarch := fifths / 153
  let offset ← word? (153 * monthFromMarch)
  let offset ← word? (offset + 2)
  let before ← difference? dayOfYear (offset / 5)
  let day ← word? (before + 1)
  let month ← if monthFromMarch < 10 then word? (monthFromMarch + 3) else difference? monthFromMarch 9
  return (month, day)

/-- The date of a day, which breaks off where a machine word is too small or a difference negative. -/
def ofDay? (n : Nat) : Option Date := do
  let shifted ← word? (n + epochDay)
  let (yearOfCycle, dayOfYear) ← inCycle? (shifted % cycleDays)
  let (month, day) ← inYear? dayOfYear
  let years ← word? (shifted / cycleDays * 400)
  let year ← word? (yearOfCycle + years)
  let year ← word? (year + if month ≤ 2 then 1 else 0)
  return ⟨year, month, day⟩

theorem inCycle?_eq {day : Nat} (within : day < cycleDays) :
    inCycle? day = some (commonDays day / 365, day - marchStart (commonDays day / 365)) := by
  have size : UInt64.size = 18446744073709551616 := rfl
  obtain ⟨short, lower, -⟩ := yearOfCycle_bounds within
  rw [cycleDays] at within
  simp only [inCycle?, Option.bind_eq_bind, Option.pure_def]
  rw [bind_difference? (by omega), bind_word? (by omega), bind_difference? (by omega), ← commonDays]
  generalize commonDays day / 365 = year at *
  rw [bind_word? (by omega), bind_word? (by omega), bind_difference? (by omega), ← marchStart_of_lt short,
    bind_difference? lower]

theorem inYear?_eq {day : Nat} (within : day ≤ 365) :
    inYear? day = some ((ofMarch 0 day).month, (ofMarch 0 day).day) := by
  have size : UInt64.size = 18446744073709551616 := rfl
  simp only [inYear?, ofMarch, Option.bind_eq_bind, Option.pure_def]
  rw [bind_word? (by omega), bind_word? (by omega), bind_word? (by omega), bind_word? (by omega),
    bind_difference? (by omega), bind_word? (by omega)]
  split
  · rw [bind_word? (by omega)]
  · rw [bind_difference? (by omega)]

/-- **Machine words are enough for the days of all seconds that a machine word counts.** -/
theorem ofDay?_eq {n : Nat} (small : n ≤ UInt64.size / 86400) : ofDay? n = some (ofDay n) := by
  have size : UInt64.size = 18446744073709551616 := rfl
  have start : epochDay = 719468 := rfl
  have within : (n + epochDay) % cycleDays < cycleDays := Nat.mod_lt _ (by decide)
  have cycles : (n + epochDay) / cycleDays ≤ (n + epochDay) / 1000 := Nat.div_le_div_left (by decide) (by decide)
  obtain ⟨short, lower, upper⟩ := yearOfCycle_bounds within
  rw [marchStart_succ] at upper
  have length := yearLength_le (commonDays ((n + epochDay) % cycleDays) / 365 + 1)
  simp only [ofDay?, Option.bind_eq_bind, Option.pure_def]
  rw [bind_word? (by omega), inCycle?_eq within, Option.bind_some, inYear?_eq (by omega), Option.bind_some,
    bind_word? (by omega), bind_word? (by omega), bind_word? (by split <;> omega), ofDay_eq]
  simp only [← marchStart_of_lt short, ofMarch]

end Date

end TestIsolation
