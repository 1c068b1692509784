import TestIsolation.Time.Basic

/-!
# Calendar dates

Days are counted from the first of January 1970 and dates are Gregorian. `Date.ofDay` finds a date by counting years
from the first of March, so that the leap day comes last: in a cycle of 400 years, then in its years, then in runs of
153 days for five months.
-/

namespace TestIsolation

set_option autoImplicit false

/-- A date of the Gregorian calendar. -/
structure Date where
  year : Nat
  month : Nat
  day : Nat
  deriving DecidableEq, Repr

namespace Date

/-- Days from the first of March of year zero to the first of January 1970. -/
def epochDay : Nat := 719468

/-- Days in 400 years. -/
def cycleDays : Nat := 146097

/-- The date that lies a number of days after the first of January 1970. -/
def ofDay (n : Nat) : Date :=
  let shifted := n + epochDay
  let cycle := shifted / cycleDays
  let dayOfCycle := shifted % cycleDays
  let yearOfCycle := (dayOfCycle - dayOfCycle / 1460 + dayOfCycle / 36524 - dayOfCycle / 146096) / 365
  let dayOfYear := dayOfCycle - (365 * yearOfCycle + yearOfCycle / 4 - yearOfCycle / 100)
  let monthFromMarch := (5 * dayOfYear + 2) / 153
  let month := if monthFromMarch < 10 then monthFromMarch + 3 else monthFromMarch - 9
  { year := yearOfCycle + cycle * 400 + if month ≤ 2 then 1 else 0
    month := month
    day := dayOfYear - (153 * monthFromMarch + 2) / 5 + 1 }

end Date

/-- A number in decimal with zeros before it up to a width. -/
def padded (width n : Nat) : String :=
  let digits := Nat.toDigits 10 n
  String.ofList (List.replicate (width - digits.length) '0' ++ digits)

namespace Timestamp

/-- The whole seconds since 1970, none for earlier times. -/
def seconds (t : Timestamp) : Nat := t.toNat / 1000

/-- The text of a time of day on a date, in universal time. Times before 1970 count as its start. -/
def utc (t : Timestamp) : String :=
  let seconds := t.toNat / 1000
  let date := Date.ofDay (seconds / 86400)
  let rest := seconds % 86400
  padded 4 date.year ++ "-" ++ padded 2 date.month ++ "-" ++ padded 2 date.day ++ "T"
    ++ padded 2 (rest / 3600) ++ ":" ++ padded 2 (rest % 3600 / 60) ++ ":" ++ padded 2 (rest % 60)
    ++ "." ++ padded 3 (t.toNat % 1000) ++ "Z"

end Timestamp

end TestIsolation
