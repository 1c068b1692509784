/-!
# Times and durations

Limits are durations in nanoseconds. Points in time are milliseconds since 1970.
-/

namespace TestIsolation

set_option autoImplicit false

/-- A length of time in nanoseconds. -/
structure Duration where
  nanos : Nat
  deriving DecidableEq, Repr

namespace Duration

/-- A number of milliseconds. -/
def ofMillis (n : Nat) : Duration := ⟨n * 1000000⟩

/-- A number of seconds. -/
def ofSeconds (n : Nat) : Duration := ⟨n * 1000000000⟩

/-- The whole milliseconds of a duration. -/
def millis (d : Duration) : Nat := d.nanos / 1000000

end Duration

/-- A time in milliseconds since 1970, earlier ones negative. -/
abbrev Timestamp := Int

end TestIsolation
