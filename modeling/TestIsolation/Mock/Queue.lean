import TestIsolation.Mock.Expectation

/-!
# The queue of expected calls

A unit has one queue for all symbols. A push appends to its end and a call takes its head, so the calls of a unit are
expected in one total order. A call of the wrong symbol discards the head as well, so the queue keeps draining.
-/

namespace TestIsolation

set_option autoImplicit false

/-- Expected calls in the order they were pushed. -/
structure ExpectQueue where
  entries : List Expectation := []
  /-- How many calls were ever pushed. No bound is set: the number is that of the pushes (`ExpectQueue.pushed_run`), so
  a machine word holds it for as long as there are fewer than `UInt64.size` of them. -/
  pushed : Nat := 0
  deriving DecidableEq, Repr

namespace ExpectQueue

/-- Appends an expected call, and numbers it. -/
def push (q : ExpectQueue) (e : Expectation) (at_ : Site) : ExpectQueue × Nat :=
  let seq := q.pushed + 1
  (⟨q.entries ++ [{ e with seq, pushedAt := some at_ }], seq⟩, seq)

/-- How many calls are queued. -/
def length (q : ExpectQueue) : Nat := q.entries.length

/-- Whether no call is queued. -/
def isEmpty (q : ExpectQueue) : Bool := q.entries.isEmpty

/-- Takes the head for a call of a symbol. -/
def intercept (q : ExpectQueue) (symbol : String) : ExpectQueue × Except MockViolation Expectation :=
  match q.entries with
  | [] => (q, .error (.missing symbol))
  | head :: rest =>
    let q := { q with entries := rest }
    if head.symbol = symbol then (q, .ok head) else (q, .error (.wrongCall head.pending symbol))

/-- Empties the queue, which is a violation if anything was left. -/
def endOfTest (q : ExpectQueue) : ExpectQueue × Except MockViolation Unit :=
  match q.entries with
  | [] => (q, .ok ())
  | left => ({ q with entries := [] }, .error (.notConsumed (left.map (·.pending))))

end ExpectQueue

end TestIsolation
