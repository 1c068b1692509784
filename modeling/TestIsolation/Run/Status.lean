/-!
# Run statuses

A `Status` is how the run of a node stands. Terminal ones have a severity, and a suite's status is the most severe of
what happened below it (`Status.fold`).
-/

namespace TestIsolation

set_option autoImplicit false

/-- Lifecycle and outcome of a run. -/
inductive Status where
  | pending
  | running
  | passed
  | failed
  | skipped
  | crashed
  | timedOut
  | aborted
  | terminated
  deriving DecidableEq, Repr

namespace Status

/-- The name of a status. -/
def name : Status → String
  | pending => "pending"
  | running => "running"
  | passed => "passed"
  | failed => "failed"
  | skipped => "skipped"
  | crashed => "crashed"
  | timedOut => "timed_out"
  | aborted => "aborted"
  | terminated => "terminated"

/-- All statuses. -/
def all : List Status := [pending, running, passed, failed, skipped, crashed, timedOut, aborted, terminated]

/-- The status with a name. -/
def ofName? (name : String) : Option Status := all.find? (·.name = name)

/-- The run is over. -/
def isTerminal : Status → Bool
  | pending | running => false
  | _ => true

/-- Statuses that keep the exit code of a run at zero. -/
def isSuccess : Status → Bool
  | passed | skipped => true
  | _ => false

/-- The rank of a status among the outcomes; what is not over ranks with a pass. -/
def severity : Status → Nat
  | pending | running | passed => 0
  | skipped => 1
  | failed => 2
  | terminated => 3
  | aborted => 4
  | timedOut => 5
  | crashed => 6

/-- The more severe of two statuses, the first on a tie. -/
def worst (a b : Status) : Status := if a.severity < b.severity then b else a

/-- The most severe of some statuses; a pass if there are none. -/
def fold (statuses : List Status) : Status := statuses.foldl worst passed

end Status

end TestIsolation
