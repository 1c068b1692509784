import TestIsolation.Outcome.Summary
import TestIsolation.Run.Status
import TestIsolation.Time.Basic

/-!
# Classification of finished units

A unit's status follows from three things: why the scheduler killed it, if it did; how its process ended; and what its
outcome channel said. They count in that order, so a unit that was killed is never judged by what it reported.

| killed by                  | process ended            | channel               | status     |
|----------------------------|--------------------------|-----------------------|------------|
| watchdog                   |                          |                       | timed out  |
| interrupt, abandoned run   |                          |                       | terminated |
| nobody                     | fault signal             |                       | crashed    |
| nobody                     | abort signal             |                       | aborted    |
| nobody                     | any other signal         |                       | terminated |
| nobody                     | exit                     | corrupt or unfinished | crashed    |
| nobody                     | exit                     | failures, or `fail`   | failed     |
| nobody                     | exit with another code   | `pass` or `skip`      | failed     |
| nobody                     | exit with code 0         | `skip`                | skipped    |
| nobody                     | exit with code 0         | `pass`                | passed     |
-/

namespace TestIsolation

set_option autoImplicit false

/-- How a process ended. -/
inductive ExitCondition where
  | exited (code : Int)
  | signaled (signal : Int)
  deriving DecidableEq, Repr

/-- Signals by number. -/
def signalName : Int → String
  | 1 => "SIGHUP"
  | 2 => "SIGINT"
  | 3 => "SIGQUIT"
  | 4 => "SIGILL"
  | 5 => "SIGTRAP"
  | 6 => "SIGABRT"
  | 7 => "SIGBUS"
  | 8 => "SIGFPE"
  | 9 => "SIGKILL"
  | 10 => "SIGUSR1"
  | 11 => "SIGSEGV"
  | 12 => "SIGUSR2"
  | 13 => "SIGPIPE"
  | 14 => "SIGALRM"
  | 15 => "SIGTERM"
  | 31 => "SIGSYS"
  | _ => "unknown signal"

/-- Memory, instruction and arithmetic faults. -/
def isFaultSignal (signal : Int) : Bool := signal = 11 || signal = 7 || signal = 4 || signal = 8 || signal = 31

/-- The signal of a process that aborts itself. -/
def abortSignal : Int := 6

/-- The signal that ends a process at once. -/
def killSignal : Int := 9

namespace ExitCondition

/-- The exit condition in a process's wait status: the low seven bits hold a signal, where neither none nor all of
them set is one, and the next byte holds the exit code. -/
def ofWaitStatus (status : Int) : ExitCondition :=
  let low := status % 128
  if 0 < low ∧ low < 127 then signaled low else exited (status / 256 % 256)

/-- The signal that ended the process. -/
def signal? : ExitCondition → Option Int
  | signaled signal => some signal
  | exited _ => none

/-- The code the process exited with. -/
def code? : ExitCondition → Option Int
  | exited code => some code
  | signaled _ => none

/-- The text of an exit condition. -/
def describe : ExitCondition → String
  | exited code => s!"exited with code {code}"
  | signaled signal => s!"killed by signal {signal} (" ++ signalName signal ++ ")"

end ExitCondition

/-- Why the scheduler killed a unit. -/
inductive KillCause where
  /-- The unit's time was up. -/
  | watchdog (limit : Duration)
  /-- The run was interrupted. -/
  | interrupt
  /-- Another unit was terminated, and the run is given up. -/
  | abandon
  deriving DecidableEq, Repr

/-- A status with a reason in one line. -/
structure Classification where
  status : Status
  reason : Option String
  deriving DecidableEq, Repr

/-- The exit code of a unit whose process could not be prepared. -/
def unpreparedExit : Int := 102

namespace Summary

/-- The part of a reason that names the last phase. -/
def during (s : Summary) : String :=
  match s.phase with
  | some p => " during " ++ p.name
  | none => ""

/-- The status of a unit that exited by itself. -/
def classifyExit (s : Summary) (code : Int) : Classification :=
  let ended := (ExitCondition.exited code).describe
  match s.violation, s.truncated, s.terminal with
  | some violation, _, _ => ⟨.crashed, some ("protocol violation: " ++ violation.message)⟩
  | none, true, _ => ⟨.crashed, some "protocol violation: outcome channel ended inside a frame"⟩
  | none, false, none =>
    if code = unpreparedExit then ⟨.crashed, some ("unit process setup failed (" ++ ended ++ ")")⟩
    else ⟨.crashed, some ("protocol violation: " ++ ended ++ " without a terminal record" ++ s.during)⟩
  | none, false, some verdict =>
    if s.failures ≠ [] then ⟨.failed, none⟩
    else if verdict = .fail then ⟨.failed, some "unit reported failure"⟩
    else if code ≠ 0 then ⟨.failed, some ended⟩
    else if verdict = .skip then ⟨.skipped, s.skip.bind (·.reason)⟩
    else ⟨.passed, none⟩

/-- The status of a unit that was not killed by the scheduler. -/
def classifyEnd (s : Summary) (exit : ExitCondition) : Classification :=
  match exit with
  | .exited code => s.classifyExit code
  | .signaled signal =>
    let status : Status :=
      if isFaultSignal signal then .crashed else if signal = abortSignal then .aborted else .terminated
    ⟨status, some (exit.describe ++ s.during)⟩

/-- The status of a finished unit. -/
def classify (s : Summary) (exit : ExitCondition) : Option KillCause → Classification
  | some (.watchdog limit) => ⟨.timedOut, some (s!"exceeded timeout of {limit.millis}ms" ++ s.during)⟩
  | some .interrupt => ⟨.terminated, some "run interrupted"⟩
  | some .abandon => ⟨.terminated, some "run abandoned"⟩
  | none => s.classifyEnd exit

end Summary

end TestIsolation
