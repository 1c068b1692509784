import TestIsolation.Outcome.Frame
import TestIsolation.Run.Aggregator

/-!
# Supervision of a unit

A unit's process writes to two pipes: the outcome channel and the console. A `Supervision` is what is known of the
process from outside: what was read, how it ended, and why it was killed if it was. The first reason to kill a process
counts, and none does once its end was seen. `Supervision.completion` sums up what the unit came to.
-/

namespace TestIsolation

set_option autoImplicit false

/-- A point in time on a clock that never goes back, in nanoseconds. -/
structure Instant where
  nanos : Nat
  deriving DecidableEq, Repr

namespace Instant

/-- The first point in time whose seconds do not fit the clock. -/
def bound : Nat := (1 <<< 63) * 1000000000

/-- The point in time some duration later. -/
def after (t : Instant) (d : Duration) : Instant := ⟨t.nanos + d.nanos⟩

/-- Whether the clock can tell a point in time. -/
def representable (t : Instant) : Bool := t.nanos < bound

/-- The earlier of two points in time. -/
def earlier (s t : Instant) : Instant := if s.nanos ≤ t.nanos then s else t

/-- The later of two points in time. -/
def later (s t : Instant) : Instant := if s.nanos ≤ t.nanos then t else s

end Instant

/-- When a unit is killed, and the limit that this comes from. -/
structure Deadline where
  instant : Instant
  limit : Duration
  deriving DecidableEq, Repr

/-- What the pipes of a unit gave until they would have to be waited for. -/
structure PipeReads where
  outcome : List Bytes := []
  console : List Bytes := []
  /-- The outcome channel is at its end. -/
  outcomeEnded : Bool := false
  /-- The console is at its end. -/
  consoleEnded : Bool := false
  deriving DecidableEq, Repr

/-- The first bytes of what a unit printed. -/
structure Capture where
  limit : Nat
  bytes : Bytes := []
  /-- More was printed than is kept. -/
  truncated : Bool := false
  deriving DecidableEq, Repr

namespace Capture

/-- Takes what one read gave. -/
def take (c : Capture) (read : Bytes) : Capture :=
  let room := c.limit - c.bytes.length
  { c with bytes := c.bytes ++ read.take room, truncated := c.truncated || decide (room < read.length) }

/-- Takes what some reads gave in turn. -/
def takeAll (c : Capture) (reads : List Bytes) : Capture := reads.foldl take c

/-- What a report says after a capture that is not whole. -/
def truncationNote : String := "\n[console output truncated]\n"

/-- The captured text. -/
def text (c : Capture) : String :=
  let kept := Bytes.toStringLossy c.bytes
  if c.truncated then kept ++ truncationNote else kept

end Capture

/-- What was received on an outcome channel. -/
structure Reception where
  decoder : Decoder := .new
  summary : Summary := {}

namespace Reception

/-- Takes what one read gave. Once the channel is corrupt nothing more is taken. -/
def take (r : Reception) (read : Bytes) : Reception :=
  if r.summary.violation.isSome then r
  else
    match r.decoder.feed read with
    | (decoder, .ok records) => ⟨decoder, r.summary.absorbAll records⟩
    | (decoder, .error e) => ⟨decoder, r.summary.corrupt e⟩

/-- Takes what some reads gave in turn. -/
def takeAll (r : Reception) (reads : List Bytes) : Reception := reads.foldl take r

/-- The summary at the end of the channel. A frame that is not whole by then was cut off. -/
def final (r : Reception) : Summary :=
  { r.summary with truncated := r.summary.truncated || decide (0 < r.decoder.pending) }

end Reception

/-- What is known of a unit's process from outside. -/
structure Supervision where
  reception : Reception := {}
  capture : Capture
  /-- The outcome channel is still open for reading. -/
  outcomeOpen : Bool := true
  /-- The console is still open for reading. -/
  consoleOpen : Bool := true
  startedAt : Timestamp
  deadline : Option Deadline := none
  /-- How the process ended, once that was seen. -/
  exit : Option ExitCondition := none
  /-- Why the process was killed. -/
  kill : Option KillCause := none

namespace Supervision

/-- The supervision of a process that was just started. -/
def start (limit : Option Duration) (consoleLimit : Nat) (instant : Instant) (now : Timestamp) : Supervision :=
  { capture := { limit := consoleLimit }, startedAt := now, deadline := limit.map fun d => ⟨instant.after d, d⟩ }

/-- How many pipes are open for reading. -/
def openPipes (s : Supervision) : Nat := s.outcomeOpen.toNat + s.consoleOpen.toNat

/-- Takes what was read from the outcome channel. -/
def pumpOutcome (s : Supervision) (reads : PipeReads) : Supervision :=
  if s.outcomeOpen then
    { s with reception := s.reception.takeAll reads.outcome, outcomeOpen := !reads.outcomeEnded }
  else s

/-- Takes what was read from the console. -/
def pumpConsole (s : Supervision) (reads : PipeReads) : Supervision :=
  if s.consoleOpen then
    { s with capture := s.capture.takeAll reads.console, consoleOpen := !reads.consoleEnded }
  else s

/-- Takes what was read from the pipes that are open. -/
def pump (s : Supervision) (reads : PipeReads) : Supervision := (s.pumpOutcome reads).pumpConsole reads

/-- Looks whether the process has ended. What it wrote before that is in the pipes and is read as well. -/
def reap (s : Supervision) (ended : Option ExitCondition) (rest : PipeReads) : Supervision :=
  match s.exit, ended with
  | none, some exit => { s with exit := some exit }.pump rest
  | _, _ => s

/-- Kills the process for a reason. -/
def killFor (cause : KillCause) (s : Supervision) : Supervision :=
  if s.exit.isSome || s.kill.isSome then s else { s with kill := some cause }

/-- Whether the deadline has come before the end of the process was seen. -/
def isOverdue (s : Supervision) (now : Instant) : Bool :=
  s.exit.isNone && s.deadline.any fun d => d.instant.nanos ≤ now.nanos

/-- Kills the process if it is overdue. -/
def enforceDeadline (s : Supervision) (now : Instant) : Supervision :=
  match s.deadline with
  | some d => if s.isOverdue now then s.killFor (.watchdog d.limit) else s
  | none => s

/-- What the unit came to. A process whose end was never seen counts as killed. -/
def completion (s : Supervision) (now : Timestamp) : Completion :=
  let summary := s.reception.final
  let exit := s.exit.getD (.signaled killSignal)
  let verdict := summary.classify exit s.kill
  { status := verdict.status
    reason := verdict.reason <|> summary.violation.map (·.message)
    failures := summary.failures
    phase := summary.phase
    exit := some exit
    console := s.capture.text
    startedAt := s.startedAt
    endedAt := now }

end Supervision

end TestIsolation
