import TestIsolation.Schedule.Pipe
import TestIsolation.Schedule.Supervision
import TestIsolation.Unit.Script

/-!
# The life of a unit's process

A process that runs a unit is known by its life: what it puts out, with pauses, and how it ends. The life follows from
the unit's script alone, but not its times: a process that finds a pipe full waits until somebody reads. A
`ProcessState` is a process on its way, and a `Running` unit is one together with its supervision.
-/

namespace TestIsolation

set_option autoImplicit false

/-- The life of a process. -/
structure ProcessLife where
  output : List Emission
  /-- How the process ends after its output, if it does. -/
  ending : Option ExitCondition
  deriving DecidableEq, Repr

/-- A bound on how much there is to see of some output. -/
def Emission.weight : Emission → Nat
  | outcome _ bytes => bytes.length + 1
  | console bytes => bytes.length + 1
  | closed _ | pause _ => 1

namespace ProcessLife

/-- How a process that ends by itself ends. -/
def exitOf : Ending → Option ExitCondition
  | .exited code => some (.exited code)
  | .signaled signal => some (.signaled signal)
  | .hangs => none

/-- The life of a process that runs a unit on a thread. -/
def run (plan : UnitPlan Script) (thread : Thread) : ProcessLife :=
  match runUnit plan.acts .never thread with
  | (t, .ok _) => ⟨t.output, some (.exited 0)⟩
  | (t, .error e) => ⟨t.output, exitOf e⟩

/-- A bound on how often there is something to see of a process, however it ends. -/
def weight (p : ProcessLife) : Nat := p.output.foldl (fun n e => n + e.weight) 4

end ProcessLife

/-- A process on its way. Times are counted from its start. -/
structure ProcessState where
  /-- What it has still to put out. A write that waits for room stands first, with the bytes that are left of it. -/
  todo : List Emission
  ending : Option ExitCondition
  /-- When it goes on, or ends if there is nothing to put out. -/
  time : Duration
  /-- It waits for room in a pipe. -/
  waiting : Bool := false
  /-- The pipe of its outcome channel. -/
  outcome : Pipe := {}
  /-- The pipe of what it prints. -/
  console : Pipe := {}
  deriving DecidableEq, Repr

namespace ProcessState

/-- The time that a process takes to get going. -/
def delay : Nat := 1

/-- A process at its start. -/
def start (life : ProcessLife) : ProcessState := { todo := life.output, ending := life.ending, time := ⟨delay⟩ }

/-- The process with its pipes closed if it is at its end by a time. -/
def finished (p : ProcessState) (age : Duration) : ProcessState :=
  if p.time.nanos ≤ age.nanos && p.ending.isSome then
    { p with outcome := p.outcome.closed, console := p.console.closed }
  else p

/-- The process once it has put out the given things, up to where it pauses beyond a time or has to wait. Only the
first unit of a process writes to the process's channel. -/
def putOut (age : Duration) : List Emission → ProcessState → ProcessState
  | [], p => { p with todo := [] }.finished age
  | e :: rest, p =>
    if age.nanos < p.time.nanos then { p with todo := e :: rest }
    else
      match e with
      | .pause millis => putOut age rest { p with time := ⟨p.time.nanos + (Duration.ofMillis millis).nanos⟩ }
      | .outcome 0 bytes =>
        match p.outcome.write p.waiting bytes with
        | (outcome, []) => putOut age rest { p with outcome, waiting := false }
        | (outcome, left) => { p with todo := .outcome 0 left :: rest, outcome, waiting := true }
      | .console bytes =>
        match p.console.write p.waiting bytes with
        | (console, []) => putOut age rest { p with console, waiting := false }
        | (console, left) => { p with todo := .console left :: rest, console, waiting := true }
      | .closed 0 => putOut age rest { p with outcome := p.outcome.closed }
      | .outcome (_ + 1) _ | .closed (_ + 1) => putOut age rest p

/-- The process at a time. -/
def advance (p : ProcessState) (age : Duration) : ProcessState := putOut age p.todo p

/-- How the process has ended by a time, if it has. -/
def endedBy (p : ProcessState) (age : Duration) : Option ExitCondition :=
  let q := p.advance age
  if q.todo = [] && q.time.nanos ≤ age.nanos then q.ending else none

/-- The process if it is killed at a time. What is in its pipes stays there. -/
def killed (p : ProcessState) (age : Duration) : ProcessState :=
  match p.endedBy age with
  | some _ => p
  | none => { p.advance age with todo := [], ending := some (.signaled killSignal), time := age, waiting := false }

/-- What the pipes give at a time, and the process after that. One that waited for room goes on. -/
def read (p : ProcessState) (age : Duration) : PipeReads × ProcessState :=
  let q := p.advance age
  (⟨q.outcome.reads, q.console.reads, !q.outcome.writable, !q.console.writable⟩,
    { q with
      outcome := q.outcome.emptied, console := q.console.emptied
      time := if q.waiting then ⟨age.nanos + delay⟩ else q.time })

/-- The next time at which there is something to see, if there is one. -/
def nextTime? (p : ProcessState) : Option Duration :=
  if p.todo = [] && p.ending.isNone then none else some p.time

end ProcessState

/-- A unit whose process was started. -/
structure Running where
  process : ProcessState
  startedAt : Instant
  supervision : Supervision

namespace Running

/-- Starts a process. -/
def start (life : ProcessLife) (limit : Option Duration) (consoleLimit : Nat) (instant : Instant) (now : Timestamp) :
    Running :=
  ⟨.start life, instant, .start limit consoleLimit instant now⟩

/-- How long ago the process was started. -/
def age (u : Running) (instant : Instant) : Duration := ⟨instant.nanos - u.startedAt.nanos⟩

/-- Reads what is in the pipes by now. -/
def pump (u : Running) (instant : Instant) : Running :=
  let (reads, process) := u.process.read (u.age instant)
  { u with process, supervision := u.supervision.pump reads }

/-- Looks whether the process has ended by now. -/
def reap (u : Running) (instant : Instant) : Running :=
  match u.process.endedBy (u.age instant) with
  | some exit =>
    let (rest, process) := u.process.read (u.age instant)
    { u with process, supervision := u.supervision.reap (some exit) rest }
  | none => u

/-- Makes the process end where its supervision has a reason to kill it. -/
def struck (u : Running) (supervision : Supervision) (instant : Instant) : Running :=
  let isNew : Bool := u.supervision.kill.isNone && supervision.kill.isSome
  { u with supervision, process := if isNew then u.process.killed (u.age instant) else u.process }

/-- Kills the process for a reason. -/
def killFor (cause : KillCause) (instant : Instant) (u : Running) : Running :=
  u.struck (u.supervision.killFor cause) instant

/-- Kills the process if it is overdue. -/
def enforceDeadline (u : Running) (instant : Instant) : Running :=
  u.struck (u.supervision.enforceDeadline instant) instant

/-- Whether the end of the process was seen. -/
def isOver (u : Running) : Bool := u.supervision.exit.isSome

/-- Looks and waits in turn until the end of the process was seen, and tells when that was. The number bounds how often
it looks. A process that has no end is looked at in vain. -/
def awaitExit (u : Running) (instant : Instant) : Nat → Running × Instant
  | 0 => (u, instant)
  | looks + 1 =>
    let u := (u.pump instant).reap instant
    if u.isOver then (u, instant)
    else
      match u.process.nextTime? with
      | some time => awaitExit u (instant.later (u.startedAt.after time)) looks
      | none => (u, instant)

/-- The next time at which there is something to see or to do. -/
def nextInstant? (u : Running) : Option Instant :=
  let seen := u.process.nextTime?.map u.startedAt.after
  match seen, u.supervision.deadline with
  | some t, some d => if d.instant.nanos < t.nanos then some d.instant else some t
  | some t, none => some t
  | none, some d => some d.instant
  | none, none => none

end Running

end TestIsolation
