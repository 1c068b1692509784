import TestIsolation.Schedule.Execution
import TestIsolation.Schedule.ProcessLife

/-!
# The event loop

The loop of a run: stop if told to, dispatch, wait until there is something to see, and look at every unit in flight.
What the loop meets is a `World`: which processes can be started and the lives they have, what observers do about
events, and whether signals are caught. Time passes only while the loop waits, so a run is determined by its assignment
and its world.
-/

namespace TestIsolation

set_option autoImplicit false

/-- What an observer can do about an event to stop the run. -/
inductive Reaction where
  /-- Cancels the run's token. -/
  | cancel
  /-- Sends the process of the run a signal to stop. -/
  | signal
  deriving DecidableEq, Repr

/-- What was done to stop a run. -/
structure Interruption where
  /-- The run's own token was cancelled. -/
  cancelled : Bool := false
  /-- A signal to stop was caught. This is on record for the process, not for one run. -/
  signaled : Bool := false
  deriving DecidableEq, Repr

/-- Whether a run is to stop. -/
def Interruption.isStop (i : Interruption) : Bool := i.cancelled || i.signaled

/-- What a run meets. -/
structure World (β : Type) where
  /-- The life of the process that runs a unit. -/
  process : UnitPlan β → ProcessLife
  /-- Why no process can be started, if none can. -/
  refusal : Option StartError := none
  /-- Why the process of a single unit cannot be started, if it cannot. -/
  failure : UnitPlan β → Option StartError := fun _ => none
  reaction : Event → Option Reaction := fun _ => none
  catchesSignals : Bool := false
  /-- Where the wall clock stands. -/
  now : Timestamp
  /-- Where the clock of deadlines stands when the run starts. -/
  clock : Instant := ⟨0⟩

namespace World

variable {β : Type}

/-- Why a unit cannot be started, if it cannot. -/
def startError? (w : World β) (plan : UnitPlan β) : Option StartError := w.refusal <|> w.failure plan

/-- What was done to stop a run by the time of some events. A signal counts only where signals are caught. -/
def interruptionAfter (w : World β) (before : Interruption) (events : List Event) : Interruption :=
  { cancelled := before.cancelled || events.any fun e => w.reaction e == some .cancel
    signaled := before.signaled || (w.catchesSignals && events.any fun e => w.reaction e == some .signal) }

/-- What is on record when a run starts. Where signals are caught, earlier ones are forgotten. -/
def interruptionAtStart (w : World β) (before : Interruption) : Interruption :=
  if w.catchesSignals then { before with signaled := false } else before

end World

/-- A run that cannot be brought to its end. -/
inductive RunError where
  /-- A unit's deadline lies beyond what the clock can tell. -/
  | deadlineOverflow
  /-- What is in flight never ends and has no deadline. -/
  | endless
  deriving DecidableEq, Repr

/-- The state of a run, and the time. -/
structure Loop where
  execution : Execution Running
  clock : Instant

namespace Loop

variable {β : Type}

/-- How units are started and killed at a time. -/
def controlAt (a : Assignment β) (w : World β) (clock : Instant) : UnitControl β Running where
  start _ plan limit :=
    match w.startError? plan with
    | some e => .error e
    | none => .ok (.start (w.process plan) limit a.settings.consoleLimit clock w.now)
  kill cause u := u.killFor cause clock

/-- One look at a unit: what it wrote and whether it ended, and otherwise whether it is overdue. -/
def lookAt (clock : Instant) (now : Timestamp) (f : InFlight Running) : Running × Option Completion :=
  let u := (f.unit.pump clock).reap clock
  if u.isOver then (u, some (u.supervision.completion now)) else (u.enforceDeadline clock, none)

/-- The next time at which there is something to see. -/
def nextInstant? (x : Execution Running) : Option Instant :=
  match x.inFlight.filterMap (·.unit.nextInstant?) with
  | [] => none
  | t :: rest => some (rest.foldl Instant.earlier t)

/-- Whether a unit in flight has a deadline that the clock cannot tell. -/
def overflows (x : Execution Running) : Bool :=
  x.inFlight.any fun f => f.unit.supervision.deadline.any fun d => !d.instant.representable

/-- Stops if told to, and then dispatches. -/
def prepare (a : Assignment β) (w : World β) (start : Interruption) (l : Loop) : Execution Running :=
  let control := controlAt a w l.clock
  let stop := (w.interruptionAfter start l.execution.aggregator.events).isStop
  (l.execution.interrupt control stop).dispatch a control w.now

/-- Waits until there is something to see, and looks at every unit. A deadline that the clock cannot tell breaks the run
off here, when all steps of the round have been dispatched. A program that adds the limit to the time as it starts a
unit breaks off at the first such unit, so that it dispatches no step of the round after it and tells nobody of one. -/
def await (a : Assignment β) (w : World β) (clock : Instant) (x : Execution Running) : Except RunError Loop :=
  if overflows x then .error .deadlineOverflow
  else if x.inFlight.isEmpty then .ok ⟨x, clock⟩
  else
    match nextInstant? x with
    | none => .error .endless
    | some next =>
      let clock := clock.later next
      .ok ⟨x.collect a (controlAt a w clock) (lookAt clock w.now) w.now, clock⟩

/-- Goes round until the run is over, at most the given number of times. A run that comes to no end leaves the state
in which it got stuck. -/
def drive (a : Assignment β) (w : World β) (start : Interruption) (l : Loop) :
    Nat → Execution Running × Except RunError Unit
  | 0 => (l.execution, .error .endless)
  | fuel + 1 =>
    let x := prepare a w start l
    if x.isOver then (x, .ok ())
    else
      match await a w l.clock x with
      | .ok l => drive a w start l fuel
      | .error e => (x, .error e)

/-- The unit of a step, if it may need one. -/
def plan? (a : Assignment β) (step : Step) : Option (UnitPlan β) :=
  (a.outline.node? step.node).bind fun n =>
    match step with
    | .leaf _ => some (a.testPlan n)
    | .enter _ | .exit _ => Assignment.fixturePlan? n step

/-- How often a run goes round at most: as often as there is something to see of its processes. -/
def rounds (a : Assignment β) (w : World β) : Nat :=
  a.outline.steps.foldl (fun n step => n + ((plan? a step).map fun plan => (w.process plan).weight).getD 1) 1

end Loop

/-- What a run came to. -/
structure RunResult where
  tree : RunTree
  events : List Event
  /-- Why the run was broken off before its end, if it was. -/
  error : Option RunError := none
  /-- What was done to stop it, and what later runs of the process find on record. -/
  interruption : Interruption

/-- Runs an assignment in a world, where something may have been done to stop it beforehand. -/
def Assignment.run {β : Type} (a : Assignment β) (w : World β) (before : Interruption) :
    RunResult :=
  let start := w.interruptionAtStart before
  let (x, result) := Loop.drive a w start ⟨.new a, w.clock⟩ (Loop.rounds a w)
  let events := x.aggregator.events
  { tree := x.aggregator.tree, events, error := match result with | .ok () => none | .error e => some e
    interruption := w.interruptionAfter start events }

end TestIsolation
