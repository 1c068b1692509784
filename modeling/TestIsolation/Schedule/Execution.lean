import TestIsolation.Run.Aggregator
import TestIsolation.Run.Settings
import TestIsolation.Schedule.UnitState
import TestIsolation.Unit.Runner

/-!
# Execution of a run

An `Execution` is the state of a run between two looks at its units. `dispatch` walks the steps of the traversal: it
settles those that need no unit and starts units for the others, at most as many at once as there are jobs. A suite's
own setup and teardown are barriers: one starts only when nothing is in flight, and nothing is dispatched until it is
settled. `retire` takes a finished unit out of flight, and `haltFor` gives the rest of the run up.

What a unit in flight is stays open here; `UnitControl` says how one is started and killed.
-/

namespace TestIsolation

set_option autoImplicit false

/-- What is to be executed. -/
structure Assignment (β : Type) where
  outline : Outline β
  settings : Settings

namespace Assignment

variable {β : Type}

/-- Whether a test at or below a node passes the filter. -/
def selects (a : Assignment β) (n : Node β) : Bool :=
  a.outline.nodes.any fun leaf => leaf.isTest && n.covers leaf.index && a.settings.selects leaf.path

/-- The unit of a test. -/
def testPlan (a : Assignment β) (n : Node β) : UnitPlan β :=
  ⟨a.outline.resolveSetup n, n.body, a.outline.resolveTeardown n⟩

/-- The unit of a suite's own fixture at a step, if it has one. -/
def fixturePlan? (n : Node β) : Step → Option (UnitPlan β)
  | .enter _ => n.slots.setup.explicit?.map fun f => { setup := some f }
  | .exit _ => n.slots.teardown.explicit?.map fun f => { teardown := some f }
  | .leaf _ => none

/-- The limit of a node's units, if they have one. -/
def limit? (a : Assignment β) (n : Node β) : Option Duration :=
  match a.outline.resolveTimeout n with
  | none => some a.settings.defaultTimeout
  | some (.after limit) => some limit
  | some _ => none

end Assignment

/-- A failure to start a unit: a call to the system, and what came of it. -/
structure StartError where
  call : String
  cause : IoError
  deriving DecidableEq, Repr

namespace StartError

/-- The text of a failure to start a unit. -/
def message (e : StartError) : String := e.call ++ " failed: " ++ e.cause.message

/-- There is no descriptor left for a pipe. -/
def noDescriptors : StartError := ⟨"pipe", .tooManyOpenFiles⟩

end StartError

/-- Why the rest of a run is given up. -/
inductive Halt where
  | interrupted
  | abandoned
  deriving DecidableEq, Repr

namespace Halt

/-- Why units in flight are killed. -/
def killCause : Halt → KillCause
  | interrupted => .interrupt
  | abandoned => .abandon

/-- Why tests are not run. -/
def reason : Halt → String
  | interrupted => "run interrupted"
  | abandoned => "run abandoned"

end Halt

/-- How a suite's setup ended if it did not pass. -/
inductive Blockage where
  | failed
  | skipped
  deriving DecidableEq, Repr

/-- Why the tests of a suite are skipped. -/
def Blockage.reason : Blockage → String
  | failed => "ancestor setup failed"
  | skipped => "ancestor setup skipped"

/-- Why tests that do not pass the filter are skipped. -/
def filteredReason : String := "filtered out"

/-- A unit in flight. -/
structure InFlight (υ : Type) where
  /-- The step that the unit belongs to. -/
  seq : Nat
  node : Nat
  /-- The unit of a suite's fixture. -/
  barrier : Bool
  unit : υ

/-- A change of the state of a step's unit. -/
structure Change where
  seq : Nat
  before : UnitState
  after : UnitState
  deriving DecidableEq, Repr

/-- How units are started and killed. -/
structure UnitControl (β υ : Type) where
  /-- Starts the unit of a step, with its limit. -/
  start : Nat → UnitPlan β → Option Duration → Except StartError υ
  kill : KillCause → υ → υ

/-- The state of a run. -/
structure Execution (υ : Type) where
  aggregator : Aggregator
  states : List UnitState
  /-- The suites whose setup did not pass. -/
  blocked : List (Option Blockage)
  /-- In the order in which they were started. -/
  inFlight : List (InFlight υ) := []
  /-- The next step to dispatch. -/
  cursor : Nat := 0
  halt : Option Halt := none
  /-- Every change of a unit's state, newest first. -/
  changes : List Change := []

namespace Execution

variable {β υ : Type}

/-- The state before anything happened. -/
def new (a : Assignment β) : Execution υ :=
  { aggregator := .new a.outline, states := a.outline.steps.map fun _ => .idle,
    blocked := a.outline.nodes.map fun _ => none }

/-- All steps are dispatched and no unit is in flight. -/
def isOver (x : Execution υ) : Bool := x.inFlight.isEmpty && decide (x.aggregator.steps.length ≤ x.cursor)

/-- The steps whose units were started, newest first. -/
def started (x : Execution υ) : List Nat := (x.changes.filter (·.after = .spawning)).map (·.seq)

/-- Changes the state of a step's unit. -/
def advance (x : Execution υ) (seq : Nat) (next : UnitState) : Execution υ :=
  { x with
    states := x.states.set seq next
    changes := ⟨seq, (x.states[seq]?).getD .idle, next⟩ :: x.changes }

/-- Hands the completion of a step in. -/
def report (x : Execution υ) (seq : Nat) (c : Option Completion) (now : Timestamp) : Execution υ :=
  let x := x.advance seq .reported
  { x with aggregator := x.aggregator.submit seq c now }

/-- Gives the rest of the run up and kills what is in flight. -/
def haltFor (control : UnitControl β υ) (halt : Halt) (x : Execution υ) : Execution υ :=
  { x with
    halt := some halt
    inFlight := x.inFlight.map fun f => { f with unit := control.kill halt.killCause f.unit } }

/-- Gives the rest of the run up for an interruption, unless it is given up already. -/
def interrupt (control : UnitControl β υ) (interrupted : Bool) (x : Execution υ) : Execution υ :=
  if x.halt.isNone && interrupted then x.haltFor control .interrupted else x

/-- What a completed unit means for the suite whose setup it is. -/
def blockageOf (s : Status) : Option Blockage :=
  match s with
  | .passed => none
  | .skipped => some .skipped
  | _ => some .failed

/-- The state in which a suite is blocked if its setup did not pass. -/
def blockFor (x : Execution υ) (seq node : Nat) (barrier : Bool) (s : Status) : Execution υ :=
  match barrier, x.aggregator.steps[seq]?, blockageOf s with
  | true, some (.enter _), some blockage => { x with blocked := x.blocked.set node (some blockage) }
  | _, _, _ => x

/-- Records what a unit came to, and what follows from it for the rest of the run. -/
def settle (a : Assignment β) (control : UnitControl β υ) (seq node : Nat) (barrier : Bool) (c : Completion)
    (now : Timestamp) (x : Execution υ) : Execution υ :=
  let x := (x.blockFor seq node barrier c.status).report seq (some c) now
  if c.status = .terminated ∧ x.halt.isNone ∧ a.settings.stopOnTerminated then x.haltFor control .abandoned else x

/-- Starts the unit of a step. -/
def launch (a : Assignment β) (control : UnitControl β υ) (seq : Nat) (n : Node β) (plan : UnitPlan β)
    (barrier : Bool) (now : Timestamp) (x : Execution υ) : Execution υ :=
  let x := x.advance seq .spawning
  match control.start seq plan (a.limit? n) with
  | .ok unit =>
    let x := x.advance seq .awaitingCompletion
    { x with inFlight := x.inFlight ++ [⟨seq, n.index, barrier, unit⟩] }
  | .error e =>
    let c : Completion := .notRun .crashed ("could not start unit: " ++ e.message) now
    (x.advance seq .classifying).settle a control seq n.index barrier c now

/-- Why a node may not run: the setup of the nearest suite at or above it that is blocked. -/
def blockage? (x : Execution υ) (n : Node β) : Option Blockage :=
  n.lineage.findSome? fun index => (x.blocked[index]?).join

/-- Dispatches the step of a test, if a job is free. -/
def dispatchTest (a : Assignment β) (control : UnitControl β υ) (seq : Nat) (n : Node β) (now : Timestamp)
    (x : Execution υ) : Option (Execution υ) :=
  if a.settings.effectiveJobs ≤ x.inFlight.length then none
  else
    match x.blockage? n with
    | some blockage => some (x.report seq (some (.notRun .skipped blockage.reason now)) now)
    | none =>
      if a.selects n then some (x.launch a control seq n (a.testPlan n) false now)
      else some (x.report seq (some (.notRun .skipped filteredReason now)) now)

/-- Dispatches a suite's step. Its fixture, if it has to run, waits until nothing is in flight. -/
def dispatchSuite (a : Assignment β) (control : UnitControl β υ) (seq : Nat) (step : Step) (n : Node β)
    (now : Timestamp) (x : Execution υ) : Option (Execution υ) :=
  match Assignment.fixturePlan? n step with
  | some plan =>
    if (x.blockage? n).isNone && a.selects n then
      if x.inFlight.isEmpty then some (x.launch a control seq n plan true now) else none
    else some (x.report seq none now)
  | none => some (x.report seq none now)

/-- Settles a step of a run that is given up. -/
def dispatchHalted (halt : Halt) (seq : Nat) (step : Step) (now : Timestamp) (x : Execution υ) : Execution υ :=
  match step with
  | .leaf _ => x.report seq (some (.notRun .terminated halt.reason now)) now
  | .enter _ | .exit _ => x.report seq none now

/-- Dispatches the step at the cursor, unless something in flight has to be waited for. -/
def dispatchStep (a : Assignment β) (control : UnitControl β υ) (step : Step) (now : Timestamp) (x : Execution υ) :
    Option (Execution υ) :=
  if x.inFlight.any (·.barrier) then none
  else
    match x.halt, a.outline.node? step.node with
    | some halt, _ => some (x.dispatchHalted halt x.cursor step now)
    | none, none => none
    | none, some n =>
      match step with
      | .leaf _ => x.dispatchTest a control x.cursor n now
      | .enter _ | .exit _ => x.dispatchSuite a control x.cursor step n now

/-- Dispatches steps in turn until one has to wait. -/
def dispatchAll (a : Assignment β) (control : UnitControl β υ) (now : Timestamp) (x : Execution υ) :
    List Step → Execution υ
  | [] => x
  | step :: rest =>
    match x.dispatchStep a control step now with
    | some x => dispatchAll a control now { x with cursor := x.cursor + 1 } rest
    | none => x

/-- Starts or settles steps until one has to wait. -/
def dispatch (a : Assignment β) (control : UnitControl β υ) (now : Timestamp) (x : Execution υ) : Execution υ :=
  x.dispatchAll a control now (x.aggregator.steps.drop x.cursor)

/-- Takes a finished unit out of flight. -/
def retire (a : Assignment β) (control : UnitControl β υ) (f : InFlight υ) (c : Completion) (now : Timestamp)
    (x : Execution υ) : Execution υ :=
  let x := { x with inFlight := x.inFlight.filter (·.seq ≠ f.seq) }
  (x.advance f.seq .classifying).settle a control f.seq f.node f.barrier c now

/-- The state with what is in flight for a step changed. -/
def replace (x : Execution υ) (seq : Nat) (unit : υ) : Execution υ :=
  { x with inFlight := x.inFlight.map fun f => if f.seq = seq then { f with unit } else f }

/-- Looks at the unit in flight for a step: what it has become, and its completion if it is finished. -/
def inspect (a : Assignment β) (control : UnitControl β υ) (look : InFlight υ → υ × Option Completion)
    (now : Timestamp) (x : Execution υ) (seq : Nat) : Execution υ :=
  match x.inFlight.find? (·.seq = seq) with
  | none => x
  | some f =>
    match look f with
    | (unit, none) => x.replace seq unit
    | (_, some c) => x.retire a control f c now

/-- Looks at every unit in flight, in the order in which they were started. -/
def collect (a : Assignment β) (control : UnitControl β υ) (look : InFlight υ → υ × Option Completion)
    (now : Timestamp) (x : Execution υ) : Execution υ :=
  (x.inFlight.map (·.seq)).foldl (inspect a control look now) x

end Execution

end TestIsolation
