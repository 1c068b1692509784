import TestIsolation.Run.Tree

/-!
# Aggregation of completions

Completions may be delivered in any order. The `Aggregator` keeps the first one of every step and applies it when all
earlier steps have been applied, so the run tree and the events depend on what was delivered, not on when.
-/

namespace TestIsolation

set_option autoImplicit false

/-- The outcome of one unit. -/
structure Completion where
  status : Status
  reason : Option String := none
  failures : List Failure := []
  phase : Option Phase := none
  exit : Option ExitCondition := none
  console : String := ""
  startedAt : Timestamp
  endedAt : Timestamp
  deriving DecidableEq, Repr

/-- The completion of a unit that never ran. -/
def Completion.notRun (status : Status) (reason : String) (now : Timestamp) : Completion :=
  { status, reason := some reason, startedAt := now, endedAt := now }

/-- What can happen to a run that observers are told of. -/
inductive EventKind where
  | suiteStarted
  | testFinished
  | suiteFinished
  deriving DecidableEq, Repr

/-- What observers are told, in the order of the traversal: what happened, the run as it then stands, and when. -/
structure Event where
  kind : EventKind
  run : Run
  time : Timestamp
  deriving DecidableEq, Repr

/-- What a suite's fixture unit adds to the suite's status: at least a failure unless it was a success. -/
def Status.fixtureContribution (s : Status) : Status := if s.isSuccess then .passed else s.worst .failed

namespace Run

/-- The note on a fixture that did not pass. -/
def fixtureNote (fixture : String) (c : Completion) : String :=
  match c.reason with
  | some reason => fixture ++ " " ++ c.status.name ++ ": " ++ reason
  | none => fixture ++ " " ++ c.status.name

/-- What a unit's completion adds to a suite's run. -/
def extend (r : Run) (c : Completion) : Run :=
  { r with failures := r.failures ++ c.failures, console := r.console ++ c.console }

/-- A suite's run once its setup, if it has one, is done. -/
def entered (r : Run) (setup : Option Completion) (now : Timestamp) : Run :=
  match setup with
  | none => { r with status := .running, startedAt := some now }
  | some c =>
    let reason := if c.status = .passed then r.reason else some (fixtureNote "setup" c)
    { r.extend c with
      status := .running, startedAt := some c.startedAt, reason := reason, phase := c.phase, exit := c.exit }

/-- A test's run once it is done. -/
def settled (r : Run) (c : Completion) : Run :=
  { r with
    status := c.status, reason := c.reason, failures := c.failures, phase := c.phase, exit := c.exit,
    console := c.console, startedAt := some c.startedAt, endedAt := some c.endedAt }

/-- A suite's reason once its teardown is done. -/
def teardownReason (before : Option String) (c : Completion) : Option String :=
  if c.status.isSuccess then before
  else
    let note := fixtureNote "teardown" c
    some (match before with
      | some reason => reason ++ "; " ++ note
      | none => note)

/-- A suite's run once its teardown, if it has one, is done. -/
def left (r : Run) (teardown : Option Completion) (children setup : Status) (now : Timestamp) : Run :=
  let r' : Run :=
    match teardown with
    | none => { r with status := children.worst setup, endedAt := some now }
    | some c =>
      { r.extend c with
        status := children.worst (setup.worst c.status.fixtureContribution), endedAt := some c.endedAt,
        reason := teardownReason r.reason c, phase := c.phase <|> r.phase, exit := c.exit <|> r.exit }
  if r'.reason.isNone && !children.isSuccess then
    { r' with reason := some ("descendants " ++ children.name) }
  else r'

end Run

/-- The runs of one invocation, with the completions delivered so far. -/
structure Aggregator where
  steps : List Step
  tree : RunTree
  /-- What the setup of each suite adds to its status. -/
  setups : List Status
  /-- The first completion delivered for each step. -/
  delivered : List (Option (Option Completion))
  /-- The number of steps applied. -/
  applied : Nat := 0
  /-- What the observers were told, newest first. -/
  told : List Event := []

namespace Aggregator

/-- The aggregator of an outline before anything was delivered. -/
def new {β : Type} (o : Outline β) : Aggregator :=
  { steps := o.steps, tree := .new o, setups := o.nodes.map fun _ => .passed, delivered := o.steps.map fun _ => none }

/-- What the observers were told, in order. -/
def events (a : Aggregator) : List Event := a.told.reverse

/-- Every step has been applied. -/
def isComplete (a : Aggregator) : Bool := a.applied = a.steps.length

/-- Tells the observers about the run of a node. -/
def tell (a : Aggregator) (kind : EventKind) (node : Nat) (now : Timestamp) : Aggregator :=
  { a with told := ((a.tree.run? node).map fun run => ⟨kind, run, now⟩).toList ++ a.told }

/-- The tree and the events after one more step. -/
def apply (a : Aggregator) (step : Step) (c : Option Completion) (now : Timestamp) : Aggregator :=
  match step with
  | .enter node =>
    let setups := match c with
      | some c => a.setups.set node c.status.fixtureContribution
      | none => a.setups
    { a with setups := setups, tree := a.tree.modify node (·.entered c now) }.tell .suiteStarted node now
  | .leaf node =>
    let c := c.getD (.notRun .terminated "no completion delivered" now)
    { a with tree := a.tree.modify node (·.settled c) }.tell .testFinished node now
  | .exit node =>
    let children := Status.fold ((a.tree.childrenOf node).filterMap fun child => (a.tree.run? child).map (·.status))
    let setup := (a.setups[node]?).getD .passed
    { a with tree := a.tree.modify node (·.left c children setup now) }.tell .suiteFinished node now

/-- Applies the steps that are next in turn and whose completions are there. -/
def drain (a : Aggregator) (now : Timestamp) : Nat → Aggregator
  | 0 => a
  | fuel + 1 =>
    match a.steps[a.applied]?, a.delivered[a.applied]? with
    | some step, some (some c) => drain { a.apply step c now with applied := a.applied + 1 } now fuel
    | _, _ => a

/-- Delivers the completion of a step. Only the first one of a step that the traversal has counts. -/
def submit (a : Aggregator) (seq : Nat) (c : Option Completion) (now : Timestamp) : Aggregator :=
  match a.delivered[seq]? with
  | some none => { a with delivered := a.delivered.set seq (some c) }.drain now (a.steps.length - a.applied)
  | _ => a

end Aggregator

end TestIsolation
