import Mathlib.Logic.Relation
import Mathlib.Tactic.Common
import TestIsolation.Proofs.Run.Replay
import TestIsolation.Proofs.Suite.Traversal
import TestIsolation.Schedule.Execution

/-!
# The moves of a run

Whatever happens in a round of a run is a chain of single moves (`Move`): the run is told to stop, a step is settled or
its unit started, a unit is looked at or taken out of flight. What holds at the start and is kept by every move holds
throughout a run. Which units may start, how they may end and whether the run may be told to stop is left to a
`Conduct`.
-/

namespace TestIsolation

set_option autoImplicit false

/-- What may happen to a run. -/
structure Conduct (υ : Type) where
  /-- Starting the unit of a step may come to this. -/
  mayStart : Nat → Except StartError υ → Prop
  /-- A unit in flight may complete so. -/
  mayEnd : InFlight υ → Completion → Prop
  /-- The run may be told to stop. -/
  mayStop : Prop

/-- What becomes of a step of a run that is not given up. -/
inductive Decision (β : Type) where
  /-- It is settled without a unit; a test is skipped for a reason. -/
  | pass (reason : Option String)
  | launch (n : Node β) (plan : UnitPlan β) (barrier : Bool)

namespace Assignment

variable {β : Type}

/-- The nearest suite at or above a node that is blocked says why the node may not run. -/
def blockageIn (blocked : List (Option Blockage)) (n : Node β) : Option Blockage :=
  n.lineage.findSome? fun index => (blocked[index]?).join

/-- What becomes of a step, once it need not wait. -/
def decision (a : Assignment β) (blocked : List (Option Blockage)) (step : Step) (n : Node β) : Decision β :=
  match step with
  | .leaf _ =>
    match blockageIn blocked n with
    | some blockage => .pass (some blockage.reason)
    | none => if a.selects n then .launch n (a.testPlan n) false else .pass (some filteredReason)
  | .enter _ | .exit _ =>
    match fixturePlan? n step with
    | some plan => if (blockageIn blocked n).isNone && a.selects n then .launch n plan true else .pass none
    | none => .pass none

/-- A decision to start a unit is about the node of the step, and tells a fixture from a test. -/
theorem decision_eq_launch {a : Assignment β} {blocked : List (Option Blockage)} {step : Step} {n n' : Node β}
    {plan : UnitPlan β} {barrier : Bool} (decided : a.decision blocked step n = .launch n' plan barrier) :
    n' = n ∧ barrier = step.isSuite := by
  cases step with
  | leaf node =>
    simp only [decision] at decided
    split at decided
    · cases decided
    · split at decided
      · cases decided
        exact ⟨rfl, rfl⟩
      · cases decided
  | enter node | exit node =>
    simp only [decision] at decided
    split at decided
    · split at decided
      · cases decided
        exact ⟨rfl, rfl⟩
      · cases decided
    · cases decided

end Assignment

/-- What a step is settled with that is decided without a unit. -/
def skipped (reason : Option String) (now : Timestamp) : Option Completion := reason.map fun r => .notRun .skipped r now

/-- What a unit that could not be started came to. -/
def StartError.completion (e : StartError) (now : Timestamp) : Completion :=
  .notRun .crashed ("could not start unit: " ++ e.message) now

/-- What a step is settled with in a run that is given up. -/
def Halt.completion (halt : Halt) (step : Step) (now : Timestamp) : Option Completion :=
  match step with
  | .leaf _ => some (.notRun .terminated halt.reason now)
  | .enter _ | .exit _ => none

/-- A unit in flight, apart from the unit itself. -/
structure Flight where
  seq : Nat
  node : Nat
  barrier : Bool
  deriving DecidableEq

/-- What is known of a unit in flight apart from the unit itself. -/
def InFlight.flight {υ : Type} (f : InFlight υ) : Flight := ⟨f.seq, f.node, f.barrier⟩

namespace Execution

variable {β υ : Type} {a : Assignment β} {rules : Conduct υ}

/-- One move of a run. -/
inductive Move (a : Assignment β) (rules : Conduct υ) (x : Execution υ) : Execution υ → Prop where
  /-- The run is told to stop. -/
  | interrupt (control : UnitControl β υ) (running : x.halt = none) (told : rules.mayStop) :
      Move a rules x (x.haltFor control .interrupted)
  /-- The next step of a run that is given up is settled. -/
  | giveUp {step : Step} {halt : Halt} (due : x.aggregator.steps[x.cursor]? = some step)
      (free : x.inFlight.any (·.barrier) = false) (halted : x.halt = some halt) (now : Timestamp) :
      Move a rules x { x.report x.cursor (halt.completion step now) now with cursor := x.cursor + 1 }
  /-- The next step is settled without a unit. -/
  | pass {step : Step} {n : Node β} {reason : Option String} (due : x.aggregator.steps[x.cursor]? = some step)
      (free : x.inFlight.any (·.barrier) = false) (running : x.halt = none)
      (found : a.outline.node? step.node = some n) (decided : a.decision x.blocked step n = .pass reason)
      (now : Timestamp) :
      Move a rules x { x.report x.cursor (skipped reason now) now with cursor := x.cursor + 1 }
  /-- The unit of the next step is started, or is not to be started. -/
  | launch {step : Step} {n n' : Node β} {plan : UnitPlan β} {barrier : Bool} {control : UnitControl β υ}
      (due : x.aggregator.steps[x.cursor]? = some step) (free : x.inFlight.any (·.barrier) = false)
      (running : x.halt = none) (found : a.outline.node? step.node = some n)
      (decided : a.decision x.blocked step n = .launch n' plan barrier)
      (alone : barrier = true → x.inFlight = [])
      (room : barrier = false → x.inFlight.length < a.settings.effectiveJobs)
      (start : rules.mayStart x.cursor (control.start x.cursor plan (a.limit? n'))) (now : Timestamp) :
      Move a rules x { x.launch a control x.cursor n' plan barrier now with cursor := x.cursor + 1 }
  /-- A unit that has ended is taken out of flight. -/
  | finish {f : InFlight υ} {c : Completion} (flying : f ∈ x.inFlight) (control : UnitControl β υ)
      (ends : rules.mayEnd f c) (now : Timestamp) : Move a rules x (x.retire a control f c now)
  /-- A unit is looked at and has not ended. -/
  | update (seq : Nat) (unit : υ) : Move a rules x (x.replace seq unit)

/-- Any number of moves. -/
abbrev Moves (a : Assignment β) (rules : Conduct υ) : Execution υ → Execution υ → Prop :=
  Relation.ReflTransGen (Move a rules)

/-- What a run can come to. -/
abbrev Reachable (a : Assignment β) (rules : Conduct υ) (x : Execution υ) : Prop := Moves a rules (.new a) x

/-! ## What the operations change -/

section Fields

variable (x : Execution υ)

@[simp] theorem aggregator_report (seq : Nat) (c : Option Completion) (now : Timestamp) :
    (x.report seq c now).aggregator = x.aggregator.submit seq c now := rfl

@[simp] theorem states_report (seq : Nat) (c : Option Completion) (now : Timestamp) :
    (x.report seq c now).states = x.states.set seq .reported := rfl

@[simp] theorem blocked_report (seq : Nat) (c : Option Completion) (now : Timestamp) :
    (x.report seq c now).blocked = x.blocked := rfl

@[simp] theorem inFlight_report (seq : Nat) (c : Option Completion) (now : Timestamp) :
    (x.report seq c now).inFlight = x.inFlight := rfl

@[simp] theorem cursor_report (seq : Nat) (c : Option Completion) (now : Timestamp) :
    (x.report seq c now).cursor = x.cursor := rfl

@[simp] theorem halt_report (seq : Nat) (c : Option Completion) (now : Timestamp) :
    (x.report seq c now).halt = x.halt := rfl

@[simp] theorem changes_report (seq : Nat) (c : Option Completion) (now : Timestamp) :
    (x.report seq c now).changes = ⟨seq, (x.states[seq]?).getD .idle, .reported⟩ :: x.changes := rfl

/-- The table of blocked suites once the unit of a step has ended. -/
def blockedAfter (blocked : List (Option Blockage)) (step : Option Step) (node : Nat) (barrier : Bool) (s : Status) :
    List (Option Blockage) :=
  match barrier, step, blockageOf s with
  | true, some (.enter _), some blockage => blocked.set node (some blockage)
  | _, _, _ => blocked

theorem blockFor_eq (seq node : Nat) (barrier : Bool) (s : Status) :
    x.blockFor seq node barrier s =
      { x with blocked := blockedAfter x.blocked x.aggregator.steps[seq]? node barrier s } := by
  unfold blockFor blockedAfter
  split <;> simp_all

/-- What is in flight, apart from the units themselves. -/
def flights (x : Execution υ) : List Flight := x.inFlight.map InFlight.flight

@[simp] theorem flights_report (seq : Nat) (c : Option Completion) (now : Timestamp) :
    (x.report seq c now).flights = x.flights := rfl

@[simp] theorem flights_haltFor (control : UnitControl β υ) (halt : Halt) :
    (x.haltFor control halt).flights = x.flights := by
  simp [flights, haltFor, Function.comp_def, InFlight.flight]

@[simp] theorem flights_replace (seq : Nat) (unit : υ) : (x.replace seq unit).flights = x.flights := by
  simp only [flights, replace, List.map_map]
  refine List.map_congr_left fun f _ => ?_
  simp only [Function.comp_apply, InFlight.flight]
  split <;> rfl

theorem mem_flights {f : InFlight υ} (flying : f ∈ x.inFlight) : f.flight ∈ x.flights := List.mem_map_of_mem flying

theorem flights_eq_nil : x.flights = [] ↔ x.inFlight = [] := List.map_eq_nil_iff

/-! A unit that has ended is reported, and may be the reason to give the run up. -/

variable (control : UnitControl β υ) (seq node : Nat) (barrier : Bool) (c : Completion) (now : Timestamp)

theorem settle_eq :
    x.settle a control seq node barrier c now =
      if c.status = .terminated ∧ x.halt.isNone ∧ a.settings.stopOnTerminated then
        (({ x with blocked := blockedAfter x.blocked x.aggregator.steps[seq]? node barrier c.status } :
          Execution υ).report seq (some c) now).haltFor control .abandoned
      else
        ({ x with blocked := blockedAfter x.blocked x.aggregator.steps[seq]? node barrier c.status } :
          Execution υ).report seq (some c) now := by
  simp only [settle, blockFor_eq, halt_report]

/-- A unit's end that is no reason to give the run up. -/
theorem settle_of_calm (calm : ¬(c.status = .terminated ∧ x.halt.isNone ∧ a.settings.stopOnTerminated)) :
    x.settle a control seq node barrier c now =
      ({ x with blocked := blockedAfter x.blocked x.aggregator.steps[seq]? node barrier c.status } :
        Execution υ).report seq (some c) now := by
  rw [settle_eq, if_neg calm]

@[simp] theorem aggregator_settle :
    (x.settle a control seq node barrier c now).aggregator = x.aggregator.submit seq (some c) now := by
  rw [settle_eq]
  split <;> rfl

@[simp] theorem states_settle : (x.settle a control seq node barrier c now).states = x.states.set seq .reported := by
  rw [settle_eq]
  split <;> rfl

@[simp] theorem blocked_settle :
    (x.settle a control seq node barrier c now).blocked =
      blockedAfter x.blocked x.aggregator.steps[seq]? node barrier c.status := by
  rw [settle_eq]
  split <;> rfl

@[simp] theorem flights_settle : (x.settle a control seq node barrier c now).flights = x.flights := by
  rw [settle_eq]
  split
  · rw [flights_haltFor]
    rfl
  · rfl

@[simp] theorem cursor_settle : (x.settle a control seq node barrier c now).cursor = x.cursor := by
  rw [settle_eq]
  split <;> rfl

@[simp] theorem changes_settle :
    (x.settle a control seq node barrier c now).changes =
      ⟨seq, (x.states[seq]?).getD .idle, .reported⟩ :: x.changes := by
  rw [settle_eq]
  split <;> rfl

theorem halt_settle :
    (x.settle a control seq node barrier c now).halt =
      if c.status = .terminated ∧ x.halt.isNone ∧ a.settings.stopOnTerminated then some .abandoned else x.halt := by
  rw [settle_eq]
  split <;> rfl

end Fields

/-! ## Starting and finishing units -/

section Units

variable {x : Execution υ} {seq : Nat} {n : Node β} {plan : UnitPlan β} {control : UnitControl β υ}

/-- A unit that was started is in flight. -/
theorem launch_of_ok {unit : υ} (started : control.start seq plan (a.limit? n) = .ok unit) (barrier : Bool)
    (now : Timestamp) :
    x.launch a control seq n plan barrier now =
      { x with
        states := x.states.set seq .awaitingCompletion
        inFlight := x.inFlight ++ [⟨seq, n.index, barrier, unit⟩]
        changes := ⟨seq, ((x.states.set seq .spawning)[seq]?).getD .idle, .awaitingCompletion⟩ ::
          ⟨seq, (x.states[seq]?).getD .idle, .spawning⟩ :: x.changes } := by
  simp [launch, started, advance]

/-- A unit that could not be started is settled at once. -/
theorem launch_of_error {e : StartError} (failed : control.start seq plan (a.limit? n) = .error e) (barrier : Bool)
    (now : Timestamp) :
    x.launch a control seq n plan barrier now =
      ({ x with
        states := x.states.set seq .classifying
        changes := ⟨seq, ((x.states.set seq .spawning)[seq]?).getD .idle, .classifying⟩ ::
          ⟨seq, (x.states[seq]?).getD .idle, .spawning⟩ :: x.changes } : Execution υ).settle
        a control seq n.index barrier (StartError.completion e now) now := by
  simp [launch, failed, advance, StartError.completion]

/-- A unit that has ended is settled and no longer in flight. -/
theorem retire_eq (f : InFlight υ) (c : Completion) (now : Timestamp) :
    x.retire a control f c now =
      ({ x with
        inFlight := x.inFlight.filter (·.seq ≠ f.seq)
        states := x.states.set f.seq .classifying
        changes := ⟨f.seq, (x.states[f.seq]?).getD .idle, .classifying⟩ :: x.changes } : Execution υ).settle
        a control f.seq f.node f.barrier c now := rfl

theorem cursor_retire (f : InFlight υ) (c : Completion) (now : Timestamp) :
    (x.retire a control f c now).cursor = x.cursor := by
  rw [retire_eq, cursor_settle]

theorem cursor_launch (barrier : Bool) (now : Timestamp) :
    (x.launch a control seq n plan barrier now).cursor = x.cursor := by
  cases started : control.start seq plan (a.limit? n) with
  | ok unit => rw [launch_of_ok started]
  | error e => rw [launch_of_error started, cursor_settle]

theorem steps_launch (barrier : Bool) (now : Timestamp) :
    (x.launch a control seq n plan barrier now).aggregator.steps = x.aggregator.steps := by
  cases started : control.start seq plan (a.limit? n) with
  | ok unit => rw [launch_of_ok started]
  | error e => rw [launch_of_error started, aggregator_settle, Aggregator.steps_submit]

theorem flights_filter (x : Execution υ) (seq : Nat) :
    ({ x with inFlight := x.inFlight.filter (·.seq ≠ seq) } : Execution υ).flights =
      x.flights.filter (·.seq ≠ seq) := by
  simp only [flights, List.filter_map]
  rfl

end Units

end Execution

end TestIsolation
