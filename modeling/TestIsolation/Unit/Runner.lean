import TestIsolation.Unit.MockCall

/-!
# Running a unit

A unit runs its setup, its body and its teardown, each of which may be missing, and then sends its verdict. The body
and the teardown run only if the setup completed; the teardown runs however the body ended. Expected calls that are
left over count only if the body completed, and a skip has no place in a teardown.
-/

namespace TestIsolation

set_option autoImplicit false

/-- The functions of a unit. -/
structure UnitPlan (α : Type) where
  setup : Option α := none
  body : Option α := none
  teardown : Option α := none
  deriving DecidableEq, Repr

/-- How a phase ended. -/
inductive PhaseEnd where
  | completed
  | failed
  | skipped
  | ended (ending : Ending)
  deriving DecidableEq, Repr

/-- The failure that a panic counts as. -/
def panicFailure (phase : Phase) (message : Option String) (site : Option (String × UInt32)) : Failure :=
  let (file, line) := site.getD ("<unknown>", 0)
  { expression := "", site := ⟨file, line, ""⟩, fatal := true
    message := "panicked during " ++ phase.name ++ ": " ++ message.getD "non-string panic payload" }

/-- Runs one phase. Panics out of it become failures. -/
def runPhase (phase : Phase) (act : Act) (t : Thread) : Thread × PhaseEnd :=
  match Act.framed act (t.emit (.phase phase)) with
  | (t, .normal) => (t, .completed)
  | (t, .unwinding .failed) => (t, .failed)
  | (t, .unwinding .skipped) => (t, .skipped)
  | (t, .unwinding (.panicked message)) =>
    (if t.isActive then t.fail (panicFailure phase message t.panicSite) else t, .failed)
  | (t, .ended e) => (t, .ended e)

/-- The failure of calls that were expected to the end. -/
def leftoverFailure (calls : List PendingCall) : Failure :=
  let (file, line) := match calls with
    | call :: _ => (call.file, call.line)
    | [] => ("", 0)
  { expression := "end of test", site := ⟨file, line, ""⟩, message := (MockViolation.notConsumed calls).message,
    fatal := true }

/-- Checks that no expected call is left. -/
def checkQueue (t : Thread) : Thread :=
  match t.context with
  | none => t
  | some c =>
    let (queue, result) := c.queue.endOfTest
    let t := { t with context := some { c with queue } }
    match result with
    | .error (.notConsumed calls) => t.fail (leftoverFailure calls)
    | _ => t

/-- The failure of a skip in the teardown. -/
def lateSkipFailure : Failure :=
  { expression := "", site := ⟨"", 0, ""⟩, message := "skip requested during teardown", fatal := true }

/-- The teardown of a unit: the thread after it, or how the process ended. -/
def runTeardown (teardown : Option Act) (t : Thread) : Thread × Option Ending :=
  match teardown with
  | none => (t, none)
  | some act =>
    match runPhase .teardown act t with
    | (t, .ended e) => (t, some e)
    | (t, .skipped) => (if t.isActive then t.fail lateSkipFailure else t, none)
    | (t, _) => (t, none)

/-- The body of a unit and what follows it. -/
def runBody (plan : UnitPlan Act) (t : Thread) : Thread × Option Ending :=
  match plan.body with
  | none => runTeardown plan.teardown t
  | some act =>
    match runPhase .exec act t with
    | (t, .ended e) => (t, some e)
    | (t, .completed) => runTeardown plan.teardown (checkQueue t)
    | (t, _) => runTeardown plan.teardown t

/-- All phases of a unit. -/
def runPhases (plan : UnitPlan Act) (t : Thread) : Thread × Option Ending :=
  match plan.setup with
  | none => runBody plan t
  | some act =>
    match runPhase .setup act t with
    | (t, .ended e) => (t, some e)
    | (t, .completed) => runBody plan t
    | (t, _) => (t, none)

/-- Sends the verdict and removes the unit. A unit that is no longer active has failed. -/
def finishUnit (unit : Nat) (t : Thread) : Thread × UnitReport :=
  let verdict := (t.context.map (·.verdict)).getD .fail
  let t := (t.emit (.terminal verdict)).uninstall
  (t, ⟨verdict, t.bytesOf unit, t.isActive⟩)

/-- Runs a unit whose channel breaks as given: what it leaves, or how the process ended in it. -/
def runUnit (plan : UnitPlan Act) (fault : SinkFault) (t : Thread) : Thread × Except Ending UnitReport :=
  let unit := t.installed
  match runPhases plan (t.install fault) with
  | (t, some e) => (t, .error e)
  | (t, none) =>
    let (t, report) := finishUnit unit t
    (t, .ok report)

/-- A unit inside of what a test does. -/
def Act.nested (plan : UnitPlan Act) : Act := fun t =>
  match runUnit plan .never t with
  | (t, .ok report) => (t.note (.nested report), .normal)
  | (t, .error e) => (t, .ended e)

end TestIsolation
