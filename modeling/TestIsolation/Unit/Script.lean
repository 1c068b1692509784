import TestIsolation.Unit.Runner

/-!
# Scripts

A script is a list of `Action`s, the things that tests and fixtures do. `Action.act` is what an action does to the
thread of a unit.
-/

namespace TestIsolation

set_option autoImplicit false

/-- One thing that a test or a fixture does. -/
inductive Action where
  /-- Notes a text. -/
  | note (text : String)
  /-- Notes whether a unit is active. -/
  | noteActive
  | check (cond : Bool) (expr : String) (site : Site)
  | ensure (cond : Bool) (expr : String) (site : Site)
  | checkThat (actual : Value) (expr : String) (constraint : Constraint) (site : Site)
  | ensureThat (actual : Value) (expr : String) (constraint : Constraint) (site : Site)
  | fail (reason : Option String) (site : Site)
  | skip (reason : Option String) (site : Site)
  | panic (message : Option String)
  /-- Declares an expected call. -/
  | expect (expectation : Expectation) (site : Site)
  /-- Opens a mock call under a name. -/
  | intercept (symbol call : String) (site : Site)
  | parameter (call name : String) (actual : Value) (site : Site)
  | finish (call : String) (site : Site)
  | returnValue (call : String) (target : Target) (site : Site)
  | drop (call : String)
  /-- Actions in a frame of their own, whose unwinding is caught. -/
  | catching (actions : List Action)
  /-- A unit of its own, in place of the one that is active. -/
  | nested (setup body teardown : Option (List Action))
  | print (bytes : Bytes)
  | sleep (millis : Nat)
  | hang
  | exit (code : Int)
  /-- Sends the process a signal that it does not catch. -/
  | signal (number : Int)
  /-- Sends raw bytes on the process's outcome channel. -/
  | sendRaw (bytes : Bytes)

/-- The functions of a script. -/
abbrev Script := List Action

/-- The signals that stop a process. -/
def stoppingSignals : List Int := [19, 20, 21, 22]

/-- The signals that do nothing to a process. -/
def idleSignals : List Int := [17, 18, 23, 28]

/-- What a signal does that is not caught: most end the process, and one that is stopped never goes on. -/
def Act.receive (number : Int) : Act :=
  if number ∈ idleSignals ∨ number < 1 ∨ 64 < number then .done
  else if number ∈ stoppingSignals then .stop .hangs
  else .stop (.signaled number)

namespace Action

mutual

/-- What an action does. -/
def act : Action → Act
  | note text => .note (.note text)
  | noteActive => fun t => Act.note (.active t.isActive) t
  | check cond expr site => (Act.check cond expr site).andThen (.note (.checked cond))
  | ensure cond expr site => .ensure cond expr site
  | checkThat actual expr constraint site =>
    .compare actual expr constraint site false fun held => .note (.compared held)
  | ensureThat actual expr constraint site => .compare actual expr constraint site true fun _ => .done
  | fail reason site => .failWith reason site
  | skip reason site => .skipWith reason site
  | panic message => .unwind (.panicked message)
  | expect expectation site => .expectCall expectation site
  | intercept symbol call site => (Act.intercept symbol call site).andThen (.note (.intercepted symbol))
  | parameter call name actual site => .checkParameter call name actual site
  | finish call site => .finish call site
  | returnValue call target site => .returnValue call target site fun converted => .note (.returned converted)
  | drop call => .drop call
  | catching actions => .caught (actAll actions)
  | nested setup body teardown => .nested ⟨actOption setup, actOption body, actOption teardown⟩
  | print bytes => .put (.console bytes)
  | sleep millis => .put (.pause millis)
  | hang => .stop .hangs
  | exit code => .stop (.exited (code % 256))
  | signal number => .receive number
  | sendRaw bytes => .change (·.sendRaw bytes)

/-- What actions do in turn. -/
def actAll : List Action → Act
  | [] => .done
  | action :: rest => (act action).andThen (actAll rest)

/-- What a function that may be missing does. -/
def actOption : Option (List Action) → Option Act
  | none => none
  | some actions => some (actAll actions)

end

end Action

/-- The functions of a unit as acts. -/
def UnitPlan.acts (plan : UnitPlan Script) : UnitPlan Act :=
  ⟨plan.setup.map Action.actAll, plan.body.map Action.actAll, plan.teardown.map Action.actAll⟩

/-- A thread on which panics are seen to come from a place, or from nowhere. -/
def Thread.start (panicSite : Option (String × UInt32)) : Thread := { panicSite }

/-- What a script does where no unit is active. -/
def runDetached (script : Script) (t : Thread) : Thread × Flow := Act.framed (Action.actAll script) t

end TestIsolation
