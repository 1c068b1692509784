import TestIsolation.Unit.Thread

/-!
# Assertions

An `Act` is something a test does: it changes the thread and either goes on, unwinds, or ends the process. Checks
record a failure and go on; fatal ones record it and unwind out of the phase. Where no unit is active there is no
channel, and every failure is a panic.
-/

namespace TestIsolation

set_option autoImplicit false

/-- What unwinds out of a frame. -/
inductive Unwinding where
  /-- A fatal failure that is on record. -/
  | failed
  /-- A skip that is on record. -/
  | skipped
  /-- A panic, with its message if it has a text. -/
  | panicked (message : Option String)
  deriving DecidableEq, Repr

/-- How a process ends by itself, if it does. -/
inductive Ending where
  | exited (code : Int)
  | signaled (signal : Int)
  | hangs
  deriving DecidableEq, Repr

/-- Where a thread goes after an act. -/
inductive Flow where
  | normal
  | unwinding (cause : Unwinding)
  | ended (ending : Ending)
  deriving DecidableEq, Repr

/-- How a frame ended for the one who catches its unwinding. The end of the process cannot be caught. -/
def Flow.caughtEnd? : Flow → Option CaughtEnd
  | normal => some .completed
  | unwinding (.panicked (some message)) => some (.panicked message)
  | unwinding _ => some .aborted
  | ended _ => none

/-- Something a test does. -/
abbrev Act := Thread → Thread × Flow

namespace Act

/-- Nothing. -/
def done : Act := fun t => (t, .normal)

/-- One act and then, if it goes on normally, another. -/
def andThen (first second : Act) : Act := fun t =>
  match first t with
  | (t, .normal) => second t
  | stopped => stopped

/-- A change of the thread. -/
def change (f : Thread → Thread) : Act := fun t => (f t, .normal)

/-- A note. -/
def note (item : TraceItem) : Act := change (·.note item)

/-- Something put out. -/
def put (e : Emission) : Act := change (·.put e)

/-- The start of an unwinding. -/
def unwind (cause : Unwinding) : Act := fun t => (t, .unwinding cause)

/-- A panic with a text. -/
def panic (message : String) : Act := unwind (.panicked (some message))

/-- The end of the process. -/
def stop (ending : Ending) : Act := fun t => (t, .ended ending)

/-- Records a failure; without an active unit its text is a panic. -/
def report (f : Failure) : Act := fun t =>
  if t.isActive then (t.fail f, .normal) else panic f.render t

/-- Records a fatal failure without unwinding yet. -/
def recordFatal (expression message : String) (site : Site) : Act := report ⟨expression, site, message, true⟩

/-- Records a fatal failure and unwinds. -/
def fatal (expression message : String) (site : Site) : Act :=
  (recordFatal expression message site).andThen (unwind .failed)

/-- A check that only records a failure. -/
def check (cond : Bool) (expr : String) (site : Site) : Act :=
  if cond then done else report ⟨expr, site, "check failed", false⟩

/-- A check that ends the phase on a failure. -/
def ensure (cond : Bool) (expr : String) (site : Site) : Act :=
  if cond then done else fatal expr "ensure failed" site

/-- The operand of a constraint, with its source text where that says more than its value. -/
def operandText (c : Constraint) : String :=
  match c.expr with
  | some expr => if expr = c.condition.operand then expr else expr ++ " (" ++ c.condition.operand ++ ")"
  | none => c.condition.operand

/-- A comparison. A failure is fatal if asked for, and a comparison that makes no sense always is. What follows is
told whether the comparison held. -/
def compare (actual : Value) (expr : String) (c : Constraint) (site : Site) (fatalIfUnmet : Bool)
    (next : Bool → Act) : Act :=
  let expected := operandText c
  let predicate := c.condition.predicate.name
  let expression := expr ++ " " ++ predicate ++ " " ++ expected
  match c.evaluate actual with
  | .ok true => next true
  | .ok false =>
    let message := "`" ++ expr ++ "` expected " ++ predicate ++ " " ++ expected ++ ", found " ++ actual.render
    if fatalIfUnmet then fatal expression message site
    else (report ⟨expression, site, message, false⟩).andThen (next false)
  | .error e => fatal expression ("invalid comparison: " ++ e.message) site

/-- An explicit failure. -/
def failWith (reason : Option String) (site : Site) : Act :=
  let message := match reason with
    | some reason => "explicit fail requested: " ++ reason
    | none => "explicit fail requested"
  fatal "" message site

/-- An explicit skip. -/
def skipWith (reason : Option String) (site : Site) : Act := fun t =>
  if t.isActive then (t.skip ⟨reason, site⟩, .unwinding .skipped)
  else panic ("skip requested outside of an isolated unit: " ++ reason.getD "no reason given") t

end Act

end TestIsolation
