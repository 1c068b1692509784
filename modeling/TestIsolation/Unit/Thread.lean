import TestIsolation.Mock.Queue
import TestIsolation.Outcome.Frame

/-!
# The thread of a unit

A unit runs on one thread. Its state is a `Thread`: the context of the unit that is active, if one is, the mock calls
that are open, and what the thread has put out so far. Installing a unit replaces the context, and its end removes
it, so after a unit inside a unit none is active.
-/

namespace TestIsolation

set_option autoImplicit false

/-- Something that a thread puts out. -/
inductive Emission where
  /-- Bytes that the outcome channel of a unit accepted; units are numbered in the order they were installed. -/
  | outcome (unit : Nat) (bytes : Bytes)
  /-- The outcome channel of a unit is closed. -/
  | closed (unit : Nat)
  /-- Bytes printed. -/
  | console (bytes : Bytes)
  /-- A pause. -/
  | pause (millis : Nat)
  deriving DecidableEq, Repr

/-- The state of an active unit. -/
structure UnitContext where
  /-- The number of the unit. -/
  unit : Nat
  /-- When the unit's channel breaks. -/
  fault : SinkFault := .never
  /-- The channel broke, and nothing is written any more. -/
  broken : Bool := false
  queue : ExpectQueue := {}
  /-- How many failures were recorded. -/
  failures : Nat := 0
  /-- A skip was requested. -/
  skipped : Bool := false
  deriving DecidableEq, Repr

/-- The verdict of a unit: a failure outweighs a skip. -/
def UnitContext.verdict (c : UnitContext) : Verdict :=
  if c.failures > 0 then .fail else if c.skipped then .skip else .pass

/-- A mock call in progress. -/
structure MockCall where
  entry : Expectation
  site : Site
  /-- A parameter was wrong; the phase ends when the call is completed. -/
  deferred : Bool := false
  deriving DecidableEq, Repr

/-- How a frame of actions ended for the one who catches its unwinding. -/
inductive CaughtEnd where
  | completed
  | aborted
  | panicked (message : String)
  deriving DecidableEq, Repr

/-- What a finished unit leaves. -/
structure UnitReport where
  verdict : Verdict
  /-- What its outcome channel accepted. -/
  bytes : Bytes
  /-- Whether a unit is active after it. -/
  activeAfter : Bool
  deriving DecidableEq, Repr

/-- What a script notes while it runs. -/
inductive TraceItem where
  | note (text : String)
  | active (active : Bool)
  | checked (held : Bool)
  | compared (held : Bool)
  | intercepted (symbol : String)
  | returned (value : Converted)
  | caught (ending : CaughtEnd)
  | nested (report : UnitReport)
  deriving DecidableEq, Repr

/-- The state of a thread. -/
structure Thread where
  context : Option UnitContext := none
  /-- The open mock calls of the current frame, in the order they were intercepted. -/
  calls : List (String × MockCall) := []
  /-- What was put out, newest first. -/
  emissions : List Emission := []
  /-- What was noted, newest first. -/
  notes : List TraceItem := []
  /-- How many units were installed. -/
  installed : Nat := 0
  /-- The file and line that panics are seen to come from, if they are recorded. -/
  panicSite : Option (String × UInt32) := none
  deriving DecidableEq, Repr

namespace Thread

/-- Whether a unit is active. -/
def isActive (t : Thread) : Bool := t.context.isSome

/-- The thread with one more note. -/
def note (t : Thread) (item : TraceItem) : Thread := { t with notes := item :: t.notes }

/-- What was noted, in order. -/
def trace (t : Thread) : List TraceItem := t.notes.reverse

/-- What was put out, in order. -/
def output (t : Thread) : List Emission := t.emissions.reverse

/-- The bytes that the outcome channel of a unit accepted. -/
def bytesOf (t : Thread) (unit : Nat) : Bytes :=
  t.output.flatMap fun
    | .outcome u bytes => if u = unit then bytes else []
    | _ => []

/-- The thread with more output. -/
def put (t : Thread) (e : Emission) : Thread := { t with emissions := e :: t.emissions }

/-- Writes the frame of a record to the active unit's channel. -/
def write (t : Thread) (c : UnitContext) (r : Record) : Thread × Except ChannelError Unit :=
  let (sink, result) := r.writeTo { fault := c.fault }
  let t := sink.accepted.foldl (fun (t : Thread) bytes => t.put (.outcome c.unit bytes)) t
  let isBroken : Bool := match result with
    | .error (.io _) => true
    | _ => false
  ({ t with context := some { c with fault := sink.fault, broken := c.broken || isBroken } }, result)

/-- Sends a record, in shortened form if it is too large. Nothing is sent on a channel that broke. -/
def emit (t : Thread) (r : Record) : Thread :=
  match t.context with
  | none => t
  | some c =>
    if c.broken then t
    else
      match t.write c r with
      | (t, .error (.oversized length)) =>
        match t.context, r.shortened length with
        | some c, some short => (t.write c short).1
        | _, _ => t
      | (t, _) => t

/-- The thread with the active unit's state changed. -/
def modifyContext (t : Thread) (f : UnitContext → UnitContext) : Thread := { t with context := t.context.map f }

/-- Records a failure of the active unit. -/
def fail (t : Thread) (f : Failure) : Thread :=
  (t.modifyContext fun c => { c with failures := c.failures + 1 }).emit (.failure f)

/-- Records a skip of the active unit. -/
def skip (t : Thread) (notice : SkipNotice) : Thread :=
  (t.modifyContext fun c => { c with skipped := true }).emit (.skip notice)

/-- Removes the active unit, if there is one, which closes its channel. -/
def uninstall (t : Thread) : Thread :=
  match t.context with
  | some c => { t.put (.closed c.unit) with context := none }
  | none => t

/-- Makes a new unit active, in place of any other. -/
def install (t : Thread) (fault : SinkFault) : Thread :=
  { t.uninstall with context := some { unit := t.installed, fault }, installed := t.installed + 1 }

/-- Sends raw bytes on the channel of the thread's first unit. Nothing is sent once that is closed. -/
def sendRaw (t : Thread) (bytes : Bytes) : Thread :=
  if t.context.any (·.unit = 0) then t.put (.outcome 0 bytes) else t

end Thread

end TestIsolation
