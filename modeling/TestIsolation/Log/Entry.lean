import TestIsolation.Json.Reader
import TestIsolation.Outcome.Record
import TestIsolation.Run.Status
import TestIsolation.Time.Calendar

/-!
# Entries of the run log

The run log is a text of one JSON object per line. A `LogEntry` is one of them: `LogEntry.line` writes it, and
`LogEntry.ofJson?` reads it from an object whose member names occur once.
-/

namespace TestIsolation

set_option autoImplicit false

/-- The severity of a log entry. -/
inductive LogLevel where
  | trace
  | debug
  | info
  | warn
  | error
  | fatal
  deriving DecidableEq, Repr

namespace LogLevel

/-- The name of a level. -/
def name : LogLevel → String
  | trace => "trace"
  | debug => "debug"
  | info => "info"
  | warn => "warn"
  | error => "error"
  | fatal => "fatal"

/-- All levels, the least severe first. -/
def all : List LogLevel := [trace, debug, info, warn, error, fatal]

/-- The level with a name. -/
def ofName? (name : String) : Option LogLevel := all.find? (·.name = name)

/-- The level at which a run of a status is logged. -/
def ofStatus : Status → LogLevel
  | .passed | .pending | .running => info
  | .skipped => warn
  | .failed | .terminated => error
  | .crashed | .timedOut | .aborted => fatal

end LogLevel

/-- One line of the run log. -/
structure LogEntry where
  timestamp : String
  traceId : String
  level : LogLevel
  event : String
  path : Option String := none
  status : Option Status := none
  phase : Option Phase := none
  signal : Option String := none
  exitCode : Option Int := none
  durationMillis : Option Nat := none
  failures : Option (List String) := none
  details : Option JsonValue := none
  deriving Repr

namespace LogEntry

/-- A member that is left out where it has no value. -/
def optionalMember {α : Type} (name : String) (toJson : α → JsonValue) (value : Option α) :
    List (String × JsonValue) :=
  (value.map fun v => (name, toJson v)).toList

/-- The members of an entry in its JSON form. -/
def members (e : LogEntry) : List (String × JsonValue) :=
  [("timestamp", .string e.timestamp), ("trace_id", .string e.traceId), ("level", .string e.level.name),
      ("event", .string e.event)]
    ++ optionalMember "path" .string e.path
    ++ optionalMember "status" (fun s => .string (Status.name s)) e.status
    ++ optionalMember "phase" (fun p => .string (Phase.name p)) e.phase
    ++ optionalMember "signal" .string e.signal
    ++ optionalMember "exit_code" .integer e.exitCode
    ++ optionalMember "duration_ms" (fun n => .integer (Int.ofNat n)) e.durationMillis
    ++ optionalMember "failures" (fun texts => .array (texts.map .string)) e.failures
    ++ optionalMember "details" JsonValue.canonical e.details

/-- The JSON form of an entry. -/
def toJson (e : LogEntry) : JsonValue := .object e.members

/-- The line of an entry, without its end. -/
def line (e : LogEntry) : String := e.toJson.render

end LogEntry

namespace JsonValue

/-- The name of a choice in canonical JSON: a string, or an object with that name alone and null. -/
def choiceName? : JsonValue → Option String
  | string name => some name
  | object [(name, null)] => some name
  | _ => none

/-- A signed 32-bit integer. -/
def int32? : JsonValue → Option Int
  | number (.integer n) => if Int32.minValue.toInt ≤ n ∧ n ≤ Int32.maxValue.toInt then some n else none
  | _ => none

/-- An integer that is not negative. -/
def natural? : JsonValue → Option Nat
  | number (.integer n) => if 0 ≤ n then some n.toNat else none
  | _ => none

/-- Strings in a list. -/
def strings? : JsonValue → Option (List String)
  | array items => items.mapM string?
  | _ => none

/-- A member that may be missing or null, and otherwise has to be readable. -/
def optional? {α : Type} (v : JsonValue) (name : String) (read : JsonValue → Option α) : Option (Option α) :=
  match v.member? name with
  | none => some none
  | some null => some none
  | some w => (read w).map some

end JsonValue

/-- The entry in a canonical object; members that mean nothing here are ignored. -/
def LogEntry.ofJson? (v : JsonValue) : Option LogEntry := do
  return {
    timestamp := ← (← v.member? "timestamp").string?
    traceId := ← (← v.member? "trace_id").string?
    level := ← LogLevel.ofName? (← (← v.member? "level").choiceName?)
    event := ← (← v.member? "event").string?
    path := ← v.optional? "path" JsonValue.string?
    status := ← v.optional? "status" fun s => do Status.ofName? (← s.choiceName?)
    phase := ← v.optional? "phase" fun p => do Phase.ofName? (← p.choiceName?)
    signal := ← v.optional? "signal" JsonValue.string?
    exitCode := ← v.optional? "exit_code" JsonValue.int32?
    durationMillis := ← v.optional? "duration_ms" JsonValue.natural?
    failures := ← v.optional? "failures" JsonValue.strings?
    details := ← v.optional? "details" some }

end TestIsolation
