import TestIsolation.Log.Entry
import TestIsolation.Run.Aggregator
import TestIsolation.Text.Sink

/-!
# Writing the run log

A `LogEmitter` numbers entries and writes them to a `Writer`, a sink of texts or any other, each as two writes: the
line and its end. A `LogObserver` turns the events of a run into entries. The first write that fails is kept, and
nothing is written after it.
-/

namespace TestIsolation

set_option autoImplicit false

/-! ## Writers -/

/-- What texts are written to. Each request leaves the writer as it then is, also one that fails. -/
class Writer (σ : Type) where
  /-- Writes a whole text, or as much of it as there is room for. -/
  write : σ → String → σ × Except IoError Unit
  flush : σ → σ × Except IoError Unit

/-- A sink of texts, of which a write that fails leaves nothing. -/
@[default_instance]
instance : Writer (Sink String) where
  write s text :=
    match s.write text with
    | .error error => (s, .error error)
    | .ok s => (s, .ok ())
  flush s := (s, s.flush)

namespace Writer

/-- Writes a line and its end. -/
def writeLine {σ : Type} [Writer σ] (s : σ) (line : String) : σ × Except IoError Unit :=
  match write s line with
  | (s, .error error) => (s, .error error)
  | (s, .ok ()) => write s "\n"

@[simp] theorem write_sink (s : Sink String) (text : String) :
    write s text = match s.write text with
      | .error error => (s, .error error)
      | .ok s => (s, .ok ()) := rfl

@[simp] theorem writeLine_sink (s : Sink String) (line : String) :
    writeLine s line = match s.write line with
      | .error error => (s, .error error)
      | .ok s => write s "\n" := by
  cases written : s.write line <;> simp [writeLine, written]

end Writer

/-! ## Entries -/

/-- A writer of log entries. -/
structure LogEmitter (σ : Type := Sink String) where
  sink : σ
  runId : String
  /-- The number of trace ids given out. -/
  count : Nat := 0

/-- The id of a run, from its process and the time it started. -/
def newRunId (process : String) (now : Timestamp) : String := "run-" ++ process ++ s!"-{now.seconds}"

variable {σ : Type} [Writer σ]

namespace LogEmitter

/-- The trace id of a run with a number. -/
def traceId (runId : String) (n : Nat) : String := runId ++ "::" ++ padded 3 n

/-- Writes an entry. One without a trace id gets the next, which is used up even if the write fails. -/
def emit (e : LogEmitter σ) (entry : LogEntry) : LogEmitter σ × Except IoError LogEntry :=
  let e' : LogEmitter σ := if entry.traceId = "" then { e with count := e.count + 1 } else e
  let entry' : LogEntry := if entry.traceId = "" then { entry with traceId := traceId e.runId (e.count + 1) } else entry
  match Writer.writeLine e'.sink entry'.line with
  | (sink, .error error) => ({ e' with sink }, .error error)
  | (sink, .ok ()) => ({ e' with sink }, .ok entry')

/-- What a sink was given. -/
def text (e : LogEmitter) : String := String.join e.sink.accepted

end LogEmitter

/-- A log of a run, with the first error that writing it met. -/
structure LogObserver (σ : Type := Sink String) where
  emitter : LogEmitter σ
  error : Option IoError := none

/-- The closing line on a run: how many tests there were, and how they ended. -/
def RunTree.summary (t : RunTree) : String :=
  let total := t.leaves.length
  let head := s!"{total} " ++ if total = 1 then "test" else "tests"
  match t.tally with
  | [] => head
  | counts => head ++ ": " ++ ", ".intercalate (counts.map fun (status, n) => s!"{n} {status.name}")

namespace LogObserver

/-- Writes an entry unless an earlier write failed. -/
def write (o : LogObserver σ) (entry : LogEntry) : LogObserver σ :=
  if o.error.isSome then o
  else
    match o.emitter.emit entry with
    | (emitter, .ok _) => { o with emitter }
    | (emitter, .error error) => { emitter, error := some error }

/-- The entry on a run that is over. -/
def settledEntry (event : String) (run : Run) (time : Timestamp) : LogEntry :=
  { timestamp := time.utc, traceId := "", level := .ofStatus run.status, event := event
    path := some run.path, status := some run.status, phase := run.phase
    signal := (run.exit.bind (·.signal?)).map signalName, exitCode := run.exit.bind (·.code?)
    durationMillis := some run.millis
    failures := if run.failures = [] then none else some (run.failures.map Failure.render)
    details := run.reason.map fun reason => .object [("reason", .string reason)] }

/-- The entry on an event. -/
def entryOf (e : Event) : LogEntry :=
  match e.kind with
  | .suiteStarted =>
    { timestamp := e.time.utc, traceId := "", level := .info, event := "suite_start", path := some e.run.path }
  | .testFinished => settledEntry "test_end" e.run e.time
  | .suiteFinished => settledEntry "suite_end" e.run e.time

/-- Logs an event. -/
def observe (o : LogObserver σ) (e : Event) : LogObserver σ := o.write (entryOf e)

/-- The entry on the end of a run. -/
def endEntry (t : RunTree) (now : Timestamp) : LogEntry :=
  { timestamp := now.utc, traceId := "", level := .info, event := "run_end"
    status := (t.run? 0).map (·.status), exitCode := some (Int.ofNat t.exitCode)
    durationMillis := (t.run? 0).map (·.millis)
    details := some (.object [("summary", .string t.summary)]) }

/-- Flushes the log. -/
def flush (o : LogObserver σ) : LogObserver σ × Except IoError Unit :=
  let (sink, result) := Writer.flush o.emitter.sink
  ({ o with emitter := { o.emitter with sink } }, result)

@[simp] theorem flush_sink (o : LogObserver) : o.flush = (o, o.emitter.sink.flush) := rfl

/-- Logs the end of a run and flushes the log: the log, and the first error, if there was one. -/
def finish (o : LogObserver σ) (t : RunTree) (now : Timestamp) : LogObserver σ × Except IoError Unit :=
  let o := o.write (endEntry t now)
  match o.error with
  | some error => (o, .error error)
  | none => o.flush

end LogObserver

end TestIsolation
