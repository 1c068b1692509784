import TestIsolation.CommandLine.Usage
import TestIsolation.Log.Emitter
import TestIsolation.Report.Console
import TestIsolation.Schedule.EventLoop

/-!
# The program

What a test program does with its arguments: `Program.perform` gives what it prints, the log it writes and its exit
code. The run is reported on the error output while it goes on, and closed by one line that sums it up.
-/

namespace TestIsolation

set_option autoImplicit false

/-- What a program finds where it is started. -/
structure Station (β : Type) where
  environment : String → Option String := fun _ => none
  /-- How many processors the machine has. -/
  processors : Nat := 1
  /-- The program's own process. -/
  process : String
  /-- Opens a file for writing. -/
  openFile : String → Except IoError (Sink String)
  world : World β

/-- What a program leaves behind. -/
structure Transcript where
  output : String := ""
  errors : String := ""
  /-- The path of the log and what was written to it. -/
  log : Option (String × String) := none
  deriving DecidableEq, Repr

/-- Why a program could not do what it was told. -/
inductive ProgramError where
  | usage (error : UsageError)
  | logOpen (path : String) (error : IoError)
  | logWrite (error : IoError)
  /-- The run was broken off. -/
  | run (error : RunError)
  deriving DecidableEq, Repr

namespace ProgramError

/-- The text of a program's failure. There is none where the run was broken off. -/
def message : ProgramError → Option String
  | usage error => some error.message
  | logOpen path error => some ("cannot open log " ++ path ++ ": " ++ error.message)
  | logWrite error => some ("writing the run log failed: " ++ error.message)
  | run _ => none

/-- The exit code of a failed program. -/
def exitCode : ProgramError → Nat
  | usage error => error.exitCode
  | logOpen _ _ | logWrite _ => 2
  | run _ => 101

end ProgramError

namespace Program

variable {β : Type}

/-- The path of the log: the flag's, or else the variable's unless that is empty. -/
def logPath? (s : Station β) (flags : RunFlags) : Option String :=
  flags.log <|> (s.environment Settings.logVariable).filter (· ≠ "")

/-- The log that a run is to write, if any, with its path. -/
def openLog (s : Station β) (flags : RunFlags) : Except ProgramError (Option (String × LogObserver)) :=
  match logPath? s flags with
  | none => .ok none
  | some path =>
    match s.openFile path with
    | .ok sink => .ok (some (path, { emitter := { sink, runId := newRunId s.process s.world.now } }))
    | .error e => .error (.logOpen path e)

/-- The end of a run that is reported already. -/
def close (s : Station β) (report : String) (log : Option (String × LogObserver)) (r : RunResult) :
    Transcript × Except ProgramError Nat :=
  let errors := report ++ r.tree.summary ++ "\n"
  match log with
  | none => ({ errors }, .ok r.tree.exitCode)
  | some (path, observer) =>
    let (closed, result) := observer.finish r.tree s.world.now
    ({ errors, log := some (path, closed.emitter.text) },
      match result with
      | .ok () => .ok r.tree.exitCode
      | .error e => .error (.logWrite e))

/-- Runs the tests. -/
def runTests (s : Station β) (tree : SuiteTree β) (flags : RunFlags) : Transcript × Except ProgramError Nat :=
  let settings := flags.overlay (Settings.ofVariables s.processors s.environment)
  match openLog s flags with
  | .error e => ({}, .error e)
  | .ok log =>
    let r := (Assignment.mk tree.outline settings).run { s.world with catchesSignals := true } {}
    let report := ConsoleReport.render flags.quiet r.events
    let log := log.map fun (path, observer) => (path, r.events.foldl LogObserver.observe observer)
    match r.error with
    | none => close s report log r
    | some e =>
      ({ errors := report, log := log.map fun (path, observer) => (path, observer.emitter.text) }, .error (.run e))

/-- Does what the arguments say. -/
def perform (s : Station β) (tree : SuiteTree β) (arguments : List String) : Transcript × Except ProgramError Nat :=
  match Command.ofArguments arguments with
  | .error e => ({}, .error (.usage e))
  | .ok .list => ({ output := tree.outline.listing }, .ok 0)
  | .ok (.run flags) => runTests s tree flags

/-- The name that the program gives itself in messages. -/
def name : String := "cute"

/-- The whole program: what it leaves behind, with what it says about a failure, and its exit code. -/
def conclude (s : Station β) (tree : SuiteTree β) (arguments : List String) : Transcript × Nat :=
  match perform s tree arguments with
  | (t, .ok code) => (t, if code = 0 then 0 else 1)
  | (t, .error (.usage .help)) => ({ t with output := t.output ++ UsageError.help.message ++ "\n" }, 0)
  | (t, .error (.usage e)) => ({ t with errors := t.errors ++ "error: " ++ e.message ++ "\n" }, e.exitCode)
  | (t, .error e) =>
    match e.message with
    | some message => ({ t with errors := t.errors ++ name ++ ": " ++ message ++ "\n" }, e.exitCode)
    | none => (t, e.exitCode)

end Program

end TestIsolation
