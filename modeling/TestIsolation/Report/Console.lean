import TestIsolation.Run.Aggregator
import TestIsolation.Text.Blank

/-!
# Console reports

What a run prints about its events: a line per suite and test, and below it the failures and what the unit printed.
-/

namespace TestIsolation

set_option autoImplicit false

/-- The word for a status at the start of a line. -/
def Status.label : Status → String
  | passed => "PASS"
  | failed => "FAIL"
  | skipped => "SKIP"
  | crashed => "CRASH"
  | timedOut => "TIMEOUT"
  | aborted => "ABORT"
  | terminated => "TERM"
  | pending | running => "...."

namespace ConsoleReport

/-- A text with blanks after it up to a width. -/
def filled (width : Nat) (text : String) : String :=
  text ++ String.ofList (List.replicate (width - text.length) ' ')

/-- The blanks before the lines on a node of some depth. -/
def indent (depth : Nat) : String := String.ofList (List.replicate (2 * depth) ' ')

/-- The lines on a run that is over. -/
def runLines (r : Run) : List String :=
  let margin := indent r.depth
  let head := margin ++ filled 7 r.status.label ++ " " ++ r.path ++ s!" ({r.millis} ms)"
    ++ (match r.reason with | some reason => ": " ++ reason | none => "")
  let inner := margin ++ "    "
  let console :=
    if !r.status.isSuccess && r.console ≠ "" then
      (inner ++ "--- console ---") :: (linesOf r.console).map (inner ++ ·)
    else []
  head :: (r.failures.map fun f => inner ++ f.render) ++ console

/-- The lines on an event. A quiet report leaves out suite headers and the tests that passed or were skipped; a suite
that ends is reported only if it was no success and there is something to say about it. -/
def eventLines (quiet : Bool) (e : Event) : List String :=
  match e.kind with
  | .suiteStarted => if quiet then [] else [indent e.run.depth ++ e.run.path]
  | .testFinished => if quiet && e.run.status.isSuccess then [] else runLines e.run
  | .suiteFinished =>
    if !e.run.status.isSuccess && (e.run.reason.isSome || e.run.failures ≠ []) then runLines e.run else []

/-- The text on some events. -/
def render (quiet : Bool) (events : List Event) : String :=
  String.join ((events.flatMap (eventLines quiet)).map (· ++ "\n"))

end ConsoleReport

end TestIsolation
