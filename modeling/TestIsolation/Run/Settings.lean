import TestIsolation.Run.Classification
import TestIsolation.Text.Blank

/-!
# Settings of a run

Settings start from defaults, are overlaid with environment variables and then with flags. Variables are read loosely:
one that cannot be read leaves the default in place.
-/

namespace TestIsolation

set_option autoImplicit false

/-- The largest machine word. -/
def maxWord : Nat := UInt64.size - 1

/-- A machine word in decimal: an optional plus sign and at least one digit. -/
def readWord? (chars : List Char) : Option Nat :=
  let digits := match chars with
    | '+' :: rest => rest
    | chars => chars
  if digits = [] ∨ !digits.all Char.isDigit then none
  else
    let n := digits.foldl (fun n c => 10 * n + (c.toNat - '0'.toNat)) 0
    if n ≤ maxWord then some n else none

/-- What comes before an ending. -/
def withoutSuffix? (suffix chars : List Char) : Option (List Char) :=
  if suffix.isSuffixOf chars then some (chars.take (chars.length - suffix.length)) else none

/-- A positive number of jobs, or a word for one job on each of the machine's processors. -/
def readJobs? (processors : Nat) (raw : String) : Option Nat :=
  let chars := trimBlank raw.toList
  let word := String.ofList (chars.map Char.toLower)
  if word = "auto" ∨ word = "max" ∨ word = "all" then some processors
  else (readWord? chars).filter (· > 0)

/-- A duration: a number with `ms`, with `s`, or bare, which means milliseconds. -/
def readDuration? (raw : String) : Option Duration :=
  let chars := (trimBlank raw.toList).map Char.toLower
  match withoutSuffix? ['m', 's'] chars with
  | some number => (readWord? (trimBlank number)).map Duration.ofMillis
  | none =>
    match withoutSuffix? ['s'] chars with
    | some number => (readWord? (trimBlank number)).map Duration.ofSeconds
    | none => (readWord? chars).map Duration.ofMillis

/-- What a run is told before it starts. -/
structure Settings where
  /-- Units that may run at once. -/
  jobs : Nat := 1
  /-- The limit of units for which no node sets one. -/
  defaultTimeout : Duration := .ofSeconds 3
  /-- Tests whose path does not contain this are skipped. -/
  filter : Option String := none
  /-- Bytes that are kept of what a unit prints. -/
  consoleLimit : Nat := 64 * 1024
  /-- Give the run up once a unit is terminated. -/
  stopOnTerminated : Bool := false
  deriving DecidableEq, Repr

namespace Settings

/-- The variable for the number of jobs. -/
def jobsVariable : String := "CUTE_JOBS"

/-- The variable for the default limit. -/
def timeoutVariable : String := "CUTE_TIMEOUT_MS"

/-- The variable for the filter. -/
def filterVariable : String := "CUTE_FILTER"

/-- The variable for the path of the run's log. -/
def logVariable : String := "CUTE_LOG"

/-- The defaults overlaid with variables. A blank filter is none. -/
def ofVariables (processors : Nat) (lookup : String → Option String) : Settings :=
  let start : Settings := {}
  { start with
    jobs := ((lookup jobsVariable).bind (readJobs? processors)).getD start.jobs
    defaultTimeout := ((lookup timeoutVariable).bind readDuration?).getD start.defaultTimeout
    filter := (lookup filterVariable).filter fun text => trimBlank text.toList ≠ [] }

/-- The number of jobs, at least one. -/
def effectiveJobs (s : Settings) : Nat := max s.jobs 1

/-- Whether the test with a path is to run. -/
def selects (s : Settings) (path : String) : Bool :=
  match s.filter with
  | none => true
  | some part => textOccursIn part path

end Settings

/-- The flags of a run. -/
structure RunFlags where
  filter : Option String := none
  jobs : Option Nat := none
  timeoutMillis : Option Nat := none
  log : Option String := none
  stopOnTerminated : Bool := false
  quiet : Bool := false
  deriving DecidableEq, Repr

/-- Settings overlaid with flags. -/
def RunFlags.overlay (flags : RunFlags) (s : Settings) : Settings :=
  { s with
    jobs := (flags.jobs.map (max · 1)).getD s.jobs
    defaultTimeout := (flags.timeoutMillis.map Duration.ofMillis).getD s.defaultTimeout
    filter := flags.filter <|> s.filter
    stopOnTerminated := s.stopOnTerminated || flags.stopOnTerminated }

end TestIsolation
