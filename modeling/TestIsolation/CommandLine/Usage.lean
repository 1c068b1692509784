import TestIsolation.Run.Settings

/-!
# The command line

A command line names a command, `run` where it names none, and `run` takes options. Values are read when it is known
that no more follow, so the value of an option is judged after the option that comes next is recognised. Every option
may be given once.
-/

namespace TestIsolation

set_option autoImplicit false

/-- A command line that is not carried out. -/
inductive UsageError where
  /-- Help was asked for, which is no failure. -/
  | help
  | invalidSubcommand (name : String)
  | unknownArgument (argument : String)
  | tooManyValues (option : String)
  /-- An option without the value it needs. -/
  | missingValue (option : String)
  | unreadableValue (option value : String)
  /-- An option given twice. -/
  | conflict (option : String)
  deriving DecidableEq, Repr

namespace UsageError

/-- The exit code of a program that was called like this. -/
def exitCode : UsageError → Nat
  | help => 0
  | _ => 2

/-- What is said about a command line that is not carried out. -/
def message : UsageError → String
  | help => "run process-isolated unit tests"
  | invalidSubcommand name => "unrecognized subcommand '" ++ name ++ "'"
  | unknownArgument argument => "unexpected argument '" ++ argument ++ "' found"
  | tooManyValues option => "unexpected value for '--" ++ option ++ "' found; no more were expected"
  | missingValue option => "a value is required for '--" ++ option ++ "' but none was supplied"
  | unreadableValue option value => "invalid value '" ++ value ++ "' for '--" ++ option ++ "'"
  | conflict option => "the argument '--" ++ option ++ "' cannot be used multiple times"

end UsageError

/-- An option of `run`. -/
inductive RunOption where
  | filter
  | jobs
  | timeoutMillis
  | log
  | stopOnTerminated
  | quiet
  deriving DecidableEq, Repr

namespace RunOption

/-- The name of an option, without the dashes before it. -/
def name : RunOption → String
  | filter => "filter"
  | jobs => "jobs"
  | timeoutMillis => "timeout-ms"
  | log => "log"
  | stopOnTerminated => "stop-on-terminated"
  | quiet => "quiet"

/-- All options. -/
def all : List RunOption := [filter, jobs, timeoutMillis, log, stopOnTerminated, quiet]

/-- Whether an option comes with a value. -/
def takesValue : RunOption → Bool
  | filter | jobs | timeoutMillis | log => true
  | stopOnTerminated | quiet => false

/-- The flags with the value of an option set. -/
def set? (o : RunOption) (value : String) (flags : RunFlags) : Except UsageError RunFlags :=
  let number : Except UsageError Nat := match readWord? value.toList with
    | some n => .ok n
    | none => .error (.unreadableValue o.name value)
  match o with
  | filter => .ok { flags with filter := some value }
  | jobs => number.map fun n => { flags with jobs := some n }
  | timeoutMillis => number.map fun n => { flags with timeoutMillis := some n }
  | log => if value = "" then .error (.missingValue o.name) else .ok { flags with log := some value }
  | stopOnTerminated => .ok { flags with stopOnTerminated := true }
  | quiet => .ok { flags with quiet := true }

end RunOption

/-- One argument as it is spelled. -/
inductive Spelling where
  /-- Two dashes, after which nothing is an option. -/
  | escape
  /-- A name after two dashes, and a value if an equals sign follows. -/
  | long (name : String) (value : Option String)
  /-- Letters after one dash. -/
  | short (letters : List Char)
  | plain
  deriving DecidableEq, Repr

/-- How an argument is spelled. -/
def Spelling.of (argument : String) : Spelling :=
  match argument.toList with
  | ['-', '-'] => escape
  | '-' :: '-' :: rest =>
    let name := String.ofList (rest.takeWhile (· ≠ '='))
    match rest.dropWhile (· ≠ '=') with
    | _ :: value => long name (some (String.ofList value))
    | [] => long name none
  | '-' :: c :: rest => short (c :: rest)
  | _ => plain

/-- The name of the option that asks for help. -/
def helpName : String := "help"

/-- The state of reading a command's options. -/
structure OptionReader where
  flags : RunFlags := {}
  seen : List RunOption := []
  /-- The last option whose value is still to be judged, with the value if it came already. -/
  pending : Option (RunOption × Option String) := none
  /-- Two dashes were read. -/
  escaped : Bool := false
  deriving DecidableEq, Repr

namespace OptionReader

/-- Takes an option with its value, if it needs one. -/
def take (r : OptionReader) (o : RunOption) (value : Option String) : Except UsageError OptionReader :=
  match o.takesValue, value with
  | true, none => .error (.missingValue o.name)
  | _, _ =>
    if o ∈ r.seen then .error (.conflict o.name)
    else (o.set? (value.getD "") r.flags).map fun flags => { r with flags, seen := o :: r.seen }

/-- Judges the value that is pending. -/
def settle (r : OptionReader) : Except UsageError OptionReader :=
  match r.pending with
  | none => .ok r
  | some (o, value) => { r with pending := none }.take o value

/-- Asks for help, if nothing before is wrong. -/
def help (r : OptionReader) : Except UsageError OptionReader :=
  match r.settle with
  | .ok _ => .error .help
  | .error e => .error e

/-- Reads an option that is spelled with its name. -/
def readLong (allowed : List RunOption) (argument name : String) (value : Option String) (r : OptionReader) :
    Except UsageError OptionReader :=
  match allowed.find? (·.name = name), value with
  | some o, some value =>
    if o.takesValue then
      match r.settle with
      | .ok r => r.take o (some value)
      | .error e => .error e
    else .error (.tooManyValues o.name)
  | some o, none =>
    match r.settle with
    | .ok r => if o.takesValue then .ok { r with pending := some (o, none) } else r.take o none
    | .error e => .error e
  | none, value =>
    if name ≠ helpName then .error (.unknownArgument argument)
    else if value.isSome then .error (.tooManyValues name)
    else r.help

/-- Reads one argument of a command that has the given options. -/
def read (allowed : List RunOption) (r : OptionReader) (argument : String) : Except UsageError OptionReader :=
  if r.escaped then .error (.unknownArgument argument)
  else
    match Spelling.of argument, r.pending with
    | .escape, _ => .ok { r with escaped := true }
    | .long name value, _ => r.readLong allowed argument name value
    | .short ('h' :: _), _ => r.help
    | .short _, _ => .error (.unknownArgument argument)
    | .plain, some (o, none) => .ok { r with pending := some (o, some argument) }
    | .plain, _ => .error (.unknownArgument argument)

/-- The flags that the arguments of a command give. -/
def readAll (allowed : List RunOption) (arguments : List String) : Except UsageError RunFlags := do
  let r ← arguments.foldlM (read allowed) {}
  return (← r.settle).flags

end OptionReader

/-- What a program can be told to do. -/
inductive Command where
  | run (flags : RunFlags)
  /-- Prints the paths of all tests. -/
  | list
  deriving DecidableEq, Repr

namespace Command

/-- The names of commands. -/
def names : List String := ["run", "list", helpName]

/-- Asks for help on a command. -/
def helpOn : List String → UsageError
  | [] => .help
  | name :: rest =>
    if name ∈ names then
      match rest with
      | [] => .help
      | more :: _ => .invalidSubcommand more
    else .invalidSubcommand name

/-- What follows the name of the program where it starts with two dashes. -/
def afterEscape : List String → Except UsageError Command
  | [] => .ok (.run {})
  | argument :: _ =>
    if argument ∈ names then .error (.unknownArgument argument) else .error (.invalidSubcommand argument)

/-- The command that a program's arguments give. -/
def ofArguments : List String → Except UsageError Command
  | [] => .ok (.run {})
  | "run" :: rest => (OptionReader.readAll RunOption.all rest).map run
  | "list" :: rest => (OptionReader.readAll [] rest).map fun _ => list
  | "help" :: rest => .error (helpOn rest)
  | argument :: rest =>
    match Spelling.of argument with
    | .escape => afterEscape rest
    | .long name value => .error (match OptionReader.readLong [] argument name value {} with
      | .error e => e
      | .ok _ => .unknownArgument argument)
    | .short ('h' :: _) => .error .help
    | .short _ => .error (.unknownArgument argument)
    | .plain => .error (.invalidSubcommand argument)

end Command

end TestIsolation
