import Std.Time.DateTime.Timestamp
import TestIsolation.CommandLine.Program
import TestIsolation.Suite.Registry

/-!
# A sample test program

A small suite with a test of every outcome, run from the command line. The units of the sample are scripts, whose
lives in processes of their own follow from what the scripts do.
-/

namespace TestIsolation.Sample

set_option autoImplicit false

/-- A line of a function of the sample. -/
def line (function : String) (n : UInt32) : Site := ⟨"sample", n, function⟩

/-- A suite of the sample. -/
def suite (name : String) (parent : Option String) : Declaration Script := ⟨{ name }, parent, none⟩

/-- A test of the sample. -/
def test (name parent : String) (body : Script) : Declaration Script := ⟨{ name }, some parent, some body⟩

/-- Compares a sum with what it should be. -/
def compareSum (function expr : String) (sum expected : Int) : Action :=
  .checkThat (.signed sum) expr ⟨.order .equal (.signed expected), none⟩ (line function 1)

/-- Expects one call of an allocator, makes it, and looks at what it gave. -/
def allocate : Script :=
  let size : Parameter := { name := "size", constraint := ⟨.order .equal (.unsigned 16), none⟩ }
  [.expect { symbol := "malloc", params := [size], returns := some (.pointer 4096) } (line "allocate" 1),
    .intercept "malloc" "call" (line "allocate" 2),
    .parameter "call" "size" (.unsigned 16) (line "allocate" 3),
    .returnValue "call" .mutPointer (line "allocate" 4)]

/-- The suites and tests of the sample. -/
def declarations : List (Declaration Script) :=
  [suite "sample" none,
    suite "arithmetic" (some "sample"),
    test "adds" "arithmetic" [compareSum "adds" "2 + 2" 4 4],
    test "carries" "arithmetic" [compareSum "carries" "199 + 1" 190 200],
    suite "isolation" (some "sample"),
    test "mocks" "isolation" allocate,
    test "skips" "isolation" [.skip (some "not on this machine") (line "skips" 1)],
    test "panics" "isolation" [.print (Bytes.ofString "last words\n"), .panic (some "out of range")],
    test "crashes" "isolation" [.signal 11],
    test "hangs" "isolation" [.hang]]

/-- The variables that a program looks at. -/
def variableNames : List String :=
  [Settings.jobsVariable, Settings.timeoutVariable, Settings.filterVariable, Settings.logVariable]

/-- The values of the variables that are set. -/
def readVariables : IO (List (String × String)) := do
  let values ← variableNames.mapM fun name => do return (name, ← IO.getEnv name)
  return values.filterMap fun (name, value) => value.map fun v => (name, v)

/-- What an error of the system comes down to. -/
def errorOf : IO.Error → IoError
  | .resourceExhausted .. => .storageFull
  | _ => .notFound

/-- Writes a file, and says what became of it. -/
def write (path content : String) : IO (Except IoError Unit) := do
  try
    IO.FS.writeFile path content
    return .ok ()
  catch e => return .error (errorOf e)

/-- The log that the arguments ask for, created empty. -/
def createLog (s : Station Script) (arguments : List String) : IO (Except IoError Unit) := do
  match Command.ofArguments arguments with
  | .ok (.run flags) =>
    match Program.logPath? s flags with
    | some path => write path ""
    | none => return .ok ()
  | _ => return .ok ()

/-- Runs the sample and prints what comes of it. -/
def run (tree : SuiteTree Script) (arguments : List String) : IO UInt32 := do
  let environment ← readVariables
  let now := (← Std.Time.Timestamp.now).toMillisecondsSinceUnixEpoch.val
  let thread : Thread := .start none
  let station : Station Script := {
    environment := fun name => environment.lookup name
    process := toString (← IO.monoNanosNow)
    openFile := fun _ => .ok {}
    world := { process := fun plan => .run plan thread, now := now } }
  let created ← createLog station arguments
  let station := { station with openFile := fun _ => created.map fun _ => {} }
  let (transcript, code) := Program.conclude station tree arguments
  IO.print transcript.output
  IO.eprint transcript.errors
  if let some (path, content) := transcript.log then
    if let .error e ← write path content then
      IO.eprintln ((ProgramError.logWrite e).message.getD "")
      return 2
  return UInt32.ofNat code

end TestIsolation.Sample

/-- The sample test program. -/
def main (arguments : List String) : IO UInt32 := do
  match TestIsolation.Registry.build TestIsolation.Sample.declarations with
  | .ok tree => TestIsolation.Sample.run tree arguments
  | .error e =>
    IO.eprintln e.message
    return 2
