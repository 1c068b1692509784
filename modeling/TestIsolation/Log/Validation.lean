import TestIsolation.Log.Entry
import TestIsolation.Text.Blank
import TestIsolation.Text.Bytes
import TestIsolation.Text.Sink

/-!
# Validation of run logs

`validateLine` reads one line of a run log, or says everything that is wrong with it. `validateLog` goes through the
lines of a whole log, where blank ones do not count.
-/

namespace TestIsolation

set_option autoImplicit false

/-- What can be wrong with a line of a log. -/
inductive LogProblem where
  | notJson
  | notObject
  | missing (field : String)
  | unknownName (field name : String)
  | badDuration
  | testEndLacks (field : String)
  | badTraceId (id : String)
  | unreadable
  deriving DecidableEq, Repr

namespace LogProblem

/-- The field that a problem is about. -/
def field : LogProblem → String
  | notJson => "<json>"
  | notObject => "<root>"
  | missing field => field
  | unknownName field _ => field
  | badDuration => "duration_ms"
  | testEndLacks field => field
  | badTraceId _ => "trace_id"
  | unreadable => "<deserialization>"

/-- The text of a problem. -/
def message : LogProblem → String
  | notJson => "invalid JSON"
  | notObject => "expected JSON object"
  | missing _ => "required field missing"
  | unknownName field name => s!"invalid {field}: '" ++ name ++ "'"
  | badDuration => "expected a non-negative integer"
  | testEndLacks _ => "test_end events must include this field"
  | badTraceId id => "trace_id should follow <run_id>::<seq> format, got: '" ++ id ++ "'"
  | unreadable => "failed to deserialize"

end LogProblem

/-- A problem on a numbered line. -/
structure LogIssue where
  line : Nat
  problem : LogProblem
  deriving DecidableEq, Repr

/-- The text of an issue. -/
def LogIssue.render (i : LogIssue) : String :=
  s!"line {i.line}: field '" ++ i.problem.field ++ "': " ++ i.problem.message

namespace LogValidation

/-- The fields that every entry has. -/
def requiredFields : List String := ["timestamp", "trace_id", "level", "event"]

/-- The fields that hold one of some names, with those names. -/
def namedFields : List (String × List String) :=
  [("level", LogLevel.all.map (·.name)), ("status", Status.all.map (·.name)), ("phase", Phase.all.map (·.name))]

/-- The text of a member, if it has one. -/
def textOf? (v : JsonValue) (field : String) : Option String := (v.member? field).bind (·.string?)

/-- What the schema finds wrong with a canonical object. -/
def problems (v : JsonValue) : List LogProblem :=
  let lacks (field : String) : Bool := (v.member? field).isNone
  let missing := (requiredFields.filter lacks).map .missing
  let unknown := namedFields.filterMap fun (field, names) =>
    match textOf? v field with
    | some name => if name ∈ names then none else some (.unknownName field name)
    | none => none
  let duration := match v.member? "duration_ms" with
    | some d => if d.natural?.isSome then [] else [.badDuration]
    | none => []
  let testEnd :=
    if textOf? v "event" = some "test_end" then (["path", "status"].filter lacks).map .testEndLacks else []
  let traceId := match textOf? v "trace_id" with
    | some id => if textOccursIn "::" id then [] else [.badTraceId id]
    | none => []
  missing ++ unknown ++ duration ++ testEnd ++ traceId

/-- The entry in a line, or what is wrong with it. -/
def entryOf (text : String) : Except (List LogProblem) LogEntry :=
  match (JsonValue.parse? text).map JsonValue.canonical with
  | none => .error [.notJson]
  | some v =>
    if v.members?.isNone then .error [.notObject]
    else
      match problems v with
      | [] =>
        match LogEntry.ofJson? v with
        | some e => .ok e
        | none => .error [.unreadable]
      | found => .error found

end LogValidation

/-- The entry in a numbered line, or its issues. -/
def validateLine (text : String) (number : Nat) : Except (List LogIssue) LogEntry :=
  match LogValidation.entryOf text with
  | .ok e => .ok e
  | .error found => .error (found.map fun p => ⟨number, p⟩)

/-- The number of lines that are not blank, and the issues of all of them. -/
def validateLog (content : String) : Nat × List LogIssue :=
  let lines := (splitLines content.toList).map trimBlank
  let numbered := (lines.zipIdx 1).filter fun (line, _) => line ≠ []
  let issues := numbered.flatMap fun (line, number) =>
    match validateLine (String.ofList line) number with
    | .ok _ => []
    | .error issues => issues
  (numbered.length, issues)

/-- Validates the content of a log file; there is none if the file is missing. -/
def validateFile (content : Option Bytes) : Except IoError (Nat × List LogIssue) :=
  match content with
  | none => .error .notFound
  | some bytes =>
    match Bytes.toString? bytes with
    | none => .error .invalidData
    | some text => .ok (validateLog text)

end TestIsolation
