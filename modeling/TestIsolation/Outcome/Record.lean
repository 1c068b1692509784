import TestIsolation.Json.Reader
import TestIsolation.Text.Bytes

/-!
# Outcome records

What a unit reports about itself: the phase it enters, failures, a request to be skipped, and one verdict at the end.
`Record.payload` is the JSON form of a record and `Record.ofPayload?` reads it back. A payload may be an object, where
members that mean nothing here are ignored, or an array of the kind and the fields in order.
-/

namespace TestIsolation

set_option autoImplicit false

/-- A place in a test's source. -/
structure Site where
  file : String
  line : UInt32
  function : String
  deriving DecidableEq, Repr

/-- A phase of a unit. -/
inductive Phase where
  | setup
  | exec
  | teardown
  deriving DecidableEq, Repr

/-- The verdict a unit gives on itself. -/
inductive Verdict where
  | pass
  | fail
  | skip
  deriving DecidableEq, Repr

/-- A failed check, an explicit failure or a broken expectation. A fatal one ends the phase. -/
structure Failure where
  expression : String
  site : Site
  message : String
  fatal : Bool
  deriving DecidableEq, Repr

/-- An explicit request to be skipped. -/
structure SkipNotice where
  reason : Option String
  site : Site
  deriving DecidableEq, Repr

/-- One report of a unit. -/
inductive Record where
  | phase (phase : Phase)
  | failure (failure : Failure)
  | skip (notice : SkipNotice)
  | terminal (verdict : Verdict)
  deriving DecidableEq, Repr

namespace Phase

/-- The name of a phase. -/
def name : Phase → String
  | setup => "setup"
  | exec => "exec"
  | teardown => "teardown"

/-- All phases in their order. -/
def all : List Phase := [setup, exec, teardown]

/-- The phase with a name. -/
def ofName? (name : String) : Option Phase := all.find? (·.name = name)

end Phase

namespace Verdict

/-- The name of a verdict. -/
def name : Verdict → String
  | pass => "pass"
  | fail => "fail"
  | skip => "skip"

/-- All verdicts. -/
def all : List Verdict := [pass, fail, skip]

/-- The verdict with a name. -/
def ofName? (name : String) : Option Verdict := all.find? (·.name = name)

end Verdict

namespace Failure

/-- The text of a failure in reports. -/
def render (f : Failure) : String :=
  let place := s!"{f.site.file}:{f.site.line.toNat}: {f.site.function}: {f.message}"
  if f.expression = "" then place else place ++ " [" ++ f.expression ++ "]"

end Failure

/-! ## JSON form -/

namespace Record

/-- The JSON form of a record: its kind and then its fields. -/
def toJson : Record → JsonValue
  | phase p => .object [("kind", .string "phase"), ("phase", .string p.name)]
  | failure f => .object [("kind", .string "failure"), ("expression", .string f.expression),
      ("file", .string f.site.file), ("line", .integer f.site.line.toNat), ("function", .string f.site.function),
      ("message", .string f.message), ("fatal", .boolean f.fatal)]
  | skip s => .object ([("kind", .string "skip")] ++ (s.reason.map fun r => ("reason", .string r)).toList
      ++ [("file", .string s.site.file), ("line", .integer s.site.line.toNat), ("function", .string s.site.function)])
  | terminal v => .object [("kind", .string "terminal"), ("verdict", .string v.name)]

/-- The payload of a record's frame. -/
def payload (r : Record) : String := r.toJson.render

end Record

namespace JsonValue

/-- The kind of a tagged value, with what is left of it. The tag may stand anywhere in an object, but only once. -/
def tagged? (tag : String) : JsonValue → Option (String × JsonValue)
  | object members =>
    match members.filter (·.1 = tag) with
    | [(_, string kind)] => some (kind, object (members.filter (·.1 ≠ tag)))
    | _ => none
  | array (string kind :: rest) => some (kind, array rest)
  | _ => none

/-- The values of named fields, of which an object may leave some out and an array none. A field given twice is an
error. -/
def fields? (names : List String) : JsonValue → Option (List (Option JsonValue))
  | object members =>
    names.mapM fun name =>
      match members.filter (·.1 = name) with
      | [] => some none
      | [(_, v)] => some (some v)
      | _ => none
  | array items => if items.length = names.length then some (items.map some) else none
  | _ => none

/-- The name of a choice without content: a string, or an object with that name alone and nothing in it. -/
def choice? : JsonValue → Option String
  | string name => some name
  | object [(name, null)] => some name
  | object [(name, object [])] => some name
  | _ => none

/-- An unsigned 32-bit integer. -/
def uint32? : JsonValue → Option UInt32
  | number (.integer n) => if 0 ≤ n ∧ n < UInt32.size then some (UInt32.ofNat n.toNat) else none
  | _ => none

/-- A truth value. -/
def boolean? : JsonValue → Option Bool
  | boolean b => some b
  | _ => none

/-- A string that may be missing or null. -/
def optionalString? : Option JsonValue → Option (Option String)
  | none => some none
  | some null => some none
  | some v => v.string?.map some

end JsonValue

namespace Record

/-- The record with this JSON form. -/
def ofJson? (v : JsonValue) : Option Record := do
  let (kind, rest) ← v.tagged? "kind"
  match kind with
  | "phase" =>
    let [p] ← rest.fields? ["phase"] | none
    return phase (← Phase.ofName? (← (← p).choice?))
  | "terminal" =>
    let [t] ← rest.fields? ["verdict"] | none
    return terminal (← Verdict.ofName? (← (← t).choice?))
  | "failure" =>
    let [expression, file, line, function, message, fatal] ←
      rest.fields? ["expression", "file", "line", "function", "message", "fatal"] | none
    let site : Site := ⟨← (← file).string?, ← (← line).uint32?, ← (← function).string?⟩
    return failure ⟨← (← expression).string?, site, ← (← message).string?, ← (← fatal).boolean?⟩
  | "skip" =>
    let [reason, file, line, function] ← rest.fields? ["reason", "file", "line", "function"] | none
    let site : Site := ⟨← (← file).string?, ← (← line).uint32?, ← (← function).string?⟩
    return skip ⟨← JsonValue.optionalString? reason, site⟩
  | _ => none

/-- The record that a frame's payload holds. -/
def ofPayload? (payload : Bytes) : Option Record := do ofJson? (← JsonValue.parse? (← Bytes.toString? payload))

end Record

end TestIsolation
