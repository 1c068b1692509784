import Mathlib.Data.List.Nodup
import TestIsolation.Log.Validation
import TestIsolation.Proofs.Json.Canonical
import TestIsolation.Proofs.Outcome.Payload

/-!
# Reading back entries of the log

The writer and the validator of the log each know the schema on their own. They agree on every entry whose numbers
have the widths of the schema and whose details are in canonical form (`LogEntry.Proper`): its line is valid under any
number, and the entry that is read from it is the one that was written (`validateLine_line`).
-/

namespace TestIsolation

set_option autoImplicit false

theorem Status.ofName?_name (s : Status) : ofName? s.name = some s := by cases s <;> decide

theorem LogLevel.ofName?_name (l : LogLevel) : ofName? l.name = some l := by cases l <;> decide

namespace LogEntry

/-- An entry that the schema has room for. -/
structure Proper (e : LogEntry) : Prop where
  exitCode : ∀ code ∈ e.exitCode, Int32.minValue.toInt ≤ code ∧ code ≤ Int32.maxValue.toInt
  duration : ∀ n ∈ e.durationMillis, n < UInt64.size
  /-- Details may be anything that the reader can tell from details that are missing. -/
  details : ∀ d ∈ e.details, d.canonical = d ∧ d.fits (JsonReader.maxDepth - 1) = true ∧ d ≠ .null
  traceId : textOccursIn "::" e.traceId = true
  test : e.event = "test_end" → e.path.isSome ∧ e.status.isSome

/-! ## Members -/

variable {α : Type} {name : String} {toJson : α → JsonValue}

theorem lookup_optionalMember (value : Option α) (looked : String) :
    (optionalMember name toJson value).lookup looked = if looked = name then value.map toJson else none := by
  cases value with
  | none => simp [optionalMember]
  | some v => simp [optionalMember, JsonValue.lookup_cons]

theorem names_optionalMember (value : Option α) : ((optionalMember name toJson value).map (·.1)).Sublist [name] := by
  cases value <;> simp [optionalMember]

/-- No name occurs twice in an entry. -/
theorem nodup_names (e : LogEntry) : (e.members.map (·.1)).Nodup := by
  have ordered : (e.members.map (·.1)).Sublist (["timestamp", "trace_id", "level", "event"] ++ ["path"] ++ ["status"]
      ++ ["phase"] ++ ["signal"] ++ ["exit_code"] ++ ["duration_ms"] ++ ["failures"] ++ ["details"]) := by
    simp only [members, List.map_append]
    repeat refine List.Sublist.append ?_ (names_optionalMember _)
    exact List.Sublist.refl _
  exact ordered.nodup (by decide)

/-- What stands under a name in an entry. -/
def field? (e : LogEntry) : String → Option JsonValue
  | "timestamp" => some (.string e.timestamp)
  | "trace_id" => some (.string e.traceId)
  | "level" => some (.string e.level.name)
  | "event" => some (.string e.event)
  | "path" => e.path.map .string
  | "status" => e.status.map fun s => .string s.name
  | "phase" => e.phase.map fun p => .string p.name
  | "signal" => e.signal.map .string
  | "exit_code" => e.exitCode.map .integer
  | "duration_ms" => e.durationMillis.map fun n => .integer (Int.ofNat n)
  | "failures" => e.failures.map fun texts => .array (texts.map .string)
  | "details" => e.details.map .canonical
  | _ => none

theorem lookup_members (e : LogEntry) (name : String) : e.members.lookup name = e.field? name := by
  unfold members field?
  split <;> simp_all [List.lookup_append, JsonValue.lookup_cons, lookup_optionalMember]

theorem map_canonical (kept : ∀ v, (toJson v).canonical = toJson v) (value : Option α) :
    (value.map toJson).map JsonValue.canonical = value.map toJson := by
  cases value with
  | none => rfl
  | some v => exact congrArg some (kept v)

/-- The fields of an entry are in canonical form. -/
theorem field?_canonical {e : LogEntry} (proper : e.Proper) (name : String) :
    (e.field? name).map JsonValue.canonical = e.field? name := by
  have details : (e.details.map JsonValue.canonical).map JsonValue.canonical = e.details.map JsonValue.canonical := by
    cases given : e.details with
    | none => rfl
    | some d => simp only [Option.map_some, (proper.details d given).1]
  unfold field?
  split
  case h_11 => exact map_canonical JsonValue.canonical_texts _
  case h_12 => exact details
  all_goals first | rfl | exact map_canonical (fun _ => rfl) _

theorem member?_toJson {e : LogEntry} (proper : e.Proper) (name : String) :
    e.toJson.canonical.member? name = e.field? name := by
  rw [toJson, JsonValue.member?_canonical e.nodup_names, lookup_members, field?_canonical proper]

/-! ## Values -/

theorem membersFit_append (room : Nat) (members others : List (String × JsonValue)) :
    JsonValue.membersFit room (members ++ others) =
      (JsonValue.membersFit room members && JsonValue.membersFit room others) := by
  induction members with
  | nil => rfl
  | cons m rest ih => simp only [List.cons_append, JsonValue.membersFit, ih, Bool.and_assoc]

theorem membersFit_optionalMember {room : Nat} {value : Option α} :
    JsonValue.membersFit room (optionalMember name toJson value) = true ↔ ∀ v ∈ value, (toJson v).fits room = true := by
  cases value <;> simp [optionalMember, JsonValue.membersFit]

theorem fits_texts (room : Nat) (texts : List String) :
    (JsonValue.array (texts.map .string)).fits (room + 1) = true := by
  rw [JsonValue.fits]
  induction texts with
  | nil => rfl
  | cons s rest ih => simpa [JsonValue.itemsFit, JsonValue.fits] using ih

/-- The line of an entry is within what the reader of JSON takes. -/
theorem fits_toJson {e : LogEntry} (proper : e.Proper) : e.toJson.fits JsonReader.maxDepth = true := by
  simp only [LogEntry.toJson, JsonReader.maxDepth, JsonValue.fits, members, membersFit_append, Bool.and_eq_true,
    membersFit_optionalMember]
  refine ⟨⟨⟨⟨⟨⟨⟨⟨rfl, fun _ _ => trivial⟩, fun _ _ => trivial⟩, fun _ _ => trivial⟩, fun _ _ => trivial⟩, ?exitCode⟩,
    ?duration⟩, fun texts _ => fits_texts _ texts⟩, ?details⟩
  case exitCode =>
    intro code given
    have bound := proper.exitCode code given
    have low : Int32.minValue.toInt = -2147483648 := rfl
    have high : Int32.maxValue.toInt = 2147483647 := rfl
    have size : UInt64.size = 18446744073709551616 := rfl
    simp only [JsonValue.fits, JsonValue.integer, JsonNumber.isExact, decide_eq_true_eq]
    omega
  case duration =>
    intro n given
    have bound := proper.duration n given
    simp only [JsonValue.fits, JsonValue.integer, JsonNumber.isExact, decide_eq_true_eq, Int.ofNat_eq_natCast]
    omega
  case details =>
    intro d given
    obtain ⟨same, fits, _⟩ := proper.details d given
    rwa [same]

theorem natural?_ofNat (n : Nat) : (JsonValue.integer (Int.ofNat n)).natural? = some n := by
  have natural : 0 ≤ Int.ofNat n := Int.natCast_nonneg n
  rw [JsonValue.integer, JsonValue.natural?, if_pos natural]
  rfl

theorem strings?_texts (texts : List String) : (JsonValue.array (texts.map .string)).strings? = some texts := by
  rw [JsonValue.strings?]
  induction texts with
  | nil => rfl
  | cons s rest ih => simp [List.mapM_cons, JsonValue.string?, ih]

/-! ## Validation -/

/-- The schema finds nothing wrong with an entry. -/
theorem problems_toJson {e : LogEntry} (proper : e.Proper) : LogValidation.problems e.toJson.canonical = [] := by
  have field := member?_toJson proper
  simp only [LogValidation.problems, List.append_eq_nil_iff]
  refine ⟨⟨⟨⟨?required, ?named⟩, ?duration⟩, ?testEnd⟩, ?traceId⟩
  case required => simp [LogValidation.requiredFields, field, field?]
  case named =>
    have level : e.level.name ∈ LogLevel.all.map (·.name) := by cases e.level <;> decide
    have status (s : Status) : s.name ∈ Status.all.map (·.name) := by cases s <;> decide
    have phase (p : Phase) : p.name ∈ Phase.all.map (·.name) := by cases p <;> decide
    simp only [LogValidation.namedFields, LogValidation.textOf?, field, field?]
    cases e.status <;> cases e.phase <;> simp [JsonValue.string?, level, status, phase, -List.mem_map]
  case duration =>
    simp only [field, field?]
    cases e.durationMillis with
    | none => rfl
    | some n => simp only [Option.map_some, natural?_ofNat, Option.isSome_some, if_true]
  case testEnd =>
    simp only [LogValidation.textOf?, field, field?, JsonValue.string?, Option.bind_some, Option.some.injEq]
    split
    · rename_i isTest
      obtain ⟨path, status⟩ := proper.test isTest
      simp [Option.isNone_eq_false_iff.2 path, Option.isNone_eq_false_iff.2 status]
    · rfl
  case traceId => simp [LogValidation.textOf?, field, field?, JsonValue.string?, proper.traceId]

/-- A field that may be missing is read back if its values are and are not null. -/
theorem optional?_eq {v : JsonValue} (read : JsonValue → Option α) {value : Option α}
    (found : v.member? name = value.map toJson) (back : ∀ a ∈ value, toJson a ≠ .null ∧ read (toJson a) = some a) :
    v.optional? name read = some value := by
  unfold JsonValue.optional?
  rw [found]
  cases value with
  | none => rfl
  | some a =>
    -- The value is not null, so it is not taken for one that is missing.
    obtain ⟨present, same⟩ := back a rfl
    simp only [Option.map_some, same]

/-- An entry is read back from its JSON form. -/
theorem ofJson?_toJson {e : LogEntry} (proper : e.Proper) : ofJson? e.toJson.canonical = some e := by
  have field := member?_toJson proper
  have path := optional?_eq JsonValue.string? (field "path") fun _ _ => ⟨nofun, rfl⟩
  have status := optional?_eq (fun s => do Status.ofName? (← s.choiceName?)) (field "status") fun s _ =>
    ⟨nofun, s.ofName?_name⟩
  have phase := optional?_eq (fun p => do Phase.ofName? (← p.choiceName?)) (field "phase") fun p _ =>
    ⟨nofun, p.ofName?_name⟩
  have signal := optional?_eq JsonValue.string? (field "signal") fun _ _ => ⟨nofun, rfl⟩
  have exitCode := optional?_eq JsonValue.int32? (field "exit_code") fun code given =>
    ⟨nofun, if_pos (proper.exitCode code given)⟩
  have duration := optional?_eq JsonValue.natural? (field "duration_ms") fun n _ => ⟨nofun, natural?_ofNat n⟩
  have failures := optional?_eq JsonValue.strings? (field "failures") fun texts _ => ⟨nofun, strings?_texts texts⟩
  have details := optional?_eq some (field "details") fun d given => by
    obtain ⟨same, _, present⟩ := proper.details d given
    rw [same]
    exact ⟨present, rfl⟩
  have level : (JsonValue.string e.level.name).choiceName? = some e.level.name := rfl
  simp only [ofJson?, path, status, phase, signal, exitCode, duration, failures, details]
  simp [field, field?, JsonValue.string?, level, e.level.ofName?_name]

/-- **Reading back.** The line of an entry is valid, and the entry that is read from it is the same. -/
theorem validateLine_line {e : LogEntry} (proper : e.Proper) (number : Nat) : validateLine e.line number = .ok e := by
  have parsed : JsonValue.parse? e.line = some e.toJson := JsonValue.parse?_render (fits_toJson proper)
  have isObject : e.toJson.canonical.members?.isNone = false := by
    rw [toJson, JsonValue.canonical]
    rfl
  simp [validateLine, LogValidation.entryOf, parsed, isObject, problems_toJson proper, ofJson?_toJson proper]

end LogEntry

end TestIsolation
