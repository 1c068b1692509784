import TestIsolation.Proofs.Log.ReadBack

/-!
# What an accepted line states

A line is checked twice: the schema looks at the members of its object, and the reader of entries makes values of them.
`JsonValue.stated?` is what the last member of a name states, by neither of the two. The entry of an accepted line has
in every field what the line states there (`accepted_as_stated`). The two views part at null, which is a member for the
schema and no value for the reader: so an entry on the end of a test can lack the name or the status of its test.
-/

namespace TestIsolation

set_option autoImplicit false

namespace JsonValue

/-- The last member of a name, in canonical form. -/
def last? (members : List (String × JsonValue)) (name : String) : Option JsonValue :=
  (members.reverse.lookup name).map canonical

/-- A value as a field of an entry has it: a choice of names may also be written as an object with that name alone and
null. -/
def asField (name : String) (v : JsonValue) : JsonValue :=
  if name ∈ LogValidation.namedFields.map (·.1) then (v.choiceName?.map .string).getD v else v

/-- What an object states about a field, in its last member of that name; null states nothing. -/
def stated? (members : List (String × JsonValue)) (name : String) : Option JsonValue :=
  match last? members name with
  | none | some .null => none
  | some v => some (v.asField name)

end JsonValue

open JsonValue (last? stated?)
open LogValidation (namedFields)

variable {α : Type} {members : List (String × JsonValue)} {name : String} {v : JsonValue}

theorem JsonValue.stated?_of_last (last : last? members name = some v) (present : v ≠ .null) :
    stated? members name = some (v.asField name) := by
  rw [stated?, last]
  cases v <;> first | rfl | exact absurd rfl present

theorem JsonValue.stated?_eq_none :
    stated? members name = none ↔ last? members name = none ∨ last? members name = some .null := by
  rw [stated?]
  split <;> simp_all

theorem JsonValue.eq_texts {items : List JsonValue} {texts : List String}
    (readable : items.mapM JsonValue.string? = some texts) : items = texts.map .string := by
  induction items generalizing texts with
  | nil =>
    cases readable
    rfl
  | cons w rest ih =>
    simp only [List.mapM_cons, Option.bind_eq_bind, Option.bind_eq_some_iff, Option.pure_def,
      Option.some.injEq] at readable
    obtain ⟨text, first, others, found, rfl⟩ := readable
    rw [List.map_cons, ← ih found]
    cases w <;> simp_all [JsonValue.string?]

/-! ## Reading a field -/

/-- A reader of a field tells each value that it reads by what it makes of it. -/
def Tells (name : String) (read : JsonValue → Option α) (toJson : α → JsonValue) : Prop :=
  ∀ v a, read v = some a → v.asField name = toJson a

namespace Tells

variable {read : JsonValue → Option α} {toJson : α → JsonValue}

/-- What is read from a field that may be missing is what the object states. -/
theorem optional (tells : Tells name read toJson) {value : Option α}
    (found : (JsonValue.object members).canonical.optional? name read = some value) :
    stated? members name = value.map toJson := by
  rw [JsonValue.optional?, JsonValue.member?_canonical_last, ← last?] at found
  split at found
  · rename_i missing
    cases found
    rw [stated?, missing]
    rfl
  · rename_i null
    cases found
    rw [stated?, null]
    rfl
  · rename_i present last
    obtain ⟨a, readable, rfl⟩ := Option.map_eq_some_iff.1 found
    rw [JsonValue.stated?_of_last last present, tells _ a readable, Option.map_some]

/-- So is what is read from a field that has to be there. -/
theorem required (tells : Tells name read toJson) (noNull : read .null = none) {a : α}
    (member : (JsonValue.object members).canonical.member? name = some v) (readable : read v = some a) :
    stated? members name = some (toJson a) := by
  rw [JsonValue.member?_canonical_last, ← last?] at member
  have present : v ≠ .null := by
    rintro rfl
    simp [noNull] at readable
  rw [JsonValue.stated?_of_last member present, tells v a readable]

/-- A field that holds one of some names. -/
theorem choice (named : name ∈ namedFields.map (·.1)) {ofName? : String → Option α} {nameOf : α → String}
    (same : ∀ {text a}, ofName? text = some a → nameOf a = text) :
    Tells name (fun v => do ofName? (← v.choiceName?)) (fun a => .string (nameOf a)) := by
  intro v a readable
  obtain ⟨text, choice, known⟩ := Option.bind_eq_some_iff.1 readable
  rw [JsonValue.asField, if_pos named, choice]
  exact congrArg JsonValue.string (same known).symm

theorem level : Tells "level" (fun v => do LogLevel.ofName? (← v.choiceName?)) (fun l => .string l.name) :=
  choice (by decide) fun known => by simpa using List.find?_some known

theorem status : Tells "status" (fun v => do Status.ofName? (← v.choiceName?)) (fun s => .string s.name) :=
  choice (by decide) fun known => by simpa using List.find?_some known

theorem phase : Tells "phase" (fun v => do Phase.ofName? (← v.choiceName?)) (fun p => .string p.name) :=
  choice (by decide) fun known => by simpa using List.find?_some known

/-! Of other fields, the value itself is the form. -/

variable (plain : name ∉ namedFields.map (·.1))

include plain

theorem same : Tells name some id := by
  rintro v _ ⟨⟩
  rw [JsonValue.asField, if_neg plain, id]

theorem string : Tells name JsonValue.string? .string := by
  intro v a readable
  rw [JsonValue.asField, if_neg plain]
  cases v with
  | string s => exact congrArg _ (Option.some.inj readable)
  | _ => cases readable

theorem int32 : Tells name JsonValue.int32? .integer := by
  intro v a readable
  rw [JsonValue.asField, if_neg plain]
  unfold JsonValue.int32? at readable
  split at readable
  · obtain ⟨_, same⟩ := Option.ite_none_right_eq_some.1 readable
    cases same
    rfl
  · cases readable

theorem natural : Tells name JsonValue.natural? (fun n => .integer (Int.ofNat n)) := by
  intro v a readable
  rw [JsonValue.asField, if_neg plain]
  unfold JsonValue.natural? at readable
  split at readable
  · obtain ⟨natural, same⟩ := Option.ite_none_right_eq_some.1 readable
    cases same
    exact congrArg JsonValue.integer (Int.toNat_of_nonneg natural).symm
  · cases readable

theorem strings : Tells name JsonValue.strings? (fun texts => .array (texts.map .string)) := by
  intro v a readable
  rw [JsonValue.asField, if_neg plain]
  cases v with
  | array items => rw [JsonValue.eq_texts readable]
  | _ => cases readable

end Tells

/-! ## Reading an entry -/

namespace LogEntry

variable {e : LogEntry}

/-- The fields of an entry that have a form of their own. Details are anything. -/
def fieldNames : List String :=
  ["timestamp", "trace_id", "level", "event", "path", "status", "phase", "signal", "exit_code", "duration_ms",
    "failures"]

/-- An entry has in every field what the object states that it was read from. -/
theorem stated_of_ofJson? (read : ofJson? (JsonValue.object members).canonical = some e) :
    (∀ name ∈ fieldNames, stated? members name = e.field? name) ∧ stated? members "details" = e.details := by
  rw [ofJson?] at read
  obtain ⟨_, timestamp, read⟩ := Option.bind_eq_some_iff.1 read
  obtain ⟨_, isText, read⟩ := Option.bind_eq_some_iff.1 read
  obtain ⟨_, traceId, read⟩ := Option.bind_eq_some_iff.1 read
  obtain ⟨_, isId, read⟩ := Option.bind_eq_some_iff.1 read
  obtain ⟨_, level, read⟩ := Option.bind_eq_some_iff.1 read
  obtain ⟨_, isName, read⟩ := Option.bind_eq_some_iff.1 read
  obtain ⟨_, isLevel, read⟩ := Option.bind_eq_some_iff.1 read
  obtain ⟨_, event, read⟩ := Option.bind_eq_some_iff.1 read
  obtain ⟨_, isEvent, read⟩ := Option.bind_eq_some_iff.1 read
  obtain ⟨_, path, read⟩ := Option.bind_eq_some_iff.1 read
  obtain ⟨_, status, read⟩ := Option.bind_eq_some_iff.1 read
  obtain ⟨_, phase, read⟩ := Option.bind_eq_some_iff.1 read
  obtain ⟨_, signal, read⟩ := Option.bind_eq_some_iff.1 read
  obtain ⟨_, exitCode, read⟩ := Option.bind_eq_some_iff.1 read
  obtain ⟨_, duration, read⟩ := Option.bind_eq_some_iff.1 read
  obtain ⟨_, failures, read⟩ := Option.bind_eq_some_iff.1 read
  obtain ⟨_, details, read⟩ := Option.bind_eq_some_iff.1 read
  cases read
  refine ⟨?_, by simpa using Tells.optional (.same (by decide)) details⟩
  have named : (fun v => do LogLevel.ofName? (← JsonValue.choiceName? v)) _ = _ :=
    Option.bind_eq_some_iff.2 ⟨_, isName, isLevel⟩
  simp only [fieldNames, List.forall_mem_cons, field?]
  exact ⟨Tells.required (.string (by decide)) rfl timestamp isText,
    Tells.required (.string (by decide)) rfl traceId isId,
    Tells.level.required rfl level named,
    Tells.required (.string (by decide)) rfl event isEvent,
    Tells.optional (.string (by decide)) path,
    Tells.status.optional status,
    Tells.phase.optional phase,
    Tells.optional (.string (by decide)) signal,
    Tells.optional (.int32 (by decide)) exitCode,
    Tells.optional (.natural (by decide)) duration,
    Tells.optional (.strings (by decide)) failures,
    List.forall_mem_nil _⟩

end LogEntry

/-! ## Lines -/

namespace LogValidation

/-- An accepted line is an object in which the schema finds nothing wrong, and its entry is read from that. -/
theorem of_validateLine {text : String} {number : Nat} {e : LogEntry} (valid : validateLine text number = .ok e) :
    ∃ members, JsonValue.parse? text = some (.object members) ∧
      problems (JsonValue.object members).canonical = [] ∧
      LogEntry.ofJson? (JsonValue.object members).canonical = some e := by
  have accepted : entryOf text = .ok e := by
    rw [validateLine] at valid
    split at valid
    · rename_i e' read
      cases valid
      exact read
    · cases valid
  rw [entryOf] at accepted
  split at accepted
  · cases accepted
  · rename_i canonical
    obtain ⟨v, parsed, rfl⟩ := Option.map_eq_some_iff.1 canonical
    split at accepted
    · cases accepted
    · rename_i isObject
      obtain ⟨members, rfl⟩ : ∃ members, v = .object members := by
        cases v <;> simp [JsonValue.canonical, JsonValue.members?] at isObject ⊢
      refine ⟨members, parsed, ?_⟩
      split at accepted
      · rename_i nothing
        split at accepted
        · rename_i read
          cases accepted
          exact ⟨nothing, read⟩
        · cases accepted
      · cases accepted

/-- A line is accepted with an entry of some kind if that can be seen. -/
theorem exists_accepted (text : String) (number : Nat) (kind : LogEntry → Prop) [DecidablePred kind]
    (seen : (validateLine text number).toOption.any kind = true) : ∃ e, validateLine text number = .ok e ∧ kind e := by
  cases valid : validateLine text number with
  | ok e =>
    rw [valid] at seen
    exact ⟨e, rfl, of_decide_eq_true seen⟩
  | error issues =>
    rw [valid] at seen
    cases seen

theorem textOf?_of_stated (plain : name ∉ namedFields.map (·.1)) {text : String}
    (states : stated? members name = some (.string text)) :
    textOf? (JsonValue.object members).canonical name = some text := by
  rw [textOf?, JsonValue.member?_canonical_last, ← last?]
  rw [JsonValue.stated?] at states
  split at states
  · cases states
  · cases states
  · rename_i last
    rw [JsonValue.asField, if_neg plain] at states
    cases states
    rw [last]
    rfl

/-- In a line without problems the trace id is in the form of one. -/
theorem traceId_of_problems {v : JsonValue} {id : String} (none_ : problems v = [])
    (found : textOf? v "trace_id" = some id) : textOccursIn "::" id = true := by
  simp only [problems, List.append_eq_nil_iff] at none_
  have checked := none_.2
  rw [found] at checked
  simpa using checked

/-- In a line without problems that is on the end of a test there are a path and a status. -/
theorem members_of_problems {v : JsonValue} (none_ : problems v = [])
    (isTest : textOf? v "event" = some "test_end") : ∀ name ∈ ["path", "status"], (v.member? name).isSome := by
  simp only [problems, List.append_eq_nil_iff] at none_
  have checked := none_.1.2
  rw [if_pos isTest, List.map_eq_nil_iff, List.filter_eq_nil_iff] at checked
  intro name required
  simpa [Option.isSome_iff_ne_none] using checked name required

end LogValidation

/-- **An accepted line is taken at its word.** It is a JSON object, and the entry has in every field what the last
member of that name states, the details included. The trace id has the form of one. On the end of a test the path and
the status are there, but may be null: then, and only then, the entry has none. -/
theorem accepted_as_stated {text : String} {number : Nat} {e : LogEntry} (valid : validateLine text number = .ok e) :
    ∃ members, JsonValue.parse? text = some (.object members) ∧
      (∀ name ∈ LogEntry.fieldNames, stated? members name = e.field? name) ∧ stated? members "details" = e.details ∧
      textOccursIn "::" e.traceId = true ∧
      (e.event = "test_end" →
        (e.path = none ↔ last? members "path" = some .null) ∧
          (e.status = none ↔ last? members "status" = some .null)) := by
  obtain ⟨members, parsed, nothing, read⟩ := LogValidation.of_validateLine valid
  obtain ⟨fields, details⟩ := LogEntry.stated_of_ofJson? read
  have traceId : stated? members "trace_id" = some (.string e.traceId) := fields _ (by decide)
  have event : stated? members "event" = some (.string e.event) := fields _ (by decide)
  refine ⟨members, parsed, fields, details,
    LogValidation.traceId_of_problems nothing (LogValidation.textOf?_of_stated (by decide) traceId), fun isTest => ?_⟩
  rw [isTest] at event
  -- Neither of the two is missing, so what states nothing is null.
  have null {name : String} (required : name ∈ ["path", "status"]) :
      stated? members name = none ↔ last? members name = some .null := by
    have isTest := LogValidation.textOf?_of_stated (by decide) event
    have there := LogValidation.members_of_problems nothing isTest name required
    rw [JsonValue.member?_canonical_last, ← last?] at there
    rw [JsonValue.stated?_eq_none]
    refine ⟨fun missing => missing.resolve_left fun none_ => ?_, .inr⟩
    simp [none_] at there
  have path : stated? members "path" = e.path.map .string := fields _ (by decide)
  have status : stated? members "status" = e.status.map fun s => .string s.name := fields _ (by decide)
  constructor
  · rw [← null (by decide), path, Option.map_eq_none_iff]
  · rw [← null (by decide), status, Option.map_eq_none_iff]

/-- A line with its level in an object, two paths, and a status that is null. -/
def twofoldLine : String :=
  "\x7b\"timestamp\":\"2026-01-01T00:00:00Z\",\"trace_id\":\"a::b\",\"level\":\x7b\"error\":null\x7d," ++
    "\"event\":\"test_end\",\"path\":1,\"path\":\"s::t\",\"status\":null,\"phase\":\"exec\"\x7d"

theorem accepted_as_stated_twofold :
    ∃ e, validateLine twofoldLine 1 = .ok e ∧
      (e.level, e.path, e.status, e.phase) = (.error, some "s::t", none, some .exec) ∧
      ∃ members, JsonValue.parse? twofoldLine = some (.object members) ∧
        (∀ name ∈ LogEntry.fieldNames, stated? members name = e.field? name) ∧ stated? members "details" = e.details ∧
        textOccursIn "::" e.traceId = true ∧
        (e.event = "test_end" →
          (e.path = none ↔ last? members "path" = some .null) ∧
            (e.status = none ↔ last? members "status" = some .null)) := by
  obtain ⟨e, valid, shape⟩ := LogValidation.exists_accepted twofoldLine 1
    (fun e => (e.level, e.path, e.status, e.phase) = (.error, some "s::t", none, some .exec)) (by decide +kernel)
  exact ⟨e, valid, shape, accepted_as_stated valid⟩

/-- A line on the end of a test that has a path and a status, of which neither says anything. -/
def namelessLine : String :=
  "\x7b\"timestamp\":\"2026-01-01T00:00:00Z\",\"trace_id\":\"a::b\",\"level\":\"info\"," ++
    "\"event\":\"test_end\",\"path\":null,\"status\":null\x7d"

/-- The schema takes a null for the name and the status of a test. -/
theorem test_end_of_no_test :
    ∃ e, validateLine namelessLine 1 = .ok e ∧ e.event = "test_end" ∧ e.path = none ∧ e.status = none := by
  exact LogValidation.exists_accepted namelessLine 1
    (fun e => e.event = "test_end" ∧ e.path = none ∧ e.status = none) (by decide +kernel)

end TestIsolation
