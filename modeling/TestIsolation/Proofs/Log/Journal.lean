import TestIsolation.Log.Emitter
import TestIsolation.Proofs.Log.ReadBack
import TestIsolation.Proofs.Text.Lines
import TestIsolation.Proofs.Time.Padding

/-!
# The log of a run

As long as its sink works, a `LogObserver` writes one line for each event and one for the end of the run
(`LogObserver.Wrote`), and its trace ids count the lines (`LogEntry.numbered`). Entries on runs fit the schema, so the
text of a log divides into lines from which exactly the entries are read that were written. And what was written tells
all that is logged of the events (`told?_entries`), so a reader learns it from the text alone.
-/

namespace TestIsolation

set_option autoImplicit false

/-! ## Trace ids -/

open LogEmitter (traceId)

theorem traceId_injective (runId : String) : Function.Injective (traceId runId) := by
  intro n m same
  exact padded_injective 3 ((String.append_right_inj _).1 same)

theorem textOccursIn_traceId (runId : String) (n : Nat) : textOccursIn "::" (traceId runId n) = true := by
  have here (rest : List Char) : occursIn [':', ':'] (':' :: ':' :: rest) = true := by simp [occursIn]
  have parts : (traceId runId n).toList = runId.toList ++ ':' :: ':' :: (padded 3 n).toList := by
    simp [traceId]
  rw [textOccursIn, parts]
  exact occursIn_append (here _) _

namespace LogEntry

/-- An entry with the trace id of a number. -/
def traced (runId : String) (e : LogEntry) (n : Nat) : LogEntry := { e with traceId := LogEmitter.traceId runId n }

/-- Entries with the trace ids that a run gives them, from one on. -/
def numbered (runId : String) (entries : List LogEntry) : List LogEntry :=
  (entries.zipIdx 1).map fun (e, n) => e.traced runId n

theorem numbered_snoc (runId : String) (entries : List LogEntry) (e : LogEntry) :
    numbered runId (entries ++ [e]) =
      numbered runId entries ++ [e.traced runId (entries.length + 1)] := by
  simp [numbered, List.zipIdx_append, Nat.add_comm]

theorem traceIds_numbered (runId : String) (entries : List LogEntry) :
    (numbered runId entries).map (·.traceId) = (List.range' 1 entries.length).map (LogEmitter.traceId runId) := by
  rw [numbered, List.map_map, ← List.zipIdx_map_snd 1 entries, List.map_map]
  rfl

theorem mem_numbered {runId : String} {entries : List LogEntry} {e : LogEntry} (mem : e ∈ numbered runId entries) :
    ∃ bare ∈ entries, ∃ n, e = bare.traced runId n := by
  obtain ⟨given, placed, rfl⟩ := List.mem_map.1 mem
  exact ⟨given.1, List.fst_mem_of_mem_zipIdx placed, given.2, rfl⟩

end LogEntry

open LogEntry (numbered)

/-! ## Entries on runs -/

/-- An exit code that a process can have. -/
def Run.CodeFits (r : Run) : Prop :=
  ∀ code ∈ r.exit.bind (·.code?), Int32.minValue.toInt ≤ code ∧ code ≤ Int32.maxValue.toInt

namespace LogObserver

variable {runId : String}

theorem millis_lt (r : Run) : r.millis < UInt64.size := by
  have size : UInt64.size = 18446744073709551616 := rfl
  rw [Run.millis]
  omega

/-- Details with one text are as the reader finds them. -/
theorem details_note (name text : String) :
    (JsonValue.object [(name, .string text)]).canonical = .object [(name, .string text)] ∧
      (JsonValue.object [(name, .string text)]).fits (JsonReader.maxDepth - 1) = true ∧
      JsonValue.object [(name, .string text)] ≠ .null :=
  ⟨rfl, rfl, nofun⟩

theorem member?_note (name text : String) :
    (JsonValue.object [(name, .string text)]).member? name = some (.string text) := by
  simp [JsonValue.member?, JsonValue.members?]

/-- The entry on an event fits the schema once it has a trace id. -/
theorem proper_entryOf {e : Event} (fits : e.run.CodeFits) (n : Nat) :
    ((entryOf e).traced runId n).Proper := by
  have settled (event : String) : ((settledEntry event e.run e.time).traced runId n).Proper := {
    exitCode := fits
    duration := by
      rintro _ ⟨⟩
      exact millis_lt e.run
    details := by
      intro d given
      obtain ⟨reason, _, rfl⟩ := Option.map_eq_some_iff.1 given
      exact details_note ..
    traceId := textOccursIn_traceId runId n
    test := fun _ => ⟨rfl, rfl⟩ }
  cases kind : e.kind with
  | testFinished => simpa only [entryOf, kind] using settled "test_end"
  | suiteFinished => simpa only [entryOf, kind] using settled "suite_end"
  | suiteStarted =>
    simp only [entryOf, kind]
    have other : "suite_start" ≠ "test_end" := by decide
    exact ⟨nofun, nofun, nofun, textOccursIn_traceId runId n, fun isTest => absurd isTest other⟩

/-- The entry on the end of a run fits the schema once it has a trace id. -/
theorem proper_endEntry (t : RunTree) (now : Timestamp) (n : Nat) :
    ((endEntry t now).traced runId n).Proper where
  exitCode := by
    rintro _ ⟨⟩
    rw [RunTree.exitCode]
    split <;> decide
  duration := by
    intro _ given
    obtain ⟨r, _, rfl⟩ := Option.map_eq_some_iff.1 given
    exact millis_lt r
  details := by
    rintro _ ⟨⟩
    exact details_note ..
  traceId := textOccursIn_traceId runId n
  test := by
    have other : "run_end" ≠ "test_end" := by decide
    exact fun isTest => absurd isTest other

end LogObserver

/-! ## What entries tell -/

/-- How a process ended, as a log tells it. -/
inductive LoggedExit where
  | exited (code : Int)
  /-- A signal goes by its name. -/
  | signaled (name : String)
  deriving DecidableEq, Repr

/-- How a run ended, as a log tells it. -/
structure LoggedRun where
  status : Status
  phase : Option Phase
  exit : Option LoggedExit
  millis : Nat
  failures : List String
  reason : Option String
  deriving DecidableEq, Repr

/-- An event, as a log tells it. -/
structure LoggedEvent where
  level : LogLevel
  kind : EventKind
  time : String
  path : String
  /-- How the run ended; nothing where it only started. -/
  run : Option LoggedRun
  deriving DecidableEq, Repr

/-- What a log tells of an exit. -/
def ExitCondition.logged : ExitCondition → LoggedExit
  | .exited code => .exited code
  | .signaled signal => .signaled (signalName signal)

/-- What a log tells of a run that ended. -/
def Run.logged (r : Run) : LoggedRun :=
  ⟨r.status, r.phase, r.exit.map (·.logged), r.millis, r.failures.map Failure.render, r.reason⟩

/-- What a log tells of an event. -/
def Event.logged (e : Event) : LoggedEvent :=
  let about (level : LogLevel) (run : Option LoggedRun) : LoggedEvent := ⟨level, e.kind, e.time.utc, e.run.path, run⟩
  match e.kind with
  | .suiteStarted => about .info none
  | .testFinished | .suiteFinished => about (.ofStatus e.run.status) (some e.run.logged)

namespace LogEntry

/-- The kind of event that an entry is on. -/
def kind? (e : LogEntry) : Option EventKind :=
  match e.event with
  | "suite_start" => some .suiteStarted
  | "test_end" => some .testFinished
  | "suite_end" => some .suiteFinished
  | _ => none

/-- How an entry says that a process ended, if it does not say it in two ways. -/
def exit? (e : LogEntry) : Option (Option LoggedExit) :=
  match e.exitCode, e.signal with
  | none, none => some none
  | some code, none => some (some (.exited code))
  | none, some name => some (some (.signaled name))
  | some _, some _ => none

/-- How an entry says that a run ended. -/
def run? (e : LogEntry) : Option LoggedRun := do
  let reason := e.details.bind fun details => (details.member? "reason").bind (·.string?)
  return ⟨← e.status, e.phase, ← e.exit?, ← e.durationMillis, e.failures.getD [], reason⟩

/-- What a reader learns from an entry on an event. -/
def told? (e : LogEntry) : Option LoggedEvent := do
  return ⟨e.level, ← e.kind?, e.timestamp, ← e.path, e.run?⟩

@[simp] theorem told?_traced (runId : String) (e : LogEntry) (n : Nat) : (e.traced runId n).told? = e.told? := rfl

theorem filterMap_told?_numbered (runId : String) (entries : List LogEntry) :
    (numbered runId entries).filterMap (·.told?) = entries.filterMap (·.told?) := by
  conv_rhs => rw [← List.zipIdx_map_fst 1 entries]
  simp only [numbered, List.filterMap_map, Function.comp_def, told?_traced]

end LogEntry

namespace LogObserver

theorem run?_settledEntry (event : String) (r : Run) (time : Timestamp) :
    (settledEntry event r time).run? = some r.logged := by
  have exit : (settledEntry event r time).exit? = some (r.exit.map (·.logged)) := by
    rcases ended : r.exit with _ | code | signal <;>
      simp [LogEntry.exit?, settledEntry, ended, ExitCondition.code?, ExitCondition.signal?, ExitCondition.logged]
  have failures : ((settledEntry event r time).failures).getD [] = r.failures.map Failure.render := by
    by_cases none : r.failures = [] <;> simp [settledEntry, none]
  have reason : ((settledEntry event r time).details.bind fun details =>
      (details.member? "reason").bind (·.string?)) = r.reason := by
    cases given : r.reason <;> simp [settledEntry, given, member?_note, JsonValue.string?]
  simp only [LogEntry.run?, exit, failures, reason]
  simp [settledEntry, Run.logged]

/-- **An entry tells its event**: all that is logged of it can be read from the entry. -/
theorem told?_entryOf (e : Event) : (entryOf e).told? = some e.logged := by
  cases kind : e.kind with
  | suiteStarted => simp [entryOf, LogEntry.told?, LogEntry.kind?, LogEntry.run?, Event.logged, kind]
  | testFinished | suiteFinished =>
    simp only [entryOf, kind, LogEntry.told?, run?_settledEntry]
    simp [LogEntry.kind?, settledEntry, Event.logged, kind]

/-- The entry on the end of a run is on no event. -/
theorem told?_endEntry (t : RunTree) (now : Timestamp) : (endEntry t now).told? = none := rfl

/-- **The entries of a log tell its events**, in their order, and nothing else. -/
theorem told?_entries (runId : String) (events : List Event) (t : RunTree) (now : Timestamp) :
    (numbered runId (events.map entryOf ++ [endEntry t now])).filterMap (·.told?) = events.map (·.logged) := by
  rw [LogEntry.filterMap_told?_numbered, List.filterMap_append, List.filterMap_map]
  simp [told?_entryOf, told?_endEntry]

/-! ## Writing -/

variable {runId : String}

/-- A log without errors that holds entries, numbered by their order. -/
structure Wrote (runId : String) (entries : List LogEntry) (o : LogObserver) : Prop where
  working : o.error = none
  whole : o.emitter.sink.fault = .never
  run : o.emitter.runId = runId
  count : o.emitter.count = entries.length
  chunks : o.emitter.sink.accepted = (numbered runId entries).flatMap fun e => [e.line, "
"]

namespace Wrote

variable {entries : List LogEntry} {o : LogObserver}

theorem start (runId : String) (error : IoError) : Wrote runId [] { emitter := { sink := { error }, runId } } :=
  ⟨rfl, rfl, rfl, rfl, rfl⟩

/-- An entry without a trace id is written on a line of its own, with the next one. -/
theorem write (wrote : Wrote runId entries o) {e : LogEntry} (bare : e.traceId = "") :
    Wrote runId (entries ++ [e]) (o.write e) := by
  obtain ⟨working, whole, rfl, count, chunks⟩ := wrote
  have written : o.write e = { o with emitter := { o.emitter with
      count := o.emitter.count + 1
      sink := { o.emitter.sink with chunks := "
" ::
        (e.traced o.emitter.runId (o.emitter.count + 1)).line :: o.emitter.sink.chunks } } } := by
    simp [LogObserver.write, working, LogEmitter.emit, bare, Sink.write, whole, LogEntry.traced]
  rw [written]
  refine ⟨working, whole, rfl, ?_, ?_⟩
  · simp [count]
  · rw [LogEntry.numbered_snoc, List.flatMap_append, ← chunks, ← count]
    simp [Sink.accepted]

theorem observe (wrote : Wrote runId entries o) (events : List Event) :
    Wrote runId (entries ++ events.map entryOf) (events.foldl LogObserver.observe o) := by
  induction events generalizing entries o with
  | nil => simpa using wrote
  | cons e events ih =>
    have bare : (entryOf e).traceId = "" := by
      rw [entryOf]
      split <;> rfl
    have next := ih (wrote.write bare)
    rwa [List.append_assoc] at next

/-- The text of a log is the lines of its entries, each ended by a line feed. -/
theorem text (wrote : Wrote runId entries o) : o.emitter.text.toList =
    ((numbered runId entries).map fun e => e.line.toList).flatMap (· ++ ['
']) := by
  rw [LogEmitter.text, wrote.chunks, String.toList_join, List.flatMap_map]
  simp [List.flatMap_assoc]

end Wrote

end LogObserver

open LogObserver (entryOf endEntry)

theorem LogEntry.line_ne_empty (e : LogEntry) : e.line ≠ "" := by
  intro empty
  have nothing : e.line.toList = [] := by rw [empty, String.toList_empty]
  rw [line, JsonValue.render, String.toList_ofList, toJson, JsonValue.chars] at nothing
  exact List.cons_ne_nil _ _ nothing

/-- **A log reads back as written.** The text of a log divides at its line feeds into one line for each event and one
for the end of the run, in order, with nothing after them. No line is empty, and each is valid and read as the entry
that was written: the entry on its event with the next trace id, and these are all different. -/
theorem log_reads_back (runId : String) (error : IoError) (events : List Event) (t : RunTree) (now : Timestamp)
    (fits : ∀ e ∈ events, e.run.CodeFits) :
    let o := events.foldl LogObserver.observe { emitter := { sink := { error }, runId } }
    let log := (o.finish t now).1
    let entries := numbered runId (events.map entryOf ++ [endEntry t now])
    (o.finish t now).2 = .ok () ∧
      (splitLines log.emitter.text.toList).map String.ofList = entries.map LogEntry.line ++ [""] ∧
      (∀ e ∈ entries, e.line ≠ "" ∧ ∀ number, validateLine e.line number = .ok e) ∧
      entries.map (·.traceId) = (List.range' 1 (events.length + 1)).map (fun n => runId ++ "::" ++ padded 3 n) ∧
      (entries.map (·.traceId)).Nodup := by
  intro o log entries
  have wrote : LogObserver.Wrote runId (events.map entryOf ++ [endEntry t now]) (o.write (endEntry t now)) :=
    ((LogObserver.Wrote.start runId error).observe events).write rfl
  have finished : o.finish t now = (o.write (endEntry t now), .ok ()) := by
    simp [LogObserver.finish, wrote.working, Sink.flush, wrote.whole]
  have proper : ∀ e ∈ entries, e.Proper := by
    intro e mem
    obtain ⟨bare, given, n, rfl⟩ := LogEntry.mem_numbered mem
    rcases List.mem_append.1 given with given | isEnd
    · obtain ⟨event, happened, rfl⟩ := List.mem_map.1 given
      exact LogObserver.proper_entryOf (fits event happened) n
    · obtain rfl := List.mem_singleton.1 isEnd
      exact LogObserver.proper_endEntry t now n
  have ids : entries.map (·.traceId) = (List.range' 1 (events.length + 1)).map (LogEmitter.traceId runId) := by
    rw [LogEntry.traceIds_numbered]
    simp
  refine ⟨congrArg Prod.snd finished, ?_, fun e mem => ⟨e.line_ne_empty, LogEntry.validateLine_line (proper e mem)⟩,
    ids, ?_⟩
  · have whole : ∀ line ∈ entries.map (·.line.toList), '\n' ∉ line := by
      intro line isLine
      obtain ⟨e, mem, rfl⟩ := List.mem_map.1 isLine
      rw [LogEntry.line, JsonValue.render, String.toList_ofList]
      exact JsonValue.newline_notMem_chars e.toJson (LogEntry.fits_toJson (proper e mem))
    have same : log = o.write (endEntry t now) := congrArg Prod.fst finished
    rw [same, wrote.text, splitLines_ended whole]
    simp [entries]
  · rw [ids]
    exact List.Nodup.map (traceId_injective runId) List.nodup_range'

/-- A run whose texts hold all that a careless writer of lines would stumble over. -/
def awkwardRun : Run :=
  { node := 1, path := "all::a \"quoted\"\nname \\ \x00 ü 😀", depth := 1, isSuite := false, status := .failed
    startedAt := some 0, endedAt := some 86400000, phase := some .exec, exit := some (.exited (-2147483648))
    reason := some "first line\nsecond line\r\n", console := "\n\n"
    failures := [⟨"x = \"\n\"", ⟨"src/lib", 4294967295, "f"⟩, "\x1b[1mbold\x1b[0m\n", true⟩] }

/-- A log of a run whose texts hold line feeds, quotes, control characters and more than ASCII reads back as written,
under a run id that holds a line feed of its own. -/
theorem log_reads_back_awkward :
    let events : List Event := [⟨.suiteStarted, awkwardRun, 0⟩, ⟨.testFinished, awkwardRun, 86400000⟩,
      ⟨.suiteFinished, awkwardRun, 86400000⟩]
    let runId := "run\n\"1\""
    let t : RunTree := ⟨[awkwardRun], [[]]⟩
    let o := events.foldl LogObserver.observe { emitter := { sink := {}, runId } }
    let log := (o.finish t 86400001).1
    let entries := numbered runId (events.map entryOf ++ [endEntry t 86400001])
    (∀ e ∈ events, e.run.CodeFits) ∧ (o.finish t 86400001).2 = .ok () ∧
      (splitLines log.emitter.text.toList).map String.ofList = entries.map LogEntry.line ++ [""] ∧
      (∀ e ∈ entries, e.line ≠ "" ∧ ∀ number, validateLine e.line number = .ok e) ∧
      entries.map (·.traceId) = (List.range' 1 4).map (fun n => runId ++ "::" ++ padded 3 n) ∧
      (entries.map (·.traceId)).Nodup := by
  intro events runId t
  have fits : ∀ e ∈ events, e.run.CodeFits := by
    have code : awkwardRun.CodeFits := by
      rintro _ ⟨⟩
      decide
    intro e mem
    simp only [events, List.mem_cons, List.not_mem_nil, or_false] at mem
    obtain rfl | rfl | rfl := mem <;> exact code
  exact ⟨fits, log_reads_back runId .brokenPipe events t 86400001 fits⟩

end TestIsolation
