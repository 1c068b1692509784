import TestIsolation.Outcome.Frame
import TestIsolation.Proofs.Log.Journal

/-!
# Errors in writing a log

A `ScriptedWriter` answers each request by a script, which may look at all that went before: so it stands for every
writer, also for one that fails once and works again. It keeps its calls. A log makes its requests in order and stops
at the first that fails (`Answers`). Each entry keeps this up (`LogObserver.Stands`), so it holds of every log, and
the error of a log is that of its last call.
-/

namespace TestIsolation

set_option autoImplicit false

open LogEntry (numbered)
open LogObserver (entryOf endEntry)

/-! ## Writers -/

/-- What a log can ask of its writer. -/
inductive Request where
  | write (text : String)
  | flush
  deriving DecidableEq, Repr

/-- The bytes that a request hands over. -/
def Request.bytes : Request → Bytes
  | write text => Bytes.ofString text
  | flush => []

/-- What becomes of a request. One that fails may have handed over some of its bytes. -/
inductive Reply where
  | met
  | failed (taken : Nat) (error : IoError)
  deriving DecidableEq, Repr

def Reply.result : Reply → Except IoError Unit
  | met => .ok ()
  | failed _ error => .error error

/-- A request, and what became of it. -/
structure Call where
  request : Request
  reply : Reply
  deriving DecidableEq, Repr

namespace Call

/-- The bytes that a call handed over. -/
def accepted (c : Call) : Bytes :=
  match c.reply with
  | .met => c.request.bytes
  | .failed taken _ => c.request.bytes.take taken

/-- A call that does what was asked for. -/
def ofMet (r : Request) : Call := ⟨r, .met⟩

@[simp] theorem reply_ofMet (r : Request) : (ofMet r).reply = .met := rfl

@[simp] theorem accepted_ofMet (r : Request) : (ofMet r).accepted = r.bytes := rfl

theorem reply_of_mem_map (requests : List Request) : ∀ c ∈ requests.map ofMet, c.reply = .met := by simp

theorem accepted_prefix (c : Call) : c.accepted <+: c.request.bytes := by
  rw [accepted]
  split
  · exact List.prefix_rfl
  · exact List.take_prefix ..

end Call

/-- A writer that answers as its script says, which is given all calls before. -/
structure ScriptedWriter where
  script : List Call → Request → Reply
  /-- The calls so far, in order. -/
  calls : List Call := []

namespace ScriptedWriter

/-- Makes a request. -/
def ask (w : ScriptedWriter) (r : Request) : ScriptedWriter × Except IoError Unit :=
  let reply := w.script w.calls r
  ({ w with calls := w.calls ++ [⟨r, reply⟩] }, reply.result)

instance : Writer ScriptedWriter where
  write w text := w.ask (.write text)
  flush w := w.ask .flush

/-- The bytes that a writer took, in order. -/
def accepted (w : ScriptedWriter) : Bytes := w.calls.flatMap Call.accepted

end ScriptedWriter

/-! ## Stopping at the first error -/

/-- Calls that make requests in their order up to the first that fails, and how this ends. -/
inductive Attempts (requests : List Request) : List Call → Except IoError Unit → Prop where
  | all : Attempts requests (requests.map .ofMet) (.ok ())
  | cut {before after : List Request} {r : Request} {taken : Nat} {error : IoError}
      (due : requests = before ++ r :: after) :
      Attempts requests (before.map .ofMet ++ [⟨r, .failed taken error⟩]) (.error error)

namespace Attempts

variable {requests : List Request} {calls : List Call} {result : Except IoError Unit} {error : IoError}

theorem calls_of_ok (made : Attempts requests calls (.ok ())) : calls = requests.map .ofMet := by
  cases made
  rfl

/-- After an error, more requests make no difference. -/
theorem append (made : Attempts requests calls (.error error)) (more : List Request) :
    Attempts (requests ++ more) calls (.error error) := by
  cases made with
  | cut due => exact .cut (by rw [due, List.append_assoc, List.cons_append])

/-- As long as nothing failed, the next request may be made. -/
theorem ask {w : ScriptedWriter} (made : Attempts requests w.calls (.ok ())) (r : Request) :
    Attempts (requests ++ [r]) (w.ask r).1.calls (w.ask r).2 := by
  have before : w.calls = requests.map .ofMet := made.calls_of_ok
  simp only [ScriptedWriter.ask]
  cases w.script w.calls r with
  | met =>
    have all : w.calls ++ [⟨r, .met⟩] = (requests ++ [r]).map .ofMet := by simp [before, Call.ofMet]
    rw [all]
    exact .all
  | failed taken error =>
    rw [before]
    exact .cut rfl

/-- A line is two requests, of which the second is not made if the first fails. -/
theorem writeLine {w : ScriptedWriter} (made : Attempts requests w.calls (.ok ())) (line : String) :
    Attempts (requests ++ [.write line, .write "\n"]) (Writer.writeLine w line).1.calls
      (Writer.writeLine w line).2 := by
  have first : Attempts (requests ++ [.write line]) (Writer.write w line).1.calls (Writer.write w line).2 := made.ask _
  rw [Writer.writeLine, List.append_cons]
  generalize Writer.write w line = answer at first ⊢
  obtain ⟨w', error | ⟨⟩⟩ := answer
  · exact first.append _
  · exact first.ask _

/-- All calls but the last do what was asked for, and the end is that of the last. -/
theorem exists_last (made : Attempts requests calls result) (some_ : requests ≠ []) :
    ∃ before last, calls = before ++ [last] ∧ (∀ c ∈ before, c.reply = .met) ∧ result = last.reply.result := by
  cases made with
  | all =>
    obtain ⟨before, r, rfl⟩ := (List.eq_nil_or_concat' requests).resolve_left some_
    exact ⟨before.map .ofMet, .ofMet r, by simp, Call.reply_of_mem_map before, rfl⟩
  | cut _ => exact ⟨_, _, rfl, Call.reply_of_mem_map _, rfl⟩

/-- The bytes accepted are the first of those of the requests. -/
theorem accepted_prefix (made : Attempts requests calls result) :
    calls.flatMap Call.accepted <+: requests.flatMap Request.bytes := by
  cases made with
  | all => simp [List.flatMap_map]
  | @cut before after r taken error due =>
    have last : Call.accepted ⟨r, .failed taken error⟩ <+: r.bytes ++ after.flatMap Request.bytes :=
      (Call.accepted_prefix _).trans (List.prefix_append ..)
    simpa [due, List.flatMap_map] using last

end Attempts

/-! ## Entries -/

/-- The requests that a log makes to write entries. -/
def LogEntry.requests (runId : String) (entries : List LogEntry) : List Request :=
  (numbered runId entries).flatMap fun e => [.write e.line, .write "\n"]

theorem LogEntry.requests_snoc (runId : String) (entries : List LogEntry) (e : LogEntry) :
    requests runId (entries ++ [e]) =
      requests runId entries ++ [.write (e.traced runId (entries.length + 1)).line, .write "\n"] := by
  simp [requests, numbered_snoc]

namespace LogObserver

/-- A log that works writes an entry without a trace id under the next one, and keeps the answer. -/
theorem write_bare {σ : Type} [Writer σ] {o : LogObserver σ} (working : o.error = none) {e : LogEntry}
    (bare : e.traceId = "") :
    o.write e =
      let answer := Writer.writeLine o.emitter.sink (e.traced o.emitter.runId (o.emitter.count + 1)).line
      { emitter := { sink := answer.1, runId := o.emitter.runId, count := o.emitter.count + 1 }
        error := match answer.2 with
          | .ok () => none
          | .error error => some error } := by
  simp only [LogObserver.write, working, LogEmitter.emit, bare, LogEntry.traced, if_true, Option.isSome_none,
    Bool.false_eq_true, if_false]
  generalize Writer.writeLine o.emitter.sink _ = answer
  obtain ⟨sink, error | ⟨⟩⟩ := answer <;> rfl

/-- A log that was given entries, and has stopped at the first error. -/
structure Stands (runId : String) (entries : List LogEntry) (o : LogObserver ScriptedWriter) : Prop where
  run : o.emitter.runId = runId
  count : o.error = none → o.emitter.count = entries.length
  attempts : Attempts (LogEntry.requests runId entries) o.emitter.sink.calls (o.error.elim (.ok ()) .error)

namespace Stands

variable {runId : String} {entries : List LogEntry} {o : LogObserver ScriptedWriter}

theorem start (script : List Call → Request → Reply) (runId : String) :
    Stands runId [] { emitter := { sink := { script }, runId } } :=
  ⟨rfl, fun _ => rfl, .all⟩

/-- An entry without a trace id is written unless something failed before. -/
theorem write (stands : Stands runId entries o) {e : LogEntry} (bare : e.traceId = "") :
    Stands runId (entries ++ [e]) (o.write e) := by
  obtain ⟨rfl, count, attempts⟩ := stands
  cases state : o.error with
  | some error =>
    have same : o.write e = o := by simp [LogObserver.write, state]
    rw [state] at attempts
    rw [same]
    refine ⟨rfl, by simp [state], ?_⟩
    rw [LogEntry.requests_snoc, state]
    exact attempts.append _
  | none =>
    rw [state] at attempts
    have line := attempts.writeLine (e.traced o.emitter.runId (entries.length + 1)).line
    rw [write_bare state bare, count state]
    refine ⟨rfl, by simp, ?_⟩
    rw [LogEntry.requests_snoc]
    generalize Writer.writeLine o.emitter.sink _ = answer at line ⊢
    obtain ⟨sink, error | ⟨⟩⟩ := answer <;> exact line

theorem observe (stands : Stands runId entries o) (events : List Event) :
    Stands runId (entries ++ events.map entryOf) (events.foldl LogObserver.observe o) := by
  induction events generalizing entries o with
  | nil => simpa using stands
  | cons e events ih =>
    have bare : (entryOf e).traceId = "" := by
      rw [entryOf]
      split <;> rfl
    have next := ih (stands.write bare)
    rwa [List.append_assoc] at next

/-- At the end of the run one more entry is written and the log is flushed, unless something failed before. -/
theorem finish (stands : Stands runId entries o) (t : RunTree) (now : Timestamp) :
    Attempts (LogEntry.requests runId (entries ++ [endEntry t now]) ++ [.flush])
      (o.finish t now).1.emitter.sink.calls (o.finish t now).2 := by
  have closed := (stands.write (e := endEntry t now) rfl).attempts
  rw [LogObserver.finish]
  cases state : (o.write (endEntry t now)).error with
  | some error =>
    rw [state] at closed
    exact closed.append _
  | none =>
    rw [state] at closed
    exact closed.ask _

end Stands

end LogObserver

/-! ## The bytes of a log -/

theorem Bytes.ofString_join (texts : List String) :
    Bytes.ofString (String.join texts) = texts.flatMap Bytes.ofString := by
  induction texts with
  | nil => rfl
  | cons text texts ih =>
    rw [List.flatMap_cons, ← ih]
    simp [Bytes.ofString, String.join_cons]

namespace LogObserver.Wrote

variable {runId : String} {entries : List LogEntry} {o : LogObserver}

/-- A log that nothing disturbs gives its sink the bytes of all its requests. -/
theorem bytes (wrote : Wrote runId entries o) :
    Bytes.ofString o.emitter.text = (LogEntry.requests runId entries).flatMap Request.bytes := by
  rw [LogEmitter.text, wrote.chunks, Bytes.ofString_join, LogEntry.requests]
  simp [List.flatMap_assoc, Request.bytes]

theorem finish (wrote : Wrote runId entries o) (t : RunTree) (now : Timestamp) :
    Wrote runId (entries ++ [endEntry t now]) (o.finish t now).1 := by
  have closed : Wrote runId (entries ++ [endEntry t now]) (o.write (endEntry t now)) := wrote.write rfl
  have same : (o.finish t now).1 = o.write (endEntry t now) := by simp [LogObserver.finish, closed.working]
  rwa [same]

end LogObserver.Wrote

/-- **The first error ends a log.** Whatever its writer answers, a log hands over only the first of the bytes that a
sink takes which never fails. All its calls but the last do what was asked for, and the answer to the last is that of
the log: so nothing is written after a call that failed, and its error is not lost. The log ends well exactly if all
calls did. These then handed over all bytes, and the last was to flush them. -/
theorem log_stops_at_first_error (script : List Call → Request → Reply) (runId : String) (events : List Event)
    (t : RunTree) (now : Timestamp) :
    let undisturbed : LogObserver := { emitter := { sink := {}, runId } }
    let whole := (events.foldl LogObserver.observe undisturbed).finish t now
    let start : LogObserver ScriptedWriter := { emitter := { sink := { script }, runId } }
    let log := (events.foldl LogObserver.observe start).finish t now
    let writer := log.1.emitter.sink
    let result := log.2
    writer.accepted <+: Bytes.ofString whole.1.emitter.text ∧
      (∃ before last, writer.calls = before ++ [last] ∧ (∀ c ∈ before, c.reply = .met) ∧ result = last.reply.result) ∧
      (result = .ok () ↔ ∀ c ∈ writer.calls, c.reply = .met) ∧
      (result = .ok () → writer.accepted = Bytes.ofString whole.1.emitter.text ∧
        writer.calls.getLast? = some ⟨.flush, .met⟩) := by
  intro undisturbed whole start log writer result
  let requests := LogEntry.requests runId (events.map entryOf ++ [endEntry t now])
  have attempts : Attempts (requests ++ [Request.flush]) writer.calls result :=
    ((LogObserver.Stands.start script runId).observe events).finish t now
  have bytes : Bytes.ofString whole.1.emitter.text = (requests ++ [Request.flush]).flatMap Request.bytes := by
    have wrote := ((LogObserver.Wrote.start runId .brokenPipe).observe events).finish t now
    simpa [Request.bytes] using wrote.bytes
  have allMet (ok : result = .ok ()) : writer.calls = (requests ++ [Request.flush]).map .ofMet := by
    rw [ok] at attempts
    exact attempts.calls_of_ok
  obtain ⟨before, last, calls, met, same⟩ := attempts.exists_last (by simp)
  refine ⟨?_, ⟨before, last, calls, met, same⟩, ⟨fun ok => ?_, fun all => ?_⟩, fun ok => ⟨?_, ?_⟩⟩
  · rw [bytes]
    exact attempts.accepted_prefix
  · rw [allMet ok]
    exact Call.reply_of_mem_map _
  · have lastMet : last.reply = .met := all last (by simp [calls])
    rw [same, lastMet, Reply.result]
  · rw [bytes, ScriptedWriter.accepted, allMet ok]
    simp [List.flatMap_map]
  · simp [allMet ok, Call.ofMet]

end TestIsolation
