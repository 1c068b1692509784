import TestIsolation.Proofs.Schedule.Operations

/-!
# What is captured of a console

What a unit prints reaches the scheduler in reads, and each read updates the room that is left and the note that there
was more. A capture is at any time that of the stream read so far (`Capture.takeAll_ofStream`), so the cuts leave no
trace in it. Of all that is done with a unit only the looks at its pipes add to the stream
(`Supervision.pipes_performAll`), and nothing does once the console is at its end (`Supervision.capture_pumpAll`).
-/

namespace TestIsolation

set_option autoImplicit false

namespace Capture

/-- The capture of a stream: its first bytes, up to the limit, and whether there are more. -/
def ofStream (limit : Nat) (stream : Bytes) : Capture := ⟨limit, stream.take limit, decide (limit < stream.length)⟩

/-- **A read goes to the end of the stream.** -/
theorem take_ofStream (limit : Nat) (stream read : Bytes) :
    (ofStream limit stream).take read = ofStream limit (stream ++ read) := by
  have room : limit - (stream.take limit).length = limit - stream.length := by
    rw [List.length_take]
    omega
  have more : (decide (limit < stream.length) || decide (limit - stream.length < read.length)) =
      decide (limit < (stream ++ read).length) := by
    rw [List.length_append, ← Bool.decide_or, decide_eq_decide]
    omega
  simp only [take, ofStream, room, more, List.take_append]

theorem takeAll_ofStream (limit : Nat) (stream : Bytes) (reads : List Bytes) :
    (ofStream limit stream).takeAll reads = ofStream limit (stream ++ reads.flatten) := by
  induction reads generalizing stream with
  | nil => rw [List.flatten_nil, List.append_nil]; rfl
  | cons read reads ih =>
    rw [takeAll, List.foldl_cons, take_ofStream, List.flatten_cons, ← List.append_assoc]
    exact ih _

theorem text_ofStream (limit : Nat) (stream : Bytes) :
    (ofStream limit stream).text =
      Bytes.toStringLossy (stream.take limit) ++ if limit < stream.length then truncationNote else "" := by
  by_cases more : limit < stream.length <;> simp [text, ofStream, more]

end Capture

/-- What was read from a console in turn, up to its end. -/
def PipeReads.printed : List PipeReads → List Bytes
  | [] => []
  | reads :: later => reads.console ++ if reads.consoleEnded then [] else printed later

namespace Supervision

/-- What the pipes of a unit gave in turn. Of the questions for the unit's end only the first that finds it reads. -/
def Operation.readings (found : Bool) : List Operation → List PipeReads
  | [] => []
  | pump reads :: ops => reads :: readings found ops
  | reap (some _) rest :: ops => if found then readings found ops else rest :: readings true ops
  | reap none _ :: ops | enforceDeadline _ :: ops | kill _ :: ops => readings found ops

theorem Operation.readings_of_request {op : Operation} (request : op.observes = false) (found : Bool)
    (ops : List Operation) : readings found (op :: ops) = readings found ops := by
  cases op with
  | enforceDeadline | kill => rfl
  | pump | reap => cases request

/-- A unit after some looks at its pipes in turn. -/
def pumpAll (s : Supervision) (readings : List PipeReads) : Supervision := readings.foldl pump s

/-- What was seen of a unit's pipes. -/
def pipes (s : Supervision) : Supervision := { s.observed with exit := none }

theorem pipes_pump (s : Supervision) (reads : PipeReads) : (s.pump reads).pipes = s.pipes.pump reads := by
  obtain ⟨reception, capture, outcomeOpen, consoleOpen, startedAt, _, _, _⟩ := s
  cases outcomeOpen <;> cases consoleOpen <;> rfl

theorem pipes_perform (s : Supervision) (op : Operation) (ops : List Operation) :
    (s.perform op).pipes.pumpAll (Operation.readings (s.perform op).exit.isSome ops) =
      s.pipes.pumpAll (Operation.readings s.exit.isSome (op :: ops)) := by
  cases observes : op.observes with
  | false =>
    rw [perform_of_request observes, Operation.readings_of_request observes]
    rfl
  | true =>
    cases op with
    | enforceDeadline | kill => cases observes
    | pump reads => simp only [perform, pipes_pump, exit_pump, Operation.readings, pumpAll, List.foldl_cons]
    | reap ended rest =>
      cases ended with
      | none => cases seen : s.exit <;> simp only [perform, reap, seen, Operation.readings]
      | some exit =>
        cases seen : s.exit with
        | some exit' =>
          simp only [perform, reap, seen, Operation.readings, Option.isSome_some, if_true]
        | none =>
          have found : ({ s with exit := some exit } : Supervision).pipes = s.pipes := rfl
          simp [perform, reap, seen, Operation.readings, pipes_pump, exit_pump, found, pumpAll]

/-- **Only looks at its pipes change what was seen of them.** -/
theorem pipes_performAll (ops : List Operation) (s : Supervision) :
    (s.performAll ops).pipes = s.pipes.pumpAll (Operation.readings s.exit.isSome ops) := by
  induction ops generalizing s with
  | nil => rfl
  | cons op ops ih => exact (ih (s.perform op)).trans (s.pipes_perform op ops)

theorem pumpAll_of_closed {s : Supervision} (closed : s.consoleOpen = false) (readings : List PipeReads) :
    (s.pumpAll readings).capture = s.capture := by
  induction readings generalizing s with
  | nil => rfl
  | cons reads readings ih =>
    have same : (s.pump reads).consoleOpen = false ∧ (s.pump reads).capture = s.capture := by
      unfold pump pumpConsole pumpOutcome
      cases s.outcomeOpen <;> simp [closed]
    exact (ih same.1).trans same.2

/-- **A console is captured up to its end.** -/
theorem capture_pumpAll {s : Supervision} (reading : s.consoleOpen = true) (readings : List PipeReads) :
    (s.pumpAll readings).capture = s.capture.takeAll (PipeReads.printed readings) := by
  induction readings generalizing s with
  | nil => rfl
  | cons reads readings ih =>
    have next : (s.pump reads).consoleOpen = !reads.consoleEnded ∧
        (s.pump reads).capture = s.capture.takeAll reads.console := by
      unfold pump pumpConsole pumpOutcome
      cases s.outcomeOpen <;> simp [reading]
    obtain ⟨still, captured⟩ := next
    simp only [PipeReads.printed, pumpAll, List.foldl_cons]
    cases ended : reads.consoleEnded with
    | true =>
      rw [ended] at still
      have rest := pumpAll_of_closed still readings
      simpa [pumpAll, captured] using rest
    | false =>
      rw [ended] at still
      have rest := ih still
      simpa [pumpAll, captured, Capture.takeAll, List.foldl_append] using rest

/-- What a unit has printed, as far as it was read. -/
def console (ops : List Operation) : Bytes := (PipeReads.printed (Operation.readings false ops)).flatten

/-- Reads of a console that does not end are all of what it printed, over however many looks they are spread. -/
theorem console_pumps (calls : List (List Bytes)) :
    console (calls.map fun reads => .pump { console := reads }) = calls.flatten.flatten := by
  induction calls with
  | nil => rfl
  | cons reads calls ih =>
    simp only [console, List.map_cons, Operation.readings, PipeReads.printed, Bool.false_eq_true, if_false,
      List.flatten_append, List.flatten_cons] at ih ⊢
    rw [ih]

theorem capture_performAll (limit : Option Duration) (consoleLimit : Nat) (instant : Instant) (startedAt : Timestamp)
    (ops : List Operation) :
    ((start limit consoleLimit instant startedAt).performAll ops).capture =
      Capture.ofStream consoleLimit (console ops) := by
  have seen := congrArg Supervision.capture (pipes_performAll ops (start limit consoleLimit instant startedAt))
  rw [capture_pumpAll rfl] at seen
  have empty : (start limit consoleLimit instant startedAt).pipes.capture = Capture.ofStream consoleLimit [] := by
    simp [start, pipes, observed, Capture.ofStream]
  rw [empty, Capture.takeAll_ofStream, List.nil_append] at seen
  exact seen

end Supervision

open Supervision in
/-- **A capture does not depend on how a console was read.** Whatever was done with a unit, in any order and number, it
leaves the first bytes of the stream that its console gave, as many as the limit allows and the stream has, and the
note that there was more exactly if the stream is longer than the limit. The text of these two is the console of the
unit's completion. Any other reads of that stream lead to the same capture, over however many looks they are spread and
whatever else was done with the unit. -/
theorem console_of_stream (limit : Option Duration) (consoleLimit : Nat) (instant : Instant)
    (startedAt now : Timestamp) (ops : List Operation) :
    let stream := console ops
    let s := (start limit consoleLimit instant startedAt).performAll ops
    s.capture.bytes = stream.take consoleLimit ∧ s.capture.bytes.length = min stream.length consoleLimit ∧
      (s.capture.truncated = true ↔ consoleLimit < stream.length) ∧
      (s.completion now).console = Bytes.toStringLossy (stream.take consoleLimit) ++
        (if consoleLimit < stream.length then Capture.truncationNote else "") ∧
      (∀ calls : List (List Bytes), calls.flatten.flatten = stream →
        ((start limit consoleLimit instant startedAt).performAll
          (calls.map fun reads => .pump { console := reads })).capture = s.capture) ∧
      ∀ others, console others = stream →
        ((start limit consoleLimit instant startedAt).performAll others).capture = s.capture := by
  intro stream s
  have captured : s.capture = Capture.ofStream consoleLimit stream := capture_performAll ..
  have same : ∀ others, console others = stream →
      ((start limit consoleLimit instant startedAt).performAll others).capture = s.capture := by
    intro others same
    rw [captured, capture_performAll, same]
  refine ⟨by rw [captured]; rfl, ?_, ?_, ?_, fun calls cut => same _ ?_, same⟩
  · rw [captured, Capture.ofStream, List.length_take, Nat.min_comm]
  · rw [captured, Capture.ofStream, decide_eq_true_iff]
  · rw [completion, captured, Capture.text_ofStream]
  · rw [console_pumps, cut]

open Supervision in
/-- Three bytes of which two are kept, so that a character is cut: in one read, in three over two looks, and with a kill
between two looks of which the second finds the end. -/
theorem console_of_stream_cut :
    let unit := start none 2 ⟨0⟩ 0
    let s := unit.performAll [.pump { console := [[0x61, 0xC3, 0xA9]] }]
    let pieces := [[[0x61], [0xC3]], [[0xA9]]]
    let others : List Operation := [.pump { console := [[0x61, 0xC3]] }, .kill .interrupt,
      .reap (some (.exited 0)) { console := [[0xA9]], consoleEnded := true }, .pump { console := [[0x62]] }]
    (s.completion 0).console = "a\uFFFD" ++ Capture.truncationNote ∧
      (unit.performAll (pieces.map fun reads => .pump { console := reads })).capture = s.capture ∧
      (unit.performAll others).capture = s.capture := by
  intro unit s pieces others
  obtain ⟨_, _, _, text, cuts, reads⟩ :=
    console_of_stream none 2 ⟨0⟩ 0 0 [.pump { console := [[0x61, 0xC3, 0xA9]] }]
  exact ⟨text.trans (by decide +kernel), cuts pieces (by decide +kernel), reads others (by decide +kernel)⟩

end TestIsolation
