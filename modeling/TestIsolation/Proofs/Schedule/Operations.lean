import TestIsolation.Proofs.Schedule.Clocked

/-!
# What is done with a unit

Whoever holds a unit reads its pipes, asks for its end, holds its deadline against the clock and has it killed, in any
order and number. What the process does by itself shows in what the reads and the questions find. An `Operation` either
looks at the unit, which goes the same way whether or not the unit was killed (`Supervision.perform_of_observes`), or
requests its kill, which records a reason and does nothing else (`Supervision.perform_of_request`). So of all the
reasons the first one is recorded that comes before the unit's end is found (`Supervision.kill_performAll`), and apart
from that record the requests leave no trace (`Supervision.observed_performAll`). A run does nothing else with a unit in
flight (`Loop.Reached.operated`).
-/

namespace TestIsolation

set_option autoImplicit false

namespace Supervision

/-- What is done with a unit from outside. -/
inductive Operation where
  /-- Its pipes are read. -/
  | pump (reads : PipeReads)
  /-- It is asked for its end and, if there is one, what is left in its pipes is read. -/
  | reap (ended : Option ExitCondition) (rest : PipeReads)
  /-- Its deadline is held against the clock. -/
  | enforceDeadline (now : Instant)
  /-- It is to be killed. -/
  | kill (cause : KillCause)
  deriving DecidableEq, Repr

namespace Operation

/-- It only looks at the unit. -/
def observes : Operation → Bool
  | pump _ | reap .. => true
  | enforceDeadline _ | kill _ => false

/-- The end that it finds. -/
def ended? : Operation → Option ExitCondition
  | reap ended _ => ended
  | _ => none

/-- The reason for which it would have a unit with this deadline killed. -/
def cause? (deadline : Option Deadline) : Operation → Option KillCause
  | enforceDeadline now =>
    deadline.bind fun d => if d.instant.nanos ≤ now.nanos then some (.watchdog d.limit) else none
  | kill cause => some cause
  | _ => none

/-- The first reason for which some operations would have a unit with this deadline killed before they find its end. -/
def firstCause? (deadline : Option Deadline) (ops : List Operation) : Option KillCause :=
  (ops.takeWhile (·.ended?.isNone)).findSome? (·.cause? deadline)

/-- The end that some operations find first. -/
def firstEnd? (ops : List Operation) : Option ExitCondition := ops.findSome? ended?

/-- What some operations read from the outcome channel of a unit, up to the channel's end. Of the questions for the
unit's end only the first that finds it reads. -/
def channel (found : Bool) : List Operation → List Bytes
  | [] => []
  | pump reads :: ops => reads.outcome ++ if reads.outcomeEnded then [] else channel found ops
  | reap (some _) rest :: ops =>
    if found then channel found ops else rest.outcome ++ if rest.outcomeEnded then [] else channel true ops
  | reap none _ :: ops | enforceDeadline _ :: ops | kill _ :: ops => channel found ops

theorem channel_of_request {op : Operation} (request : op.observes = false) (found : Bool) (ops : List Operation) :
    channel found (op :: ops) = channel found ops := by
  cases op with
  | enforceDeadline | kill => rfl
  | pump | reap => cases request

theorem ended?_of_request {op : Operation} (request : op.observes = false) : op.ended? = none := by
  cases op with
  | enforceDeadline | kill => rfl
  | pump | reap => cases request

theorem cause?_of_observes {op : Operation} (observes : op.observes = true) (deadline : Option Deadline) :
    op.cause? deadline = none := by
  cases op with
  | pump | reap => rfl
  | enforceDeadline | kill => cases observes

theorem firstCause?_cons (deadline : Option Deadline) (op : Operation) (ops : List Operation) :
    firstCause? deadline (op :: ops) =
      if op.ended?.isSome then none else (op.cause? deadline).or (firstCause? deadline ops) := by
  cases found : op.ended? with
  | some exit => simp [firstCause?, found]
  | none => cases cause : op.cause? deadline <;> simp [firstCause?, found, cause]

theorem firstEnd?_cons (op : Operation) (ops : List Operation) :
    firstEnd? (op :: ops) = op.ended?.or (firstEnd? ops) := by
  cases found : op.ended? <;> simp [firstEnd?, found]

end Operation

/-- A unit after an operation. -/
def perform (s : Supervision) : Operation → Supervision
  | .pump reads => s.pump reads
  | .reap ended rest => s.reap ended rest
  | .enforceDeadline now => s.enforceDeadline now
  | .kill cause => s.killFor cause

/-- A unit after some operations in turn. -/
def performAll (s : Supervision) (ops : List Operation) : Supervision := ops.foldl perform s

/-- What was seen of a unit, apart from why it was killed and from when it would be. -/
def observed (s : Supervision) : Supervision := { s with deadline := none, kill := none }

variable {s : Supervision}

theorem performAll_append (s : Supervision) (before after : List Operation) :
    s.performAll (before ++ after) = (s.performAll before).performAll after := List.foldl_append

/-! ### One operation -/

theorem killFor_eq (s : Supervision) (cause : KillCause) :
    s.killFor cause = { s with kill := s.kill.or (if s.exit.isSome then none else some cause) } := by
  obtain ⟨reception, capture, outcomeOpen, consoleOpen, startedAt, deadline, exit, kill⟩ := s
  cases exit <;> cases kill <;> rfl

theorem enforceDeadline_eq (s : Supervision) (now : Instant) :
    s.enforceDeadline now = ((Operation.enforceDeadline now).cause? s.deadline).elim s (killFor · s) := by
  unfold enforceDeadline isOverdue
  cases armed : s.deadline with
  | none => rfl
  | some d =>
    by_cases due : d.instant.nanos ≤ now.nanos
    · cases seen : s.exit <;> simp [Operation.cause?, due, killFor, seen]
    · simp [Operation.cause?, due]

/-- **A request to kill a unit records its reason**, if there is none yet and no end was found, and does nothing
else. -/
theorem perform_of_request {op : Operation} (request : op.observes = false) (s : Supervision) :
    s.perform op = { s with kill := s.kill.or (if s.exit.isSome then none else op.cause? s.deadline) } := by
  have asks : s.perform op = (op.cause? s.deadline).elim s (killFor · s) := by
    cases op with
    | pump | reap => cases request
    | kill cause => rfl
    | enforceDeadline now => exact s.enforceDeadline_eq now
  cases cause : op.cause? s.deadline with
  | none => simpa [cause] using asks
  | some cause' =>
    rw [cause] at asks
    exact asks.trans (s.killFor_eq cause')

theorem pump_with (s : Supervision) (reads : PipeReads) (deadline : Option Deadline) (kill : Option KillCause) :
    pump { s with deadline, kill } reads = { s.pump reads with deadline, kill } := by
  obtain ⟨reception, capture, outcomeOpen, consoleOpen, startedAt, _, exit, _⟩ := s
  cases outcomeOpen <;> cases consoleOpen <;> rfl

/-- **A look at a unit finds the same whatever the unit's deadline and whether or not it was killed**, and leaves these
as they are. -/
theorem perform_of_observes {op : Operation} (observes : op.observes = true) (s : Supervision)
    (deadline : Option Deadline) (kill : Option KillCause) :
    perform { s with deadline, kill } op = { s.perform op with deadline, kill } := by
  cases op with
  | enforceDeadline | kill => cases observes
  | pump reads => exact s.pump_with reads deadline kill
  | reap ended rest =>
    cases seen : s.exit with
    | some exit => simp only [perform, reap, seen]
    | none =>
      cases ended with
      | none => simp only [perform, reap, seen]
      | some exit =>
        simp only [perform, reap, seen]
        exact pump_with { s with exit := some exit } rest deadline kill

theorem observed_perform (s : Supervision) (op : Operation) :
    (s.perform op).observed = if op.observes then s.observed.perform op else s.observed := by
  cases observes : op.observes with
  | true => exact (s.perform_of_observes observes none none).symm
  | false => rw [perform_of_request observes]; rfl

/-- An operation keeps the deadline. -/
theorem deadline_perform (s : Supervision) (op : Operation) : (s.perform op).deadline = s.deadline := by
  cases observes : op.observes with
  | true =>
    have kept := congrArg Supervision.deadline (perform_of_observes observes s s.deadline s.kill)
    exact kept
  | false => rw [perform_of_request observes]

/-- **The first reason stays.** -/
theorem kill_perform (s : Supervision) (op : Operation) :
    (s.perform op).kill = s.kill.or (if s.exit.isSome then none else op.cause? s.deadline) := by
  cases observes : op.observes with
  | true =>
    have kept := congrArg Supervision.kill (perform_of_observes observes s s.deadline s.kill)
    simpa [Operation.cause?_of_observes observes] using kept
  | false => rw [perform_of_request observes]

/-- **The end that was found first stays.** -/
theorem exit_perform (s : Supervision) (op : Operation) : (s.perform op).exit = s.exit.or op.ended? := by
  cases observes : op.observes with
  | false => simp [perform_of_request observes, Operation.ended?_of_request observes]
  | true =>
    cases op with
    | enforceDeadline | kill => cases observes
    | pump reads => simp [perform, Operation.ended?]
    | reap ended rest => cases seen : s.exit <;> cases ended <;> simp [perform, reap, Operation.ended?, seen]

/-- What a unit will have received after some operations. -/
def receives (s : Supervision) (ops : List Operation) : Reception :=
  if s.outcomeOpen then s.reception.takeAll (Operation.channel s.exit.isSome ops) else s.reception

theorem receives_pump (s : Supervision) (reads : PipeReads) (ops : List Operation) :
    (s.pump reads).receives ops = s.receives (.pump reads :: ops) := by
  have outcome : (s.pump reads).outcomeOpen = (s.pumpOutcome reads).outcomeOpen ∧
      (s.pump reads).reception = (s.pumpOutcome reads).reception := by
    unfold pump pumpConsole
    split <;> exact ⟨rfl, rfl⟩
  simp only [receives, outcome, exit_pump, pumpOutcome, Operation.channel]
  cases reading : s.outcomeOpen <;> cases reads.outcomeEnded <;>
    simp [reading, Reception.takeAll, List.foldl_append]

theorem receives_perform (s : Supervision) (op : Operation) (ops : List Operation) :
    (s.perform op).receives ops = s.receives (op :: ops) := by
  cases observes : op.observes with
  | false => simp only [perform_of_request observes, receives, Operation.channel_of_request observes]
  | true =>
    cases op with
    | enforceDeadline | kill => cases observes
    | pump reads => exact s.receives_pump reads ops
    | reap ended rest =>
      cases seen : s.exit with
      | some exit => cases ended <;> simp [perform, reap, receives, Operation.channel, seen]
      | none =>
        cases ended with
        | none => simp only [perform, reap, receives, Operation.channel, seen]
        | some exit =>
          have last := receives_pump { s with exit := some exit } rest ops
          simpa [perform, reap, receives, Operation.channel, seen] using last

/-! ### Operations in turn -/

/-- **A unit keeps its deadline.** -/
theorem deadline_performAll (ops : List Operation) (s : Supervision) : (s.performAll ops).deadline = s.deadline := by
  induction ops generalizing s with
  | nil => rfl
  | cons op ops ih => exact (ih (s.perform op)).trans (s.deadline_perform op)

theorem exit_performAll (ops : List Operation) (s : Supervision) :
    (s.performAll ops).exit = s.exit.or (Operation.firstEnd? ops) := by
  induction ops generalizing s with
  | nil => exact (Option.or_none).symm
  | cons op ops ih =>
    rw [Operation.firstEnd?_cons, ← Option.or_assoc, ← exit_perform]
    exact ih _

/-- **Of the reasons to kill a unit the first one counts that comes before its end is found.** -/
theorem kill_performAll (ops : List Operation) (s : Supervision) :
    (s.performAll ops).kill =
      s.kill.or (if s.exit.isSome then none else Operation.firstCause? s.deadline ops) := by
  induction ops generalizing s with
  | nil => simp [performAll, Operation.firstCause?]
  | cons op ops ih =>
    have later := ih (s.perform op)
    rw [kill_perform, exit_perform, deadline_perform] at later
    refine later.trans ?_
    rw [Operation.firstCause?_cons]
    cases observes : op.observes with
    | false => cases s.exit <;> simp [Operation.ended?_of_request observes, Option.or_assoc]
    | true => cases s.exit <;> cases op.ended? <;> simp [Operation.cause?_of_observes observes]

/-- **A unit has received what was read from its channel.** -/
theorem reception_performAll (ops : List Operation) (s : Supervision) :
    (s.performAll ops).reception = s.receives ops := by
  induction ops generalizing s with
  | nil => simp [receives, Operation.channel, Reception.takeAll, performAll]
  | cons op ops ih => exact (ih (s.perform op)).trans (s.receives_perform op ops)

/-- **Apart from what they record the kills and the deadline leave no trace.** -/
theorem observed_performAll (ops : List Operation) (s : Supervision) :
    (s.performAll ops).observed = s.observed.performAll (ops.filter (·.observes)) := by
  induction ops generalizing s with
  | nil => rfl
  | cons op ops ih =>
    refine (ih (s.perform op)).trans ?_
    rw [observed_perform, List.filter_cons]
    cases op.observes <;> rfl

/-- The end of a unit was found, or it was killed. -/
def Settled (s : Supervision) : Prop := s.exit.isSome = true ∨ s.kill.isSome = true

theorem Settled.perform (settled : s.Settled) (op : Operation) : (s.perform op).Settled := by
  unfold Settled
  rw [exit_perform, kill_perform]
  rcases settled with seen | killed
  · simp [seen]
  · simp [killed]

theorem Settled.perform_of_request (settled : s.Settled) {op : Operation} (request : op.observes = false) :
    s.perform op = s := by
  have kept : s.kill.or (if s.exit.isSome then none else op.cause? s.deadline) = s.kill := by
    rcases settled with seen | killed
    · simp [seen]
    · obtain ⟨cause, killed⟩ := Option.isSome_iff_exists.1 killed
      simp [killed]
  rw [Supervision.perform_of_request request, kept]

/-- **No later request changes anything.** -/
theorem Settled.performAll (ops : List Operation) (settled : s.Settled) :
    s.performAll ops = s.performAll (ops.filter (·.observes)) := by
  induction ops generalizing s with
  | nil => rfl
  | cons op ops ih =>
    refine (ih (settled.perform op)).trans ?_
    rw [List.filter_cons]
    cases observes : op.observes with
    | true => rfl
    | false => rw [settled.perform_of_request observes]; rfl

end Supervision

/-! ## Units in flight -/

namespace Running

variable {u v w : Running}

/-- A unit comes of another by operations. -/
structure Operated (u v : Running) : Prop where
  startedAt : v.startedAt = u.startedAt
  supervision : ∃ ops, v.supervision = u.supervision.performAll ops

theorem Operated.refl (u : Running) : u.Operated u := ⟨rfl, [], rfl⟩

theorem Operated.trans (first : u.Operated v) (second : v.Operated w) : u.Operated w := by
  obtain ⟨started, before, middle⟩ := first
  obtain ⟨started', after, last⟩ := second
  exact ⟨started'.trans started, before ++ after, by rw [last, middle, Supervision.performAll_append]⟩

theorem operated_reap (u : Running) (clock : Instant) : u.Operated (u.reap clock) := by
  unfold reap
  split
  · exact ⟨rfl, [.reap _ _], rfl⟩
  · exact .refl u

theorem operated_glance (u : Running) (g : Glance) (now : Timestamp) : u.Operated (u.glance g now).1 := by
  have pumped : u.Operated (u.pump g.pumped) := ⟨rfl, [.pump _], rfl⟩
  have reaped := pumped.trans (operated_reap _ g.reaped)
  simp only [glance]
  split
  · exact reaped
  · exact reaped.trans ⟨rfl, [.enforceDeadline g.begun], rfl⟩

theorem Evolves.operated {clock later : Instant} {now : Timestamp} (evolves : Evolves clock later now u v) :
    u.Operated v := by
  cases evolves with
  | kept le => exact .refl u
  | killed cause le => exact ⟨rfl, [.kill cause], rfl⟩
  | glanced g inTurn last goes => exact u.operated_glance g now

end Running

/-- **A unit in flight comes of its start by operations**, in every state of every run. -/
theorem Loop.Reached.operated {β : Type} {a : Assignment β} {w : World β} {l : Loop} (reached : Reached a w l) :
    ∀ f ∈ l.execution.inFlight, ∃ n ∈ a.outline.nodes, f.node = n.index ∧ ∃ life instant now,
      (Running.start life (a.limit? n) a.settings.consoleLimit instant now).Operated f.unit := by
  induction reached with
  | refl => exact fun f mem => absurd mem List.not_mem_nil
  | @tail _ later before tick ih =>
    intro f' flying
    obtain ⟨f, mem, same, evolves⟩ | ⟨step, n, plan, _, found, own, _, started⟩ :=
      tick.comes (Reached.reachable before).sound flying
    · obtain ⟨n, inside, own, life, instant, now, operated⟩ := ih f mem
      exact ⟨n, inside, (congrArg Flight.node same).trans own, life, instant, now, operated.trans evolves.operated⟩
    · refine ⟨n, List.mem_of_getElem? found, own, w.process plan, later.clock, w.now, ?_⟩
      rw [started]
      exact .refl _

end TestIsolation
