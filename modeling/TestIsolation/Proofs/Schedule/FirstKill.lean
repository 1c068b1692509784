import TestIsolation.Proofs.Schedule.Operations

/-!
# The first kill decides

A unit that was killed is judged by the reason, and one that was not is never judged as if it had been: it does not time
out, and if it is terminated it names a signal (`Supervision.timedOut_completion_iff`,
`Supervision.halted_completion_iff`). So whatever is done with a unit, it is judged by the first reason to kill it that
comes before its end is found or, where there is none, by its end and its channel alone (`first_kill_decides`).
-/

namespace TestIsolation

set_option autoImplicit false

/-! ## Judgements of units that were not killed -/

/-- A process that a signal ended is not described by the reason of a halt. -/
theorem ExitCondition.describe_signaled_ne (signal : Int) (more : String) (halt : Halt) :
    (signaled signal).describe ++ more ≠ halt.reason := by
  have text : (signaled signal).describe =
      "killed by signal " ++ toString signal ++ " (" ++ (signalName signal ++ ")") := String.append_assoc ..
  intro same
  have first := congrArg (fun text => text.toList.head?) (text ▸ same)
  cases halt <;> simp [Halt.reason] at first

namespace Summary

variable {s : Summary} {exit : ExitCondition}

theorem status_classifyExit (s : Summary) (code : Int) :
    (s.classifyExit code).status ∈ [Status.crashed, .failed, .skipped, .passed] := by
  unfold classifyExit
  split
  · simp
  · simp
  · split <;> simp
  · split_ifs <;> simp

theorem classifyEnd_ne_timedOut (s : Summary) (exit : ExitCondition) : (s.classifyEnd exit).status ≠ .timedOut := by
  intro timed
  cases exit with
  | exited code =>
    have known := s.status_classifyExit code
    rw [show (s.classifyExit code).status = .timedOut from timed] at known
    simp at known
  | signaled signal =>
    simp only [classifyEnd] at timed
    split_ifs at timed

/-- **A unit that was not killed is never judged as one that was**: if it is terminated it says by which signal. -/
theorem classifyEnd_of_terminated (terminated : (s.classifyEnd exit).status = .terminated) :
    ∃ reason, (s.classifyEnd exit).reason = some reason ∧ ∀ halt : Halt, reason ≠ halt.reason := by
  cases exit with
  | exited code =>
    have known := s.status_classifyExit code
    rw [show (s.classifyExit code).status = .terminated from terminated] at known
    simp at known
  | signaled signal => exact ⟨_, rfl, ExitCondition.describe_signaled_ne signal s.during⟩

end Summary

theorem Halt.reason_inj {halt other : Halt} : halt.reason = other.reason ↔ halt = other := by
  cases halt <;> cases other <;> simp [reason]

theorem KillCause.watchdog_or_halt (cause : KillCause) :
    (∃ limit, cause = .watchdog limit) ∨ ∃ halt : Halt, cause = halt.killCause := by
  cases cause with
  | watchdog limit => exact .inl ⟨limit, rfl⟩
  | interrupt => exact .inr ⟨.interrupted, rfl⟩
  | abandon => exact .inr ⟨.abandoned, rfl⟩

namespace Supervision

variable {s : Supervision}

/-- A unit that was not killed is judged by what was seen of it. -/
theorem completion_observed (running : s.kill = none) (now : Timestamp) :
    s.observed.completion now = s.completion now := by
  simp only [completion, observed, running]

theorem judgement_of_running (running : s.kill = none) (now : Timestamp) :
    let verdict := s.reception.final.classifyEnd (s.exit.getD (.signaled killSignal))
    (s.completion now).status = verdict.status ∧
      (s.completion now).reason = (verdict.reason <|> s.reception.final.violation.map (·.message)) := by
  simp only [completion, running, Summary.classify, and_self]

theorem timedOut_completion_iff (s : Supervision) (now : Timestamp) :
    (s.completion now).status = .timedOut ↔ ∃ limit, s.kill = some (.watchdog limit) := by
  cases killed : s.kill with
  | none =>
    rw [(judgement_of_running killed now).1]
    simpa using Summary.classifyEnd_ne_timedOut _ _
  | some cause =>
    rw [(judges_completion killed now).status]
    cases cause <;> simp [KillCause.status]

theorem halted_completion_iff (s : Supervision) (now : Timestamp) (halt : Halt) :
    (s.completion now).status = .terminated ∧ (s.completion now).reason = some halt.reason ↔
      s.kill = some halt.killCause := by
  constructor
  · rintro ⟨status, reason⟩
    cases killed : s.kill with
    | none =>
      obtain ⟨status', reason'⟩ := judgement_of_running killed now
      obtain ⟨text, told, other⟩ := Summary.classifyEnd_of_terminated (status'.symm.trans status)
      rw [reason', told] at reason
      exact absurd (Option.some.inj reason) (other halt)
    | some cause =>
      have judged := judges_completion killed now
      obtain ⟨limit, rfl⟩ | ⟨own, rfl⟩ := cause.watchdog_or_halt
      · rw [judged.status] at status
        cases status
      · rw [judged.reason own rfl, Option.some.injEq, Halt.reason_inj] at reason
        rw [reason]
  · intro killed
    have judged := judges_completion killed now
    refine ⟨?_, judged.reason halt rfl⟩
    rw [judged.status]
    cases halt <;> rfl

end Supervision

open Supervision Operation in
/-- **The first kill decides.** Whatever is done with a unit from its start, in any order, and whatever is read and
found: it is timed out exactly if the first reason to kill it that comes before its end is found is the watchdog, and it
is terminated for a halt exactly if that reason is the halt. Where there is no such reason it completes as if it had no
deadline and no kill was asked for, and it is judged by its end and by what was read from its channel. Once its end is
found or it is killed, no request changes anything. -/
theorem first_kill_decides (limit : Option Duration) (consoleLimit : Nat) (instant : Instant) (startedAt : Timestamp)
    (ops : List Operation) (now : Timestamp) :
    let s := start limit consoleLimit instant startedAt
    let c := (s.performAll ops).completion now
    let seen := (start none consoleLimit instant startedAt).performAll (ops.filter (·.observes))
    let first := firstCause? s.deadline ops
    (c.status = .timedOut ↔ ∃ limit, first = some (.watchdog limit)) ∧
      (∀ halt : Halt, c.status = .terminated ∧ c.reason = some halt.reason ↔ first = some halt.killCause) ∧
      (first = none → c = seen.completion now ∧
        let received := (Reception.takeAll {} (channel false ops)).final
        let verdict := received.classifyEnd ((firstEnd? ops).getD (.signaled killSignal))
        c.status = verdict.status ∧ c.reason = (verdict.reason <|> received.violation.map (·.message))) ∧
      ∀ before after, ops = before ++ after → (s.performAll before).Settled →
        s.performAll ops = s.performAll (before ++ after.filter (·.observes)) := by
  intro s c seen first
  have killed : (s.performAll ops).kill = first := kill_performAll ops s
  have ended : (s.performAll ops).exit = firstEnd? ops := exit_performAll ops s
  have received : (s.performAll ops).reception = Reception.takeAll {} (channel false ops) := reception_performAll ops s
  have same : (s.performAll ops).observed = seen := observed_performAll ops s
  refine ⟨?_, fun halt => ?_, fun none => ⟨?_, ?_⟩, ?_⟩
  · exact killed ▸ timedOut_completion_iff _ now
  · exact killed ▸ halted_completion_iff _ now halt
  · exact same ▸ (completion_observed (killed.trans none) now).symm
  · exact received ▸ ended ▸ judgement_of_running (killed.trans none) now
  · rintro before after rfl settled
    rw [performAll_append, settled.performAll, ← performAll_append]

end TestIsolation
