import TestIsolation.Proofs.Unit.Behaviour
import TestIsolation.Run.Status

/-!
# The verdict on the other side of the channel

A unit whose functions are behaviours comes to its end: it enters its phases in their order (`enters_runPhases`), and
the verdict it gives is what its records call for (`Verdict.of`). The reader of the channel gets these records, with
the verdict as the last one, and judges a clean exit by them (`Reception.status_of_records`). So the unit and its
parent agree (`verdict_survives_channel`).
-/

namespace TestIsolation

set_option autoImplicit false

namespace UnitPlan

/-- The function of a phase. -/
def function? {α : Type} (plan : UnitPlan α) : Phase → Option α
  | .setup => plan.setup
  | .exec => plan.body
  | .teardown => plan.teardown

/-- Whether the setup, on a thread, is absent or completes. -/
def isReady (plan : UnitPlan Act) (t : Thread) : Bool :=
  match plan.setup with
  | none => true
  | some act => (runPhase .setup act t).2 = .completed

/-- Whether a unit enters a phase. -/
def reaches (plan : UnitPlan Act) (t : Thread) (p : Phase) : Bool :=
  (plan.function? p).isSome && (p = .setup || plan.isReady t)

/-- The phases that a unit enters are those of its functions, but a setup that does not complete is the only one. -/
theorem filter_reaches (plan : UnitPlan Act) (t : Thread) :
    Phase.all.filter (plan.reaches t) = (plan.setup.map fun _ => .setup).toList ++
      if plan.isReady t then (plan.body.map fun _ => .exec).toList ++ (plan.teardown.map fun _ => .teardown).toList
      else [] := by
  unfold reaches
  generalize plan.isReady t = ready
  obtain ⟨setup, body, teardown⟩ := plan
  cases setup <;> cases body <;> cases teardown <;> cases ready <;> rfl

end UnitPlan

/-! ## Phases -/

section Phases

open Thread

variable {t : Thread} {plan : UnitPlan Act}

/-- A phase is entered, and it ends in one of the ways that the unit goes on after. -/
theorem enters_runPhase (p : Phase) {act : Act} (records : Act.Records act) (active : t.isActive = true) :
    t.Enters [p] (runPhase p act t).1 ∧ ∀ ending, (runPhase p act t).2 ≠ .ended ending := by
  have opened := t.enters_emit p
  have comes := records.framed _ (opened.isActive.trans active)
  have entered := opened.trans comes.recorded
  unfold runPhase
  rcases ran : Act.framed act (t.emit (.phase p)) with ⟨u, flow⟩
  rw [ran] at comes entered
  cases flow with
  | normal => exact ⟨entered, nofun⟩
  | ended ending => exact absurd rfl (comes.returned ending)
  | unwinding cause =>
    cases cause with
    | failed | skipped => exact ⟨entered, nofun⟩
    | panicked message =>
      refine ⟨?_, nofun⟩
      simp only
      split
      · exact entered.trans (enters_fail _ _)
      · exact entered

theorem enters_checkQueue (t : Thread) : t.Enters [] (checkQueue t) := by
  unfold checkQueue
  cases context : t.context with
  | none => exact (Aside.of_eq rfl rfl).enters
  | some c =>
    have changed := (Aside.queue context c.queue.endOfTest.1).enters
    simp only
    split
    · exact changed.trans (enters_fail _ _)
    · exact changed

theorem enters_runTeardown {teardown : Option Act} (records : ∀ act ∈ teardown, Act.Records act)
    (active : t.isActive = true) :
    t.Enters (teardown.map fun _ => .teardown).toList (runTeardown teardown t).1 ∧
      (runTeardown teardown t).2 = none := by
  cases teardown with
  | none => exact ⟨(Aside.of_eq rfl rfl).enters, rfl⟩
  | some act =>
    obtain ⟨entered, returned⟩ := enters_runPhase .teardown (records act rfl) active
    rcases ran : runPhase .teardown act t with ⟨u, how⟩
    rw [ran] at entered returned
    simp only [runTeardown, ran]
    cases how with
    | ended ending => exact absurd rfl (returned ending)
    | completed | failed => exact ⟨entered, rfl⟩
    | skipped =>
      refine ⟨?_, rfl⟩
      simp only
      split
      · exact entered.trans (enters_fail _ _)
      · exact entered

theorem enters_runBody (records : ∀ p, ∀ act ∈ plan.function? p, Act.Records act) (active : t.isActive = true) :
    t.Enters ((plan.body.map fun _ => .exec).toList ++ (plan.teardown.map fun _ => .teardown).toList)
      (runBody plan t).1 ∧ (runBody plan t).2 = none := by
  cases body : plan.body with
  | none =>
    simp only [runBody, body]
    exact enters_runTeardown (records .teardown) active
  | some act =>
    obtain ⟨entered, returned⟩ := enters_runPhase .exec (records .exec act body) active
    rcases ran : runPhase .exec act t with ⟨u, how⟩
    rw [ran] at entered returned
    have goesOn {v : Thread} (entered : t.Enters [.exec] v) :
        t.Enters ([.exec] ++ (plan.teardown.map fun _ => .teardown).toList) (runTeardown plan.teardown v).1 ∧
          (runTeardown plan.teardown v).2 = none := by
      obtain ⟨more, none_⟩ := enters_runTeardown (records .teardown) (entered.isActive.trans active)
      exact ⟨entered.trans more, none_⟩
    simp only [runBody, body, ran]
    cases how with
    | ended ending => exact absurd rfl (returned ending)
    | failed | skipped => exact goesOn entered
    | completed => exact goesOn (entered.trans (enters_checkQueue u))

/-- **A unit comes to its end, through its phases in their order.** -/
theorem enters_runPhases (records : ∀ p, ∀ act ∈ plan.function? p, Act.Records act) (active : t.isActive = true) :
    t.Enters (Phase.all.filter (plan.reaches t)) (runPhases plan t).1 ∧ (runPhases plan t).2 = none := by
  rw [UnitPlan.filter_reaches]
  cases setup : plan.setup with
  | none =>
    have ready : plan.isReady t = true := by simp only [UnitPlan.isReady, setup]
    simp only [runPhases, setup, ready, if_true]
    exact enters_runBody records active
  | some act =>
    obtain ⟨entered, returned⟩ := enters_runPhase .setup (records .setup act setup) active
    rcases ran : runPhase .setup act t with ⟨u, how⟩
    rw [ran] at entered returned
    have ready : plan.isReady t = decide (how = .completed) := by simp only [UnitPlan.isReady, setup, ran]
    simp only [runPhases, setup, ran, ready]
    cases how with
    | ended ending => exact absurd rfl (returned ending)
    | failed | skipped => exact ⟨entered, rfl⟩
    | completed =>
      obtain ⟨more, none_⟩ := enters_runBody records (entered.isActive.trans active)
      exact ⟨entered.trans more, none_⟩

end Phases

/-! ## Verdicts -/

/-- The verdict that records call for. -/
def Verdict.of (records : List Record) : Verdict :=
  if records.any (·.failure?.isSome) then .fail else if records.any (·.skip?.isSome) then .skip else .pass

/-- The status that a verdict stands for. -/
def Verdict.status : Verdict → Status
  | fail => .failed
  | skip => .skipped
  | pass => .passed

/-- What is sent calls for the verdict that was called for. -/
theorem Verdict.of_sent (log : List Record) : Verdict.of (log.map Record.sent) = Verdict.of log := by
  have failures (r : Record) := r.kind_sent.2.1
  have skips (r : Record) := r.kind_sent.2.2.1
  simp only [Verdict.of, List.any_map, Function.comp_def, failures, skips]

theorem any_failure?_iff (records : List Record) :
    records.any (·.failure?.isSome) = true ↔ records.filterMap Record.failure? ≠ [] := by
  rw [Ne, List.filterMap_eq_nil_iff, List.any_eq_true]
  simp [Option.isSome_iff_ne_none]

/-- Records call for a failure exactly if one of them is a failure. -/
theorem Verdict.of_eq_fail_iff (records : List Record) :
    Verdict.of records = .fail ↔ records.filterMap Record.failure? ≠ [] := by
  rw [← any_failure?_iff, Verdict.of]
  split_ifs with failed <;> simp [failed]

namespace Thread

variable {t : Thread} {unit : Nat} {log : List Record}

/-- The tallies of a unit hold the verdict that its records call for. -/
theorem Sends.verdict (sends : Sends unit log t) : t.context.map (·.verdict) = some (Verdict.of log) := by
  obtain ⟨queue, context⟩ := sends.context
  rw [context, Option.map_some, UnitContext.verdict, Verdict.of]
  simp only [gt_iff_lt, List.length_pos_iff, any_failure?_iff]

theorem bytesOf_uninstall (t : Thread) (unit : Nat) : t.uninstall.bytesOf unit = t.bytesOf unit := by
  unfold uninstall
  cases t.context with
  | none => rfl
  | some c => exact bytesOf_put_other (e := .closed c.unit) nofun t unit

/-- A unit on a new channel has sent nothing. -/
theorem sends_install (new : t.bytesOf t.installed = []) : Sends t.installed [] (t.install .never) where
  context := ⟨{}, rfl⟩
  bytes := by
    have same : (t.install .never).bytesOf t.installed = t.uninstall.bytesOf t.installed := rfl
    rw [same, bytesOf_uninstall, new]
    exact .nil

/-- The end of a unit: its verdict is what its records call for, and it is sent as the last record. -/
theorem Sends.finish (sends : Sends unit log t) :
    (finishUnit unit t).2.verdict = Verdict.of log ∧
      Spells (finishUnit unit t).2.bytes (log.map Record.sent ++ [.terminal (Verdict.of log)]) := by
  obtain ⟨queue, context⟩ := sends.context
  have sent := (Sends.emit context sends.bytes (.terminal (Verdict.of log))).2
  rw [List.map_append, List.map_singleton, Record.sent_terminal] at sent
  simp only [finishUnit, sends.verdict, Option.getD_some, bytesOf_uninstall, true_and]
  exact sent

end Thread

/-- **A clean exit is judged by the records**, however the bytes were cut into reads. -/
theorem Reception.status_of_records {reads : List Bytes} {records : List Record}
    (spells : Spells reads.flatten (records ++ [.terminal (Verdict.of records)]))
    (none_ : ∀ r ∈ records, r.isTerminal = false) :
    (({} : Reception).takeAll reads).final.failures = records.filterMap Record.failure? ∧
      Reception.status reads (.exited 0) none = (Verdict.of records).status := by
  obtain ⟨clean, decided, failures, whole⟩ := Summary.absorbAll_verdict none_ (Verdict.of records)
  have failed := Verdict.of_eq_fail_iff records
  rw [← failures] at failed
  rw [Reception.status, final_of_verdict spells none_]
  refine ⟨failures, ?_⟩
  simp only [Summary.classify, Summary.classifyEnd, Summary.classifyExit, clean, whole, decided, ← failed]
  cases Verdict.of records <;> rfl

/-- **The verdict of a unit survives the channel.** A unit whose functions are behaviours ends with a report. The bytes
of its new channel are read as what its thread recorded, too large records in their shortened form, with nothing left
over; its verdict is the last record and the only verdict. The phases come in their order: a setup if there is one, and
a body and a teardown if there are and the setup is absent or completed. The verdict is what the records call for.
However the bytes are cut into reads, all failures are received in order, and a clean exit is judged by the verdict. -/
theorem verdict_survives_channel {plan : UnitPlan Act} {t : Thread}
    (functions : ∀ p, ∀ act ∈ plan.function? p, act.Behaviour) (new : t.bytesOf t.installed = []) :
    ∃ after report log, runUnit plan .never t = (after, .ok report) ∧
      Thread.Recording (t.install .never) log (runPhases plan (t.install .never)).1 ∧
      Decoder.new.feed report.bytes = (.new, .ok (log.map Record.sent ++ [.terminal report.verdict])) ∧
      (∀ r ∈ log.map Record.sent, r.isTerminal = false) ∧
      (log.map Record.sent).filterMap Record.phase? = Phase.all.filter (plan.reaches (t.install .never)) ∧
      report.verdict = Verdict.of (log.map Record.sent) ∧
      ∀ reads : List Bytes, reads.flatten = report.bytes →
        (({} : Reception).takeAll reads).final.failures = (log.map Record.sent).filterMap Record.failure? ∧
          Reception.status reads (.exited 0) none = report.verdict.status := by
  have records (p : Phase) (act : Act) (mem : act ∈ plan.function? p) := (functions p act mem).records
  obtain ⟨⟨log, recording, phases⟩, comes⟩ := enters_runPhases (t := t.install .never) records rfl
  have sends := recording.sends (Thread.sends_install new)
  obtain ⟨verdict, spells⟩ := sends.finish
  have kinds (r : Record) := r.kind_sent
  have none_ : ∀ r ∈ log.map Record.sent, r.isTerminal = false := by
    intro r mem
    obtain ⟨r, recorded, rfl⟩ := List.mem_map.1 mem
    rw [(kinds r).2.2.2]
    exact recording.isTerminal_eq_false r recorded
  rcases ran : runPhases plan (t.install .never) with ⟨u, how⟩
  rw [ran] at comes recording sends verdict spells
  obtain rfl : how = none := comes
  refine ⟨(finishUnit t.installed u).1, (finishUnit t.installed u).2, log, ?_, recording, ?_, none_, ?_, ?_, ?_⟩
  · simp only [runUnit, ran]
  · have fed := spells.feedFrom [] []
    simp only [List.append_nil, Decoder.feedFrom, List.reverse_reverse] at fed
    rw [Decoder.feed_of_isReading Decoder.isReading_new, fed, verdict]
  · rw [← phases, List.filterMap_map]
    exact List.filterMap_congr fun r _ => (kinds r).1
  · rw [verdict, Verdict.of_sent]
  · intro reads cut
    rw [← Verdict.of_sent, ← cut] at spells
    rw [verdict, ← Verdict.of_sent]
    exact Reception.status_of_records spells none_

/-- A failed check in the body, which also asks for a skip, and a panic in the teardown. -/
theorem verdict_survives_channel_panic :
    let plan : UnitPlan Script := ⟨some [.note "up"],
      some [.check false "a < b" ⟨"t.rs", 7, "f"⟩, .skip (some "later") ⟨"t.rs", 8, "f"⟩], some [.panic none]⟩
    ∃ report records, (runUnit plan.acts .never (.start none)).2 = .ok report ∧
      Decoder.new.feed report.bytes = (.new, .ok (records ++ [.terminal .fail])) ∧
      records.filterMap Record.phase? = Phase.all ∧
      Reception.status [report.bytes] (.exited 0) none = .failed := by
  intro plan
  have functions : ∀ p, ∀ act ∈ plan.acts.function? p, act.Behaviour := by
    intro p act mem
    cases p <;> cases mem <;> exact Action.behaviour_actAll _ rfl
  obtain ⟨after, report, log, ran, _, fed, _, phases, _, judged⟩ :=
    verdict_survives_channel functions (t := .start none) rfl
  have verdict : (runUnit plan.acts .never (.start none)).2.toOption.map (·.verdict) = some .fail := by decide +kernel
  have failed : report.verdict = .fail := by simpa [ran, Except.toOption] using verdict
  have entered : Phase.all.filter (plan.acts.reaches ((Thread.start none).install .never)) = Phase.all := by
    decide +kernel
  rw [failed] at fed judged
  exact ⟨report, log.map Record.sent, by rw [ran], fed, phases.trans entered, (judged [report.bytes] (by simp)).2⟩

end TestIsolation
