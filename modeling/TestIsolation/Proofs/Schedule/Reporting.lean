import TestIsolation.Proofs.Run.Explanation
import TestIsolation.Proofs.Schedule.Settlement
import TestIsolation.Report.Console

/-!
# No failure goes unexplained or unprinted

Whatever a unit comes to, its completion says why if it is no success (`Supervision.isExplained_completion`), and so
does that of a unit that never ran. So every run of a tree that is no success has a reason or failures, and a quiet
report, which leaves out suites of which there is nothing to say, has lines for each of them and for nothing else
(`no_failure_unexplained`).
-/

namespace TestIsolation

set_option autoImplicit false

/-! ## Reports -/

namespace ConsoleReport

/-- A report is empty if it has no lines. -/
theorem render_eq_empty_iff {quiet : Bool} {events : List Event} :
    render quiet events = "" ↔ ∀ e ∈ events, eventLines quiet e = [] := by
  rw [render, ← List.flatMap_eq_nil_iff]
  cases events.flatMap (eventLines quiet) with
  | nil => simp
  | cons line lines => simp [String.join_cons]

/-- **A quiet report has lines for every run that is over and is no success**, if there is something to say of it. -/
theorem eventLines_of_isExplained {e : Event} (closing : e.kind ≠ .suiteStarted) (said : e.run.IsExplained) :
    eventLines true e = if e.run.status.isSuccess then [] else runLines e.run := by
  unfold eventLines
  cases success : e.run.status.isSuccess with
  | true => cases e.kind <;> simp
  | false =>
    have known : e.run.reason.isSome = true ∨ e.run.failures ≠ [] := by
      simpa [Run.IsExplained, success] using said
    cases kind : e.kind with
    | suiteStarted => exact absurd kind closing
    | testFinished => simp
    | suiteFinished =>
      refine if_pos ?_
      simp only [Bool.not_false, Bool.true_and, Bool.or_eq_true, decide_eq_true_eq]
      exact known

end ConsoleReport

/-- What a run came to, with its reasons, and what the observers were told. -/
structure Disclosed (tree : RunTree) (events : List Event) : Prop where
  /-- A run that is no success has a reason or failures. -/
  explained : ∀ r ∈ tree.runs, r.status.isSuccess = false → r.reason.isSome = true ∨ r.failures ≠ []
  /-- A quiet report is empty exactly if the exit code is zero. -/
  silent : ConsoleReport.render true events = "" ↔ tree.exitCode = 0
  /-- The lines on a run that is no success are in a quiet report. -/
  printed : ∀ r ∈ tree.runs, r.status.isSuccess = false →
    ConsoleReport.runLines r <:+: events.flatMap (ConsoleReport.eventLines true)

theorem RunTree.exitCode_eq_zero (t : RunTree) : t.exitCode = 0 ↔ ∀ r ∈ t.runs, r.status.isSuccess = true := by
  rw [exitCode, ← List.all_eq_true]
  split <;> simp_all

open Aggregator ConsoleReport in
/-- **Explained completions make a run that is disclosed.** -/
theorem Aggregator.Kept.disclosed {β : Type} {t : SuiteTree β} {g : Aggregator} {entries : List Applied}
    (kept : Kept t.outline g entries) (complete : g.isComplete = true)
    (said : ∀ e ∈ entries, ∀ done ∈ e.completion, done.IsExplained) : Disclosed g.tree g.events := by
  have explained := kept.isExplained complete said
  have lines {e : Event} (told : e ∈ g.events) (closing : e.kind ≠ .suiteStarted) :
      eventLines true e = if e.run.status.isSuccess then [] else runLines e.run :=
    eventLines_of_isExplained closing (explained e.run (kept.run_mem_of_told told closing))
  refine ⟨fun r mem failed => ?_, ?_, fun r mem failed => ?_⟩
  · simpa [Run.IsExplained, failed] using explained r mem
  · rw [render_eq_empty_iff, RunTree.exitCode_eq_zero]
    constructor
    · intro silent r mem
      obtain ⟨e, told, closing, rfl⟩ := kept.exists_told complete mem
      by_contra failed
      have printed := lines told closing
      rw [silent e told, if_neg failed] at printed
      cases printed
    · intro success e told
      by_cases closing : e.kind = .suiteStarted
      · simp [eventLines, closing]
      · rw [lines told closing, if_pos (success _ (kept.run_mem_of_told told closing))]
  · obtain ⟨e, told, closing, rfl⟩ := kept.exists_told complete mem
    obtain ⟨before, after, split⟩ := List.append_of_mem told
    refine ⟨before.flatMap (eventLines true), after.flatMap (eventLines true), ?_⟩
    rw [split, List.flatMap_append, List.flatMap_cons, lines told closing, failed, List.append_assoc]
    rfl

/-! ## Runs -/

/-- **What is known of a process explains what its unit came to.** -/
theorem Supervision.isExplained_completion (s : Supervision) (now : Timestamp) : (s.completion now).IsExplained := by
  rcases s.reception.final.isExplained_classify (s.exit.getD (.signaled killSignal)) s.kill with
    success | reason | failures
  · exact .inl success
  · refine .inr (.inl ?_)
    obtain ⟨text, known⟩ := Option.isSome_iff_exists.1 reason
    simp only [completion, known]
    rfl
  · exact .inr (.inr failures)

/-- A unit that ended comes to what is known of some process; apart from that, anything may happen. -/
def Conduct.supervised (υ : Type) : Conduct υ :=
  ⟨fun _ _ => True, fun _ c => ∃ (s : Supervision) (now : Timestamp), c = s.completion now, True⟩

open Execution

/-- A run that is over is disclosed. -/
theorem Execution.Reachable.disclosed {β υ : Type} {t : SuiteTree β} {settings : Settings} {x : Execution υ}
    (reachable : Reachable ⟨t.outline, settings⟩ (.supervised υ) x) (atEnd : x.isOver = true) :
    Disclosed x.aggregator.tree x.aggregator.events := by
  have ends (f : InFlight υ) (c : Completion) (ended : (Conduct.supervised υ).mayEnd f c) :
      c.status.isTerminal = true := by
    obtain ⟨s, now, rfl⟩ := ended
    exact Summary.isTerminal_classify _ _ _
  have said (f : InFlight υ) (c : Completion) (ended : (Conduct.supervised υ).mayEnd f c) : c.IsExplained := by
    obtain ⟨s, now, rfl⟩ := ended
    exact s.isExplained_completion now
  obtain ⟨entries, kept⟩ := reachable.kept
  refine kept.disclosed (reachable.settled ends atEnd).applied fun e mem done given => ?_
  obtain ⟨seq, delivered⟩ := kept.exists_delivered mem
  rw [Option.mem_def.1 given] at delivered
  exact reachable.forall_delivered Completion.isExplained_notRun said delivered

theorem Loop.roundAt_follows_supervised {β : Type} {a : Assignment β} {w : World β} (start : Interruption) (l : Loop)
    (later : Instant) : (roundAt a w start l later).Follows (.supervised Running) where
  starts := fun _ _ _ => trivial
  ends := by
    intro f unit c looked
    simp only [roundAt, lookAt] at looked
    split at looked
    · cases looked
      exact ⟨_, _, rfl⟩
    · cases looked
  stops := fun _ => trivial

/-- **No failure goes unexplained or unprinted.** However the units of a suite tree end, fail to start or are killed,
and whenever the run is told to stop: once the run is over, every run of a test or a suite that neither passed nor was
skipped has a reason or a failure, a quiet report is empty exactly if the exit code is zero, and otherwise the lines on
each run that is no success are in it. That is how the event loop ends if it ends without an error. -/
theorem no_failure_unexplained {β : Type} (t : SuiteTree β) (settings : Settings) :
    (∀ (υ : Type) (x : Execution υ), Reachable ⟨t.outline, settings⟩ (.supervised υ) x → x.isOver = true →
      Disclosed x.aggregator.tree x.aggregator.events) ∧
      ∀ (w : World β) (before : Interruption), (Assignment.run ⟨t.outline, settings⟩ w before).error = none →
        Disclosed (Assignment.run ⟨t.outline, settings⟩ w before).tree
          (Assignment.run ⟨t.outline, settings⟩ w before).events := by
  refine ⟨fun υ x reachable atEnd => reachable.disclosed atEnd, fun w before ok => ?_⟩
  unfold Assignment.run at ok ⊢
  rcases driven : Loop.drive ⟨t.outline, settings⟩ w (w.interruptionAtStart before)
    ⟨.new ⟨t.outline, settings⟩, w.clock⟩ (Loop.rounds ⟨t.outline, settings⟩ w) with ⟨x, result⟩
  simp only [driven] at ok ⊢
  cases result with
  | error e => cases ok
  | ok u =>
    obtain ⟨reachable, atEnd⟩ :=
      Loop.reachable_of_follows (Loop.roundAt_follows_supervised (w.interruptionAtStart before)) _ .refl driven
    exact reachable.disclosed atEnd

/-- A test that aborts, and a panic in the teardown of its suite. -/
theorem no_failure_unexplained_nested :
    let t : SuiteTree Script := .suite { name := "s", teardown := .explicit [.panic (some "late")] }
      [.test { name := "a" } [.signal 6]]
    let w : World Script := { process := fun plan => .run plan (.start none), now := 5 }
    let result := Assignment.run ⟨t.outline, {}⟩ w {}
    result.error = none ∧ Disclosed result.tree result.events ∧ result.tree.exitCode = 1 ∧
      ConsoleReport.render true result.events =
        "  ABORT   s::a (0 ms): killed by signal 6 (SIGABRT) during exec\n" ++
        "ABORT   s (0 ms): teardown failed\n    <unknown>:0: : panicked during teardown: late\n" := by
  intro t w result
  have disclosed : result.error = none → Disclosed result.tree result.events := (no_failure_unexplained t {}).2 w {}
  have run : result.error = none ∧ result.tree.exitCode = 1 ∧ ConsoleReport.render true result.events =
      "  ABORT   s::a (0 ms): killed by signal 6 (SIGABRT) during exec\n" ++
      "ABORT   s (0 ms): teardown failed\n    <unknown>:0: : panicked during teardown: late\n" := by
    decide +kernel
  exact ⟨run.1, disclosed run.1, run.2⟩

end TestIsolation
