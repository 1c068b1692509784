import TestIsolation.Proofs.Run.Closing
import TestIsolation.Proofs.Schedule.Course
import TestIsolation.Schedule.EventLoop

/-!
# Every step is settled once

A run that is over has reported every step once, so that its aggregator has applied them all and every node's run has a
terminal status (`Reachable.settled`). The event loop is one of the runs that this is about (`Loop.reachable_of_drive`).
-/

namespace TestIsolation

set_option autoImplicit false

/-- Units end with a terminal status; apart from that, anything may happen. -/
def Conduct.any (υ : Type) : Conduct υ := ⟨fun _ _ => True, fun _ c => c.status.isTerminal = true, True⟩

namespace Execution

variable {β υ : Type}

/-- The state that a run of a suite tree should end in. -/
structure Settled (t : SuiteTree β) (x : Execution υ) : Prop where
  /-- Every step was reported once. -/
  reported : x.reported.Perm (List.range t.plan.length)
  /-- The aggregator was given what was reported and nothing else. -/
  submitted : ∃ ds, x.aggregator = (Aggregator.new t.outline).submitAll ds ∧ ds.map (·.seq) = x.reported.reverse
  applied : x.aggregator.isComplete = true
  size : x.aggregator.tree.runs.length = t.size
  terminal : ∀ r ∈ x.aggregator.tree.runs, r.status.isTerminal = true

theorem Sound.reported_perm {a : Assignment β} {x : Execution υ} (sound : Sound a x) (atEnd : x.isOver = true) :
    x.reported.Perm (List.range a.outline.steps.length) := by
  simp only [isOver, Bool.and_eq_true, List.isEmpty_iff, decide_eq_true_eq, sound.steps] at atEnd
  obtain ⟨nothing, done⟩ := atEnd
  have bound := sound.cursor
  have flights := (flights_eq_nil x).2 nothing
  refine (List.perm_ext_iff_of_nodup sound.once List.nodup_range).2 ?_
  intro seq
  rw [sound.reported, List.mem_range, flights]
  simp only [List.map_nil, List.not_mem_nil, not_false_eq_true, and_true]
  omega

/-- **A run that is over is settled.** -/
theorem Reachable.settled {t : SuiteTree β} {settings : Settings} {rules : Conduct υ} {x : Execution υ}
    (reachable : Reachable ⟨t.outline, settings⟩ rules x)
    (ends : ∀ f c, rules.mayEnd f c → c.status.isTerminal = true) (atEnd : x.isOver = true) : Settled t x := by
  have perm := reachable.sound.reported_perm atEnd
  obtain ⟨ds, accounted⟩ := reachable.accounted ends
  obtain ⟨entries, kept⟩ := reachable.kept
  have own : x.aggregator = (Aggregator.new t.outline).submitAll ds := accounted.aggregator
  have delivered (seq : Nat) : x.aggregator.delivered[seq]? =
      if seq < t.outline.steps.length then some ((ds.find? (·.seq = seq)).map (·.completion)) else none := by
    rw [own]
    exact Aggregator.delivered_submitAll t.outline ds seq
  have all : ∀ seq < t.outline.steps.length, x.aggregator.delivered[seq]? ≠ some none := by
    intro seq inside missing
    have mem : seq ∈ ds.map (·.seq) := by
      rw [accounted.seqs, List.mem_reverse, perm.mem_iff]
      exact List.mem_range.2 inside
    obtain ⟨d, given, same⟩ := List.mem_map.1 mem
    rw [delivered, if_pos inside, Option.some.injEq, Option.map_eq_none_iff, List.find?_eq_none] at missing
    exact missing d given (by simpa using same)
  have complete := kept.isComplete_of_delivered all
  refine ⟨perm, ⟨ds, own, accounted.seqs⟩, complete, ?_, kept.terminal_of_complete complete ?_⟩
  · rw [kept.tree_eq, Aggregator.length_runs_replay]
    simp [Aggregator.new, RunTree.new, SuiteTree.outline, SuiteTree.length_nodes]
  · intro e mem done given
    obtain ⟨seq, found⟩ := kept.exists_delivered mem
    rw [delivered] at found
    split at found
    · rw [Option.some.injEq, Option.map_eq_some_iff] at found
      obtain ⟨d, first, same⟩ := found
      exact accounted.ends d (List.mem_of_find?_eq_some first) done (same ▸ given)
    · cases found

end Execution

/-! ## The event loop -/

/-- What a unit came to is always an outcome. -/
theorem Summary.isTerminal_classify (s : Summary) (exit : ExitCondition) (kill : Option KillCause) :
    (s.classify exit kill).status.isTerminal = true := by
  unfold classify
  split
  · rfl
  · rfl
  · rfl
  · unfold classifyEnd
    split
    · unfold classifyExit
      split
      · rfl
      · rfl
      · split <;> rfl
      · split_ifs <;> rfl
    · simp only
      split_ifs <;> rfl

namespace Loop

open Execution

variable {β : Type} {a : Assignment β} {w : World β}

/-- What the loop meets in a round: the world at the time before the wait, and at the time after it. -/
def roundAt (a : Assignment β) (w : World β) (start : Interruption) (l : Loop) (later : Instant) : Round β Running where
  stop := (w.interruptionAfter start l.execution.aggregator.events).isStop
  control := controlAt a w l.clock
  now := w.now
  controlLater := controlAt a w later
  look := lookAt later w.now
  later := w.now

theorem roundAt_follows (start : Interruption) (l : Loop) (later : Instant) :
    (roundAt a w start l later).Follows (.any Running) where
  starts := fun _ _ _ => trivial
  ends := by
    intro f unit c looked
    simp only [roundAt, lookAt] at looked
    split at looked
    · cases looked
      exact Summary.isTerminal_classify _ _ _
    · cases looked
  stops := fun _ => trivial

/-- **Where the loop comes to an end, a run can**, under all rules that its rounds follow. -/
theorem reachable_of_follows {rules : Conduct Running} {start : Interruption}
    (follows : ∀ l later, (roundAt a w start l later).Follows rules) (fuel : Nat) {l : Loop} {x : Execution Running}
    (reachable : Reachable a rules l.execution) (h : drive a w start l fuel = (x, .ok ())) :
    Reachable a rules x ∧ x.isOver = true := by
  obtain ⟨clock, reached⟩ := drive_induction (P := fun l => Reachable a rules l.execution)
    (fun l reached => reached.trans (moves_prepared (follows l l.clock) l.execution))
    (fun l later reached _ => reached.trans (moves_collect (follows l later).ends)) reachable fuel
  have atEnd := isOver_of_drive fuel (congrArg Prod.snd h)
  rw [h] at reached atEnd
  exact ⟨reached, atEnd⟩

theorem reachable_of_drive {start : Interruption} (fuel : Nat) {l : Loop} {x : Execution Running}
    (reachable : Reachable a (.any Running) l.execution) (h : drive a w start l fuel = (x, .ok ())) :
    Reachable a (.any Running) x ∧ x.isOver = true :=
  reachable_of_follows (roundAt_follows start) fuel reachable h

end Loop

open Execution in
/-- **Every step is settled once, and every node ends.** However the units of a suite tree end, fail to start or are
killed, and whenever the run is told to stop, as long as every unit in flight is reaped at some time: every change of a
unit's state is allowed; a run with steps left waits for something in flight; no step is reported twice, and what is
reported is what the aggregator is given; and the run comes to an end, in which every step has been applied and every
run has a terminal status. That is also where the event loop ends if it ends without an error. -/
theorem steps_settled_once {β υ : Type} (t : SuiteTree β) (settings : Settings)
    (course : Course υ ⟨t.outline, settings⟩ (.any υ)) :
    (∀ n, ∀ change ∈ (course.state n).changes, change.before.canAdvanceTo change.after = true) ∧
      (∀ n, (course.state n).cursor < t.plan.length → (course.state n).inFlight ≠ []) ∧
      (∀ n, (course.state n).reported.Nodup ∧ ∃ ds, (course.state n).aggregator =
        (Aggregator.new t.outline).submitAll ds ∧ ds.map (·.seq) = (course.state n).reported.reverse) ∧
      (∃ n, (course.state n).isOver = true) ∧ (∀ n, (course.state n).isOver = true → Settled t (course.state n)) ∧
      ∀ (w : World β) (start : Interruption) (fuel : Nat) (x : Execution Running),
        Loop.drive ⟨t.outline, settings⟩ w start ⟨.new ⟨t.outline, settings⟩, w.clock⟩ fuel = (x, .ok ()) →
          Settled t x := by
  have nodes : ∀ step ∈ t.outline.steps, ∃ n, t.outline.node? step.node = some n := fun step mem => t.exists_node mem
  refine ⟨fun n => (course.reachable n).sound.legal, ?_, ?_, course.exists_over nodes, ?_, ?_⟩
  · intro n more
    apply course.flying_of_not_over nodes
    have steps := (course.reachable n).sound.steps
    simp only [isOver, steps, Bool.and_eq_false_iff, decide_eq_false_iff_not, Nat.not_le]
    exact .inr more
  · intro n
    obtain ⟨ds, accounted⟩ := (course.reachable n).accounted fun _ _ ends => ends
    exact ⟨(course.reachable n).sound.once, ds, accounted.aggregator, accounted.seqs⟩
  · intro n atEnd
    exact (course.reachable n).settled (fun _ _ ends => ends) atEnd
  · intro w start fuel x ended
    obtain ⟨reachable, atEnd⟩ := Loop.reachable_of_drive fuel .refl ended
    exact reachable.settled (fun _ _ ends => ends) atEnd

open Execution in
/-- A suite with a setup and three tests, of which the first cannot be started and the second is the last that runs, as
the run is told to stop in the third round. -/
theorem steps_settled_once_interrupted :
    let t : SuiteTree Nat := .suite { name := "s", setup := .explicit 0 }
      [.test { name := "a" } 1, .test { name := "b" } 2, .test { name := "c" } 3]
    let course : Course Unit ⟨t.outline, { jobs := 0 }⟩ (.any Unit) :=
      .prompt (fun seq => if seq = 1 then .error .noDescriptors else .ok ())
        (fun _ => { status := .passed, startedAt := 5, endedAt := 6 }) (fun n => n = 2) (fun _ => trivial)
        (fun _ => rfl) (fun _ _ => trivial)
    (course.state 2).isOver = true ∧ Settled t (course.state 2) := by
  intro t course
  have atEnd : (course.state 2).isOver = true := by decide +kernel
  exact ⟨atEnd, (steps_settled_once t { jobs := 0 } course).2.2.2.2.1 2 atEnd⟩

end TestIsolation
