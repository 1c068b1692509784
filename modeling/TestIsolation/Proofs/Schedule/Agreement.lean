import TestIsolation.Proofs.Schedule.Course
import TestIsolation.Proofs.Schedule.Ledger
import TestIsolation.Proofs.Suite.Traversal

/-!
# Running side by side

A run that is not given up ends with what its ledger says, and the ledger knows nothing of jobs or of the order in which
units are reaped. So units that run side by side come to the same as units that run one after the other
(`parallel_agrees`).
-/

namespace TestIsolation

set_option autoImplicit false

namespace Assignment

variable {β : Type} {a b : Assignment β}

/-- What becomes of a step depends on whether its node is selected and on what is blocked on the lineage of that. -/
theorem decision_alike {blocked others : List (Option Blockage)} {n : Node β} (outline : b.outline = a.outline)
    (selects : b.selects n = a.selects n) (same : blockageIn others n = blockageIn blocked n) (step : Step) :
    b.decision others step n = a.decision blocked step n := by
  have plan : b.testPlan n = a.testPlan n := by
    simp only [testPlan, outline]
  cases step <;> simp only [decision, selects, plan, same]

/-- The number of jobs has no part in what becomes of a step. -/
theorem decision_congr (outline : b.outline = a.outline) (filter : b.settings.filter = a.settings.filter) :
    b.decision = a.decision := by
  funext blocked step n
  have selects : b.selects n = a.selects n := by
    simp only [Assignment.selects, Settings.selects, outline, filter]
  exact decision_alike outline selects rfl step

theorem decisionFor_congr (outline : b.outline = a.outline) (filter : b.settings.filter = a.settings.filter) :
    b.decisionFor = a.decisionFor := by
  funext blocked seq
  simp only [decisionFor, outline, decision_congr outline filter]

theorem ledger_congr (outline : b.outline = a.outline) (filter : b.settings.filter = a.settings.filter)
    (o : Nat → Except StartError Completion) :
    b.startedAt o = a.startedAt o ∧ b.dueAt o = a.dueAt o := by
  have decisions := decisionFor_congr outline filter
  have blocked : b.blockedAt o = a.blockedAt o := by
    funext k
    induction k with
    | zero => simp only [blockedAt, outline]
    | succ k ih => simp only [blockedAt, ih, decisions, outline]
  constructor
  · funext k
    induction k with
    | zero => rfl
    | succ k ih => simp only [startedAt, ih, decisions, blocked]
  · funext seq
    simp only [dueAt, decisions, blocked]

end Assignment

namespace Execution

variable {β υ : Type} {a : Assignment β} {rules : Conduct υ} {o : Nat → Except StartError Completion}
  {x y : Execution υ}

/-- Nothing is taken out of the log. -/
theorem Move.changes_subset (move : Move a rules x y) : x.changes ⊆ y.changes := by
  intro change logged
  cases move with
  | interrupt control running told => exact logged
  | update seq unit => exact logged
  | giveUp due free halted now => exact List.mem_cons_of_mem _ logged
  | pass due free running found decided now => exact List.mem_cons_of_mem _ logged
  | @launch step n n' plan barrier control due free running found decided alone room start now =>
    cases begun : control.start x.cursor plan (a.limit? n') with
    | ok unit =>
      rw [launch_of_ok begun]
      exact List.mem_cons_of_mem _ (List.mem_cons_of_mem _ logged)
    | error e =>
      rw [launch_of_error begun]
      simp [logged]
  | finish flying control ends now =>
    rw [retire_eq]
    simp [logged]

/-- No unit that was started is forgotten. -/
theorem Move.started_subset (move : Move a rules x y) : x.started ⊆ y.started :=
  List.map_subset _ (List.filter_subset _ move.changes_subset)

/-- **A run follows the ledger** if none of the units it has started is a reason to give it up. -/
theorem Reachable.tracks (reachable : Reachable a (.giving o) x) (calm : Calm a o x.started) : Tracks a o x := by
  induction reachable with
  | refl => exact .new a o
  | tail before move ih =>
    have calm := calm.mono move.started_subset
    exact (ih calm).move (Reachable.sound before) move ((ih calm).going_of_calm calm move)

/-- A run follows the ledger if no unit in the ledger is a reason to give it up. -/
theorem Reachable.tracks_of_calm (calm : Calm a o (a.startedAt o a.outline.steps.length))
    (reachable : Reachable a (.giving o) x) : Tracks a o x := by
  induction reachable with
  | refl => exact .new a o
  | tail before move ih =>
    have sound := Reachable.sound before
    refine ih.move sound move (ih.going_of_calm (calm.mono ?_) move)
    rw [ih.started]
    exact Assignment.startedAt_subset sound.cursor

/-- What a run that follows the ledger comes to. -/
structure Fulfils (a : Assignment β) (o : Nat → Except StartError Completion) (x : Execution υ) : Prop where
  started : x.started = a.startedAt o a.outline.steps.length
  applied : x.aggregator.applied = a.outline.steps.length
  delivered : ∀ seq < a.outline.steps.length,
    (x.aggregator.delivered[seq]?).map (Option.map (Option.map Completion.untimed)) = some (some (a.dueAt o seq))

/-- **A run that is over has fulfilled its ledger.** -/
theorem Tracks.fulfils (tracks : Tracks a o x) (reachable : Reachable a rules x) (atEnd : x.isOver = true) :
    Fulfils a o x := by
  have sound := reachable.sound
  obtain ⟨entries, kept⟩ := reachable.kept
  simp only [isOver, Bool.and_eq_true, List.isEmpty_iff, decide_eq_true_eq, sound.steps] at atEnd
  obtain ⟨nothing, done⟩ := atEnd
  have cursor : x.cursor = a.outline.steps.length := Nat.le_antisymm sound.cursor done
  have flights := (flights_eq_nil x).2 nothing
  have delivered (seq : Nat) (inside : seq < a.outline.steps.length) :
      ∃ c, x.aggregator.delivered[seq]? = some (some c) ∧ c.map Completion.untimed = a.dueAt o seq := by
    apply tracks.handed.due
    rw [sound.reported, cursor, flights]
    exact ⟨inside, List.not_mem_nil⟩
  have complete : x.aggregator.isComplete = true := by
    refine kept.isComplete_of_delivered fun seq inside missing => ?_
    obtain ⟨c, given, _⟩ := delivered seq inside
    rw [given] at missing
    cases missing
  refine ⟨cursor ▸ tracks.started, ?_, ?_⟩
  · rw [Aggregator.isComplete, decide_eq_true_iff, sound.steps] at complete
    exact complete
  · intro seq inside
    obtain ⟨c, given, due⟩ := delivered seq inside
    rw [given, ← due]
    rfl

/-- Every step has been applied once a run has fulfilled its ledger. -/
theorem Fulfils.isComplete (fulfils : Fulfils a o x) (reachable : Reachable a rules x) :
    x.aggregator.isComplete = true := by
  obtain ⟨entries, kept⟩ := reachable.kept
  rw [Aggregator.isComplete, fulfils.applied, kept.steps, decide_eq_true_iff]

/-- **Runs with the same ledger come to the same**, times aside. -/
theorem Fulfils.agree {υ' : Type} {b : Assignment β} {rules' : Conduct υ'} {z : Execution υ'}
    (fulfils : Fulfils a o x) (fulfils' : Fulfils b o z) (reachable : Reachable a rules x)
    (reachable' : Reachable b rules' z) (outline : b.outline = a.outline)
    (filter : b.settings.filter = a.settings.filter) :
    x.started = z.started ∧ x.aggregator.events.map Event.untimed = z.aggregator.events.map Event.untimed ∧
      x.aggregator.tree.untimed = z.aggregator.tree.untimed := by
  obtain ⟨started, due⟩ := Assignment.ledger_congr outline filter o
  obtain ⟨entries, kept⟩ := reachable.kept
  obtain ⟨others, kept'⟩ := reachable'.kept
  rw [outline] at kept'
  have applied : x.aggregator.applied = z.aggregator.applied := by
    rw [fulfils.applied, fulfils'.applied, outline]
  have results := kept.untimed_eq kept' applied <| by
    intro seq inside
    rw [fulfils.applied] at inside
    rw [fulfils.delivered seq inside, fulfils'.delivered seq (outline ▸ inside), due]
  refine ⟨?_, results.2, results.1⟩
  rw [fulfils.started, fulfils'.started, started, outline]

end Execution

/-- The course of rounds in which units come at once to what is given. -/
def Course.given {β : Type} (a : Assignment β) (o : Nat → Except StartError Completion) :
    Course Unit a (.giving o) := by
  refine .prompt (fun seq => (o seq).map fun _ => ()) (outcomeOf o) (fun _ => false) ?_ ?_ nofun
  · intro seq
    simp only [Conduct.giving]
    cases o seq with
    | ok c => exact ⟨(), rfl⟩
    | error e => rfl
  · intro f given comes
    rw [outcomeOf, comes]
    rfl

open Execution in
/-- **Units that run side by side come to the same as units that run one after the other.** It is given what the unit
of every step comes to: a failure to start, or a completion. If the run is not told to stop, and none of its units is a
reason to give it up, then it comes to an end, and so does the run with one job; and both have started the same units,
told the observers the same and come to the same tree, times aside. -/
theorem parallel_agrees {β υ υ' : Type} (t : SuiteTree β) (settings : Settings)
    (o : Nat → Except StartError Completion) (parallel : Course υ ⟨t.outline, settings⟩ (.giving o))
    (sequential : Course υ' ⟨t.outline, { settings with jobs := 1 }⟩ (.giving o))
    (calm : settings.stopOnTerminated = false ∨
      ∀ n, ∀ seq ∈ (parallel.state n).started, ∀ c, o seq = .ok c → c.status ≠ .terminated) :
    (∃ n, (parallel.state n).isOver = true) ∧ (∃ m, (sequential.state m).isOver = true) ∧
      ∀ n m, (parallel.state n).isOver = true → (sequential.state m).isOver = true →
        (parallel.state n).started = (sequential.state m).started ∧
          (parallel.state n).aggregator.events.map Event.untimed =
            (sequential.state m).aggregator.events.map Event.untimed ∧
          (parallel.state n).aggregator.tree.untimed = (sequential.state m).aggregator.tree.untimed := by
  have nodes : ∀ step ∈ t.outline.steps, ∃ n, t.outline.node? step.node = some n := fun step mem => t.exists_node mem
  have calmAt (n : Nat) : Calm ⟨t.outline, settings⟩ o (parallel.state n).started := by
    rcases calm with off | calm
    · exact .inl off
    · exact .inr (calm n)
  refine ⟨parallel.exists_over nodes, sequential.exists_over nodes, ?_⟩
  intro n m atEnd atEnd'
  have fulfils := ((parallel.reachable n).tracks (calmAt n)).fulfils (parallel.reachable n) atEnd
  -- The units of the one run are those of the ledger, and those of the other are no others.
  have ledger := (Assignment.ledger_congr (a := ⟨t.outline, settings⟩)
    (b := ⟨t.outline, { settings with jobs := 1 }⟩) rfl rfl o).1
  have calm' : Calm ⟨t.outline, { settings with jobs := 1 }⟩ o
      (Assignment.startedAt ⟨t.outline, { settings with jobs := 1 }⟩ o t.outline.steps.length) := by
    rw [ledger, ← fulfils.started]
    exact calmAt n
  have fulfils' := (Reachable.tracks_of_calm calm' (sequential.reachable m)).fulfils (sequential.reachable m) atEnd'
  exact fulfils.agree fulfils' (parallel.reachable n) (sequential.reachable m) rfl rfl

/-- A suite whose setup passes, with a test that fails, one that cannot be started and one that passes. Two jobs come to
an end in the third round, and one job in the fourth. -/
theorem parallel_agrees_two_jobs :
    let t : SuiteTree Nat := .suite { name := "s", setup := .explicit 0 }
      [.test { name := "a" } 1, .test { name := "b" } 2, .test { name := "c" } 3]
    let settings : Settings := { jobs := 2, stopOnTerminated := true }
    let o : Nat → Except StartError Completion := fun seq =>
      if seq = 2 then .error .noDescriptors
      else .ok { status := if seq = 1 then .failed else .passed, startedAt := 5, endedAt := 6 }
    let two := Course.given ⟨t.outline, settings⟩ o
    let one := Course.given ⟨t.outline, { settings with jobs := 1 }⟩ o
    (∀ seq c, o seq = .ok c → c.status ≠ .terminated) ∧ (two.state 2).isOver = true ∧ (one.state 3).isOver = true ∧
      (two.state 2).started = (one.state 3).started ∧
      (two.state 2).aggregator.events.map Event.untimed = (one.state 3).aggregator.events.map Event.untimed ∧
      (two.state 2).aggregator.tree.untimed = (one.state 3).aggregator.tree.untimed := by
  intro t settings o two one
  have calm : ∀ seq c, o seq = .ok c → c.status ≠ .terminated := by
    intro seq c comes
    simp only [o] at comes
    split at comes
    · cases comes
    · cases comes
      simp only
      split <;> decide
  have atEnd : (two.state 2).isOver = true := by decide +kernel
  have atEnd' : (one.state 3).isOver = true := by decide +kernel
  exact ⟨calm, atEnd, atEnd',
    (parallel_agrees t settings o two one (.inr fun _ seq _ => calm seq)).2.2 2 3 atEnd atEnd'⟩

end TestIsolation
