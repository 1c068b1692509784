import TestIsolation.Proofs.Schedule.Barrier
import TestIsolation.Proofs.Schedule.Condemned

/-!
# Teardowns that are owed

As long as a run goes on, it starts the teardown of a suite that has one when the suite is left, if a test below it
passes the filter and its setup and those above it passed (`Reachable.attempted`). If the run is given up before that
and a test below the suite is still open, the test is forgone, and the suite is no success (`teardown_run_or_noticed`).
What remains is a run that is given up when the tests below the suite are all reported but the suite is not left: then
the teardown is not started, and nothing tells of it (`teardown_dropped`).
-/

namespace TestIsolation

set_option autoImplicit false

namespace Execution

open Assignment

variable {β υ : Type} {t : SuiteTree β} {settings : Settings} {x y : Execution υ} {n : Node β} {seq i : Nat}

/-- The steps whose units were put in flight, newest first. -/
def launched (x : Execution υ) : List Nat := (x.changes.filter (·.after = .awaitingCompletion)).map (·.seq)

/-- The setup of a suite came to something else than a pass. -/
def Spoilt (t : SuiteTree β) (x : Execution υ) (i : Nat) : Prop :=
  ∃ (k : Nat) (c : Completion), t.plan[k]? = some (.enter i) ∧
    x.aggregator.delivered[k]? = some (some (some c)) ∧ c.status ≠ .passed

/-- The unit of a step was put in flight, or could not be started and counts as crashed. -/
def Attempted (x : Execution υ) (seq : Nat) : Prop :=
  seq ∈ x.launched ∨ ∃ c, x.aggregator.delivered[seq]? = some (some (some c)) ∧ c.status = .crashed

theorem Move.launched_subset {a : Assignment β} {rules : Conduct υ} (move : Move a rules x y) :
    x.launched ⊆ y.launched := List.map_subset _ (List.filter_subset _ move.changes_subset)

theorem Attempted.move {a : Assignment β} {rules : Conduct υ} (attempted : Attempted x seq)
    (move : Move a rules x y) : Attempted y seq :=
  attempted.imp (move.launched_subset ·) fun ⟨c, delivered, status⟩ => ⟨c, move.delivered delivered, status⟩

theorem Attempted.moves {a : Assignment β} {rules : Conduct υ} (attempted : Attempted x seq)
    (moves : Moves a rules x y) : Attempted y seq := by
  induction moves with
  | refl => exact attempted
  | tail _ move ih => exact ih.move move

theorem Spoilt.move {a : Assignment β} {rules : Conduct υ} (spoilt : Spoilt t x i) (move : Move a rules x y) :
    Spoilt t y i := by
  obtain ⟨k, c, entered, delivered, status⟩ := spoilt
  exact ⟨k, c, entered, move.delivered delivered, status⟩

theorem Spoilt.moves {a : Assignment β} {rules : Conduct υ} (spoilt : Spoilt t x i) (moves : Moves a rules x y) :
    Spoilt t y i := by
  induction moves with
  | refl => exact spoilt
  | tail _ move ih => exact ih.move move

/-- A suite is blocked by the end of its setup, or was before. -/
theorem of_blockedAfter {blocked : List (Option Blockage)} {step : Option Step} {node : Nat} {barrier : Bool}
    {s : Status} {b : Blockage} (found : ((blockedAfter blocked step node barrier s)[i]?).join = some b) :
    (blocked[i]?).join = some b ∨ node = i ∧ (∃ j, step = some (.enter j)) ∧ s ≠ .passed := by
  unfold blockedAfter at found
  split at found
  · rename_i j b' breaks
    by_cases own : node = i
    · refine .inr ⟨own, ⟨j, rfl⟩, ?_⟩
      rintro rfl
      cases breaks
    · rw [List.getElem?_set_ne own] at found
      exact .inl found
  · exact .inl found

/-- **A suite is blocked only by its setup**, if that came to something else than a pass. -/
theorem Reachable.spoilt (reachable : Reachable ⟨t.outline, settings⟩ (.any υ) x) {b : Blockage}
    (found : (x.blocked[i]?).join = some b) : Spoilt t x i := by
  induction reachable with
  | refl =>
    simp only [new, List.getElem?_map] at found
    cases h : t.outline.nodes[i]? <;> simp [h] at found
  | @tail x y before move ih =>
    have reachable : Reachable ⟨t.outline, settings⟩ (.any υ) x := before
    have sound := reachable.sound
    have kept (found : (x.blocked[i]?).join = some b) : Spoilt t y i := (ih found).move move
    -- A unit that ends is that of a step, and the suite that it blocks is the one that the step enters.
    have ended {k : Nat} {step : Step} {m : Node β} {c : Completion} {now : Timestamp}
        (due : t.outline.steps[k]? = some step) (known : t.outline.node? step.node = some m)
        (fresh : x.aggregator.delivered[k]? = some none)
        (submitted : y.aggregator = x.aggregator.submit k (some c) now) (own : m.index = i)
        (entered : ∃ j, some step = some (.enter j)) (status : c.status ≠ .passed) : Spoilt t y i := by
      obtain ⟨j, same⟩ := entered
      obtain rfl : step = .enter j := Option.some.inj same
      obtain rfl : j = i := (SuiteTree.node?_iff.1 known).2.symm.trans own
      refine ⟨k, c, due, ?_, status⟩
      rw [submitted, Aggregator.delivered_submit fresh, List.getElem?_set_self (List.getElem?_eq_some_iff.1 fresh).1]
    cases move with
    | interrupt control running told => exact kept found
    | update seq unit => exact kept found
    | giveUp due free halted now => exact kept found
    | pass due free running known decided now => exact kept found
    | @launch step m m' plan barrier control due free running known decided alone room start now =>
      obtain ⟨rfl, rfl⟩ := decision_eq_launch decided
      cases started : control.start x.cursor plan (limit? _ m') with
      | ok unit =>
        rw [launch_of_ok started] at found
        exact kept found
      | error e =>
        rw [launch_of_error started] at found ended kept ⊢
        simp only [blocked_settle] at found
        rcases of_blockedAfter found with earlier | ⟨own, entered, status⟩
        · exact kept earlier
        · have here := sound.steps ▸ due
          have inside := (List.getElem?_eq_some_iff.1 here).1
          exact ended here known (reachable.undelivered inside sound.cursor_not_reported) (aggregator_settle ..) own
            (due ▸ entered) status
    | @finish f c flying control ends now =>
      rw [retire_eq] at found ended ⊢
      simp only [blocked_settle] at found
      rcases of_blockedAfter found with earlier | ⟨own, entered, status⟩
      · exact kept earlier
      · obtain ⟨step, m, due, known, node, _⟩ := reachable.ordered.kinds _ (mem_flights x flying)
        have node : f.node = m.index := node
        exact ended due known (reachable.undelivered_flying flying) (aggregator_settle ..) (node ▸ own)
          ((sound.steps ▸ due) ▸ entered) status

/-- **A run that goes on has started the teardowns that it owed.** -/
theorem Reachable.attempted (reachable : Reachable ⟨t.outline, settings⟩ (.any υ) x) (going : x.halt = none)
    (suite : n ∈ t.nodes) (owed : n.slots.teardown.explicit?.isSome = true)
    (selected : selects ⟨t.outline, settings⟩ n = true) (setUp : ∀ i ∈ n.lineage, ¬Spoilt t x i)
    (due : t.plan[seq]? = some (.exit n.index)) (left : seq < x.cursor) : Attempted x seq := by
  induction reachable with
  | refl => exact absurd left (Nat.not_lt_zero _)
  | @tail x y before move ih =>
    have reachable : Reachable ⟨t.outline, settings⟩ (.any υ) x := before
    have earlier : ∀ i ∈ n.lineage, ¬Spoilt t x i := fun i listed spoilt => setUp i listed (spoilt.move move)
    by_cases already : seq < x.cursor
    · exact (ih (move.going going) earlier already).move move
    -- The move is the one that dispatches the step.
    have here {step : Step} {m : Node β} (next : x.aggregator.steps[x.cursor]? = some step)
        (known : t.outline.node? step.node = some m) (last : seq < x.cursor + 1) :
        x.cursor = seq ∧ step = .exit n.index ∧ m = n := by
      obtain rfl : x.cursor = seq := by omega
      rw [reachable.sound.steps] at next
      obtain rfl : step = .exit n.index := Option.some.inj (next.symm.trans due)
      exact ⟨rfl, rfl, Option.some.inj (known.symm.trans (SuiteTree.node?_iff.2 ⟨suite, rfl⟩))⟩
    cases move with
    | interrupt control running told => exact absurd left already
    | update seq unit => exact absurd left already
    | giveUp next free halted now =>
      have given : x.halt = none := going
      rw [halted] at given
      cases given
    | finish flying control ends now =>
      rw [cursor_retire] at left
      exact absurd left already
    | @pass step m reason next free running known decided now =>
      obtain ⟨_, rfl, rfl⟩ := here next known left
      have open_ : blockageIn x.blocked m = none := by
        rw [blockageIn_eq_none]
        intro i listed
        by_contra blocked
        obtain ⟨b, found⟩ := Option.ne_none_iff_exists'.1 blocked
        exact earlier i listed (reachable.spoilt found)
      have fixture : (fixturePlan? m (.exit m.index)).isSome = true := (Option.isSome_map ..).trans owed
      obtain ⟨_, _, _, launches⟩ := decision_iff.2 ⟨fun _ => fixture, selected, open_⟩
      rw [decided] at launches
      cases launches
    | @launch step m m' plan barrier control next free running known decided alone room start now =>
      obtain ⟨rfl, rfl, rfl⟩ := here next known left
      cases started : control.start x.cursor plan (limit? _ m') with
      | ok unit =>
        rw [launch_of_ok started]
        exact .inl (by simp [launched])
      | error e =>
        have fresh := reachable.undelivered (List.getElem?_eq_some_iff.1 due).1 reachable.sound.cursor_not_reported
        rw [launch_of_error started]
        refine .inr ⟨e.completion now, ?_, rfl⟩
        rw [aggregator_settle]
        simp only
        rw [Aggregator.delivered_submit fresh, List.getElem?_set_self (List.getElem?_eq_some_iff.1 fresh).1]

end Execution

/-! ## Runs that are given up -/

namespace Loop

open Execution

variable {β : Type} {a : Assignment β} {w : World β} {l : Loop}

/-- A run that is given up was given up at some time. -/
theorem Reached.exists_halting (reached : Reached a w l) (halted : l.execution.halt ≠ none) :
    ∃ y z, Reached a w y ∧ y.execution.halt = none ∧ Tick a w y z ∧ z.execution.halt ≠ none ∧ Ticks a w z l := by
  induction reached with
  | refl => exact absurd rfl halted
  | @tail l l' before tick ih =>
    by_cases going : l.execution.halt = none
    · exact ⟨l, l', before, going, tick, halted, .refl⟩
    · obtain ⟨y, z, reached, start, stop, given, rest⟩ := ih going
      exact ⟨y, z, reached, start, stop, given, rest.tail tick⟩

/-- The run was given up before the step that leaves a suite, and when every test below the suite had been reported. -/
def GivenUpBetween (t : SuiteTree β) (a : Assignment β) (w : World β) (n : Node β) (seq : Nat) (l : Loop) : Prop :=
  ∃ y z, Reached a w y ∧ y.execution.halt = none ∧ y.execution.cursor ≤ seq ∧ Tick a w y z ∧
    z.execution.halt ≠ none ∧ Ticks a w z l ∧
    ∀ m ∈ t.nodes, n.index ∈ m.lineage → ∀ k : Nat, t.plan[k]? = some (.leaf m.index) → k ∈ z.execution.reported

/-- A test that was not reported when the run was given up ends terminated or timed out. -/
theorem severe_of_unreported {t : SuiteTree β} {settings : Settings} {z : Loop} {m : Node β} {k : Nat}
    (reached : Reached ⟨t.outline, settings⟩ w z) (halted : z.execution.halt ≠ none)
    (ticks : Ticks ⟨t.outline, settings⟩ w z l) (atEnd : l.execution.isOver = true)
    (test : t.plan[k]? = some (.leaf m.index)) (unreported : k ∉ z.execution.reported) :
    ∃ r, l.execution.aggregator.tree.run? m.index = some r ∧ Status.failed.severity ≤ r.status.severity := by
  have later : Reached ⟨t.outline, settings⟩ w l := reached.trans ticks
  have destined := (forgone_of_halted reached halted unreported).destined.ticks reached test ticks
  obtain ⟨c, delivered, outcome⟩ := destined.atEnd later (List.getElem?_eq_some_iff.1 test).1 atEnd
  obtain ⟨entries, kept⟩ := later.reachable.kept
  have complete := (later.reachable.settled (fun _ _ ends => ends) atEnd).applied
  obtain ⟨r, own, status, _⟩ := kept.run_of_leaf complete test delivered
  refine ⟨r, own, ?_⟩
  rw [status]
  rcases outcome with terminated | timedOut
  · simp only [terminated, Status.severity]
    omega
  · simp only [timedOut, Status.severity]
    omega

end Loop

open Execution Loop in
/-- **A teardown that is owed is run, or the exit code tells**, unless the run is given up between the tests and the
teardown. In a run on a clock that is over, let a suite have a teardown, let a test below it pass the filter, and let no
setup at or above it have come to anything but a pass. Then the teardown's unit was put in flight, or the suite is no
success and the exit code is one, or the run was given up when the suite was not left yet but every test below it had
been reported. -/
theorem teardown_run_or_noticed {β : Type} {t : SuiteTree β} {settings : Settings} {w : World β} {l : Loop}
    {n m : Node β} {seq : Nat} (reached : Reached ⟨t.outline, settings⟩ w l) (atEnd : l.execution.isOver = true)
    (suite : n ∈ t.nodes) (owed : n.slots.teardown.explicit?.isSome = true) (due : t.plan[seq]? = some (.exit n.index))
    (inside : m ∈ t.nodes) (test : m.isTest = true) (below : n.index ∈ m.lineage)
    (selected : settings.selects m.path = true) (setUp : ∀ i ∈ n.lineage, ¬Spoilt t l.execution i) :
    seq ∈ l.execution.launched ∨
      ((∃ r, l.execution.aggregator.tree.run? n.index = some r ∧ r.status.isSuccess = false) ∧
        l.execution.aggregator.tree.exitCode = 1) ∨
      GivenUpBetween t ⟨t.outline, settings⟩ w n seq l := by
  have selects : Assignment.selects ⟨t.outline, settings⟩ n = true :=
    (Assignment.selects_iff rfl suite).2 ⟨m, inside, below, test, selected⟩
  obtain ⟨entries, kept⟩ := reached.reachable.kept
  have complete := (reached.reachable.settled (fun _ _ ends => ends) atEnd).applied
  have noticed {r : Run} (own : l.execution.aggregator.tree.run? n.index = some r)
      (severe : Status.failed.severity ≤ r.status.severity) :
      (∃ r, l.execution.aggregator.tree.run? n.index = some r ∧ r.status.isSuccess = false) ∧
        l.execution.aggregator.tree.exitCode = 1 := by
    have unsuccessful := Status.isSuccess_of_severe severe
    exact ⟨⟨r, own, unsuccessful⟩, RunTree.exitCode_eq_one own unsuccessful⟩
  -- A teardown that could not be started is a crash of the suite.
  have attempted (attempt : Attempted l.execution seq) : seq ∈ l.execution.launched ∨
      (∃ r, l.execution.aggregator.tree.run? n.index = some r ∧ r.status.isSuccess = false) ∧
        l.execution.aggregator.tree.exitCode = 1 := by
    refine attempt.imp_right fun ⟨c, delivered, crashed⟩ => ?_
    obtain ⟨r, own, severe⟩ := kept.fixtureContribution_le complete suite due delivered
    rw [crashed] at severe
    exact noticed own (Nat.le_trans (by decide) severe)
  by_cases going : l.execution.halt = none
  · have left : seq < l.execution.cursor := by
      have inside := (List.getElem?_eq_some_iff.1 due).1
      simp only [isOver, Bool.and_eq_true, decide_eq_true_eq, reached.reachable.sound.steps] at atEnd
      exact Nat.lt_of_lt_of_le inside atEnd.2
    exact (attempted (reached.reachable.attempted going suite owed selects setUp due left)).imp_right .inl
  obtain ⟨y, z, start, going, stop, halted, rest⟩ := reached.exists_halting going
  have toEnd := (Ticks.moves (.single stop)).trans rest.moves
  by_cases left : seq < y.execution.cursor
  · have earlier : ∀ i ∈ n.lineage, ¬Spoilt t y.execution i := fun i listed spoilt =>
      setUp i listed (spoilt.moves toEnd)
    have attempt := start.reachable.attempted going suite owed selects earlier due left
    exact (attempted (attempt.moves toEnd)).imp_right .inl
  right
  by_cases all : ∀ m ∈ t.nodes, n.index ∈ m.lineage → ∀ k : Nat, t.plan[k]? = some (.leaf m.index) →
      k ∈ z.execution.reported
  · exact .inr ⟨y, z, start, going, Nat.le_of_not_lt left, stop, halted, rest, all⟩
  · left
    simp only [not_forall] at all
    obtain ⟨m, inside, below, k, test, unreported⟩ := all
    obtain ⟨r, own, severe⟩ := severe_of_unreported (start.tail stop) halted rest atEnd test unreported
    obtain ⟨r', own', le⟩ := kept.severity_le complete inside suite below own
    exact noticed own' (Nat.le_trans severe le)

open Execution Loop in
/-- A suite with a teardown and a test, in the event loop. The teardown is put in flight. -/
theorem teardown_run_or_noticed_single :
    let t : SuiteTree Script := .suite { name := "s", teardown := .explicit [] } [.test { name := "t" } []]
    let a : Assignment Script := ⟨t.outline, {}⟩
    let w : World Script := { process := fun plan => .run plan (.start none), now := 5 }
    let x := (drive a w {} ⟨.new a, w.clock⟩ 9).1
    x.isOver = true ∧ t.plan[2]? = some (.exit 0) ∧ 2 ∈ x.launched := by
  intro t a w x
  obtain ⟨clock, reached⟩ : ∃ clock, Reached a w ⟨x, clock⟩ := ticks_drive {} 9 ⟨.new a, w.clock⟩
  obtain ⟨atEnd, going, success, entered⟩ : x.isOver = true ∧ x.halt = none ∧ x.aggregator.tree.exitCode = 0 ∧
      (x.aggregator.delivered[0]?).map (·.map (·.map (·.status))) = some (some none) := by decide +kernel
  clear_value x
  have setUp (i : Nat) : ¬Spoilt t x i := by
    rintro ⟨_ | _ | _ | k, c, step, delivered, _⟩
    · rw [delivered] at entered
      cases entered
    · cases step
    · cases step
    · cases step
  have due : t.plan[2]? = some (.exit t.nodes[0].index) := rfl
  refine ⟨atEnd, due, ?_⟩
  rcases teardown_run_or_noticed (m := t.nodes[1]) reached atEnd (List.getElem_mem _) rfl due (List.getElem_mem _) rfl
    (by decide) (by decide) (fun i _ => setUp i) with run | ⟨_, noticed⟩ | between
  · exact run
  · rw [success] at noticed
    cases noticed
  · obtain ⟨_, _, _, _, _, _, halted, rest, _⟩ := between
    exact absurd going (rest.moves.halted halted)

open Execution Loop in
/-- **A teardown may be dropped unnoticed.** The event loop runs a suite with a teardown and a test, and an observer
cancels the run when it is told that the test has finished. The teardown is not started, everything has passed, and the
exit code is zero. -/
theorem teardown_dropped :
    let t : SuiteTree Script := .suite { name := "s", teardown := .explicit [] } [.test { name := "t" } []]
    let a : Assignment Script := ⟨t.outline, {}⟩
    let w : World Script :=
      { process := fun plan => .run plan (.start none), now := 5
        reaction := fun e => if e.kind = .testFinished then some .cancel else none }
    let x := (drive a w {} ⟨.new a, w.clock⟩ 9).1
    (∃ clock, Reached a w ⟨x, clock⟩) ∧ x.isOver = true ∧
      (∃ n ∈ t.nodes, n.slots.teardown.explicit?.isSome = true ∧ t.plan[2]? = some (.exit n.index) ∧
        (∀ i ∈ n.lineage, ¬Spoilt t x i) ∧
        ∃ m ∈ t.nodes, m.isTest = true ∧ n.index ∈ m.lineage ∧ a.settings.selects m.path = true) ∧
      x.started = [1] ∧ x.aggregator.tree.runs.map (·.status) = [.passed, .passed] ∧
      x.aggregator.tree.exitCode = 0 := by
  intro t a w x
  obtain ⟨atEnd, entered, rest⟩ : x.isOver = true ∧
      (x.aggregator.delivered[0]?).map (·.map (·.map (·.status))) = some (some none) ∧ x.started = [1] ∧
      x.aggregator.tree.runs.map (·.status) = [.passed, .passed] ∧ x.aggregator.tree.exitCode = 0 := by
    decide +kernel
  refine ⟨ticks_drive {} 9 ⟨.new a, w.clock⟩, atEnd, ⟨t.nodes[0], List.getElem_mem _, rfl, rfl, fun i _ => ?_,
    t.nodes[1], List.getElem_mem _, rfl, by decide, by decide⟩, rest⟩
  rintro ⟨_ | _ | _ | k, c, step, delivered, _⟩
  · rw [delivered] at entered
    cases entered
  · cases step
  · cases step
  · cases step

end TestIsolation
