import TestIsolation.Proofs.Run.Severity
import TestIsolation.Proofs.Schedule.Agreement
import TestIsolation.Proofs.Schedule.Blockage

/-!
# Which units are started

The units that a run starts can be told from the tree, the filter and how the setups of suites end (`DueUnit`). A run
that is never given up starts these, each once, and skips every other test for a reason that is true (`units_started`).
-/

namespace TestIsolation

set_option autoImplicit false

/-- No setup of some suites ends otherwise than passed. -/
def Whole (ended : Nat → Status → Prop) (suites : List Nat) : Prop := ∀ i ∈ suites, ∀ s, ended i s → s = .passed

/-- The units that should be started, given how the setups of suites end. -/
inductive DueUnit {β : Type} (t : SuiteTree β) (settings : Settings) (ended : Nat → Status → Prop) : Step → Prop where
  /-- A test that passes the filter, -/
  | test {n : Node β} (mem : n ∈ t.nodes) (test : n.isTest = true) (selected : settings.selects n.path = true)
      (whole : Whole ended n.ancestors) : DueUnit t settings ended (.leaf n.index)
  /-- the setup of a suite with such a test below it, -/
  | setup {n leaf : Node β} {run : β} (mem : n ∈ t.nodes) (suite : n.isTest = false)
      (own : n.slots.setup = .explicit run) (inside : leaf ∈ t.nodes) (below : n.index ∈ leaf.lineage)
      (test : leaf.isTest = true) (selected : settings.selects leaf.path = true) (whole : Whole ended n.ancestors) :
      DueUnit t settings ended (.enter n.index)
  /-- and the teardown of one, where that asks the same of its own setup. -/
  | teardown {n leaf : Node β} {run : β} (mem : n ∈ t.nodes) (suite : n.isTest = false)
      (own : n.slots.teardown = .explicit run) (inside : leaf ∈ t.nodes) (below : n.index ∈ leaf.lineage)
      (test : leaf.isTest = true) (selected : settings.selects leaf.path = true) (whole : Whole ended n.lineage) :
      DueUnit t settings ended (.exit n.index)

/-- Why a test is skipped, given how the setups of suites end. -/
inductive SkipReason {β : Type} (settings : Settings) (ended : Nat → Status → Prop) (n : Node β) : String → Prop where
  | failed {i : Nat} {s : Status} (above : i ∈ n.ancestors) (setup : ended i s) (passed : s ≠ .passed)
      (skipped : s ≠ .skipped) : SkipReason settings ended n "ancestor setup failed"
  | skipped {i : Nat} (above : i ∈ n.ancestors) (setup : ended i .skipped) :
      SkipReason settings ended n "ancestor setup skipped"
  | filtered (unselected : settings.selects n.path = false) (whole : Whole ended n.ancestors) :
      SkipReason settings ended n "filtered out"

/-- The unit of a node's step is due if it exists, a test that passes the filter has the node on its lineage, and no
setup breaks. -/
theorem dueUnit_iff {β : Type} {t : SuiteTree β} {settings : Settings} {ended : Nat → Status → Prop} {n : Node β}
    {step : Step} (mem : n ∈ t.nodes) (own : step ∈ n.steps) :
    DueUnit t settings ended step ↔
      (step.isSuite = true → (Assignment.fixturePlan? n step).isSome = true) ∧
        (∃ leaf ∈ t.nodes, n.index ∈ leaf.lineage ∧ leaf.isTest = true ∧ settings.selects leaf.path = true) ∧
        Whole ended (if step.opens then n.ancestors else n.lineage) := by
  obtain ⟨index, kind⟩ := Node.of_mem_steps own
  constructor
  · intro unit
    cases unit with
    | test known test selected whole =>
      obtain rfl := SuiteTree.eq_of_index known mem index
      exact ⟨nofun, ⟨_, mem, List.mem_cons_self, test, selected⟩, whole⟩
    | setup known suite slot inside below test selected whole =>
      obtain rfl := SuiteTree.eq_of_index known mem index
      exact ⟨fun _ => by simp [Assignment.fixturePlan?, slot, Fixture.explicit?],
        ⟨_, inside, below, test, selected⟩, whole⟩
    | teardown known suite slot inside below test selected whole =>
      obtain rfl := SuiteTree.eq_of_index known mem index
      exact ⟨fun _ => by simp [Assignment.fixturePlan?, slot, Fixture.explicit?],
        ⟨_, inside, below, test, selected⟩, whole⟩
  · rintro ⟨fixture, ⟨leaf, inside, below, test, selected⟩, whole⟩
    cases step with
    | leaf node =>
      obtain rfl : node = n.index := index
      have own : n.isTest = true := by simpa [Step.isSuite] using kind
      obtain rfl := SuiteTree.eq_of_test_on_lineage own mem inside below
      exact .test mem own selected whole
    | enter node =>
      obtain rfl : node = n.index := index
      have suite : n.isTest = false := by simpa [Step.isSuite] using kind
      have fixture := fixture rfl
      cases slot : n.slots.setup <;> simp [Assignment.fixturePlan?, slot, Fixture.explicit?] at fixture
      exact .setup mem suite slot inside below test selected whole
    | exit node =>
      obtain rfl : node = n.index := index
      have suite : n.isTest = false := by simpa [Step.isSuite] using kind
      have fixture := fixture rfl
      cases slot : n.slots.teardown <;> simp [Assignment.fixturePlan?, slot, Fixture.explicit?] at fixture
      exact .teardown mem suite slot inside below test selected whole

/-- A unit that is due has its step in the traversal. -/
theorem DueUnit.mem_plan {β : Type} {t : SuiteTree β} {settings : Settings} {ended : Nat → Status → Prop} {step : Step}
    (unit : DueUnit t settings ended step) : step ∈ t.plan := by
  rw [SuiteTree.mem_plan]
  cases unit with
  | test mem test => exact ⟨_, mem, Node.leaf_mem_steps test⟩
  | setup mem suite => exact ⟨_, mem, Node.enter_mem_steps suite⟩
  | teardown mem suite => exact ⟨_, mem, Node.exit_mem_steps suite⟩

namespace Assignment

open Execution

variable {β : Type} {a : Assignment β} {o : Nat → Except StartError Completion} {t : SuiteTree β} {n : Node β}
  {seq i : Nat} {step : Step}

/-- The setup of a suite is started and ends with a status, going by the ledger. -/
def Ended (a : Assignment β) (o : Nat → Except StartError Completion) (i : Nat) (s : Status) : Prop :=
  ∃ seq, a.Launches o seq ∧ a.outline.steps[seq]? = some (.enter i) ∧ (outcomeOf o seq).status = s

theorem blockageOf_eq_none {s : Status} : blockageOf s = none ↔ s = .passed := by
  cases s <;> simp [blockageOf]

theorem blockageOf_eq_skipped {s : Status} : blockageOf s = some .skipped ↔ s = .skipped := by
  cases s <;> simp [blockageOf]

theorem blockageOf_eq_failed {s : Status} : blockageOf s = some .failed ↔ s ≠ .passed ∧ s ≠ .skipped := by
  cases s <;> simp [blockageOf]

/-- Where a setup above a test breaks, the test is skipped for it. -/
theorem BreaksAt.skipReason {b : Blockage} (breaks : a.BreaksAt o i seq b) (above : i ∈ n.ancestors) :
    SkipReason a.settings (a.Ended o) n b.reason := by
  obtain ⟨launches, entered, breaks⟩ := breaks
  have ended : a.Ended o i (outcomeOf o seq).status := ⟨seq, launches, entered, rfl⟩
  cases b with
  | failed =>
    obtain ⟨passed, skipped⟩ := blockageOf_eq_failed.1 breaks
    exact .failed above ended passed skipped
  | skipped =>
    rw [blockageOf_eq_skipped.1 breaks] at ended
    exact .skipped above ended

theorem not_broken_iff : ¬a.Broken o i ↔ ∀ s, a.Ended o i s → s = .passed := by
  constructor
  · rintro whole s ⟨seq, launches, entered, rfl⟩
    by_contra other
    obtain ⟨b, breaks⟩ := Option.ne_none_iff_exists'.1 (mt blockageOf_eq_none.1 other)
    exact whole ⟨seq, b, launches, entered, breaks⟩
  · rintro passed ⟨seq, b, launches, entered, breaks⟩
    rw [blockageOf_eq_none.2 (passed _ ⟨seq, launches, entered, rfl⟩)] at breaks
    cases breaks

/-! ## What is selected -/

/-- A node passes the filter if a test does that has it on its lineage. -/
theorem selects_iff (tree : a.outline = t.outline) (mem : n ∈ t.nodes) :
    a.selects n = true ↔
      ∃ leaf ∈ t.nodes, n.index ∈ leaf.lineage ∧ leaf.isTest = true ∧ a.settings.selects leaf.path = true := by
  rw [selects, tree, List.any_eq_true]
  constructor
  · rintro ⟨leaf, inside, holds⟩
    rw [Bool.and_eq_true, Bool.and_eq_true] at holds
    exact ⟨leaf, inside, (SuiteTree.mem_lineage_iff mem inside).2 holds.1.2, holds.1.1, holds.2⟩
  · rintro ⟨leaf, inside, below, test, selected⟩
    refine ⟨leaf, inside, ?_⟩
    rw [Bool.and_eq_true, Bool.and_eq_true]
    exact ⟨⟨test, (SuiteTree.mem_lineage_iff mem inside).1 below⟩, selected⟩

theorem selects_test (tree : a.outline = t.outline) (mem : n ∈ t.nodes) (test : n.isTest = true) :
    a.selects n = true ↔ a.settings.selects n.path = true := by
  rw [selects_iff tree mem]
  constructor
  · rintro ⟨leaf, inside, below, _, selected⟩
    rwa [SuiteTree.eq_of_test_on_lineage test mem inside below]
  · exact fun selected => ⟨n, mem, List.mem_cons_self, test, selected⟩

/-- A test has no setup that could break. -/
theorem not_broken_of_test (tree : a.outline = t.outline) (mem : n ∈ t.nodes) (test : n.isTest = true) :
    ¬a.Broken o n.index := by
  rintro ⟨seq, b, breaks⟩
  have entered := List.mem_of_getElem? (breaks.entered tree)
  have own := Node.of_mem_steps (SuiteTree.mem_steps_of_node? entered (SuiteTree.node?_iff.2 ⟨mem, rfl⟩))
  rw [test] at own
  cases own.2

/-! ## What is decided -/

/-- What is decided about a test. -/
theorem decision_leaf (blocked : List (Option Blockage)) (node : Nat) (n : Node β) :
    (∃ b, blockageIn blocked n = some b ∧ a.decision blocked (.leaf node) n = .pass (some b.reason)) ∨
      (blockageIn blocked n = none ∧ a.selects n = false ∧
        a.decision blocked (.leaf node) n = .pass (some filteredReason)) ∨
      (blockageIn blocked n = none ∧ a.selects n = true ∧
        a.decision blocked (.leaf node) n = .launch n (a.testPlan n) false) := by
  simp only [decision]
  cases blockageIn blocked n with
  | some b => exact .inl ⟨b, rfl, rfl⟩
  | none =>
    cases a.selects n with
    | false => exact .inr (.inl ⟨rfl, rfl, rfl⟩)
    | true => exact .inr (.inr ⟨rfl, rfl, rfl⟩)

/-- What is decided to be started. -/
theorem decision_iff {blocked : List (Option Blockage)} :
    (∃ n' plan barrier, a.decision blocked step n = .launch n' plan barrier) ↔
      (step.isSuite = true → (fixturePlan? n step).isSome = true) ∧ a.selects n = true ∧
        blockageIn blocked n = none := by
  cases step with
  | leaf node =>
    rcases decision_leaf (a := a) blocked node n with
      ⟨b, found, decided⟩ | ⟨free, selects, decided⟩ | ⟨free, selects, decided⟩
    · simp [decided, found]
    · simp [decided, selects]
    · simp [decided, selects, free, Step.isSuite]
  | enter node | exit node =>
    simp only [decision, Step.isSuite, forall_const]
    cases fixturePlan? n _ with
    | none => simp
    | some plan =>
      simp only [Option.isSome_some, true_and]
      split
      · rename_i runs
        rw [Bool.and_eq_true, Option.isNone_iff_eq_none] at runs
        simp [runs]
      · rename_i stays
        rw [Bool.and_eq_true, Option.isNone_iff_eq_none] at stays
        simp only [reduceCtorEq, exists_false, false_iff]
        exact fun both => stays ⟨both.2, both.1⟩

/-- A step is decided about its node. -/
theorem decisionFor_of_tree (tree : a.outline = t.outline) (due : t.plan[seq]? = some step) (mem : n ∈ t.nodes)
    (index : n.index = step.node) (blocked : List (Option Blockage)) :
    a.decisionFor blocked seq = some (a.decision blocked step n) := by
  rw [decisionFor, tree, show t.outline.steps[seq]? = some step from due, Option.bind_some,
    SuiteTree.node?_iff.2 ⟨mem, index⟩, Option.map_some]

/-- A step is free to run if no setup breaks above its node, and on leaving a suite, its own. -/
theorem blockageIn_iff_whole (tree : a.outline = t.outline) (due : t.plan[seq]? = some step) (mem : n ∈ t.nodes)
    (own : step ∈ n.steps) :
    blockageIn (a.blockedAt o seq) n = none ↔
      Whole (a.Ended o) (if step.opens then n.ancestors else n.lineage) := by
  obtain ⟨index, kind⟩ := Node.of_mem_steps own
  rw [blockageIn_eq_none_iff tree due mem index.symm]
  cases step with
  | leaf node =>
    have test : n.isTest = true := by simpa [Step.isSuite] using kind
    constructor
    · intro free i above
      exact not_broken_iff.1 ((free i (List.mem_cons_of_mem _ above)).resolve_left (by simp))
    · intro whole i listed
      rcases List.mem_cons.1 listed with rfl | above
      · exact .inr (not_broken_of_test tree mem test)
      · exact .inr (not_broken_iff.2 (whole i above))
  | enter node =>
    obtain rfl : node = n.index := index
    constructor
    · intro free i above
      have less := SuiteTree.lt_of_mem_ancestors mem above
      refine not_broken_iff.1 ((free i (List.mem_cons_of_mem _ above)).resolve_left fun same => ?_)
      have same : n.index = i := Step.enter.inj same
      omega
    · intro whole i listed
      rcases List.mem_cons.1 listed with rfl | above
      · exact .inl rfl
      · exact .inr (not_broken_iff.2 (whole i above))
  | exit node =>
    constructor
    · intro free i listed
      exact not_broken_iff.1 ((free i listed).resolve_left (by simp))
    · intro whole i listed
      exact .inr (not_broken_iff.2 (whole i listed))

/-- **The ledger starts the units that are due.** -/
theorem launches_iff (tree : a.outline = t.outline) (due : t.plan[seq]? = some step) :
    a.Launches o seq ↔ DueUnit t a.settings (a.Ended o) step := by
  have listed := List.mem_of_getElem? due
  obtain ⟨n, found⟩ := t.exists_node listed
  obtain ⟨mem, index⟩ := SuiteTree.node?_iff.1 found
  have own := SuiteTree.mem_steps_of_node? listed found
  simp only [Launches, decisionFor_of_tree tree due mem index, Option.some.injEq]
  rw [decision_iff, blockageIn_iff_whole tree due mem own, selects_iff tree mem, dueUnit_iff mem own]

end Assignment

namespace Execution

open Assignment

variable {β υ : Type} {a : Assignment β} {o : Nat → Except StartError Completion} {rules : Conduct υ}
  {x y : Execution υ} {t : SuiteTree β} {n : Node β} {seq node : Nat}

/-! ## Runs that are not given up -/

/-- A run that goes on has gone on so far. -/
theorem Move.going (move : Move a rules x y) (going : y.halt = none) : x.halt = none := by
  cases move with
  | interrupt control running told => exact running
  | update seq unit => exact going
  | giveUp due free halted now => exact going
  | pass due free running found decided now => exact running
  | launch due free running found decided alone room start now => exact running
  | finish flying control ends now =>
    rw [retire_eq, halt_settle] at going
    split at going
    · cases going
    · exact going

/-- **A run that goes on follows the ledger.** -/
theorem Reachable.tracks_of_going (reachable : Reachable a (.giving o) x) (going : x.halt = none) : Tracks a o x := by
  induction reachable with
  | refl => exact .new a o
  | tail before move ih => exact (ih (move.going going)).move (Reachable.sound before) move going

/-- **A test ends as the ledger says.** -/
theorem Fulfils.run_of_leaf (fulfils : Fulfils a o x) (reachable : Reachable a rules x) (tree : a.outline = t.outline)
    (due : t.plan[seq]? = some (.leaf node)) {c : Completion} (owed : a.dueAt o seq = some c) :
    ∃ r, x.aggregator.tree.run? node = some r ∧ r.status = c.status ∧ r.reason = c.reason := by
  obtain ⟨entries, kept⟩ := reachable.kept
  have complete := fulfils.isComplete reachable
  rw [tree] at kept
  have inside := (List.getElem?_eq_some_iff.1 due).1
  obtain ⟨given, handed⟩ := kept.delivered_of_complete complete inside
  have delivered := fulfils.delivered seq (tree ▸ inside)
  rw [handed, owed, Option.map_some, Option.map_some, Option.some.injEq, Option.some.injEq,
    Option.map_eq_some_iff] at delivered
  obtain ⟨done, rfl, rfl⟩ := delivered
  exact kept.run_of_leaf (c := done) complete due handed

/-- **A test that is not started is skipped for a reason.** -/
theorem Fulfils.skipped (fulfils : Fulfils a o x) (reachable : Reachable a rules x) (tree : a.outline = t.outline)
    (mem : n ∈ t.nodes) (test : n.isTest = true) (due : t.plan[seq]? = some (.leaf n.index))
    (stays : ¬a.Launches o seq) :
    ∃ r reason, x.aggregator.tree.run? n.index = some r ∧ r.status = .skipped ∧ r.reason = some reason ∧
      SkipReason a.settings (a.Ended o) n reason := by
  have own := Node.leaf_mem_steps test
  have here := decisionFor_of_tree tree due mem rfl (a.blockedAt o seq)
  have free := blockageIn_iff_whole (o := o) tree due mem own
  -- The unit is not started, so that the step is settled with a reason, which ends up in the run.
  have run {reason : String} (decided : a.decision (a.blockedAt o seq) (.leaf n.index) n = .pass (some reason)) :
      ∃ r, x.aggregator.tree.run? n.index = some r ∧ r.status = .skipped ∧ r.reason = some reason := by
    rw [decided] at here
    obtain ⟨r, found, status, text⟩ := fulfils.run_of_leaf reachable tree due (ledger_of_pass here).2.2
    exact ⟨r, found, status, text⟩
  rcases decision_leaf (a := a) (a.blockedAt o seq) n.index n with
    ⟨b, blocked, decided⟩ | ⟨clear, unselected, decided⟩ | ⟨_, _, decided⟩
  · obtain ⟨r, found, status, text⟩ := run decided
    refine ⟨r, b.reason, found, status, text, ?_⟩
    obtain ⟨i, listed, known⟩ := List.exists_of_findSome?_eq_some blocked
    obtain ⟨s, _, breaks⟩ := exists_breaksAt tree known
    rcases List.mem_cons.1 listed with rfl | above
    · exact absurd ⟨s, b, breaks⟩ (not_broken_of_test tree mem test)
    · exact breaks.skipReason above
  · obtain ⟨r, found, status, text⟩ := run decided
    refine ⟨r, filteredReason, found, status, text, .filtered ?_ (free.1 clear)⟩
    rw [← Bool.not_eq_true, ← selects_test tree mem test, unselected]
    exact Bool.false_ne_true
  · rw [decided] at here
    exact absurd ⟨_, _, _, here⟩ stays

/-- The setup of a suite was started and ended with a status. -/
def SetupEnded (t : SuiteTree β) (o : Nat → Except StartError Completion) (x : Execution υ) (i : Nat) (s : Status) :
    Prop :=
  ∃ seq ∈ x.started, t.plan[seq]? = some (.enter i) ∧ (outcomeOf o seq).status = s

/-- What a run has started is what is due. -/
structure StartedDue (t : SuiteTree β) (settings : Settings) (o : Nat → Except StartError Completion)
    (x : Execution υ) : Prop where
  /-- The units that were started are those that are due, each once. -/
  units : ∃ units : List Step, x.started.map (t.plan[·]?) = units.map some ∧ units.Nodup ∧
    ∀ step, step ∈ units ↔ DueUnit t settings (SetupEnded t o x) step
  /-- A test that was not started is skipped for a reason. -/
  others : ∀ n ∈ t.nodes, n.isTest = true → (∀ seq ∈ x.started, t.plan[seq]? ≠ some (.leaf n.index)) →
    ∃ r reason, x.aggregator.tree.run? n.index = some r ∧ r.status = .skipped ∧ r.reason = some reason ∧
      SkipReason settings (SetupEnded t o x) n reason

/-- **A run that has fulfilled its ledger has started what is due.** -/
theorem Fulfils.startedDue {settings : Settings} (fulfils : Fulfils ⟨t.outline, settings⟩ o x)
    (reachable : Reachable ⟨t.outline, settings⟩ rules x) : StartedDue t settings o x := by
  have started (seq : Nat) :
      seq ∈ x.started ↔ seq < t.plan.length ∧ Launches ⟨t.outline, settings⟩ o seq := by
    rw [fulfils.started, mem_startedAt]
    rfl
  have ended : SetupEnded t o x = Ended ⟨t.outline, settings⟩ o := by
    funext i s
    apply propext
    constructor
    · rintro ⟨seq, listed, entered, same⟩
      exact ⟨seq, ((started seq).1 listed).2, entered, same⟩
    · rintro ⟨seq, launches, entered, same⟩
      exact ⟨seq, (started seq).2 ⟨(List.getElem?_eq_some_iff.1 entered).1, launches⟩, entered, same⟩
  refine ⟨⟨x.started.filterMap (t.plan[·]?), ?_, ?_, ?_⟩, ?_⟩
  · rw [List.map_filterMap_some_eq_filter_map_isSome, eq_comm, List.filter_eq_self]
    intro found listed
    obtain ⟨seq, known, rfl⟩ := List.mem_map.1 listed
    rw [List.getElem?_eq_getElem ((started seq).1 known).1]
    rfl
  · refine (fulfils.started ▸ nodup_startedAt _ : x.started.Nodup).filterMap ?_
    intro seq seq' step here there
    exact (List.getElem?_inj (List.getElem?_eq_some_iff.1 here).1 t.nodup_plan).1 (Eq.trans here (Eq.symm there))
  · intro step
    rw [List.mem_filterMap, ended]
    constructor
    · rintro ⟨seq, known, due⟩
      exact (launches_iff rfl due).1 ((started seq).1 known).2
    · intro unit
      obtain ⟨seq, due⟩ := List.mem_iff_getElem?.1 unit.mem_plan
      exact ⟨seq, (started seq).2 ⟨(List.getElem?_eq_some_iff.1 due).1, (launches_iff rfl due).2 unit⟩, due⟩
  · intro n mem test unstarted
    have own := Node.leaf_mem_steps test
    obtain ⟨seq, due⟩ := List.mem_iff_getElem?.1 (SuiteTree.mem_plan.2 ⟨n, mem, own⟩)
    rw [ended]
    refine fulfils.skipped reachable rfl mem test due fun launches => ?_
    exact unstarted seq ((started seq).2 ⟨(List.getElem?_eq_some_iff.1 due).1, launches⟩) due

end Execution

open Execution in
/-- **Exactly the right units are started.** It is given what the unit of every step comes to, and the run is never
given up. Then it comes to an end; it has started, each once, the units of the tests that pass the filter and have no
setup above them that ended otherwise than passed, of the setups of suites with such a test below them, and of the
teardowns of suites whose own setup did not end so either; and every other test is skipped, for a setup above it or
because it does not pass the filter. No two suites on one lineage are ever blocked. -/
theorem units_started {β υ : Type} (t : SuiteTree β) (settings : Settings) (o : Nat → Except StartError Completion)
    (course : Course υ ⟨t.outline, settings⟩ (.giving o)) (going : ∀ n, (course.state n).halt = none) :
    (∃ n, (course.state n).isOver = true) ∧
      (∀ n, (course.state n).isOver = true → StartedDue t settings o (course.state n)) ∧
      ∀ x y : Execution υ, Reachable ⟨t.outline, settings⟩ (.giving o) x →
        Reachable ⟨t.outline, settings⟩ (.giving o) y → x.halt = none → y.halt = none →
          ∀ m ∈ t.nodes, ∀ i ∈ m.lineage, ∀ j ∈ m.lineage,
            (x.blocked[i]?).join ≠ none → (y.blocked[j]?).join ≠ none → i = j := by
  have nodes : ∀ step ∈ t.outline.steps, ∃ n, t.outline.node? step.node = some n := fun step mem => t.exists_node mem
  refine ⟨course.exists_over nodes, ?_, ?_⟩
  · intro n atEnd
    have tracks := (course.reachable n).tracks_of_going (going n)
    exact (tracks.fulfils (course.reachable n) atEnd).startedDue (course.reachable n)
  · intro x y here there goesOn goesOn' m mem i upper j lower left right
    have broken := (here.tracks_of_going goesOn).broken rfl left
    have broken' := (there.tracks_of_going goesOn').broken rfl right
    exact Assignment.Broken.unique rfl mem upper lower broken broken'

open Execution in
/-- A suite with a setup, in which there are a suite whose setup fails, a test that passes the filter and one that does
not. Of the nine steps that may need a unit, three are started. -/
theorem units_started_nested :
    let t : SuiteTree Nat := .suite { name := "r", setup := .explicit 0 }
      [.suite { name := "s", setup := .explicit 1, teardown := .explicit 2 }
        [.test { name := "ax" } 3, .suite { name := "u", setup := .explicit 4 } [.test { name := "bx" } 5]],
       .test { name := "cx" } 6, .test { name := "d" } 7]
    let settings : Settings := { jobs := 2, filter := some "x" }
    let o : Nat → Except StartError Completion := fun seq =>
      .ok { status := if seq = 1 then .failed else .passed, startedAt := 5, endedAt := 6 }
    let course := Course.given ⟨t.outline, settings⟩ o
    (∀ n, (course.state n).halt = none) ∧ (course.state 3).isOver = true ∧ (course.state 3).started = [7, 1, 0] ∧
      StartedDue t settings o (course.state 3) := by
  intro t settings o course
  have going : ∀ n, (course.state n).halt = none := fun n => ((course.reachable n).tracks (.inl rfl)).running
  have atEnd : (course.state 3).isOver = true := by decide +kernel
  exact ⟨going, atEnd, by decide +kernel, (units_started t settings o course going).2.1 3 atEnd⟩

end TestIsolation
