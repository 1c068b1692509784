import TestIsolation.Proofs.Schedule.Clocked
import TestIsolation.Proofs.Suite.Inheritance

/-!
# What units contain

The unit of a step has the functions that the tree declares for it (`UnitOf`): a test's body with the setup and the
teardown that come down to it, or a suite's own fixture and nothing else. A unit that comes into flight is that of its
step (`Loop.Tick.starts`), and a run asks for no other. So two ways to start units that are the same for these lead to
the same state (`Execution.dispatch_congr`), and a run comes to the same in two worlds in which these have the same
lives (`Assignment.run_congr`).
-/

namespace TestIsolation

set_option autoImplicit false

/-- The first on the walk from a node to the root that does not leave a slot to its ancestors has this function. -/
def ComesDown {β : Type} (t : SuiteTree β) (slot : Node β → Fixture β) (n : Node β) (run : β) : Prop :=
  ∃ m, Nearest (slot · = .inherited) (t.outline.lineage n) m ∧ slot m = .explicit run

/-- What the unit of a node's step contains. -/
inductive UnitOf {β : Type} (t : SuiteTree β) (n : Node β) : Step → UnitPlan β → Prop where
  /-- A test runs its body, with the setup and the teardown that come down to it, -/
  | test {plan : UnitPlan β} (test : n.isTest = true) (body : plan.body = n.body)
      (setup : ∀ run, plan.setup = some run ↔ ComesDown t (·.slots.setup) n run)
      (teardown : ∀ run, plan.teardown = some run ↔ ComesDown t (·.slots.teardown) n run) :
      UnitOf t n (.leaf n.index) plan
  /-- and a suite its own setup alone, -/
  | setup {run : β} (suite : n.isTest = false) (own : n.slots.setup = .explicit run) :
      UnitOf t n (.enter n.index) { setup := some run }
  /-- or its own teardown alone. -/
  | teardown {run : β} (suite : n.isTest = false) (own : n.slots.teardown = .explicit run) :
      UnitOf t n (.exit n.index) { teardown := some run }

section Units

variable {β : Type} {a : Assignment β} {t : SuiteTree β} {n : Node β} {step : Step} {plan : UnitPlan β}

/-- **A step has one unit.** -/
theorem UnitOf.unique (unit : UnitOf t n step plan) {other : UnitPlan β} (unit' : UnitOf t n step other) :
    plan = other := by
  cases unit with
  | test _ body setup teardown =>
    cases unit' with
    | test _ body' setup' teardown' =>
      obtain ⟨_, _, _⟩ := plan
      obtain ⟨_, _, _⟩ := other
      obtain rfl := body.trans body'.symm
      obtain rfl := Option.ext fun run => (setup run).trans (setup' run).symm
      obtain rfl := Option.ext fun run => (teardown run).trans (teardown' run).symm
      rfl
  | setup _ own =>
    cases unit' with
    | setup _ own' =>
      obtain rfl := Fixture.explicit.inj (own.symm.trans own')
      rfl
  | teardown _ own =>
    cases unit' with
    | teardown _ own' =>
      obtain rfl := Fixture.explicit.inj (own.symm.trans own')
      rfl

namespace Assignment

theorem unitOf_testPlan (tree : a.outline = t.outline) (test : n.isTest = true) :
    UnitOf t n (.leaf n.index) (a.testPlan n) := by
  rw [testPlan, tree]
  exact .test test rfl (fun run => Outline.resolve_eq_some_iff) fun run => Outline.resolve_eq_some_iff

theorem unitOf_fixturePlan (own : step ∈ n.steps) (fixture : fixturePlan? n step = some plan) :
    UnitOf t n step plan := by
  obtain ⟨index, kind⟩ := Node.of_mem_steps own
  cases step with
  | leaf node => cases fixture
  | enter node =>
    obtain rfl : node = n.index := index
    have suite : n.isTest = false := by simpa [Step.isSuite] using kind
    obtain ⟨run, found, rfl⟩ := Option.map_eq_some_iff.1 fixture
    exact .setup suite (Fixture.explicit?_eq_some_iff.1 found)
  | exit node =>
    obtain rfl : node = n.index := index
    have suite : n.isTest = false := by simpa [Step.isSuite] using kind
    obtain ⟨run, found, rfl⟩ := Option.map_eq_some_iff.1 fixture
    exact .teardown suite (Fixture.explicit?_eq_some_iff.1 found)

theorem unitOf_of_plan? (tree : a.outline = t.outline) (listed : step ∈ t.plan)
    (found : a.outline.node? step.node = some n) (needs : Loop.plan? a step = some plan) : UnitOf t n step plan := by
  rw [Loop.plan?, found] at needs
  rw [tree] at found
  have own := SuiteTree.mem_steps_of_node? listed found
  cases step with
  | leaf node =>
    obtain rfl : n.index = node := (SuiteTree.node?_iff.1 found).2
    obtain rfl := Option.some.inj needs
    have test : n.isTest = true := by simpa [Step.isSuite] using (Node.of_mem_steps own).2
    exact unitOf_testPlan tree test
  | enter node | exit node => exact unitOf_fixturePlan own needs

end Assignment

end Units

/-! ## Ways to start units -/

/-- Two ways to control units are the same for the units of a tree. -/
structure UnitControl.Alike {β υ : Type} (a : Assignment β) (t : SuiteTree β) (control control' : UnitControl β υ) :
    Prop where
  start : ∀ (seq : Nat) (step : Step), t.plan[seq]? = some step → ∀ n ∈ t.nodes, ∀ plan, UnitOf t n step plan →
    control.start seq plan (a.limit? n) = control'.start seq plan (a.limit? n)
  kill : control.kill = control'.kill

namespace Execution

variable {β υ : Type} {a : Assignment β} {t : SuiteTree β} {x : Execution υ} {control control' : UnitControl β υ}

/-! What becomes of a unit that has ended depends on how units are killed, and not on how they are started. -/

theorem settle_congr (kill : control.kill = control'.kill) (seq node : Nat) (barrier : Bool) (c : Completion)
    (now : Timestamp) (x : Execution υ) :
    x.settle a control seq node barrier c now = x.settle a control' seq node barrier c now := by
  simp only [settle, haltFor, kill]

theorem inspect_congr (kill : control.kill = control'.kill) (look : InFlight υ → υ × Option Completion)
    (now : Timestamp) : inspect a control look now = inspect a control' look now := by
  funext x seq
  simp only [inspect, retire, settle_congr kill]

theorem collect_congr (kill : control.kill = control'.kill) (look : InFlight υ → υ × Option Completion)
    (now : Timestamp) : x.collect a control look now = x.collect a control' look now := by
  rw [collect, inspect_congr kill, collect]

theorem launch_congr (kill : control.kill = control'.kill) {seq : Nat} {n : Node β} {plan : UnitPlan β}
    (start : control.start seq plan (a.limit? n) = control'.start seq plan (a.limit? n)) (barrier : Bool)
    (now : Timestamp) : x.launch a control seq n plan barrier now = x.launch a control' seq n plan barrier now := by
  simp only [launch, start, settle_congr kill]

/-- **A step asks for no unit but its own.** -/
theorem dispatchStep_congr (alike : control.Alike a t control') (tree : a.outline = t.outline) {step : Step}
    (due : t.plan[x.cursor]? = some step) (now : Timestamp) :
    x.dispatchStep a control step now = x.dispatchStep a control' step now := by
  have listed := List.mem_of_getElem? due
  obtain ⟨n, found⟩ := t.exists_node listed
  obtain ⟨mem, index⟩ := SuiteTree.node?_iff.1 found
  have own := SuiteTree.mem_steps_of_node? listed found
  have launched (plan : UnitPlan β) (unit : UnitOf t n step plan) (barrier : Bool) :
      x.launch a control x.cursor n plan barrier now = x.launch a control' x.cursor n plan barrier now :=
    launch_congr alike.kill (alike.start x.cursor step due n mem plan unit) barrier now
  have suite : x.dispatchSuite a control x.cursor step n now = x.dispatchSuite a control' x.cursor step n now := by
    unfold dispatchSuite
    cases fixture : Assignment.fixturePlan? n step with
    | none => rfl
    | some plan => simp only [launched plan (Assignment.unitOf_fixturePlan own fixture)]
  simp only [dispatchStep, tree, found]
  cases x.halt with
  | some halt => rfl
  | none =>
    cases step with
    | leaf node =>
      obtain rfl : n.index = node := index
      have test : n.isTest = true := by simpa [Step.isSuite] using (Node.of_mem_steps own).2
      simp only [dispatchTest, launched _ (Assignment.unitOf_testPlan tree test)]
    | enter node | exit node => simp only [suite]

/-- **Dispatching asks for no unit but those of the tree.** -/
theorem dispatch_congr (alike : control.Alike a t control') (tree : a.outline = t.outline)
    (steps : x.aggregator.steps = t.plan) (now : Timestamp) : x.dispatch a control now = x.dispatch a control' now := by
  have go (rest : List Step) (next : rest = x.aggregator.steps.drop x.cursor) :
      x.dispatchAll a control now rest = x.dispatchAll a control' now rest := by
    induction rest generalizing x with
    | nil => rfl
    | cons step rest ih =>
      have due : x.aggregator.steps[x.cursor]? = some step := by
        rw [← List.head?_drop, ← next]
        rfl
      simp only [dispatchAll, ← dispatchStep_congr alike tree (steps ▸ due)]
      cases dispatched : x.dispatchStep a control step now with
      | none => rfl
      | some y =>
        obtain ⟨_, cursor, same⟩ := move_of_dispatchStep (Conduct.starts_any control) due dispatched
        refine ih (x := { y with cursor := y.cursor + 1 }) (same.trans steps) ?_
        rw [same, cursor, ← List.tail_drop, ← next, List.tail_cons]
  exact go _ rfl

end Execution

/-! ## Worlds -/

/-- The units of a tree have the same lives in two worlds, which have everything but units in common. -/
structure World.Alike {β : Type} (t : SuiteTree β) (w w' : World β) : Prop where
  process : ∀ n ∈ t.nodes, ∀ step plan, UnitOf t n step plan → w.process plan = w'.process plan
  startError? : ∀ n ∈ t.nodes, ∀ step plan, UnitOf t n step plan → w.startError? plan = w'.startError? plan
  reaction : w.reaction = w'.reaction
  catchesSignals : w.catchesSignals = w'.catchesSignals
  now : w.now = w'.now
  clock : w.clock = w'.clock

/-- What is done about events has the same effect. -/
theorem World.Alike.interruptionAfter {β : Type} {t : SuiteTree β} {w w' : World β} (alike : w.Alike t w') :
    w.interruptionAfter = w'.interruptionAfter := by
  funext before events
  simp only [World.interruptionAfter, alike.reaction, alike.catchesSignals]

namespace Loop

open Execution

variable {β : Type} {a : Assignment β} {t : SuiteTree β} {w w' : World β} {l l' : Loop}

/-- **A unit that comes into flight is that of its step**, with the life that the world has for it. -/
theorem Tick.starts (tick : Tick a w l l') (tree : a.outline = t.outline) (sound : Sound a l.execution)
    {f : InFlight Running} (flying : f ∈ l'.execution.inFlight)
    (fresh : ∀ f' ∈ l.execution.inFlight, f'.flight ≠ f.flight) :
    ∃ step, t.plan[f.seq]? = some step ∧ ∃ n ∈ t.nodes, f.node = n.index ∧ ∃ plan, UnitOf t n step plan ∧
      f.unit = .start (w.process plan) (a.limit? n) a.settings.consoleLimit l'.clock w.now := by
  obtain ⟨f', before, same, _⟩ | ⟨step, n, plan, due, found, own, needs, started⟩ := tick.comes sound flying
  · exact absurd same.symm (fresh f' before)
  · have due : t.plan[f.seq]? = some step := by
      rw [tree] at due
      exact due
    have unit := Assignment.unitOf_of_plan? tree (List.mem_of_getElem? due) found needs
    rw [tree] at found
    exact ⟨step, due, n, (SuiteTree.node?_iff.1 found).1, own, plan, unit, started⟩

/-! What units the event loop starts depends on its world only through their lives. -/

theorem alike_controlAt (alike : w.Alike t w') (clock : Instant) :
    (controlAt a w clock).Alike a t (controlAt a w' clock) where
  start := fun seq step due n mem plan unit => by
    simp only [controlAt, alike.process n mem step plan unit, alike.startError? n mem step plan unit, alike.now]
  kill := rfl

/-- The event loop prepares its wait alike. -/
theorem prepare_congr (alike : w.Alike t w') (tree : a.outline = t.outline)
    (steps : l.execution.aggregator.steps = t.plan) (start : Interruption) :
    prepare a w start l = prepare a w' start l := by
  have kept : (l.execution.interrupt (controlAt a w l.clock)
      (w.interruptionAfter start l.execution.aggregator.events).isStop).aggregator.steps = t.plan := by
    unfold interrupt
    split <;> exact steps
  simp only [prepare]
  rw [dispatch_congr (alike_controlAt alike l.clock) tree kept, alike.interruptionAfter, alike.now]
  rfl

theorem await_congr (alike : w.Alike t w') (clock : Instant) (x : Execution Running) :
    await a w clock x = await a w' clock x := by
  unfold await
  split
  · rfl
  · split
    · rfl
    · split
      · rfl
      · rename_i next _
        simp only [alike.now, collect_congr (alike_controlAt alike (clock.later next)).kill]

/-- **The event loop goes round alike.** -/
theorem drive_congr (alike : w.Alike t w') (tree : a.outline = t.outline) (start : Interruption) (fuel : Nat)
    (reached : Reached a w l) : drive a w start l fuel = drive a w' start l fuel := by
  induction fuel generalizing l with
  | zero => rfl
  | succ fuel ih =>
    have steps : l.execution.aggregator.steps = t.plan := reached.reachable.sound.steps.trans (congrArg _ tree)
    have waits := Relation.ReflTransGen.trans reached (ticks_prepare start l)
    simp only [drive, ← prepare_congr alike tree steps, ← await_congr alike]
    split
    · rfl
    · cases awaited : await a w l.clock (prepare a w start l) with
      | error e => rfl
      | ok next =>
        refine ih ?_
        obtain rfl | ⟨later, le, rfl⟩ := await_eq_ok awaited
        · exact waits
        · exact (waits.tail (.wait later le)).trans (ticks_collect _ later)

theorem rounds_congr (alike : w.Alike t w') (tree : a.outline = t.outline) : rounds a w = rounds a w' := by
  unfold rounds
  refine List.foldl_ext _ _ _ fun n step listed => ?_
  rw [tree] at listed
  cases needs : plan? a step with
  | none => rfl
  | some plan =>
    obtain ⟨m, found⟩ := t.exists_node listed
    have unit := Assignment.unitOf_of_plan? tree listed (tree ▸ found) needs
    rw [Option.map_some, Option.map_some, alike.process m (SuiteTree.node?_iff.1 found).1 step plan unit]

end Loop

/-- **What a run comes to depends on its world only through the units of the tree**: it is the same in two worlds in
which these have the same lives. -/
theorem Assignment.run_congr {β : Type} {a : Assignment β} {t : SuiteTree β} {w w' : World β} (alike : w.Alike t w')
    (tree : a.outline = t.outline) (before : Interruption) : a.run w before = a.run w' before := by
  have start : w.interruptionAtStart before = w'.interruptionAtStart before := by
    rw [World.interruptionAtStart, alike.catchesSignals, World.interruptionAtStart]
  have rounds := Loop.rounds_congr alike tree
  have driven := Loop.drive_congr alike tree (w.interruptionAtStart before) (Loop.rounds a w) .refl
  simp only [Assignment.run, ← start, ← rounds, ← alike.interruptionAfter, ← alike.clock, ← driven]

end TestIsolation
