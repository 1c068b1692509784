import Mathlib.Logic.Relation
import TestIsolation.Proofs.Run.Intervals
import TestIsolation.Proofs.Suite.Nesting

/-!
# Children are settled before their suite

An aggregator moves one step at a time: a step is given its completion, or the next one in turn is applied (`Moves`).
Whatever it is handed, it goes only through such moves (`moves_submitAll`), and between any two of them it is the replay
of the steps applied so far (`exists_replays`). As the traversal brackets the tree, all steps of a suite's children are
among these when the suite is left (`Settled`), so it is judged by what they came to for good.
-/

namespace TestIsolation

set_option autoImplicit false

namespace Aggregator

variable {β : Type} {o : Outline β} {t : SuiteTree β} {g h : Aggregator} {entries : List Applied} {n m : Node β}

/-! ## Moves -/

/-- One move of an aggregator. -/
inductive Moves : Aggregator → Aggregator → Prop where
  /-- A step that has no completion is given one. -/
  | deliver {g : Aggregator} {seq : Nat} (due : g.delivered[seq]? = some none) (c : Option Completion) :
      Moves g { g with delivered := g.delivered.set seq (some c) }
  /-- The step that is next in turn is applied with its completion. -/
  | apply {g : Aggregator} {step : Step} {c : Option Completion} (due : g.steps[g.applied]? = some step)
      (given : g.delivered[g.applied]? = some (some c)) (now : Timestamp) :
      Moves g { g.apply step c now with applied := g.applied + 1 }

theorem moves_drain (g : Aggregator) (now : Timestamp) (fuel : Nat) :
    Relation.ReflTransGen Moves g (g.drain now fuel) := by
  induction fuel generalizing g with
  | zero => exact .refl
  | succ fuel ih =>
    simp only [drain]
    split
    · rename_i step c due given
      exact .head (.apply due given now) (ih _)
    · exact .refl

theorem moves_submit (g : Aggregator) (seq : Nat) (c : Option Completion) (now : Timestamp) :
    Relation.ReflTransGen Moves g (g.submit seq c now) := by
  simp only [submit]
  split
  · rename_i due
    exact .head (.deliver due c) (moves_drain _ now _)
  · exact .refl

/-- **Whatever an aggregator is handed, it moves step by step.** -/
theorem moves_submitAll (g : Aggregator) (ds : List Delivery) :
    Relation.ReflTransGen Moves g (g.submitAll ds) := by
  induction ds generalizing g with
  | nil => exact .refl
  | cons d ds ih => exact (moves_submit g d.seq d.completion d.time).trans (ih _)

/-- A move keeps the steps in turn. -/
theorem Replays.moves (replays : Replays o g entries) (move : Moves g h) : ∃ entries, Replays o h entries := by
  cases move with
  | deliver due c => exact ⟨entries, replays.deliver due c⟩
  | apply due given now => exact ⟨_, replays.apply due given now⟩

/-- **Between moves an aggregator is the replay of what it applied.** -/
theorem exists_replays (moved : Relation.ReflTransGen Moves (new o) g) : ∃ entries, Replays o g entries := by
  induction moved with
  | refl => exact ⟨[], (kept_new o).toReplays⟩
  | tail _ move ih =>
    obtain ⟨entries, replays⟩ := ih
    exact replays.moves move

/-! ## Nodes that are settled -/

/-- **The step that closes a node says when it ended.** -/
theorem isSome_endedAt_apply (g : Aggregator) {step : Step} (closes : step.closes = true) (c : Option Completion)
    (now : Timestamp) {r : Run} (own : (g.apply step c now).tree.run? step.node = some r) :
    r.endedAt.isSome = true := by
  cases step with
  | enter node => cases closes
  | leaf node =>
    simp only [Step.node, run?_apply_leaf, Option.map_eq_some_iff] at own
    obtain ⟨before, _, rfl⟩ := own
    rfl
  | exit node =>
    simp only [Step.node, run?_apply_exit, Option.map_eq_some_iff] at own
    obtain ⟨before, _, rfl⟩ := own
    cases c <;> simp only [Run.left] <;> split <;> rfl

/-- A node is settled: its last step was applied and none of its own is left, so its run has ended. If all completions
that were delivered are those of units that have ended, then its status is final. -/
structure Settled (g : Aggregator) (n : Node β) : Prop where
  closed : n.lastStep ∈ g.steps.take g.applied
  finished : ∀ step ∈ g.steps.drop g.applied, step.node ≠ n.index
  run : ∃ r, g.tree.run? n.index = some r ∧ r.endedAt.isSome = true ∧
    ((∀ c, some (some c) ∈ g.delivered → c.status.isTerminal = true) → r.status.isTerminal = true)

/-- **A node whose last step was applied is settled.** -/
theorem Replays.settled (replays : Replays t.outline g entries) (mem : n ∈ t.nodes) {k : Nat}
    (last : t.plan[k]? = some n.lastStep) (early : k < g.applied) : Settled g n := by
  have steps : g.steps = t.plan := replays.steps
  have node := (Node.of_mem_steps n.lastStep_mem_steps).1
  refine ⟨?_, ?_, ?_⟩
  · rw [steps]
    exact List.mem_of_getElem? ((List.getElem?_take_of_lt early).trans last)
  · intro step listed
    rw [steps] at listed
    have later := List.drop_subset_drop_left t.plan (Nat.succ_le_of_lt early) listed
    exact node ▸ SuiteTree.node_ne_of_closes last n.closes_lastStep step later
  · obtain ⟨r, own⟩ := replays.exists_run mem
    obtain ⟨e, here⟩ : ∃ e, entries[k]? = some e := ⟨_, List.getElem?_eq_getElem (replays.count.symm ▸ early)⟩
    obtain ⟨due, given⟩ := replays.of_getElem? here
    rw [last, Option.some.injEq] at due
    have closes : e.step.closes = true := due ▸ n.closes_lastStep
    have settled := own
    rw [← node, due, replays.run?_of_closes here closes] at settled
    refine ⟨r, own, isSome_endedAt_apply _ closes _ _ settled, fun ends => ?_⟩
    refine isTerminal_apply _ closes (fun done is => ends done ?_) _ settled
    rw [Option.mem_def.1 is] at given
    exact List.mem_of_getElem? given

end Aggregator

open Aggregator in
/-- **The traversal brackets the tree, so a suite is left after its children are settled.** A test has one step, and a
suite has one that enters it and one that leaves it; the steps in between are those of its descendants, and the nodes
are opened in the order of their numbers, which is that of the tree in pre-order. An aggregator applies the steps one by
one, whatever it is handed and in which order. Whenever it is about to leave a suite, every child of that suite is
settled. -/
theorem plan_brackets_tree {β : Type} (t : SuiteTree β) :
    t.Nested ∧ (∀ ds, Relation.ReflTransGen Moves (new t.outline) ((new t.outline).submitAll ds)) ∧
      ∀ g, Relation.ReflTransGen Moves (new t.outline) g →
        ∀ n ∈ t.nodes, g.steps[g.applied]? = some (.exit n.index) →
          ∀ m ∈ t.nodes, m.index ∈ n.children → Settled g m := by
  refine ⟨t.nested, moves_submitAll _, fun g moved n mem left m child listed => ?_⟩
  obtain ⟨entries, replays⟩ := exists_replays moved
  rw [replays.steps] at left
  obtain ⟨k, due⟩ := List.mem_iff_getElem?.1 (SuiteTree.mem_plan.2 ⟨m, child, m.lastStep_mem_steps⟩)
  refine replays.settled child due (SuiteTree.lt_exit mem left due ?_)
  rw [(Node.of_mem_steps m.lastStep_mem_steps).1]
  exact SuiteTree.below_of_mem_children mem listed

open Aggregator in
/-- Completions come in the wrong order, and that of the step that leaves the inner suite is still missing. Its test is
settled, with the status of its completion. -/
theorem plan_brackets_tree_inner :
    let t : SuiteTree Nat := .suite { name := "r" } [.suite { name := "s" } [.test { name := "a" } 0]]
    let ran : Completion := { status := .failed, startedAt := 1, endedAt := 2 }
    let g := (new t.outline).submitAll [⟨2, some ran, 2⟩, ⟨1, none, 3⟩, ⟨4, none, 3⟩, ⟨0, none, 4⟩]
    t.plan = [.enter 0, .enter 1, .leaf 2, .exit 1, .exit 0] ∧ g.steps[g.applied]? = some (.exit 1) ∧
      ∀ m ∈ t.nodes, m.index = 2 → Settled g m := by
  intro t ran g
  obtain ⟨_, moved, settled⟩ := plan_brackets_tree t
  have left : g.steps[g.applied]? = some (.exit 1) := by decide +kernel
  refine ⟨rfl, left, fun m mem own => ?_⟩
  exact settled g (moved _) t.nodes[1] (List.getElem_mem _) left m mem (by rw [own]; decide +kernel)

end TestIsolation
