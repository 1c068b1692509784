import Mathlib.Data.List.Forall2
import TestIsolation.Proofs.Run.Severity
import TestIsolation.Proofs.Run.Untimed

/-!
# Regions of a tree

A step changes the run of its node, and looks at that run and at the statuses of the children only. So what comes of a
region that holds the children of its own nodes is known from the steps of the region, times aside, whatever is applied
elsewhere (`Aggregator.Kept.run?_alike`).
-/

namespace TestIsolation

set_option autoImplicit false

namespace Run

/-- Runs that are alike, times aside, stay so where they are changed alike. -/
theorem map_untimed_congr {r s : Option Run} (same : r.map untimed = s.map untimed) {f g : Run → Run}
    (changed : ∀ r s : Run, r.untimed = s.untimed → (f r).untimed = (g s).untimed) :
    (r.map f).map untimed = (s.map g).map untimed := by
  cases r with
  | none =>
    obtain rfl := Option.map_eq_none_iff.1 same.symm
    rfl
  | some r =>
    obtain ⟨s, rfl, alike⟩ := Option.map_eq_some_iff.1 same.symm
    exact congrArg some (changed r s alike.symm)

theorem map_status_congr {r s : Option Run} (same : r.map untimed = s.map untimed) :
    r.map (·.status) = s.map (·.status) := by
  have through (r : Option Run) : r.map (·.status) = (r.map untimed).map (·.status) := by
    cases r <;> rfl
  rw [through r, same, ← through s]

end Run

/-- The same step, settled with the same, times aside, if it belongs to a region. -/
structure Applied.SameIn (region : Nat → Prop) (e e' : Applied) : Prop where
  step : e'.step = e.step
  completion : region e.step.node → e.completion.map Completion.untimed = e'.completion.map Completion.untimed

namespace Aggregator

variable {β : Type} {region : Nat → Prop} {g h : Aggregator} {step : Step} {c d : Option Completion}

/-- Aggregators that are alike in a region, times aside. -/
structure Alike (region : Nat → Prop) (g h : Aggregator) : Prop where
  children : g.tree.children = h.tree.children
  runs : ∀ i, region i → (g.tree.run? i).map Run.untimed = (h.tree.run? i).map Run.untimed
  setups : ∀ i, region i → g.setups[i]? = h.setups[i]?

namespace Alike

theorem setups_apply (alike : Alike region g h) (inside : region step.node)
    (given : c.map Completion.untimed = d.map Completion.untimed) (now later : Timestamp) :
    (g.apply step c now).setups[step.node]? = (h.apply step d later).setups[step.node]? := by
  have before := alike.setups step.node inside
  cases step with
  | leaf | exit => exact before
  | enter node =>
    cases c <;> cases d
    · exact before
    · cases given
    · cases given
    · rename_i c d
      rw [Option.map_some, Option.map_some, Option.some.injEq] at given
      have status : c.untimed.status = d.untimed.status := congrArg Completion.status given
      have own : g.setups[node]? = h.setups[node]? := before
      simp only [Completion.untimed] at status
      simp only [apply, tell, Step.node, List.getElem?_set_self', status, own]

theorem statuses (alike : Alike region g h) {node : Nat} (closed : ∀ i ∈ g.tree.childrenOf node, region i) :
    ((g.tree.childrenOf node).filterMap fun child => (g.tree.run? child).map (·.status)) =
      (h.tree.childrenOf node).filterMap fun child => (h.tree.run? child).map (·.status) := by
  have same : h.tree.childrenOf node = g.tree.childrenOf node := by
    rw [RunTree.childrenOf, RunTree.childrenOf, alike.children]
  rw [same]
  exact List.filterMap_congr fun i listed => Run.map_status_congr (alike.runs i (closed i listed))

theorem runs_apply (alike : Alike region g h) (inside : region step.node)
    (closed : ∀ i ∈ g.tree.childrenOf step.node, region i)
    (given : c.map Completion.untimed = d.map Completion.untimed) (now later : Timestamp) :
    ((g.apply step c now).tree.run? step.node).map Run.untimed =
      ((h.apply step d later).tree.run? step.node).map Run.untimed := by
  have before := alike.runs step.node inside
  cases step with
  | enter node =>
    simp only [Step.node, run?_apply_enter]
    refine Run.map_untimed_congr before fun r s same => ?_
    rw [Run.untimed_entered, same, given, ← Run.untimed_entered]
  | leaf node =>
    have done : (c.getD (.notRun .terminated "no completion delivered" now)).untimed =
        (d.getD (.notRun .terminated "no completion delivered" later)).untimed := by
      cases c <;> cases d
      · rfl
      · cases given
      · cases given
      · exact Option.some.inj given
    simp only [Step.node, run?_apply_leaf]
    refine Run.map_untimed_congr before fun r s same => ?_
    rw [Run.untimed_settled, same, done, ← Run.untimed_settled]
  | exit node =>
    have setup : g.setups[node]? = h.setups[node]? := alike.setups node inside
    have children := alike.statuses closed
    simp only [Step.node] at children
    simp only [Step.node, run?_apply_exit]
    refine Run.map_untimed_congr before fun r s same => ?_
    rw [Run.untimed_left, same, given, children, setup, ← Run.untimed_left]

/-- **A step keeps regions alike**, if it is settled alike in them. -/
theorem apply (alike : Alike region g h) (closed : ∀ i, region i → ∀ j ∈ g.tree.childrenOf i, region j)
    (given : region step.node → c.map Completion.untimed = d.map Completion.untimed) (now later : Timestamp) :
    Alike region (g.apply step c now) (h.apply step d later) where
  children := by rw [children_apply, children_apply, alike.children]
  runs := by
    intro i inside
    by_cases own : step.node = i
    · subst own
      exact alike.runs_apply inside (closed _ inside) (given inside) now later
    · rw [run?_apply_of_ne g own, run?_apply_of_ne h own]
      exact alike.runs i inside
  setups := by
    intro i inside
    by_cases own : step.node = i
    · subst own
      exact alike.setups_apply inside (given inside) now later
    · have other : step ≠ .enter i := fun same => own (same ▸ rfl)
      rw [setups_apply_of_ne g other, setups_apply_of_ne h other]
      exact alike.setups i inside

/-- **So do all steps.** -/
theorem replay {entries others : List Applied} (alike : Alike region g h)
    (closed : ∀ i, region i → ∀ j ∈ g.tree.childrenOf i, region j)
    (same : List.Forall₂ (Applied.SameIn region) entries others) :
    Alike region (g.replay entries) (h.replay others) := by
  induction same generalizing g h with
  | nil => exact alike
  | @cons e e' entries others first rest ih =>
    have next : Alike region (g.apply e.step e.completion e.time) (h.apply e'.step e'.completion e'.time) := by
      rw [first.step]
      exact alike.apply closed first.completion e.time e'.time
    refine ih next fun i inside j listed => closed i inside j ?_
    rwa [RunTree.childrenOf, children_apply] at listed

end Alike

namespace Kept

variable {t : SuiteTree β} {entries others : List Applied}

/-- **What comes of a region is known from what was delivered for it**, times aside. -/
theorem run?_alike (kept : Kept t.outline g entries) (kept' : Kept t.outline h others)
    (complete : g.isComplete = true) (complete' : h.isComplete = true)
    (closed : ∀ n ∈ t.nodes, region n.index → ∀ i ∈ n.children, region i)
    (given : ∀ (seq : Nat) (step : Step), t.plan[seq]? = some step → region step.node →
      (g.delivered[seq]?).map (Option.map (Option.map Completion.untimed)) =
        (h.delivered[seq]?).map (Option.map (Option.map Completion.untimed))) :
    ∀ i, region i → (g.tree.run? i).map Run.untimed = (h.tree.run? i).map Run.untimed := by
  have steps := (kept.map_step complete).trans (kept'.map_step complete').symm
  have same : List.Forall₂ (Applied.SameIn region) entries others := by
    rw [List.forall₂_iff_get]
    refine ⟨by simpa using congrArg List.length steps, fun seq bound bound' => ?_⟩
    obtain ⟨due, handed⟩ := kept.of_getElem? (List.getElem?_eq_getElem bound)
    obtain ⟨due', handed'⟩ := kept'.of_getElem? (List.getElem?_eq_getElem bound')
    refine ⟨Option.some.inj (due'.symm.trans due), fun inside => ?_⟩
    have alike := given seq _ due inside
    rw [handed, handed'] at alike
    exact Option.some.inj (Option.some.inj alike)
  have alike : Alike region ((new t.outline).replay entries) ((new t.outline).replay others) := by
    refine Alike.replay ⟨rfl, fun _ _ => rfl, fun _ _ => rfl⟩ (fun i inside j listed => ?_) same
    simp only [new, RunTree.new, RunTree.childrenOf, SuiteTree.outline, List.getElem?_map] at listed
    cases found : t.nodes[i]? with
    | none =>
      rw [found] at listed
      cases listed
    | some n =>
      obtain ⟨mem, rfl⟩ := SuiteTree.node?_iff.1 found
      rw [found] at listed
      exact closed n mem inside j listed
  intro i inside
  rw [kept.tree_eq, kept'.tree_eq]
  exact alike.runs i inside

end Kept

end Aggregator

end TestIsolation
