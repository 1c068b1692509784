import Mathlib.Data.List.Basic
import TestIsolation.Proofs.Run.Closing
import TestIsolation.Proofs.Suite.Bracketing

/-!
# What reaches a suite from below

Once all steps of a tree were applied, a test ended as its completion says (`Kept.run_of_leaf`), and a suite's status is
the most severe of those of its children and of what its fixtures add (`Kept.status_of_suite`): when a suite is left,
the runs below it are what they will be in the end. So nothing that happened below a suite is lost on the way up
(`Kept.severity_le`).
-/

namespace TestIsolation

set_option autoImplicit false

namespace Status

@[simp] theorem severity_worst (a b : Status) : (a.worst b).severity = max a.severity b.severity := by
  unfold worst
  split <;> omega

theorem le_severity_foldl_worst (statuses : List Status) (s : Status) :
    s.severity ≤ (statuses.foldl worst s).severity ∧
      ∀ other ∈ statuses, other.severity ≤ (statuses.foldl worst s).severity := by
  induction statuses generalizing s with
  | nil => exact ⟨Nat.le_refl _, nofun⟩
  | cons first statuses ih =>
    obtain ⟨here, later⟩ := ih (s.worst first)
    rw [severity_worst] at here
    refine ⟨by rw [List.foldl_cons]; omega, List.forall_mem_cons.2 ⟨?_, later⟩⟩
    rw [List.foldl_cons]
    omega

/-- No status is more severe than the fold. -/
theorem le_severity_fold {statuses : List Status} {s : Status} (mem : s ∈ statuses) :
    s.severity ≤ (fold statuses).severity := (le_severity_foldl_worst statuses passed).2 s mem

/-- What is at least as severe as a failure is no success. -/
theorem isSuccess_of_severe {s : Status} (severe : failed.severity ≤ s.severity) : s.isSuccess = false := by
  cases s <;> simp_all [severity, isSuccess]

end Status

/-- The run tree of an invocation that is no success. -/
theorem RunTree.exitCode_eq_one {t : RunTree} {node : Nat} {r : Run} (own : t.run? node = some r)
    (unsuccessful : r.status.isSuccess = false) : t.exitCode = 1 := by
  have some_ : ¬(t.runs.all (·.status.isSuccess) = true) := by
    intro all
    rw [List.all_eq_true.1 all r (List.mem_of_getElem? own)] at unsuccessful
    cases unsuccessful
  rw [exitCode, if_neg some_]

/-- What a suite's fixtures add to its status. -/
def Run.fixtures (setup : Status) (teardown : Option Completion) : Status :=
  match teardown with
  | none => setup
  | some c => setup.worst c.status.fixtureContribution

theorem Run.status_left (r : Run) (teardown : Option Completion) (children setup : Status) (now : Timestamp) :
    (r.left teardown children setup now).status = children.worst (fixtures setup teardown) := by
  cases teardown <;> simp only [left] <;> split <;> rfl

namespace Aggregator

variable {β : Type} {t : SuiteTree β} {g : Aggregator} {entries : List Applied} {n : Node β} {seq : Nat}

@[simp] theorem children_apply (g : Aggregator) (step : Step) (c : Option Completion) (now : Timestamp) :
    (g.apply step c now).tree.children = g.tree.children := by
  cases step <;> rfl

@[simp] theorem children_replay (g : Aggregator) (entries : List Applied) :
    (g.replay entries).tree.children = g.tree.children := by
  induction entries generalizing g with
  | nil => rfl
  | cons e entries ih => exact (ih (g.apply e.step e.completion e.time)).trans (children_apply g _ _ _)

/-- The children of a node in a run tree are those of the node. -/
theorem childrenOf_replay (mem : n ∈ t.nodes) (entries : List Applied) :
    ((new t.outline).replay entries).tree.childrenOf n.index = n.children := by
  have found : t.nodes[n.index]? = some n := SuiteTree.node?_iff.2 ⟨mem, rfl⟩
  rw [RunTree.childrenOf, children_replay]
  simp [new, RunTree.new, SuiteTree.outline, found]

/-- Only the step that enters a suite says what its setup adds. -/
theorem setups_apply_of_ne (g : Aggregator) {step : Step} {node : Nat} (other : step ≠ .enter node)
    (c : Option Completion) (now : Timestamp) : (g.apply step c now).setups[node]? = g.setups[node]? := by
  cases step with
  | enter own =>
    cases c with
    | none => rfl
    | some c => exact List.getElem?_set_ne fun same => other (congrArg Step.enter same)
  | leaf | exit => rfl

theorem setups_replay_of_ne (g : Aggregator) {entries : List Applied} {node : Nat}
    (others : ∀ e ∈ entries, e.step ≠ .enter node) : (g.replay entries).setups[node]? = g.setups[node]? := by
  induction entries generalizing g with
  | nil => rfl
  | cons e entries ih =>
    rw [List.forall_mem_cons] at others
    exact (ih (g.apply e.step e.completion e.time) others.2).trans (setups_apply_of_ne g others.1 _ _)

theorem length_setups_apply (g : Aggregator) (step : Step) (c : Option Completion) (now : Timestamp) :
    (g.apply step c now).setups.length = g.setups.length := by
  cases step with
  | enter node =>
    cases c with
    | none => rfl
    | some c => exact List.length_set
  | leaf | exit => rfl

theorem length_setups_replay (g : Aggregator) (entries : List Applied) :
    (g.replay entries).setups.length = g.setups.length := by
  induction entries generalizing g with
  | nil => rfl
  | cons e entries ih => exact (ih (g.apply e.step e.completion e.time)).trans (length_setups_apply g _ _ _)

theorem Replays.setups_eq {o : Outline β} (replays : Replays o g entries) :
    g.setups = ((new o).replay entries).setups := by
  conv_lhs => rw [replays.replay]

namespace Replays

variable {i k : Nat} {e : Applied}

/-- What was applied, around one step. -/
theorem split (replays : Replays t.outline g entries) (here : entries[k]? = some e) :
    entries = entries.take k ++ e :: entries.drop (k + 1) ∧
      ∀ e' ∈ entries.drop (k + 1), e'.step ∈ t.plan.drop (k + 1) := by
  obtain ⟨bound, rfl⟩ := List.getElem?_eq_some_iff.1 here
  constructor
  · rw [← List.drop_eq_getElem_cons bound, List.take_append_drop]
  · intro e' later
    have listed : e'.step ∈ (t.plan.take g.applied).drop (k + 1) := by
      have own := replays.own
      change entries.map (·.step) = t.plan.take g.applied at own
      rw [← own, ← List.map_drop]
      exact List.mem_map_of_mem later
    rw [List.drop_take] at listed
    exact List.mem_of_mem_take listed

/-- **The run of a node that was closed is as it was when that step was applied.** -/
theorem run?_of_closes (replays : Replays t.outline g entries) (here : entries[k]? = some e)
    (closes : e.step.closes = true) : g.tree.run? e.step.node =
      (((new t.outline).replay (entries.take k)).apply e.step e.completion e.time).tree.run? e.step.node := by
  obtain ⟨cut, later⟩ := replays.split here
  have others := SuiteTree.node_ne_of_closes (replays.of_getElem? here).1 closes
  conv_lhs => rw [replays.tree_eq, cut, replay_append_cons]
  exact run?_replay_of_ne _ fun e' listed => others _ (later e' listed)

/-- A test ran as its completion says, or ended when that was applied if it has none. -/
theorem settled_of_leaf (replays : Replays t.outline g entries) (here : entries[k]? = some e)
    (leaf : e.step = .leaf i) {r : Run} (own : g.tree.run? i = some r) :
    ∃ first : Run, r = first.settled (e.completion.getD (.notRun .terminated "no completion delivered" e.time)) := by
  have closed := replays.run?_of_closes here (by rw [leaf]; rfl)
  rw [leaf, Step.node, own, run?_apply_leaf] at closed
  obtain ⟨first, -, same⟩ := Option.map_eq_some_iff.1 closed.symm
  exact ⟨first, same.symm⟩

/-- Every node has a run. -/
theorem exists_run (replays : Replays t.outline g entries) (mem : n ∈ t.nodes) :
    ∃ r, g.tree.run? n.index = some r := by
  have found : t.nodes[n.index]? = some n := SuiteTree.node?_iff.2 ⟨mem, rfl⟩
  have inside := (List.getElem?_eq_some_iff.1 found).1
  refine ⟨_, List.getElem?_eq_getElem ?_⟩
  rw [replays.tree_eq, length_runs_replay]
  simpa [new, RunTree.new, SuiteTree.outline] using inside

end Replays

namespace Kept

/-- Every run is that of a node. -/
theorem exists_node_of_run (kept : Kept t.outline g entries) {i : Nat} {r : Run} (own : g.tree.run? i = some r) :
    ∃ n ∈ t.nodes, n.index = i := by
  have bound := (List.getElem?_eq_some_iff.1 own).1
  rw [kept.tree_eq, length_runs_replay] at bound
  have inside : i < t.nodes.length := by simpa [new, RunTree.new, SuiteTree.outline] using bound
  exact ⟨_, List.getElem_mem inside, (SuiteTree.node?_iff.1 (List.getElem?_eq_getElem inside)).2⟩

/-- Something was delivered for every step that was applied. -/
theorem delivered_of_complete (kept : Kept t.outline g entries) (complete : g.isComplete = true)
    (inside : seq < t.plan.length) : ∃ c, g.delivered[seq]? = some (some c) := by
  rw [← kept.map_step complete, List.length_map] at inside
  exact ⟨_, (kept.of_getElem? (List.getElem?_eq_getElem inside)).2⟩

/-- What was applied at a step of the tree. -/
theorem exists_entry (kept : Kept t.outline g entries) (complete : g.isComplete = true) {step : Step}
    (due : t.plan[seq]? = some step) {c : Option Completion} (given : g.delivered[seq]? = some (some c)) :
    ∃ now, entries[seq]? = some ⟨step, c, now⟩ := by
  obtain ⟨⟨_, c', now⟩, here, rfl⟩ : ∃ e, entries[seq]? = some e ∧ e.step = step := by
    rwa [← kept.map_step complete, List.getElem?_map, Option.map_eq_some_iff] at due
  rw [(kept.of_getElem? here).2, Option.some.injEq, Option.some.injEq] at given
  obtain rfl : c' = c := given
  exact ⟨now, here⟩

/-- What was applied, around one step of the tree. -/
theorem exists_split (kept : Kept t.outline g entries) (complete : g.isComplete = true) {step : Step}
    (due : t.plan[seq]? = some step) {c : Option Completion} (given : g.delivered[seq]? = some (some c)) :
    ∃ before now after, entries = before ++ ⟨step, c, now⟩ :: after ∧
      after.map (·.step) = t.plan.drop (seq + 1) := by
  obtain ⟨now, here⟩ := kept.exists_entry complete due given
  refine ⟨entries.take seq, now, entries.drop (seq + 1), (kept.split here).1, ?_⟩
  rw [List.map_drop, kept.map_step complete]

/-- **A test is settled with its completion**, or as terminated if it has none. -/
theorem exists_settled_getD (kept : Kept t.outline g entries) (complete : g.isComplete = true) {node : Nat}
    (due : t.plan[seq]? = some (.leaf node)) {c : Option Completion} (given : g.delivered[seq]? = some (some c)) :
    ∃ (r : Run) (now : Timestamp),
      g.tree.run? node = some (r.settled (c.getD (.notRun .terminated "no completion delivered" now))) := by
  obtain ⟨now, here⟩ := kept.exists_entry complete due given
  obtain ⟨n, known⟩ := t.exists_node (List.mem_of_getElem? due)
  obtain ⟨mem, rfl⟩ := SuiteTree.node?_iff.1 known
  obtain ⟨r, own⟩ := kept.exists_run mem
  obtain ⟨first, rfl⟩ := kept.settled_of_leaf here rfl own
  exact ⟨first, now, own⟩

theorem exists_settled (kept : Kept t.outline g entries) (complete : g.isComplete = true) {node : Nat}
    (due : t.plan[seq]? = some (.leaf node)) {c : Completion} (given : g.delivered[seq]? = some (some (some c))) :
    ∃ r : Run, g.tree.run? node = some (r.settled c) := by
  obtain ⟨r, _, own⟩ := kept.exists_settled_getD complete due given
  exact ⟨r, own⟩

/-- **A test ends as its completion says.** -/
theorem run_of_leaf (kept : Kept t.outline g entries) (complete : g.isComplete = true) {node : Nat}
    (due : t.plan[seq]? = some (.leaf node)) {c : Completion} (given : g.delivered[seq]? = some (some (some c))) :
    ∃ r, g.tree.run? node = some r ∧ r.status = c.status ∧ r.reason = c.reason := by
  obtain ⟨first, own⟩ := kept.exists_settled complete due given
  exact ⟨_, own, rfl, rfl⟩

/-- **A suite is left when what is below it is what it will be in the end**, and so is what its setup adds. -/
theorem exists_left (kept : Kept t.outline g entries) (complete : g.isComplete = true) (mem : n ∈ t.nodes)
    (due : t.plan[seq]? = some (.exit n.index)) {c : Option Completion} (given : g.delivered[seq]? = some (some c)) :
    ∃ (r : Run) (now : Timestamp), g.tree.run? n.index = some (r.left c
      (Status.fold (n.children.filterMap fun child => (g.tree.run? child).map (·.status)))
      ((g.setups[n.index]?).getD .passed) now) := by
  obtain ⟨before, now, after, rfl, rest⟩ := kept.exists_split complete due given
  have outside : ∀ e ∈ after, e.step.node < n.index ∨ n.index + n.size ≤ e.step.node := fun e listed =>
    SuiteTree.outside_of_exit mem due _ (rest ▸ List.mem_map_of_mem listed)
  have placed := SuiteTree.within_nodesFrom 0 none [] t mem
  have size := placed.size
  have settled : ∀ i, n.index ≤ i → i < n.index + n.size →
      g.tree.run? i = (((new t.outline).replay before).apply (.exit n.index) c now).tree.run? i := by
    intro i low high
    rw [kept.tree_eq, replay_append_cons]
    refine run?_replay_of_ne _ fun e listed => ?_
    have apart := outside e listed
    omega
  have below : ∀ i ∈ n.children, g.tree.run? i = ((new t.outline).replay before).tree.run? i := by
    intro i child
    obtain ⟨low, high⟩ := SuiteTree.below_of_mem_children mem child
    rw [settled i (Nat.le_of_lt low) high]
    exact run?_apply_of_ne _ (Nat.ne_of_lt low) c now
  have setup : g.setups[n.index]? = ((new t.outline).replay before).setups[n.index]? := by
    rw [kept.setups_eq, replay_append_cons, setups_replay_of_ne _ fun e listed own => ?_]
    · rfl
    · have apart := outside e listed
      rw [own, Step.node] at apart
      omega
  obtain ⟨r, own⟩ := kept.exists_run mem
  have left := own
  rw [settled n.index (Nat.le_refl _) (by omega), run?_apply_exit, Option.map_eq_some_iff] at left
  obtain ⟨r', _, rfl⟩ := left
  refine ⟨r', now, ?_⟩
  rw [own, setup, childrenOf_replay mem]
  congr 3
  refine List.filterMap_congr fun i child => ?_
  rw [below i child]

/-- **A suite's status** is the most severe of its children's and of what its fixtures add. -/
theorem status_of_suite (kept : Kept t.outline g entries) (complete : g.isComplete = true) (mem : n ∈ t.nodes)
    (due : t.plan[seq]? = some (.exit n.index)) {c : Option Completion} (given : g.delivered[seq]? = some (some c)) :
    ∃ r setup, g.tree.run? n.index = some r ∧
      r.status = (Status.fold (n.children.filterMap fun child => (g.tree.run? child).map (·.status))).worst
        (Run.fixtures setup c) := by
  obtain ⟨r, now, own⟩ := kept.exists_left complete mem due given
  exact ⟨_, _, own, r.status_left _ _ _ _⟩

/-- A suite's status is as severe as what its teardown adds. -/
theorem fixtureContribution_le (kept : Kept t.outline g entries) (complete : g.isComplete = true) (mem : n ∈ t.nodes)
    (due : t.plan[seq]? = some (.exit n.index)) {c : Completion} (given : g.delivered[seq]? = some (some (some c))) :
    ∃ r, g.tree.run? n.index = some r ∧ c.status.fixtureContribution.severity ≤ r.status.severity := by
  obtain ⟨r, setup, own, status⟩ := kept.status_of_suite complete mem due given
  refine ⟨r, own, ?_⟩
  rw [status, Run.fixtures, Status.severity_worst, Status.severity_worst]
  omega

/-- **Nothing is lost on the way up**: a suite's status is as severe as that of every node below it. -/
theorem severity_le (kept : Kept t.outline g entries) (complete : g.isComplete = true) {m : Node β}
    (low : m ∈ t.nodes) (high : n ∈ t.nodes) (above : n.index ∈ m.lineage) {r : Run}
    (own : g.tree.run? m.index = some r) :
    ∃ r', g.tree.run? n.index = some r' ∧ r.status.severity ≤ r'.status.severity := by
  refine SuiteTree.lineage_induction (motive := fun n => ∃ r', g.tree.run? n.index = some r' ∧ _ ≤ r'.status.severity)
    low ⟨r, own, Nat.le_refl _⟩ ?_ high above
  rintro p parent c child listed ⟨rc, found, severe⟩
  have suite : p.isTest = false := by
    have placed := SuiteTree.within_nodesFrom 0 none [] t parent
    have below := SuiteTree.below_of_mem_children parent listed
    simp only [Node.Below] at below
    cases test : p.isTest with
    | false => rfl
    | true =>
      have single := placed.single test
      omega
  have left : Step.exit p.index ∈ t.plan := SuiteTree.mem_plan.2 ⟨p, parent, Node.exit_mem_steps suite⟩
  obtain ⟨seq, due⟩ := List.mem_iff_getElem?.1 left
  obtain ⟨done, handed⟩ := kept.delivered_of_complete complete (List.getElem?_eq_some_iff.1 due).1
  obtain ⟨rp, setup, own', status⟩ := kept.status_of_suite complete parent due handed
  refine ⟨rp, own', Nat.le_trans severe ?_⟩
  have listed' : rc.status ∈ p.children.filterMap fun child => (g.tree.run? child).map (·.status) :=
    List.mem_filterMap.2 ⟨c.index, listed, by rw [found, Option.map_some]⟩
  have folded := Status.le_severity_fold listed'
  rw [status, Status.severity_worst]
  omega

end Kept

end Aggregator

end TestIsolation
