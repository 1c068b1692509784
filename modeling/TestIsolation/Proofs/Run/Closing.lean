import TestIsolation.Proofs.Run.Replay
import TestIsolation.Proofs.Suite.Traversal

/-!
# Nodes that are done

The step that closes a node gives its run a terminal status, and no later step touches it. So once all the steps of a
tree have been applied, every run is over (`Kept.terminal_of_complete`).
-/

namespace TestIsolation

set_option autoImplicit false

namespace Status

theorem isTerminal_worst {s : Status} (terminal : s.isTerminal = true) (other : Status) :
    (s.worst other).isTerminal = true := by
  unfold worst
  split
  · rename_i more
    cases other <;> simp_all [severity, isTerminal]
  · exact terminal

theorem isTerminal_foldl_worst (statuses : List Status) {s : Status} (terminal : s.isTerminal = true) :
    (statuses.foldl worst s).isTerminal = true := by
  induction statuses generalizing s with
  | nil => exact terminal
  | cons other statuses ih => exact ih (isTerminal_worst terminal other)

/-- What happened below a suite is always an outcome. -/
theorem isTerminal_fold (statuses : List Status) : (fold statuses).isTerminal = true :=
  isTerminal_foldl_worst statuses rfl

end Status

/-- A suite that is left has a terminal status. -/
theorem Run.isTerminal_left (r : Run) (teardown : Option Completion) {children : Status}
    (terminal : children.isTerminal = true) (setup : Status) (now : Timestamp) :
    (r.left teardown children setup now).status.isTerminal = true := by
  cases teardown with
  | none =>
    simp only [left]
    split <;> exact Status.isTerminal_worst terminal _
  | some c =>
    simp only [left]
    split <;> exact Status.isTerminal_worst terminal _

theorem RunTree.run?_modify (t : RunTree) (node : Nat) (f : Run → Run) :
    (t.modify node f).run? node = (t.run? node).map f := by
  rw [run?, modify, List.getElem?_modify_eq]
  rfl

namespace Aggregator

variable {β : Type}

/-! ## What a step does -/

theorem run?_apply_enter (g : Aggregator) (node : Nat) (c : Option Completion) (now : Timestamp) :
    (g.apply (.enter node) c now).tree.run? node = (g.tree.run? node).map (·.entered c now) :=
  RunTree.run?_modify _ _ _

theorem run?_apply_leaf (g : Aggregator) (node : Nat) (c : Option Completion) (now : Timestamp) :
    (g.apply (.leaf node) c now).tree.run? node =
      (g.tree.run? node).map (·.settled (c.getD (.notRun .terminated "no completion delivered" now))) :=
  RunTree.run?_modify _ _ _

/-- A suite is left with what its children have come to by then. -/
theorem run?_apply_exit (g : Aggregator) (node : Nat) (c : Option Completion) (now : Timestamp) :
    (g.apply (.exit node) c now).tree.run? node = (g.tree.run? node).map (·.left c
      (Status.fold ((g.tree.childrenOf node).filterMap fun child => (g.tree.run? child).map (·.status)))
      ((g.setups[node]?).getD .passed) now) :=
  RunTree.run?_modify _ _ _

/-- A step changes the run of its own node only. -/
theorem run?_apply_of_ne (g : Aggregator) {step : Step} {node : Nat} (other : step.node ≠ node)
    (c : Option Completion) (now : Timestamp) : (g.apply step c now).tree.run? node = g.tree.run? node := by
  cases step <;> exact List.getElem?_modify_ne _ _ other

theorem length_runs_apply (g : Aggregator) (step : Step) (c : Option Completion) (now : Timestamp) :
    (g.apply step c now).tree.runs.length = g.tree.runs.length := by
  cases step <;> exact List.length_modify _ _ _

/-- **The step that closes a node ends its run.** -/
theorem isTerminal_apply (g : Aggregator) {step : Step} (closes : step.closes = true) {c : Option Completion}
    (ends : ∀ done ∈ c, done.status.isTerminal = true) (now : Timestamp) {r : Run}
    (own : (g.apply step c now).tree.run? step.node = some r) : r.status.isTerminal = true := by
  cases step with
  | enter node => cases closes
  | leaf node =>
    simp only [Step.node, run?_apply_leaf, Option.map_eq_some_iff] at own
    obtain ⟨before, _, rfl⟩ := own
    cases c with
    | none => rfl
    | some done => exact ends done rfl
  | exit node =>
    simp only [Step.node, run?_apply_exit, Option.map_eq_some_iff] at own
    obtain ⟨before, _, rfl⟩ := own
    exact Run.isTerminal_left before c (Status.isTerminal_fold _) _ now

theorem run?_replay_of_ne (g : Aggregator) {entries : List Applied} {node : Nat}
    (others : ∀ e ∈ entries, e.step.node ≠ node) : (g.replay entries).tree.run? node = g.tree.run? node := by
  induction entries generalizing g with
  | nil => rfl
  | cons e entries ih =>
    rw [List.forall_mem_cons] at others
    have later := ih (g.apply e.step e.completion e.time) others.2
    rwa [run?_apply_of_ne g others.1] at later

theorem length_runs_replay (g : Aggregator) (entries : List Applied) :
    (g.replay entries).tree.runs.length = g.tree.runs.length := by
  induction entries generalizing g with
  | nil => rfl
  | cons e entries ih =>
    have later := ih (g.apply e.step e.completion e.time)
    rwa [length_runs_apply] at later

/-- A node that was closed stays so. -/
theorem isTerminal_replay (g : Aggregator) {entries : List Applied}
    (ends : ∀ e ∈ entries, ∀ done ∈ e.completion, done.status.isTerminal = true) {node : Nat}
    (closed : ClosedIn node (entries.map (·.step))) {r : Run}
    (own : (g.replay entries).tree.run? node = some r) : r.status.isTerminal = true := by
  obtain ⟨before, step, after, split, closes, rfl, last⟩ := closed
  obtain ⟨first, rest, rfl, rfl, behind⟩ := List.map_eq_append_iff.1 split
  obtain ⟨e, later, rfl, rfl, rfl⟩ := List.map_eq_cons_iff.1 behind
  have others : ∀ e' ∈ later, e'.step.node ≠ e.step.node := fun e' mem => last _ (List.mem_map_of_mem mem)
  rw [replay_append_cons, run?_replay_of_ne _ others] at own
  exact isTerminal_apply _ closes (ends e (by simp)) e.time own

/-- What was applied is the step with what was delivered for it. -/
theorem Replays.of_getElem? {t : SuiteTree β} {g : Aggregator} {entries : List Applied}
    (replays : Replays t.outline g entries) {seq : Nat} {e : Applied} (here : entries[seq]? = some e) :
    t.plan[seq]? = some e.step ∧ g.delivered[seq]? = some (some e.completion) := by
  have early : seq < g.applied := replays.count ▸ (List.getElem?_eq_some_iff.1 here).1
  constructor
  · have own := congrArg (·[seq]?) replays.own
    simp only [List.getElem?_map, here, Option.map_some, List.getElem?_take_of_lt early] at own
    exact own.symm
  · have given := congrArg (·[seq]?) replays.given
    simp only [List.getElem?_map, here, Option.map_some, List.getElem?_take_of_lt early] at given
    exact given.symm

/-- The steps of a tree that were applied, once all were. -/
theorem Kept.map_step {t : SuiteTree β} {g : Aggregator} {entries : List Applied} (kept : Kept t.outline g entries)
    (complete : g.isComplete = true) : entries.map (·.step) = t.plan := by
  rw [isComplete, decide_eq_true_iff, kept.steps] at complete
  rw [kept.own, complete, List.take_length]
  rfl

/-- **Every run is over** once all steps of the tree were applied with completions that ended. -/
theorem Kept.terminal_of_complete {t : SuiteTree β} {g : Aggregator} {entries : List Applied}
    (kept : Kept t.outline g entries) (complete : g.isComplete = true)
    (ends : ∀ e ∈ entries, ∀ done ∈ e.completion, done.status.isTerminal = true) :
    ∀ r ∈ g.tree.runs, r.status.isTerminal = true := by
  intro r mem
  obtain ⟨node, bound, rfl⟩ := List.mem_iff_getElem.1 mem
  have tree : g.tree = ((new t.outline).replay entries).tree := kept.tree_eq
  have size : node < 0 + t.size := by
    rw [tree, length_runs_replay] at bound
    simpa [new, RunTree.new, SuiteTree.outline, SuiteTree.length_nodes] using bound
  have closed : ClosedIn node (entries.map (·.step)) :=
    kept.map_step complete ▸ t.exists_closing 0 (Nat.zero_le node) size
  refine isTerminal_replay (new t.outline) ends closed ?_
  rw [← tree]
  exact List.getElem?_eq_getElem bound

end Aggregator

end TestIsolation
