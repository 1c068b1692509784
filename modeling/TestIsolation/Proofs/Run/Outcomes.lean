import Mathlib.Data.List.Nodup
import TestIsolation.Proofs.Run.Reordering
import TestIsolation.Proofs.Run.Severity
import TestIsolation.Proofs.Suite.Numbering

/-!
# The worst that happened below

A suite looks at its children and its fixtures only, but its status is that of the whole subtree: the fold of a list is
known from which severities it does not exceed (`Status.severity_fold_le_iff`), so it may be taken in any order and in
any groups (`Status.fold_map_fold`), and by induction over the tree a suite's status is the fold of all that happened
below (`Aggregator.Kept.status_eq_fold`). No run is worse than that of the root, so the exit code follows the root.
-/

namespace TestIsolation

set_option autoImplicit false

/-! ## Folds -/

namespace Status

/-- The statuses of runs that are over, the least severe first. -/
def outcomes : List Status := [passed, skipped, failed, terminated, aborted, timedOut, crashed]

theorem idxOf_outcomes {s : Status} (terminal : s.isTerminal = true) : outcomes.idxOf s = s.severity := by
  cases s <;> first | rfl | cases terminal

theorem eq_of_severity {a b : Status} (left : a.isTerminal = true) (right : b.isTerminal = true)
    (same : a.severity = b.severity) : a = b := by
  cases a <;> cases b <;> simp_all [isTerminal, severity]

theorem isSuccess_iff {s : Status} (terminal : s.isTerminal = true) : s.isSuccess = true ↔ s.severity ≤ 1 := by
  cases s <;> first | decide | cases terminal

theorem foldl_worst_mem (statuses : List Status) (s : Status) :
    statuses.foldl worst s = s ∨ statuses.foldl worst s ∈ statuses := by
  induction statuses generalizing s with
  | nil => exact .inl rfl
  | cons first statuses ih =>
    rw [List.foldl_cons]
    rcases ih (s.worst first) with same | later
    · rw [same, worst]
      split
      · exact .inr List.mem_cons_self
      · exact .inl rfl
    · exact .inr (List.mem_cons_of_mem _ later)

/-- **A fold is no more severe than what all of its statuses are no more severe than.** -/
theorem severity_fold_le_iff {statuses : List Status} {k : Nat} :
    (fold statuses).severity ≤ k ↔ ∀ s ∈ statuses, s.severity ≤ k := by
  constructor
  · exact fun le s mem => Nat.le_trans (le_severity_fold mem) le
  · intro all
    rcases foldl_worst_mem statuses passed with same | mem
    · rw [fold, same]
      exact Nat.zero_le k
    · exact all _ mem

theorem severity_fold_mono {few many : List Status} (subset : few ⊆ many) :
    (fold few).severity ≤ (fold many).severity :=
  severity_fold_le_iff.2 fun _ mem => le_severity_fold (subset mem)

/-- A fold does not depend on the order. -/
theorem fold_perm {statuses others : List Status} (perm : statuses.Perm others) : fold statuses = fold others :=
  eq_of_severity (isTerminal_fold _) (isTerminal_fold _)
    (Nat.le_antisymm (severity_fold_mono perm.subset) (severity_fold_mono perm.symm.subset))

/-- Nor does it depend on how the statuses are grouped. -/
theorem fold_map_fold (groups : List (List Status)) : fold (groups.map fold) = fold groups.flatten := by
  refine eq_of_severity (isTerminal_fold _) (isTerminal_fold _) (eq_of_forall_ge_iff fun k => ?_)
  simp only [severity_fold_le_iff, List.forall_mem_map, List.forall_mem_flatten]

theorem severity_getD_le_iff {s : Option Status} {k : Nat} :
    (s.getD passed).severity ≤ k ↔ ∀ o ∈ s, o.severity ≤ k := by
  cases s <;> simp [show passed.severity = 0 from rfl]

/-- A status is the most severe of some outcomes; a pass if there are none. -/
structure IsWorst (happened : List Status) (s : Status) : Prop where
  mem : happened ≠ [] → s ∈ happened
  empty : happened = [] → s = passed
  bound : ∀ other ∈ happened, outcomes.idxOf other ≤ outcomes.idxOf s

theorem isWorst_fold {happened : List Status} (terminal : ∀ s ∈ happened, s.isTerminal = true) :
    IsWorst happened (fold happened) where
  mem := by
    intro some_
    rcases foldl_worst_mem happened passed with same | mem
    · -- Then there was nothing but passes.
      obtain ⟨s, mem⟩ := List.exists_mem_of_ne_nil _ some_
      have mild := le_severity_fold mem
      rw [fold, same] at mild ⊢
      obtain rfl : s = passed := eq_of_severity (terminal s mem) rfl (Nat.le_zero.1 mild)
      exact mem
    · exact mem
  empty := fun none_ => none_ ▸ rfl
  bound := by
    intro other mem
    rw [idxOf_outcomes (terminal other mem), idxOf_outcomes (isTerminal_fold _)]
    exact le_severity_fold mem

end Status

/-! ## What happened -/

/-- What was delivered first for a step. Later deliveries do not count. -/
def firstFor (ds : List Delivery) (seq : Nat) : Option (Option Completion) :=
  (ds.find? (·.seq = seq)).map (·.completion)

/-- What a step adds to what happened: a test its outcome, which is that it was terminated if it has none, and a fixture
of a suite a pass if it was a success, and at least a failure otherwise. -/
def Step.outcome? (step : Step) (c : Option Completion) : Option Status :=
  match step with
  | .leaf _ => some ((c.map (·.status)).getD .terminated)
  | .enter _ | .exit _ => c.map fun c => if c.status.isSuccess then .passed else c.status.worst .failed

/-- All that happened at and below a node, in the order of the traversal. -/
def SuiteTree.happened {β : Type} (t : SuiteTree β) (ds : List Delivery) (n : Node β) : List Status :=
  t.plan.zipIdx.filterMap fun (step, seq) => if n.covers step.node then (firstFor ds seq).bind step.outcome? else none

theorem Run.severity_fixtures (setup : Status) (teardown : Option Completion) :
    (fixtures setup teardown).severity =
      max setup.severity ((teardown.map fun c => c.status.fixtureContribution).getD Status.passed).severity := by
  cases teardown with
  | none => exact (Nat.max_zero _).symm
  | some c => exact Status.severity_worst _ _

theorem Status.isTerminal_fixtureContribution {s : Status} (terminal : s.isTerminal = true) :
    s.fixtureContribution.isTerminal = true := by
  unfold fixtureContribution
  split
  · rfl
  · exact isTerminal_worst terminal _

theorem Step.isTerminal_outcome? {step : Step} {c : Option Completion}
    (ends : ∀ done ∈ c, done.status.isTerminal = true) {s : Status} (adds : step.outcome? c = some s) :
    s.isTerminal = true := by
  cases step with
  | leaf node =>
    cases c with
    | none =>
      cases adds
      rfl
    | some c =>
      cases adds
      exact ends c rfl
  | enter node | exit node =>
    obtain ⟨c, rfl, rfl⟩ := Option.map_eq_some_iff.1 adds
    exact Status.isTerminal_fixtureContribution (ends c rfl)

namespace SuiteTree

variable {β : Type} {t : SuiteTree β} {ds : List Delivery} {n m : Node β}

theorem mem_happened_iff {s : Status} : s ∈ t.happened ds n ↔
    ∃ (step : Step) (seq : Nat) (c : Option Completion), t.plan[seq]? = some step ∧ n.covers step.node = true ∧
      firstFor ds seq = some c ∧ step.outcome? c = some s := by
  simp only [happened, List.mem_filterMap, Prod.exists, List.mem_zipIdx_iff_getElem?, Option.ite_none_right_eq_some,
    Option.bind_eq_some_iff]
  simp only [← exists_and_left]

theorem isTerminal_of_mem_happened (ends : ∀ d ∈ ds, ∀ c ∈ d.completion, c.status.isTerminal = true) {s : Status}
    (mem : s ∈ t.happened ds n) : s.isTerminal = true := by
  obtain ⟨step, seq, c, _, _, first, adds⟩ := mem_happened_iff.1 mem
  rw [firstFor, Option.map_eq_some_iff] at first
  obtain ⟨d, found, rfl⟩ := first
  exact Step.isTerminal_outcome? (ends d (List.mem_of_find?_eq_some found)) adds

/-- What happened below a child happened below its parent. -/
theorem happened_subset (parent : n ∈ t.nodes) (child : m ∈ t.nodes) (listed : m.index ∈ n.children) :
    t.happened ds m ⊆ t.happened ds n := by
  intro s mem
  obtain ⟨step, seq, c, due, covers, first, adds⟩ := mem_happened_iff.1 mem
  refine mem_happened_iff.2 ⟨step, seq, c, due, ?_, first, adds⟩
  obtain ⟨k, known⟩ := t.exists_node (List.mem_of_getElem? due)
  obtain ⟨inside, own⟩ := node?_iff.1 known
  rw [← own] at covers ⊢
  rw [← mem_lineage_iff child inside] at covers
  rw [← mem_lineage_iff parent inside]
  have above : n.index ∈ m.lineage := by
    rw [Node.lineage, (childOf_of_mem_children parent child listed).ancestors]
    exact List.mem_cons_of_mem _ List.mem_cons_self
  exact lineage_subset inside child covers above

end SuiteTree

/-! ## From the bottom to the top -/

namespace Aggregator

variable {β : Type} {t : SuiteTree β} {ds : List Delivery} {g : Aggregator} {entries : List Applied} {n : Node β}

namespace Kept

/-- What the setup of a suite adds to its status. -/
theorem setups_of_enter (kept : Kept t.outline g entries) (complete : g.isComplete = true) (mem : n ∈ t.nodes)
    {seq : Nat} (due : t.plan[seq]? = some (.enter n.index)) {c : Option Completion}
    (given : g.delivered[seq]? = some (some c)) :
    (g.setups[n.index]?).getD .passed = (c.map (·.status.fixtureContribution)).getD .passed := by
  obtain ⟨before, now, after, rfl, _⟩ := kept.exists_split complete due given
  have once : ((before ++ ⟨.enter n.index, c, now⟩ :: after).map (·.step)).Nodup :=
    kept.map_step complete ▸ t.nodup_plan
  rw [List.map_append, List.map_cons, List.nodup_middle, List.nodup_cons, ← List.map_append] at once
  have others : ∀ e ∈ before ++ after, e.step ≠ .enter n.index := fun e listed same =>
    once.1 (List.mem_map.2 ⟨e, listed, same⟩)
  rw [kept.setups_eq, replay_append_cons,
    setups_replay_of_ne _ fun e listed => others e (List.mem_append_right _ listed)]
  have inside : n.index < t.nodes.length := (List.getElem?_eq_some_iff.1 (SuiteTree.node?_iff.2 ⟨mem, rfl⟩)).1
  cases c with
  | none =>
    have early : ((new t.outline).replay before).setups[n.index]? = some .passed := by
      rw [setups_replay_of_ne _ fun e listed => others e (List.mem_append_left _ listed)]
      simp [new, SuiteTree.outline, inside]
    exact congrArg (Option.getD · .passed) early
  | some c =>
    have bound : n.index < ((new t.outline).replay before).setups.length := by
      rw [length_setups_replay]
      simpa [new, SuiteTree.outline] using inside
    exact congrArg (Option.getD · .passed) (List.getElem?_set_self bound)

/-- **A suite is no worse than its children and its fixtures**, and no better. -/
theorem severity_le_iff (kept : Kept t.outline g entries) (complete : g.isComplete = true) (mem : n ∈ t.nodes)
    {p q : Nat} (entered : t.plan[p]? = some (.enter n.index)) (left : t.plan[q]? = some (.exit n.index))
    {setup teardown : Option Completion} (before : g.delivered[p]? = some (some setup))
    (after : g.delivered[q]? = some (some teardown)) {r : Run} (own : g.tree.run? n.index = some r) {k : Nat} :
    r.status.severity ≤ k ↔
      (∀ i ∈ n.children, ∀ r' ∈ g.tree.run? i, r'.status.severity ≤ k) ∧
      (∀ s ∈ (Step.enter n.index).outcome? setup, s.severity ≤ k) ∧
      ∀ s ∈ (Step.exit n.index).outcome? teardown, s.severity ≤ k := by
  obtain ⟨first, now, found⟩ := kept.exists_left complete mem left after
  rw [own, Option.some.injEq] at found
  rw [found, Run.status_left, Status.severity_worst, Nat.max_le, Status.severity_fold_le_iff,
    kept.setups_of_enter complete mem entered before]
  refine and_congr ?_ ?_
  · simp only [List.mem_filterMap, Option.map_eq_some_iff, Option.mem_def]
    grind
  · rw [Run.severity_fixtures, Nat.max_le, Status.severity_getD_le_iff, Status.severity_getD_le_iff]
    exact Iff.rfl

variable (kept : Kept t.outline g entries) (complete : g.isComplete = true)
  (first : ∀ seq < t.plan.length, g.delivered[seq]? = some (firstFor ds seq))

include kept complete first

/-- A node is as severe as all that happened at and below it. -/
theorem le_of_mem_happened (mem : n ∈ t.nodes) {s : Status} (happened : s ∈ t.happened ds n) {r : Run}
    (own : g.tree.run? n.index = some r) : s.severity ≤ r.status.severity := by
  obtain ⟨step, seq, c, due, covers, found, adds⟩ := SuiteTree.mem_happened_iff.1 happened
  have given : g.delivered[seq]? = some (some c) := by
    rw [first seq (List.getElem?_eq_some_iff.1 due).1, found]
  obtain ⟨m, known⟩ := t.exists_node (List.mem_of_getElem? due)
  obtain ⟨low, index⟩ := SuiteTree.node?_iff.1 known
  -- It is enough to look at the node of the step.
  suffices severe : ∃ r', g.tree.run? m.index = some r' ∧ s.severity ≤ r'.status.severity by
    obtain ⟨r', here, le⟩ := severe
    rw [← index, ← SuiteTree.mem_lineage_iff mem low] at covers
    obtain ⟨_, own', above⟩ := kept.severity_le complete low mem covers here
    rw [own, Option.some.injEq] at own'
    subst own'
    exact Nat.le_trans le above
  cases test : m.isTest with
  | true =>
    have single := SuiteTree.mem_steps_of_node? (List.mem_of_getElem? due) known
    rw [Node.steps, if_pos test, List.mem_singleton] at single
    subst single
    obtain ⟨r', now, here⟩ := kept.exists_settled_getD complete due given
    refine ⟨_, here, ?_⟩
    rw [Step.outcome?, Option.some.injEq] at adds
    subst adds
    cases c <;> exact Nat.le_refl _
  | false =>
    obtain ⟨r', here⟩ := kept.exists_run low
    refine ⟨r', here, ?_⟩
    have pair := SuiteTree.mem_steps_of_node? (List.mem_of_getElem? due) known
    simp only [Node.steps, test, Bool.false_eq_true, if_false, List.mem_cons, List.not_mem_nil, or_false] at pair
    rcases pair with rfl | rfl
    · obtain ⟨q, left⟩ := List.mem_iff_getElem?.1 (SuiteTree.mem_plan.2 ⟨m, low, Node.exit_mem_steps test⟩)
      obtain ⟨d, after⟩ := kept.delivered_of_complete complete (List.getElem?_eq_some_iff.1 left).1
      exact ((kept.severity_le_iff complete low due left given after here).1 (Nat.le_refl _)).2.1 s adds
    · obtain ⟨p, entered⟩ := List.mem_iff_getElem?.1 (SuiteTree.mem_plan.2 ⟨m, low, Node.enter_mem_steps test⟩)
      obtain ⟨d, before⟩ := kept.delivered_of_complete complete (List.getElem?_eq_some_iff.1 entered).1
      exact ((kept.severity_le_iff complete low entered due before given here).1 (Nat.le_refl _)).2.2 s adds

/-- **No node is worse than the worst that happened at and below it.** -/
theorem severity_le_fold (mem : n ∈ t.nodes) : ∀ r : Run, g.tree.run? n.index = some r →
    r.status.severity ≤ (Status.fold (t.happened ds n)).severity := by
  refine SuiteTree.children_induction (motive := fun n => ∀ r : Run, g.tree.run? n.index = some r →
    r.status.severity ≤ (Status.fold (t.happened ds n)).severity) ?_ mem
  intro n mem below r own
  have counted {step : Step} (listed : step ∈ n.steps) : ∃ (seq : Nat) (c : Option Completion),
      t.plan[seq]? = some step ∧ g.delivered[seq]? = some (some c) ∧
        ∀ s ∈ step.outcome? c, s.severity ≤ (Status.fold (t.happened ds n)).severity := by
    obtain ⟨seq, due⟩ := List.mem_iff_getElem?.1 (SuiteTree.mem_plan.2 ⟨n, mem, listed⟩)
    have inside := (List.getElem?_eq_some_iff.1 due).1
    obtain ⟨c, given⟩ := kept.delivered_of_complete complete inside
    have found := given
    rw [first seq inside, Option.some.injEq] at found
    refine ⟨seq, c, due, given, fun s adds => Status.le_severity_fold ?_⟩
    refine SuiteTree.mem_happened_iff.2 ⟨step, seq, c, due, ?_, found, adds⟩
    rw [(Node.of_mem_steps listed).1, ← SuiteTree.mem_lineage_iff mem mem]
    exact List.mem_cons_self
  cases test : n.isTest with
  | true =>
    obtain ⟨seq, c, due, given, bound⟩ := counted (Node.leaf_mem_steps test)
    obtain ⟨r', now, here⟩ := kept.exists_settled_getD complete due given
    rw [own, Option.some.injEq] at here
    subst here
    refine bound _ ?_
    cases c <;> rfl
  | false =>
    obtain ⟨p, setup, entered, before, setupBound⟩ := counted (Node.enter_mem_steps test)
    obtain ⟨q, teardown, left, after, teardownBound⟩ := counted (Node.exit_mem_steps test)
    refine (kept.severity_le_iff complete mem entered left before after own).2 ⟨?_, setupBound, teardownBound⟩
    intro i listed r' found
    obtain ⟨c, child, rfl, _⟩ := (SuiteTree.parental_nodesFrom 0 none [] t mem).children i listed
    exact Nat.le_trans (below c child listed r' found)
      (Status.severity_fold_mono (SuiteTree.happened_subset mem child listed))

variable (ends : ∀ d ∈ ds, ∀ c ∈ d.completion, c.status.isTerminal = true)

include ends

theorem isTerminal_run : ∀ r ∈ g.tree.runs, r.status.isTerminal = true := by
  refine kept.terminal_of_complete complete fun e listed => ?_
  obtain ⟨seq, given⟩ := kept.exists_delivered listed
  have bound : seq < g.delivered.length := (List.getElem?_eq_some_iff.1 given).1
  rw [first seq (kept.length ▸ bound), Option.some.injEq, firstFor, Option.map_eq_some_iff] at given
  obtain ⟨d, found, same⟩ := given
  exact same ▸ ends d (List.mem_of_find?_eq_some found)

/-- **A node's status is the fold of all that happened at and below it.** -/
theorem status_eq_fold (mem : n ∈ t.nodes) {r : Run} (own : g.tree.run? n.index = some r) :
    r.status = Status.fold (t.happened ds n) := by
  refine Status.eq_of_severity ?_ (Status.isTerminal_fold _) (Nat.le_antisymm ?_ ?_)
  · exact kept.isTerminal_run complete first ends r (List.mem_of_getElem? own)
  · exact kept.severity_le_fold complete first mem r own
  · exact Status.severity_fold_le_iff.2 fun s happened => kept.le_of_mem_happened complete first mem happened own

/-- **The exit code follows the root.** -/
theorem exitCode_eq_zero_iff (mem : n ∈ t.nodes) (top : n.index = 0) {r : Run}
    (own : g.tree.run? n.index = some r) : g.tree.exitCode = 0 ↔ r.status = .passed ∨ r.status = .skipped := by
  have terminal := kept.isTerminal_run complete first ends
  have success : r.status.isSuccess = true ↔ r.status = .passed ∨ r.status = .skipped := by
    cases r.status <;> decide
  rw [← success]
  constructor
  · intro zero
    rw [RunTree.exitCode] at zero
    split at zero
    · rename_i all
      exact List.all_eq_true.1 all r (List.mem_of_getElem? own)
    · cases zero
  · intro ok
    rw [Status.isSuccess_iff (terminal r (List.mem_of_getElem? own))] at ok
    rw [RunTree.exitCode, if_pos]
    refine List.all_eq_true.2 fun r' listed => ?_
    obtain ⟨i, found⟩ := List.mem_iff_getElem?.1 listed
    obtain ⟨m, low, rfl⟩ := kept.exists_node_of_run found
    have above : n.index ∈ m.lineage := top ▸ SuiteTree.zero_mem_lineage low
    obtain ⟨_, own', le⟩ := kept.severity_le complete low mem above found
    rw [own, Option.some.injEq] at own'
    subst own'
    exact (Status.isSuccess_iff (terminal r' listed)).2 (Nat.le_trans le ok)

end Kept

end Aggregator

open Aggregator in
/-- **A suite's status is the worst thing that happened below it, and the exit code follows the root.** For every tree
and all deliveries, in any order, that bring something for each step, and nothing that is not over: the status of a node
is the most severe of the outcomes of the tests and the fixtures at and below it, and a pass if there are none; it is
the fold of these outcomes in any order and in any groups; and the exit code is zero exactly if the root passed or was
skipped. -/
theorem status_worst_below {β : Type} (t : SuiteTree β) (ds : List Delivery)
    (complete : ∀ seq < t.plan.length, seq ∈ ds.map (·.seq))
    (ends : ∀ d ∈ ds, ∀ c ∈ d.completion, c.status.isTerminal = true) :
    let tree := ((new t.outline).submitAll ds).tree
    (∀ n ∈ t.nodes, ∃ r, tree.run? n.index = some r ∧ Status.IsWorst (t.happened ds n) r.status ∧
      ∀ groups : List (List Status), groups.flatten.Perm (t.happened ds n) →
        r.status = Status.fold (groups.map Status.fold)) ∧
    ∃ root, tree.run? 0 = some root ∧ (tree.exitCode = 0 ↔ root.status = .passed ∨ root.status = .skipped) := by
  intro tree
  obtain ⟨entries, _, kept⟩ := exists_kept_submitAll t.outline ds
  have whole : ((new t.outline).submitAll ds).isComplete = true := (isComplete_submitAll_iff t.outline ds).2 complete
  have first : ∀ seq < t.plan.length, ((new t.outline).submitAll ds).delivered[seq]? = some (firstFor ds seq) := by
    intro seq inside
    rw [delivered_submitAll]
    exact if_pos inside
  refine ⟨fun n mem => ?_, ?_⟩
  · obtain ⟨r, own⟩ := kept.exists_run mem
    have status := kept.status_eq_fold whole first ends mem own
    refine ⟨r, own, ?_, ?_⟩
    · rw [status]
      exact Status.isWorst_fold fun s happened => SuiteTree.isTerminal_of_mem_happened ends happened
    · intro groups perm
      rw [status, Status.fold_map_fold, Status.fold_perm perm]
  · obtain ⟨n, mem, top, _⟩ := (SuiteTree.numbered t).root
    obtain ⟨r, own⟩ := kept.exists_run mem
    exact ⟨r, top ▸ own, kept.exitCode_eq_zero_iff whole first ends mem top own⟩

open Aggregator in
/-- A suite with fixtures and two tests, one of which is delivered no completion, next to an empty suite and a test.
The steps come in no order, and one of them twice. The suite is as its test is, and so is the root; the skipped setup
and the late crash do not count. -/
theorem status_worst_below_mixed :
    let t : SuiteTree Nat := .suite { name := "r" }
      [.suite { name := "s", setup := .explicit 0, teardown := .explicit 1 }
        [.test { name := "a" } 2, .test { name := "b" } 3],
       .suite { name := "u" } [], .test { name := "c" } 4]
    let done (status : Status) : Option Completion := some { status, startedAt := 5, endedAt := 6 }
    let ds : List Delivery := [⟨8, none, 9⟩, ⟨4, done .failed, 7⟩, ⟨3, none, 7⟩, ⟨1, done .skipped, 8⟩, ⟨0, none, 7⟩,
      ⟨7, done .passed, 7⟩, ⟨6, none, 8⟩, ⟨7, done .crashed, 9⟩, ⟨2, done .skipped, 8⟩, ⟨5, none, 9⟩]
    let tree := ((new t.outline).submitAll ds).tree
    (∀ seq < t.plan.length, seq ∈ ds.map (·.seq)) ∧ (∀ d ∈ ds, ∀ c ∈ d.completion, c.status.isTerminal = true) ∧
      (∀ n ∈ t.nodes, ∃ r, tree.run? n.index = some r ∧ Status.IsWorst (t.happened ds n) r.status ∧
        ∀ groups : List (List Status), groups.flatten.Perm (t.happened ds n) →
          r.status = Status.fold (groups.map Status.fold)) ∧
      t.nodes.map (t.happened ds) = [[.passed, .skipped, .terminated, .failed, .passed],
        [.passed, .skipped, .terminated, .failed], [.skipped], [.terminated], [], [.passed]] ∧
      ∃ root, tree.run? 0 = some root ∧ (tree.exitCode = 0 ↔ root.status = .passed ∨ root.status = .skipped) := by
  intro t done ds tree
  have complete : ∀ seq < t.plan.length, seq ∈ ds.map (·.seq) := by decide
  have ends : ∀ d ∈ ds, ∀ c ∈ d.completion, c.status.isTerminal = true := by decide
  obtain ⟨nodes, root⟩ := status_worst_below t ds complete ends
  exact ⟨complete, ends, nodes, by decide +kernel, root⟩

end TestIsolation
