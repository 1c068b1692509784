import TestIsolation.Proofs.Schedule.Upward
import TestIsolation.Proofs.Suite.Numbering

/-!
# Faults stay where they happen

What is outside a subtree is closed upwards. So where outcomes differ in one subtree, the runs agree on all units
outside of it, and on all nodes but those of the subtree and above it (`fault_stays`).
-/

namespace TestIsolation

set_option autoImplicit false

/-- Whether the step with a number is that of a node outside a subtree. -/
def SuiteTree.outside {β : Type} (t : SuiteTree β) (n : Node β) (seq : Nat) : Bool :=
  (t.plan[seq]?).any fun step => !n.covers step.node

/-- Whether a number is that of a node neither in a subtree nor above it. -/
def Node.Beside {β : Type} (n : Node β) (index : Nat) : Prop := n.covers index = false ∧ index ∉ n.ancestors

namespace SuiteTree

variable {β : Type} {t : SuiteTree β} {n m : Node β} {i : Nat}

/-- What is above a node outside a subtree is outside of it, too. -/
theorem covers_of_mem_lineage (mem : n ∈ t.nodes) (other : m ∈ t.nodes) (apart : n.covers m.index = false)
    (listed : i ∈ m.lineage) : n.covers i = false := by
  obtain ⟨k, known, rfl⟩ := exists_node_of_mem_lineage other listed
  rw [← Bool.not_eq_true, ← mem_lineage_iff mem other] at apart
  rw [← Bool.not_eq_true, ← mem_lineage_iff mem known]
  exact fun above => apart (lineage_subset other known listed above)

/-- What is beside a subtree has its children beside it. -/
theorem beside_of_mem_children (mem : n ∈ t.nodes) (parent : m ∈ t.nodes) (beside : n.Beside m.index)
    (listed : i ∈ m.children) : n.Beside i := by
  obtain ⟨c, child, rfl, childOf⟩ := (parental_nodesFrom 0 none [] t parent).children i listed
  obtain ⟨apart, below⟩ := beside
  have above : m.index ∈ c.ancestors := by
    rw [childOf.ancestors]
    exact List.mem_cons_self
  rw [← Bool.not_eq_true, ← mem_lineage_iff mem parent] at apart
  refine ⟨?_, fun known => below ?_⟩
  · rw [← Bool.not_eq_true, ← mem_lineage_iff mem child]
    intro inside
    rcases List.mem_cons.1 inside with own | higher
    · -- The child is the root of the subtree, so that its parent is above.
      rw [eq_of_index mem child own] at below
      exact below above
    · rw [childOf.ancestors] at higher
      exact apart higher
  · have higher := lineage_subset mem child (List.mem_cons_of_mem _ known) (List.mem_cons_of_mem _ above)
    rcases List.mem_cons.1 higher with own | higher
    · exact absurd (own ▸ List.mem_cons_self) apart
    · exact higher

end SuiteTree

namespace Execution

open Assignment

variable {β υ υ' : Type} {a b : Assignment β} {o o' : Nat → Except StartError Completion} {rules : Conduct υ}
  {rules' : Conduct υ'} {x : Execution υ} {y : Execution υ'} {t : SuiteTree β} {n : Node β}

/-- **Runs whose outcomes differ in one subtree** agree on what is started outside of it, and on all nodes beside it. -/
theorem Fulfils.isolated (fulfils : Fulfils a o x) (fulfils' : Fulfils b o' y) (reachable : Reachable a rules x)
    (reachable' : Reachable b rules' y) (tree : a.outline = t.outline) (outline : b.outline = a.outline)
    (filter : b.settings.filter = a.settings.filter) (mem : n ∈ t.nodes)
    (same : ∀ seq, t.outside n seq = true → o seq = o' seq) :
    x.started.filter (t.outside n) = y.started.filter (t.outside n) ∧
      ∀ i, n.Beside i → (x.aggregator.tree.run? i).map Run.untimed = (y.aggregator.tree.run? i).map Run.untimed := by
  have selects (m : Node β) : b.selects m = a.selects m := by
    simp only [Assignment.selects, Settings.selects, outline, filter]
  have alike : AlikeOn t (fun i => !n.covers i) a b o o' := by
    refine ⟨tree, outline, fun m inside apart i listed => ?_, fun m _ _ => selects m, same⟩
    rw [Bool.not_eq_true'] at apart ⊢
    exact SuiteTree.covers_of_mem_lineage mem inside apart listed
  refine ⟨fulfils.started_alike fulfils' alike, fulfils.run?_alike fulfils' reachable reachable' alike n.Beside ?_ ?_⟩
  · exact fun i beside => by rw [beside.1, Bool.not_false]
  · exact fun m parent beside i listed => SuiteTree.beside_of_mem_children mem parent beside listed

end Execution

open Execution in
/-- **A fault stays where it happened.** Two runs of a tree, with any numbers of jobs, are given outcomes that differ
only for units of one subtree. Both come to an end. If neither was given up, they have started the same units outside
the subtree, in the same order, and come to the same runs, times aside, of all nodes that are neither in the subtree nor
above it. -/
theorem fault_stays {β υ υ' : Type} (t : SuiteTree β) (settings : Settings) (jobs : Nat) {n : Node β}
    (mem : n ∈ t.nodes) (o o' : Nat → Except StartError Completion)
    (same : ∀ seq, t.outside n seq = true → o seq = o' seq) (course : Course υ ⟨t.outline, settings⟩ (.giving o))
    (other : Course υ' ⟨t.outline, { settings with jobs }⟩ (.giving o')) :
    (∃ k, (course.state k).isOver = true) ∧ (∃ l, (other.state l).isOver = true) ∧
      ∀ k l, (course.state k).isOver = true → (other.state l).isOver = true → (course.state k).halt = none →
        (other.state l).halt = none →
          (course.state k).started.filter (t.outside n) = (other.state l).started.filter (t.outside n) ∧
          ∀ m ∈ t.nodes, n.Beside m.index → ∃ r r', (course.state k).aggregator.tree.run? m.index = some r ∧
            (other.state l).aggregator.tree.run? m.index = some r' ∧ r.untimed = r'.untimed := by
  have nodes : ∀ step ∈ t.outline.steps, ∃ n, t.outline.node? step.node = some n := fun step mem => t.exists_node mem
  refine ⟨course.exists_over nodes, other.exists_over nodes, ?_⟩
  intro k l atEnd atEnd' going going'
  have here := course.reachable k
  have there := other.reachable l
  have fulfils := (here.tracks_of_going going).fulfils here atEnd
  have fulfils' := (there.tracks_of_going going').fulfils there atEnd'
  obtain ⟨started, runs⟩ := fulfils.isolated fulfils' here there rfl rfl rfl mem same
  refine ⟨started, fun m inside beside => ?_⟩
  obtain ⟨entries, kept⟩ := here.kept
  obtain ⟨r, own⟩ := kept.exists_run inside
  have alike := runs m.index beside
  rw [own] at alike
  obtain ⟨r', own', untimed⟩ := Option.map_eq_some_iff.1 alike.symm
  exact ⟨r, r', own, own', untimed.symm⟩

open Execution in
/-- Two suites, the setup of one of which passes in one run and crashes in the other, so that its test is skipped. The
other suite has a teardown, which fails in both, and two tests. -/
theorem fault_stays_crash :
    let t : SuiteTree Nat := .suite { name := "r" }
      [.suite { name := "s", setup := .explicit 1 } [.test { name := "a" } 2],
       .suite { name := "u", teardown := .explicit 3 } [.test { name := "b" } 4, .test { name := "c" } 5]]
    let settings : Settings := { jobs := 2 }
    let o : Nat → Except StartError Completion := fun seq =>
      .ok { status := if seq = 7 then .failed else .passed, startedAt := 5, endedAt := 6 }
    let o' : Nat → Except StartError Completion := fun seq =>
      if seq = 1 then .ok { status := .crashed, startedAt := 5, endedAt := 8 } else o seq
    let one := Course.given ⟨t.outline, settings⟩ o
    let other := Course.given ⟨t.outline, { settings with jobs := 1 }⟩ o'
    ∃ n ∈ t.nodes, n.index = 1 ∧ (∀ seq, t.outside n seq = true → o seq = o' seq) ∧
      (one.state 4).isOver = true ∧ (other.state 4).isOver = true ∧ (one.state 4).halt = none ∧
      (other.state 4).halt = none ∧ (one.state 4).started = [7, 6, 5, 2, 1] ∧ (other.state 4).started = [7, 6, 5, 1] ∧
      (one.state 4).started.filter (t.outside n) = (other.state 4).started.filter (t.outside n) ∧
      ∀ m ∈ t.nodes, n.Beside m.index → ∃ r r', (one.state 4).aggregator.tree.run? m.index = some r ∧
        (other.state 4).aggregator.tree.run? m.index = some r' ∧ r.untimed = r'.untimed := by
  intro t settings o o' one other
  have bound : 1 < t.nodes.length := by decide
  have mem : t.nodes[1] ∈ t.nodes := List.getElem_mem bound
  have same : ∀ seq, t.outside t.nodes[1] seq = true → o seq = o' seq := by
    intro seq outside
    by_cases own : seq = 1
    · have inside : t.outside t.nodes[1] 1 = false := rfl
      rw [own, inside] at outside
      cases outside
    · exact (if_neg own).symm
  have atEnd : (one.state 4).isOver = true := by decide +kernel
  have atEnd' : (other.state 4).isOver = true := by decide +kernel
  have going : (one.state 4).halt = none := ((one.reachable 4).tracks (.inl rfl)).running
  have going' : (other.state 4).halt = none := ((other.reachable 4).tracks (.inl rfl)).running
  exact ⟨t.nodes[1], mem, rfl, same, atEnd, atEnd', going, going', by decide +kernel, by decide +kernel,
    (fault_stays t settings 1 mem o o' same one other).2.2 4 4 atEnd atEnd' going going'⟩

end TestIsolation
