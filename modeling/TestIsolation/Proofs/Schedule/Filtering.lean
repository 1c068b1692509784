import TestIsolation.Proofs.Schedule.Upward
import TestIsolation.Proofs.Suite.Numbering

/-!
# Tests do not notice a filter

Whoever passes a filter has everything above it selected, as it is without a filter. So a lineage is a part of the tree
in which a run with a filter and one without are alike, and the test at its end comes to the same (`filter_unnoticed`).
-/

namespace TestIsolation

set_option autoImplicit false

namespace Assignment

variable {β : Type} {a b : Assignment β} {o : Nat → Except StartError Completion} {t : SuiteTree β} {m : Node β}

/-- **Where two filters let a test pass, they are alike on its lineage.** -/
theorem alikeOn_lineage (tree : a.outline = t.outline) (outline : b.outline = a.outline) (mem : m ∈ t.nodes)
    (test : m.isTest = true) (selected : a.settings.selects m.path = true)
    (selected' : b.settings.selects m.path = true) : AlikeOn t m.lineage.contains a b o o := by
  refine ⟨tree, outline, ?_, ?_, fun _ _ => rfl⟩
  · intro n inside listed i above
    rw [List.contains_iff_mem] at listed ⊢
    exact SuiteTree.lineage_subset mem inside listed above
  · intro n inside listed
    rw [List.contains_iff_mem] at listed
    have passes : a.selects n = true := (selects_iff tree inside).2 ⟨m, mem, listed, test, selected⟩
    have passes' : b.selects n = true :=
      (selects_iff (outline.trans tree) inside).2 ⟨m, mem, listed, test, selected'⟩
    rw [passes, passes']

end Assignment

open Execution in
/-- **A test that passes a filter does not notice it.** Two runs of a tree, one with a filter and one without, with any
numbers of jobs, are given the same outcomes of all units. Both come to an end. If neither was given up, then for every
test whose path contains the filter, they have started the same units of the test and of the suites above it, in the
same order, and the test comes to the same, times aside. -/
theorem filter_unnoticed {β υ υ' : Type} (t : SuiteTree β) (settings : Settings) (jobs : Nat) (text : String)
    (o : Nat → Except StartError Completion)
    (filtered : Course υ ⟨t.outline, { settings with filter := some text }⟩ (.giving o))
    (whole : Course υ' ⟨t.outline, { settings with filter := none, jobs }⟩ (.giving o)) :
    (∃ k, (filtered.state k).isOver = true) ∧ (∃ l, (whole.state l).isOver = true) ∧
      ∀ k l, (filtered.state k).isOver = true → (whole.state l).isOver = true → (filtered.state k).halt = none →
        (whole.state l).halt = none → ∀ m ∈ t.nodes, m.isTest = true → textOccursIn text m.path = true →
          (filtered.state k).started.filter (t.isStepOf m.lineage.contains) =
              (whole.state l).started.filter (t.isStepOf m.lineage.contains) ∧
            ∃ r r', (filtered.state k).aggregator.tree.run? m.index = some r ∧
              (whole.state l).aggregator.tree.run? m.index = some r' ∧ r.untimed = r'.untimed := by
  have nodes : ∀ step ∈ t.outline.steps, ∃ n, t.outline.node? step.node = some n := fun step mem => t.exists_node mem
  refine ⟨filtered.exists_over nodes, whole.exists_over nodes, ?_⟩
  intro k l atEnd atEnd' going going' m mem test contains
  have here := filtered.reachable k
  have there := whole.reachable l
  have fulfils := (here.tracks_of_going going).fulfils here atEnd
  have fulfils' := (there.tracks_of_going going').fulfils there atEnd'
  have alike := Assignment.alikeOn_lineage (o := o) (a := ⟨t.outline, { settings with filter := some text }⟩)
    (b := ⟨t.outline, { settings with filter := none, jobs }⟩) rfl rfl mem test contains rfl
  refine ⟨fulfils.started_alike fulfils' alike, ?_⟩
  have runs := fulfils.run?_alike fulfils' here there alike (· = m.index) ?_ ?_ m.index rfl
  · obtain ⟨entries, kept⟩ := here.kept
    obtain ⟨r, own⟩ := kept.exists_run mem
    rw [own] at runs
    obtain ⟨r', own', untimed⟩ := Option.map_eq_some_iff.1 runs.symm
    exact ⟨r, r', own, own', untimed.symm⟩
  · rintro i rfl
    rw [List.contains_iff_mem]
    exact List.mem_cons_self
  · intro n inside own i listed
    obtain rfl := SuiteTree.eq_of_index inside mem own
    rw [SuiteTree.children_of_test inside test] at listed
    cases listed

open Execution in
/-- A suite whose setup passes, with a suite whose setup is skipped in it. The filter leaves out one test and a suite
with a setup and a teardown, so that four units are started instead of eight. -/
theorem filter_unnoticed_nested :
    let t : SuiteTree Nat := .suite { name := "r", setup := .explicit 0, teardown := .explicit 1 }
      [.suite { name := "s", setup := .explicit 2 } [.test { name := "ax" } 3],
       .suite { name := "u", setup := .explicit 4, teardown := .explicit 5 } [.test { name := "b" } 6],
       .test { name := "cx" } 7, .test { name := "d" } 8]
    let settings : Settings := { jobs := 2 }
    let o : Nat → Except StartError Completion := fun seq =>
      .ok { status := if seq = 1 then .skipped else if seq = 7 then .failed else .passed, startedAt := 5, endedAt := 6 }
    let filtered := Course.given ⟨t.outline, { settings with filter := some "x" }⟩ o
    let whole := Course.given ⟨t.outline, { settings with filter := none, jobs := 1 }⟩ o
    (filtered.state 4).isOver = true ∧ (whole.state 8).isOver = true ∧ (filtered.state 4).halt = none ∧
      (whole.state 8).halt = none ∧ (filtered.state 4).started = [9, 7, 1, 0] ∧
      (whole.state 8).started = [9, 8, 7, 6, 5, 4, 1, 0] ∧
      ∀ m ∈ t.nodes, m.isTest = true → textOccursIn "x" m.path = true →
        (filtered.state 4).started.filter (t.isStepOf m.lineage.contains) =
            (whole.state 8).started.filter (t.isStepOf m.lineage.contains) ∧
          ∃ r r', (filtered.state 4).aggregator.tree.run? m.index = some r ∧
            (whole.state 8).aggregator.tree.run? m.index = some r' ∧ r.untimed = r'.untimed := by
  intro t settings o filtered whole
  have atEnd : (filtered.state 4).isOver = true := by decide +kernel
  have atEnd' : (whole.state 8).isOver = true := by decide +kernel
  have going : (filtered.state 4).halt = none := ((filtered.reachable 4).tracks (.inl rfl)).running
  have going' : (whole.state 8).halt = none := ((whole.reachable 8).tracks (.inl rfl)).running
  exact ⟨atEnd, atEnd', going, going', by decide +kernel, by decide +kernel,
    (filter_unnoticed t settings 1 "x" o filtered whole).2.2 4 8 atEnd atEnd' going going'⟩

end TestIsolation
