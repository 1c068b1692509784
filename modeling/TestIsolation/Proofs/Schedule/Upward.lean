import TestIsolation.Proofs.Run.Region
import TestIsolation.Proofs.Schedule.Starting

/-!
# Parts of a tree that are closed upwards

What is decided about a step depends on whether its node is selected and on the setups above it, and on nothing else.
So where two runs of a tree are alike in a part that holds whatever is above its nodes (`AlikeOn`), their ledgers block,
start and settle the same there (`AlikeOn.blockedAt`, `startedAt`, `dueAt`), and nodes of the part that have all their
children in it come to the same (`Execution.Fulfils.run?_alike`).
-/

namespace TestIsolation

set_option autoImplicit false

/-- Whether the step with a number is that of a node in a part of a tree. -/
def SuiteTree.isStepOf {β : Type} (t : SuiteTree β) (part : Nat → Bool) (seq : Nat) : Bool :=
  (t.plan[seq]?).any fun step => part step.node

theorem SuiteTree.isStepOf_iff {β : Type} {t : SuiteTree β} {part : Nat → Bool} {seq : Nat} {step : Step}
    (due : t.plan[seq]? = some step) : t.isStepOf part seq = true ↔ part step.node = true := by
  simp [isStepOf, due]

/-- Two runs of a tree are given the same in a part that is closed upwards: the same nodes of it are selected, and the
same outcomes are assigned to its steps. -/
structure AlikeOn {β : Type} (t : SuiteTree β) (part : Nat → Bool) (a b : Assignment β)
    (o o' : Nat → Except StartError Completion) : Prop where
  tree : a.outline = t.outline
  outline : b.outline = a.outline
  upward : ∀ n ∈ t.nodes, part n.index = true → ∀ i ∈ n.lineage, part i = true
  selects : ∀ n ∈ t.nodes, part n.index = true → b.selects n = a.selects n
  outcomes : ∀ seq, t.isStepOf part seq = true → o seq = o' seq

namespace AlikeOn

open Assignment Execution

variable {β : Type} {a b : Assignment β} {o o' : Nat → Except StartError Completion} {t : SuiteTree β}
  {part : Nat → Bool} {seq : Nat}

/-- Steps of the part are decided by what is blocked in the part. -/
theorem decisionFor (alike : AlikeOn t part a b o o') {blocked others : List (Option Blockage)}
    (inside : t.isStepOf part seq = true)
    (same : ∀ i, part i = true → (blocked[i]?).join = (others[i]?).join) :
    a.decisionFor blocked seq = b.decisionFor others seq := by
  cases due : t.plan[seq]? with
  | none => simp [SuiteTree.isStepOf, due] at inside
  | some step =>
    obtain ⟨n, known⟩ := t.exists_node (List.mem_of_getElem? due)
    obtain ⟨mem, index⟩ := SuiteTree.node?_iff.1 known
    rw [SuiteTree.isStepOf_iff due, ← index] at inside
    have above (i : Nat) (listed : i ∈ n.lineage) : (others[i]?).join = (blocked[i]?).join :=
      (same i (alike.upward n mem inside i listed)).symm
    have outline := alike.outline.trans alike.tree
    rw [decisionFor_of_tree alike.tree due mem index, decisionFor_of_tree outline due mem index]
    exact congrArg some
      (decision_alike alike.outline (alike.selects n mem inside) (blockageIn_congr above) step).symm

/-- **What is blocked in the part** does not depend on the rest of the tree. -/
theorem blockedAt (alike : AlikeOn t part a b o o') (k : Nat) :
    ∀ i, part i = true → ((a.blockedAt o k)[i]?).join = ((b.blockedAt o' k)[i]?).join := by
  have outline := alike.outline.trans alike.tree
  induction k with
  | zero =>
    intro i _
    rw [Assignment.blockedAt, Assignment.blockedAt, alike.outline]
  | succ k ih =>
    intro i member
    have breaks (c : Blockage) : a.BreaksAt o i k c ↔ b.BreaksAt o' i k c := by
      by_cases entered : t.plan[k]? = some (.enter i)
      · have inside := (SuiteTree.isStepOf_iff entered).2 member
        simp only [BreaksAt, Launches, alike.decisionFor inside ih, outcomeOf, alike.outcomes k inside, alike.outline]
      · exact iff_of_false (fun broken => entered (broken.entered alike.tree))
          fun broken => entered (broken.entered outline)
    rcases blockedAt_succ (o := o) alike.tree k i with ⟨c, broken, now⟩ | ⟨whole, now⟩ <;>
      rcases blockedAt_succ (o := o') outline k i with ⟨c', broken', now'⟩ | ⟨whole', now'⟩
    · have first := ((breaks c).1 broken).2.2
      rw [now, now', ← first, broken'.2.2]
    · exact absurd ((breaks c).1 broken) (whole' c)
    · exact absurd ((breaks c').2 broken') (whole c')
    · rw [now, now', ih i member]

/-- What is decided about a step of the part does not depend on the rest of the tree. -/
theorem decisionFor_blockedAt (alike : AlikeOn t part a b o o') (inside : t.isStepOf part seq = true) :
    a.decisionFor (a.blockedAt o seq) seq = b.decisionFor (b.blockedAt o' seq) seq :=
  alike.decisionFor inside (alike.blockedAt seq)

/-- **What a step of the part is settled with** does not depend on the rest of the tree. -/
theorem dueAt (alike : AlikeOn t part a b o o') (inside : t.isStepOf part seq = true) :
    a.dueAt o seq = b.dueAt o' seq := by
  simp only [Assignment.dueAt, alike.decisionFor_blockedAt inside, outcomeOf, alike.outcomes seq inside]

/-- **Which units of the part are started** does not depend on the rest of the tree. -/
theorem startedAt (alike : AlikeOn t part a b o o') (k : Nat) :
    (a.startedAt o k).filter (t.isStepOf part) = (b.startedAt o' k).filter (t.isStepOf part) := by
  induction k with
  | zero => rfl
  | succ k ih =>
    cases inside : t.isStepOf part k with
    | false =>
      have dropped (a : Assignment β) (o : Nat → Except StartError Completion) :
          (a.startedAt o (k + 1)).filter (t.isStepOf part) = (a.startedAt o k).filter (t.isStepOf part) := by
        rcases startedAt_succ (a := a) (o := o) k with ⟨_, next⟩ | ⟨_, next⟩
        · rw [next, List.filter_cons_of_neg (by rw [inside]; exact Bool.false_ne_true)]
        · rw [next]
      rw [dropped, dropped, ih]
    | true =>
      have launches : a.Launches o k ↔ b.Launches o' k := by
        simp only [Launches, alike.decisionFor_blockedAt inside]
      rcases startedAt_succ (a := a) (o := o) k with ⟨starts, next⟩ | ⟨stays, next⟩ <;>
        rcases startedAt_succ (a := b) (o := o') k with ⟨starts', next'⟩ | ⟨stays', next'⟩
      · rw [next, next', List.filter_cons_of_pos inside, List.filter_cons_of_pos inside, ih]
      · exact absurd (launches.1 starts) stays'
      · exact absurd (launches.2 starts') stays
      · rw [next, next', ih]

end AlikeOn

namespace Execution

variable {β υ υ' : Type} {a b : Assignment β} {o o' : Nat → Except StartError Completion} {rules : Conduct υ}
  {rules' : Conduct υ'} {x : Execution υ} {y : Execution υ'} {t : SuiteTree β} {part : Nat → Bool}

/-- Runs that are alike in a part have started the same units of it, in the same order. -/
theorem Fulfils.started_alike (fulfils : Fulfils a o x) (fulfils' : Fulfils b o' y)
    (alike : AlikeOn t part a b o o') :
    x.started.filter (t.isStepOf part) = y.started.filter (t.isStepOf part) := by
  rw [fulfils.started, fulfils'.started, alike.outline, alike.startedAt]

/-- **Runs that are alike in a part agree on its nodes**, times aside, but for those that have children outside. -/
theorem Fulfils.run?_alike (fulfils : Fulfils a o x) (fulfils' : Fulfils b o' y) (reachable : Reachable a rules x)
    (reachable' : Reachable b rules' y) (alike : AlikeOn t part a b o o') (region : Nat → Prop)
    (inside : ∀ i, region i → part i = true)
    (closed : ∀ n ∈ t.nodes, region n.index → ∀ i ∈ n.children, region i) :
    ∀ i, region i → (x.aggregator.tree.run? i).map Run.untimed = (y.aggregator.tree.run? i).map Run.untimed := by
  obtain ⟨entries, kept⟩ := reachable.kept
  obtain ⟨others, kept'⟩ := reachable'.kept
  rw [alike.tree] at kept
  rw [alike.outline, alike.tree] at kept'
  refine kept.run?_alike kept' (fulfils.isComplete reachable) (fulfils'.isComplete reachable') closed ?_
  intro seq step known member
  have bound : seq < t.outline.steps.length := (List.getElem?_eq_some_iff.1 known).1
  rw [fulfils.delivered seq (alike.tree ▸ bound), fulfils'.delivered seq (alike.outline ▸ alike.tree ▸ bound),
    alike.dueAt ((SuiteTree.isStepOf_iff known).2 (inside _ member))]

end Execution

end TestIsolation
