import TestIsolation.Proofs.Schedule.Ledger
import TestIsolation.Proofs.Suite.Lineage

/-!
# What is blocked

In the ledger of a suite tree, a suite is blocked once its setup was started and did not pass (`Assignment.Broken`).
Suites are entered before anything else that belongs to them, so whenever it is asked why a node may not run, all setups
above it have been settled (`blockageIn_eq_none_iff`). No setup is started below a blocked suite, so that no lineage
ever has two (`Broken.unique`).
-/

namespace TestIsolation

set_option autoImplicit false

namespace Assignment

open Execution

variable {β : Type} {a : Assignment β} {o : Nat → Except StartError Completion} {k seq i j : Nat}

/-- The unit of a step is started, going by the ledger. -/
def Launches (a : Assignment β) (o : Nat → Except StartError Completion) (seq : Nat) : Prop :=
  ∃ n plan barrier, a.decisionFor (a.blockedAt o seq) seq = some (.launch n plan barrier)

/-- The setup of a suite is started at a step and does not pass. -/
def BreaksAt (a : Assignment β) (o : Nat → Except StartError Completion) (i seq : Nat) (b : Blockage) : Prop :=
  a.Launches o seq ∧ a.outline.steps[seq]? = some (.enter i) ∧ blockageOf (outcomeOf o seq).status = some b

/-- The setup of a suite is started and does not pass. -/
def Broken (a : Assignment β) (o : Nat → Except StartError Completion) (i : Nat) : Prop :=
  ∃ seq b, a.BreaksAt o i seq b

/-! ## What is started -/

theorem startedAt_succ (k : Nat) :
    (a.Launches o k ∧ a.startedAt o (k + 1) = k :: a.startedAt o k) ∨
      ¬a.Launches o k ∧ a.startedAt o (k + 1) = a.startedAt o k := by
  rw [startedAt]
  split
  · rename_i n plan barrier decided
    exact .inl ⟨⟨n, plan, barrier, decided⟩, rfl⟩
  · rename_i others
    refine .inr ⟨?_, rfl⟩
    rintro ⟨n, plan, barrier, decided⟩
    exact others n plan barrier decided

theorem mem_startedAt : seq ∈ a.startedAt o k ↔ seq < k ∧ a.Launches o seq := by
  induction k with
  | zero => simp [startedAt]
  | succ k ih =>
    rcases startedAt_succ (a := a) (o := o) k with ⟨launches, next⟩ | ⟨stays, next⟩
    · rw [next, List.mem_cons, ih]
      constructor
      · rintro (rfl | ⟨early, launched⟩)
        · exact ⟨Nat.lt_succ_self _, launches⟩
        · exact ⟨Nat.lt_succ_of_lt early, launched⟩
      · rintro ⟨early, launched⟩
        rcases Nat.lt_succ_iff_lt_or_eq.1 early with early | rfl
        · exact .inr ⟨early, launched⟩
        · exact .inl rfl
    · rw [next, ih]
      constructor
      · rintro ⟨early, launched⟩
        exact ⟨Nat.lt_succ_of_lt early, launched⟩
      · rintro ⟨early, launched⟩
        rcases Nat.lt_succ_iff_lt_or_eq.1 early with early | rfl
        · exact ⟨early, launched⟩
        · exact absurd launched stays

theorem nodup_startedAt (k : Nat) : (a.startedAt o k).Nodup := by
  induction k with
  | zero => exact List.nodup_nil
  | succ k ih =>
    rcases startedAt_succ (a := a) (o := o) k with ⟨_, next⟩ | ⟨_, next⟩
    · rw [next, List.nodup_cons]
      exact ⟨fun listed => Nat.lt_irrefl _ (mem_startedAt.1 listed).1, ih⟩
    · rwa [next]

/-! ## What is blocked -/

theorem length_blockedAfter (blocked : List (Option Blockage)) (step : Option Step) (node : Nat) (barrier : Bool)
    (s : Status) : (blockedAfter blocked step node barrier s).length = blocked.length := by
  unfold blockedAfter
  split
  · exact List.length_set
  · rfl

theorem length_blockedAt (k : Nat) : (a.blockedAt o k).length = a.outline.nodes.length := by
  induction k with
  | zero => simp [blockedAt]
  | succ k ih =>
    rw [blockedAt]
    split
    · rw [length_blockedAfter, ih]
    · exact ih

section Tree

variable {t : SuiteTree β}

theorem BreaksAt.entered {b : Blockage} (breaks : a.BreaksAt o i seq b) (tree : a.outline = t.outline) :
    t.plan[seq]? = some (.enter i) := by
  have listed := breaks.2.1
  rwa [tree] at listed

/-- What is decided about a step is decided about its node. -/
theorem Launches.of_tree (tree : a.outline = t.outline) (launches : a.Launches o k) :
    ∃ step n plan, t.plan[k]? = some step ∧ n ∈ t.nodes ∧ n.index = step.node ∧
      a.decision (a.blockedAt o k) step n = .launch n plan step.isSuite ∧
      a.blockedAt o (k + 1) =
        blockedAfter (a.blockedAt o k) (some step) n.index step.isSuite (outcomeOf o k).status := by
  obtain ⟨n', plan, barrier, decided⟩ := launches
  obtain ⟨blocked, _⟩ := ledger_of_launch decided
  rw [decisionFor, tree, Option.bind_eq_some_iff] at decided
  obtain ⟨step, due, decided⟩ := decided
  rw [Option.map_eq_some_iff] at decided
  obtain ⟨n, found, decided⟩ := decided
  obtain ⟨rfl, rfl⟩ := decision_eq_launch decided
  obtain ⟨mem, index⟩ := SuiteTree.node?_iff.1 found
  rw [tree, due] at blocked
  exact ⟨step, n', plan, due, mem, index, decided, blocked⟩

/-- A setup that does not pass blocks its suite, and nothing else. -/
theorem blockedAt_succ (tree : a.outline = t.outline) (k i : Nat) :
    (∃ b, a.BreaksAt o i k b ∧ ((a.blockedAt o (k + 1))[i]?).join = some b) ∨
      (∀ b, ¬a.BreaksAt o i k b) ∧ ((a.blockedAt o (k + 1))[i]?).join = ((a.blockedAt o k)[i]?).join := by
  by_cases launches : a.Launches o k
  · obtain ⟨step, n, plan, due, mem, index, _, blocked⟩ := launches.of_tree tree
    have here : a.outline.steps[k]? = some step := by
      rw [tree]
      exact due
    rw [blocked]
    cases breaks : blockageOf (outcomeOf o k).status with
    | none =>
      refine .inr ⟨fun b broken => ?_, ?_⟩
      · rw [broken.2.2] at breaks
        cases breaks
      · simp [blockedAfter, breaks]
    | some b =>
      by_cases own : step = .enter i
      · subst own
        refine .inl ⟨b, ⟨launches, here, breaks⟩, ?_⟩
        have bound : i < (a.blockedAt o k).length := by
          rw [length_blockedAt, tree]
          exact (List.getElem?_eq_some_iff.1 (SuiteTree.node?_iff.2 ⟨mem, index⟩)).1
        rw [show n.index = i from index]
        simp [blockedAfter, Step.isSuite, breaks, bound]
      · refine .inr ⟨fun b' broken => ?_, ?_⟩
        · rw [broken.2.1, Option.some.injEq] at here
          exact own here.symm
        · cases step with
          | leaf node | exit node => simp [blockedAfter, Step.isSuite]
          | enter node =>
            have other : n.index ≠ i := fun same => own (congrArg Step.enter (index.symm.trans same))
            simp [blockedAfter, Step.isSuite, breaks, List.getElem?_set_ne other]
  · refine .inr ⟨fun b broken => launches broken.1, ?_⟩
    rw [blockedAt]
    split
    · rename_i n plan barrier decided
      exact absurd ⟨n, plan, barrier, decided⟩ launches
    · rfl

/-- A suite that is blocked had a setup that did not pass. -/
theorem exists_breaksAt (tree : a.outline = t.outline) {b : Blockage}
    (blocked : ((a.blockedAt o k)[i]?).join = some b) : ∃ seq < k, a.BreaksAt o i seq b := by
  induction k with
  | zero =>
    simp only [blockedAt, List.getElem?_map] at blocked
    cases found : a.outline.nodes[i]? with
    | none => simp [found] at blocked
    | some n => simp [found] at blocked
  | succ k ih =>
    rcases blockedAt_succ (o := o) tree k i with ⟨b', breaks, now⟩ | ⟨_, same⟩
    · rw [now, Option.some.injEq] at blocked
      exact ⟨k, Nat.lt_succ_self _, blocked ▸ breaks⟩
    · rw [same] at blocked
      obtain ⟨seq, early, breaks⟩ := ih blocked
      exact ⟨seq, Nat.lt_succ_of_lt early, breaks⟩

/-- A suite stays blocked. -/
theorem blockedAt_ne_none (tree : a.outline = t.outline) {b : Blockage} (breaks : a.BreaksAt o i seq b)
    (early : seq < k) : ((a.blockedAt o k)[i]?).join ≠ none := by
  induction k with
  | zero => exact absurd early (Nat.not_lt_zero _)
  | succ k ih =>
    rcases blockedAt_succ (o := o) tree k i with ⟨b', _, now⟩ | ⟨none_, same⟩
    · simp [now]
    · rw [same]
      rcases Nat.lt_succ_iff_lt_or_eq.1 early with early | rfl
      · exact ih early
      · exact absurd breaks (none_ b)

theorem blockageIn_eq_none {blocked : List (Option Blockage)} {n : Node β} :
    blockageIn blocked n = none ↔ ∀ i ∈ n.lineage, (blocked[i]?).join = none := List.findSome?_eq_none_iff

/-- What blocks a node is known from what is blocked on its lineage. -/
theorem blockageIn_congr {blocked others : List (Option Blockage)} {n : Node β}
    (alike : ∀ i ∈ n.lineage, (blocked[i]?).join = (others[i]?).join) :
    blockageIn blocked n = blockageIn others n := by
  have through (blocked : List (Option Blockage)) :
      blockageIn blocked n = (n.lineage.map fun i => (blocked[i]?).join).findSome? id := by
    rw [List.findSome?_map]
    rfl
  rw [through, List.map_congr_left alike, ← through]

/-- **What is asked about a node is settled**: it may run, as far as the setups above are concerned, if none of them
ever breaks, that of the step itself aside. -/
theorem blockageIn_eq_none_iff (tree : a.outline = t.outline) {step : Step} {n : Node β}
    (due : t.plan[seq]? = some step) (mem : n ∈ t.nodes) (index : n.index = step.node) :
    blockageIn (a.blockedAt o seq) n = none ↔ ∀ i ∈ n.lineage, step = .enter i ∨ ¬a.Broken o i := by
  rw [blockageIn_eq_none]
  constructor
  · intro free i listed
    by_cases own : step = .enter i
    · exact .inl own
    · refine .inr fun ⟨s, b, breaks⟩ => ?_
      have early := SuiteTree.enter_lt (breaks.entered tree) due (SuiteTree.node?_iff.2 ⟨mem, index⟩) listed own
      exact blockedAt_ne_none tree breaks early (free i listed)
  · intro free i listed
    rw [Option.eq_none_iff_forall_ne_some]
    intro b blocked
    obtain ⟨s, early, breaks⟩ := exists_breaksAt tree blocked
    rcases free i listed with own | whole
    · -- The suite would be entered twice.
      have entered := breaks.entered tree
      have bound := (List.getElem?_eq_some_iff.1 entered).1
      have same := (List.getElem?_inj bound t.nodup_plan).1 (entered.trans (own ▸ due.symm))
      omega
    · exact whole ⟨s, b, breaks⟩

/-- **No lineage has two blocked suites.** -/
theorem Broken.unique (tree : a.outline = t.outline) {m : Node β} (mem : m ∈ t.nodes) (upper : i ∈ m.lineage)
    (lower : j ∈ m.lineage) (left : a.Broken o i) (right : a.Broken o j) : i = j := by
  wlog le : i ≤ j generalizing i j
  · exact (this lower upper right left (by omega)).symm
  obtain ⟨seq, b, launches, entered, _⟩ := right
  obtain ⟨step, n, plan, due, inside, index, decided, _⟩ := launches.of_tree tree
  rw [tree, show t.outline.steps[seq]? = some step from due, Option.some.injEq] at entered
  subst entered
  have free : blockageIn (a.blockedAt o seq) n = none := by
    simp only [decision] at decided
    split at decided
    · split at decided
      · rename_i runs
        rw [Bool.and_eq_true, Option.isNone_iff_eq_none] at runs
        exact runs.1
      · cases decided
    · cases decided
  have listed : i ∈ n.lineage := by
    refine SuiteTree.lineage_chain mem upper ?_ inside ?_
    · rwa [index]
    · rw [index]
      exact le
  rcases (blockageIn_eq_none_iff tree due inside index).1 free i listed with same | whole
  · exact (Step.enter.inj same).symm
  · exact absurd left whole

end Tree

end Assignment

namespace Execution

variable {β υ : Type} {a : Assignment β} {o : Nat → Except StartError Completion} {x : Execution υ} {i : Nat}

/-- A suite that is blocked stays so. -/
theorem blockedAfter_ne_none {blocked : List (Option Blockage)} (before : (blocked[i]?).join ≠ none)
    (step : Option Step) (node : Nat) (barrier : Bool) (s : Status) :
    ((blockedAfter blocked step node barrier s)[i]?).join ≠ none := by
  unfold blockedAfter
  split
  · by_cases own : node = i
    · subst own
      cases found : blocked[node]? with
      | none => simp [found] at before
      | some old =>
        have bound := (List.getElem?_eq_some_iff.1 found).1
        simp [List.getElem?_set_self bound]
    · rwa [List.getElem?_set_ne own]
  · exact before

theorem blockedBy_ne_none {flights : List Flight} {blocked : List (Option Blockage)}
    (before : (blocked[i]?).join ≠ none) : ((blockedBy a o flights blocked)[i]?).join ≠ none := by
  induction flights generalizing blocked with
  | nil => exact before
  | cons f flights ih => exact ih (blockedAfter_ne_none before _ _ _ _)

/-- **A run blocks what the ledger blocks.** -/
theorem Tracks.broken {t : SuiteTree β} (tracks : Tracks a o x) (tree : a.outline = t.outline)
    (blocked : (x.blocked[i]?).join ≠ none) : a.Broken o i := by
  have due : ((a.blockedAt o x.cursor)[i]?).join ≠ none := by
    rw [← tracks.blocked]
    exact blockedBy_ne_none blocked
  obtain ⟨b, found⟩ := Option.ne_none_iff_exists'.1 due
  obtain ⟨seq, _, breaks⟩ := Assignment.exists_breaksAt tree found
  exact ⟨seq, b, breaks⟩

end Execution

end TestIsolation
