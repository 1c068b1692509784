import Mathlib.Tactic.Common
import TestIsolation.Proofs.Suite.Traversal

/-!
# Lineages and the order of steps

A node lies on the lineage of another exactly if its subtree covers the other (`SuiteTree.mem_lineage_iff`), so that the
nodes above a node form a chain. The traversal opens every node before it comes to what lies below, and closes it once
(`SuiteTree.inOrder_plan`): no step comes twice, and a suite is entered before all other steps of its subtree.
-/

namespace TestIsolation

set_option autoImplicit false

/-- Whether a step is the first of its node. -/
def Step.opens : Step → Bool
  | enter _ | leaf _ => true
  | exit _ => false

/-- The steps of a node. -/
def Node.steps {β : Type} (n : Node β) : List Step :=
  if n.isTest then [.leaf n.index] else [.enter n.index, .exit n.index]

theorem Node.of_mem_steps {β : Type} {n : Node β} {step : Step} (own : step ∈ n.steps) :
    step.node = n.index ∧ step.isSuite = !n.isTest := by
  unfold steps at own
  cases test : n.isTest with
  | true =>
    rw [if_pos test, List.mem_singleton] at own
    subst own
    exact ⟨rfl, rfl⟩
  | false =>
    simp only [test, Bool.false_eq_true, if_false, List.mem_cons, List.not_mem_nil, or_false] at own
    rcases own with rfl | rfl <;> exact ⟨rfl, rfl⟩

namespace Node

variable {β : Type} {n : Node β}

theorem leaf_mem_steps (test : n.isTest = true) : Step.leaf n.index ∈ n.steps := by simp [steps, test]

theorem enter_mem_steps (suite : n.isTest = false) : Step.enter n.index ∈ n.steps := by simp [steps, suite]

theorem exit_mem_steps (suite : n.isTest = false) : Step.exit n.index ∈ n.steps := by simp [steps, suite]

end Node

/-- A later step opens a later node, and is none of a node that was closed. -/
structure Step.Before (s t : Step) : Prop where
  opens : t.opens = true → s.node < t.node
  closed : s.closes = true → t.node ≠ s.node

/-- Where a node of a tree stands whose nodes are numbered from `first` to `last` and lie below `above`. -/
structure Node.Within {β : Type} (first last : Nat) (above : List Nat) (n : Node β) : Prop where
  low : first ≤ n.index
  high : n.index + n.size ≤ last
  size : 0 < n.size
  single : n.isTest = true → n.size = 1
  /-- The nodes above the tree are above the node. -/
  outer : above ⊆ n.ancestors
  /-- All other nodes above it are earlier ones of the tree. -/
  inner : ∀ i ∈ n.ancestors, i ∈ above ∨ first ≤ i ∧ i < n.index

/-- Nodes of neighbouring trees are not on each other's lineages. -/
theorem Node.Within.apart {β : Type} {first mid last : Nat} {above : List Nat} {n m : Node β}
    (left : n.Within first mid above) (right : m.Within mid last above) (outside : ∀ i ∈ above, i < first) :
    (n.index ∈ m.lineage ↔ n.covers m.index = true) ∧ (m.index ∈ n.lineage ↔ m.covers n.index = true) := by
  have low := left.low
  have size := left.size
  have high := left.high
  have low' := right.low
  simp only [lineage, covers, List.mem_cons, Bool.and_eq_true, decide_eq_true_eq]
  refine ⟨⟨?_, by omega⟩, ⟨?_, by omega⟩⟩
  · rintro (own | listed)
    · omega
    · rcases right.inner _ listed with known | inside
      · have early := outside _ known
        omega
      · omega
  · rintro (own | listed)
    · omega
    · rcases left.inner _ listed with known | inside
      · have early := outside _ known
        omega
      · omega

namespace SuiteTree

variable {β : Type}

/-! ## Where nodes stand -/

mutual

/-- Nodes are numbered in order. -/
theorem map_index_nodesFrom (first : Nat) (path : Option String) (above : List Nat) (t : SuiteTree β) :
    (nodesFrom first path above t).map (·.index) = List.range' first t.size := by
  match t with
  | .test slots body => rfl
  | .suite slots children =>
    rw [nodesFrom, size, List.map_cons, map_index_siblingNodes, Nat.add_comm 1, List.range'_succ]

theorem map_index_siblingNodes (first : Nat) (path : Option String) (above : List Nat) (ts : List (SuiteTree β)) :
    (siblingNodes first path above ts).map (·.index) = List.range' first (sizes ts) := by
  match ts with
  | [] => rfl
  | t :: rest =>
    rw [siblingNodes, sizes, List.map_append, map_index_nodesFrom, map_index_siblingNodes, List.range'_append_1]

end

mutual

theorem within_nodesFrom (first : Nat) (path : Option String) (above : List Nat) (t : SuiteTree β) {n : Node β}
    (mem : n ∈ nodesFrom first path above t) : n.Within first (first + t.size) above := by
  match t with
  | .test slots body =>
    rw [nodesFrom, List.mem_singleton] at mem
    subst mem
    exact ⟨Nat.le_refl _, Nat.le_refl _, Nat.one_pos, fun _ => rfl, List.Subset.refl _, fun _ => .inl⟩
  | .suite slots children =>
    rw [nodesFrom, List.mem_cons] at mem
    rw [size]
    rcases mem with rfl | mem
    · exact ⟨Nat.le_refl _, Nat.le_refl _, by simp only; omega, nofun, List.Subset.refl _, fun _ => .inl⟩
    · obtain ⟨low, high, size, single, outer, inner⟩ := within_siblingNodes (first + 1) _ _ children mem
      refine ⟨by omega, by omega, size, single, (List.cons_subset.1 outer).2, ?_⟩
      intro i listed
      rcases inner i listed with known | inside
      · rcases List.mem_cons.1 known with rfl | known
        · exact .inr ⟨Nat.le_refl _, by omega⟩
        · exact .inl known
      · exact .inr ⟨by omega, inside.2⟩

theorem within_siblingNodes (first : Nat) (path : Option String) (above : List Nat) (ts : List (SuiteTree β))
    {n : Node β} (mem : n ∈ siblingNodes first path above ts) : n.Within first (first + sizes ts) above := by
  match ts with
  | [] => simp [siblingNodes] at mem
  | t :: rest =>
    rw [siblingNodes, List.mem_append] at mem
    rw [sizes]
    rcases mem with mem | mem
    · obtain ⟨low, high, size, single, outer, inner⟩ := within_nodesFrom first path above t mem
      exact ⟨low, by omega, size, single, outer, inner⟩
    · obtain ⟨low, high, size, single, outer, inner⟩ := within_siblingNodes (first + t.size) path above rest mem
      refine ⟨by omega, by omega, size, single, outer, ?_⟩
      intro i listed
      rcases inner i listed with known | inside
      · exact .inl known
      · exact .inr ⟨by omega, inside.2⟩

end

mutual

/-- **Lineages are subtrees**: a node is on the lineage of those that its subtree covers. -/
theorem mem_lineage_iff_covers (first : Nat) (path : Option String) (above : List Nat)
    (outside : ∀ i ∈ above, i < first) (t : SuiteTree β) {n m : Node β} (left : n ∈ nodesFrom first path above t)
    (right : m ∈ nodesFrom first path above t) : n.index ∈ m.lineage ↔ n.covers m.index = true := by
  match t with
  | .test slots body =>
    rw [nodesFrom, List.mem_singleton] at left right
    subst left right
    simp [Node.lineage, Node.covers]
  | .suite slots children =>
    rw [nodesFrom, List.mem_cons] at left right
    have below {k : Node β} :
        k ∈ siblingNodes (first + 1) (some (pathBelow path slots.name)) (first :: above) children →
          k.Within (first + 1) (first + 1 + sizes children) (first :: above) :=
      within_siblingNodes (first + 1) _ _ children
    rcases left with rfl | left <;> rcases right with rfl | right
    · simp only [Node.lineage, Node.covers, List.mem_cons, true_or, Nat.le_refl, decide_true, Bool.true_and,
        decide_eq_true_eq, true_iff]
      omega
    · have inside := below right
      have low := inside.low
      have high := inside.high
      have size := inside.size
      simp only [Node.lineage, Node.covers, List.mem_cons, inside.outer List.mem_cons_self, or_true, Bool.and_eq_true,
        decide_eq_true_eq, true_iff]
      omega
    · have low := (below left).low
      simp only [Node.lineage, Node.covers, List.mem_cons, Bool.and_eq_true, decide_eq_true_eq]
      constructor
      · rintro (own | listed)
        · omega
        · have early := outside _ listed
          omega
      · omega
    · refine mem_lineage_iff_siblingCovers (first + 1) _ _ ?_ children left right
      intro i listed
      rcases List.mem_cons.1 listed with rfl | listed
      · exact Nat.lt_succ_self _
      · exact Nat.lt_succ_of_lt (outside i listed)

theorem mem_lineage_iff_siblingCovers (first : Nat) (path : Option String) (above : List Nat)
    (outside : ∀ i ∈ above, i < first) (ts : List (SuiteTree β)) {n m : Node β}
    (left : n ∈ siblingNodes first path above ts) (right : m ∈ siblingNodes first path above ts) :
    n.index ∈ m.lineage ↔ n.covers m.index = true := by
  match ts with
  | [] => simp [siblingNodes] at left
  | t :: rest =>
    have later : ∀ i ∈ above, i < first + t.size := fun i listed => Nat.lt_add_right _ (outside i listed)
    rw [siblingNodes, List.mem_append] at left right
    rcases left with left | left <;> rcases right with right | right
    · exact mem_lineage_iff_covers first path above outside t left right
    · have here := within_nodesFrom first path above t left
      have there := within_siblingNodes (first + t.size) path above rest right
      exact (here.apart there outside).1
    · have here := within_nodesFrom first path above t right
      have there := within_siblingNodes (first + t.size) path above rest left
      exact (here.apart there outside).2
    · exact mem_lineage_iff_siblingCovers (first + t.size) path above later rest left right

end

/-! ## Steps -/

mutual

/-- The steps of a tree are those of its nodes. -/
theorem mem_stepsFrom (first : Nat) (path : Option String) (above : List Nat) (t : SuiteTree β) {step : Step} :
    step ∈ stepsFrom first t ↔ ∃ n ∈ nodesFrom first path above t, step ∈ n.steps := by
  match t with
  | .test slots body => simp [stepsFrom, nodesFrom, Node.steps, Node.isTest]
  | .suite slots children =>
    have below : step ∈ siblingSteps (first + 1) children ↔
        ∃ n ∈ siblingNodes (first + 1) (some (pathBelow path slots.name)) (first :: above) children, step ∈ n.steps :=
      mem_siblingSteps (first + 1) _ _ children
    simp only [stepsFrom, nodesFrom, List.mem_cons, List.mem_append, List.not_mem_nil, or_false, exists_eq_or_imp,
      below, Node.steps, Node.isTest, Option.isSome_none, Bool.false_eq_true, if_false]
    rw [or_assoc, or_comm (a := step = .exit first)]

theorem mem_siblingSteps (first : Nat) (path : Option String) (above : List Nat) (ts : List (SuiteTree β))
    {step : Step} : step ∈ siblingSteps first ts ↔ ∃ n ∈ siblingNodes first path above ts, step ∈ n.steps := by
  match ts with
  | [] => simp [siblingSteps, siblingNodes]
  | t :: rest =>
    simp only [siblingSteps, siblingNodes, List.mem_append, or_and_right, exists_or]
    rw [mem_stepsFrom first path above t, mem_siblingSteps (first + t.size) path above rest]

end

mutual

/-- **Steps are in order.** -/
theorem inOrder_stepsFrom (first : Nat) (t : SuiteTree β) : (stepsFrom first t).Pairwise Step.Before := by
  match t with
  | .test slots body =>
    rw [stepsFrom]
    exact List.pairwise_singleton _ _
  | .suite slots children =>
    rw [stepsFrom, List.pairwise_cons, List.pairwise_append]
    refine ⟨?_, inOrder_siblingSteps (first + 1) children, List.pairwise_singleton _ _, ?_⟩
    · intro step mem
      refine ⟨fun opens => ?_, nofun⟩
      rcases List.mem_append.1 mem with inside | last
      · exact (node_of_mem_siblingSteps (first + 1) children inside).1
      · rw [List.mem_singleton] at last
        subst last
        cases opens
    · intro step inside last mem
      rw [List.mem_singleton] at mem
      subst mem
      have low := (node_of_mem_siblingSteps (first + 1) children inside).1
      exact ⟨nofun, fun _ => Nat.ne_of_lt low⟩

theorem inOrder_siblingSteps (first : Nat) (ts : List (SuiteTree β)) :
    (siblingSteps first ts).Pairwise Step.Before := by
  match ts with
  | [] => exact .nil
  | t :: rest =>
    rw [siblingSteps, List.pairwise_append]
    refine ⟨inOrder_stepsFrom first t, inOrder_siblingSteps (first + t.size) rest, ?_⟩
    intro step here later there
    have bounds := node_of_mem_stepsFrom first t here
    have bounds' := node_of_mem_siblingSteps (first + t.size) rest there
    exact ⟨fun _ => by omega, fun _ => by omega⟩

end

/-! ## The tree as a whole -/

section Whole

variable {t : SuiteTree β} {n m : Node β} {i j p q : Nat} {step : Step}

/-- A node is found under its number. -/
theorem node?_iff : t.outline.node? i = some n ↔ n ∈ t.nodes ∧ n.index = i := by
  have index (j : Nat) : (t.nodes[j]?).map (·.index) = (List.range' 0 t.size)[j]? := by
    rw [← map_index_nodesFrom 0 none [] t, List.getElem?_map]
    rfl
  have own {j : Nat} {m : Node β} (found : t.nodes[j]? = some m) : m.index = j := by
    have here := index j
    have bound := (List.getElem?_eq_some_iff.1 found).1
    rw [length_nodes] at bound
    rw [found, Option.map_some, List.getElem?_range' bound] at here
    simpa using here
  constructor
  · intro found
    exact ⟨List.mem_of_getElem? found, own found⟩
  · rintro ⟨mem, rfl⟩
    obtain ⟨j, found⟩ := List.mem_iff_getElem?.1 mem
    rw [own found]
    exact found

/-- **A node is on the lineages that its subtree covers.** -/
theorem mem_lineage_iff (left : n ∈ t.nodes) (right : m ∈ t.nodes) : n.index ∈ m.lineage ↔ n.covers m.index = true :=
  mem_lineage_iff_covers 0 none [] nofun t left right

theorem lt_of_mem_ancestors (mem : n ∈ t.nodes) (listed : i ∈ n.ancestors) : i < n.index := by
  rcases (within_nodesFrom 0 none [] t mem).inner i listed with outside | inside
  · cases outside
  · exact inside.2

theorem le_of_mem_lineage (mem : n ∈ t.nodes) (listed : i ∈ n.lineage) : i ≤ n.index := by
  rcases List.mem_cons.1 listed with rfl | above
  · exact Nat.le_refl _
  · exact Nat.le_of_lt (lt_of_mem_ancestors mem above)

/-- Whatever is on a lineage is a node. -/
theorem exists_node_of_mem_lineage (mem : n ∈ t.nodes) (listed : i ∈ n.lineage) : ∃ m ∈ t.nodes, m.index = i := by
  have placed := within_nodesFrom 0 none [] t mem
  have low := le_of_mem_lineage mem listed
  have high := placed.high
  have size := placed.size
  have bound : i < t.nodes.length := by
    rw [length_nodes]
    omega
  exact ⟨_, List.getElem_mem bound, (node?_iff.1 (List.getElem?_eq_getElem bound)).2⟩

/-- **Lineages are chains**: of two nodes on a lineage, the earlier one is on that of the later one. -/
theorem lineage_chain (mem : m ∈ t.nodes) (upper : i ∈ m.lineage) (lower : n.index ∈ m.lineage) (inside : n ∈ t.nodes)
    (le : i ≤ n.index) : i ∈ n.lineage := by
  obtain ⟨k, outer, rfl⟩ := exists_node_of_mem_lineage mem upper
  have covers := (mem_lineage_iff outer mem).1 upper
  have above := le_of_mem_lineage mem lower
  rw [mem_lineage_iff outer inside]
  simp only [Node.covers, Bool.and_eq_true, decide_eq_true_eq] at covers ⊢
  omega

theorem eq_of_index (left : n ∈ t.nodes) (right : m ∈ t.nodes) (same : n.index = m.index) : n = m := by
  have found := node?_iff.2 ⟨left, rfl⟩
  rw [same, node?_iff.2 ⟨right, rfl⟩, Option.some.injEq] at found
  exact found.symm

/-- A test is on its own lineage only. -/
theorem eq_of_test_on_lineage (test : n.isTest = true) (left : n ∈ t.nodes) (right : m ∈ t.nodes)
    (listed : n.index ∈ m.lineage) : n = m := by
  have covers := (mem_lineage_iff left right).1 listed
  have single := (within_nodesFrom 0 none [] t left).single test
  simp only [Node.covers, Bool.and_eq_true, decide_eq_true_eq] at covers
  exact eq_of_index left right (by omega)

/-- The steps of a tree are those of its nodes. -/
theorem mem_plan : step ∈ t.plan ↔ ∃ n ∈ t.nodes, step ∈ n.steps := mem_stepsFrom 0 none [] t

/-- A step is one of the steps of its node. -/
theorem mem_steps_of_node? (mem : step ∈ t.plan) (found : t.outline.node? step.node = some n) : step ∈ n.steps := by
  obtain ⟨m, known, own⟩ := mem_plan.1 mem
  have same := node?_iff.2 ⟨known, (Node.of_mem_steps own).1.symm⟩
  rw [found, Option.some.injEq] at same
  exact same ▸ own

theorem inOrder_plan (t : SuiteTree β) : t.plan.Pairwise Step.Before := inOrder_stepsFrom 0 t

/-- A node that was closed does not come up again. -/
theorem node_ne_of_closes (due : t.plan[p]? = some step) (closes : step.closes = true) :
    ∀ later ∈ t.plan.drop (p + 1), later.node ≠ step.node := by
  obtain ⟨bound, rfl⟩ := List.getElem?_eq_some_iff.1 due
  have order := (inOrder_plan t).sublist (List.drop_sublist p t.plan)
  rw [List.drop_eq_getElem_cons bound, List.pairwise_cons] at order
  exact fun later listed => (order.1 later listed).closed closes

/-- **No step comes twice.** -/
theorem nodup_plan (t : SuiteTree β) : t.plan.Nodup := by
  refine (inOrder_plan t).imp ?_
  rintro step _ before rfl
  cases step with
  | exit node => exact before.closed rfl rfl
  | enter node | leaf node => exact Nat.lt_irrefl _ (before.opens rfl)

/-- **A suite is entered before the other steps of its subtree.** -/
theorem enter_lt (entered : t.plan[p]? = some (.enter i)) (later : t.plan[q]? = some step)
    (found : t.outline.node? step.node = some n) (listed : i ∈ n.lineage) (other : step ≠ .enter i) : p < q := by
  have mem := (node?_iff.1 found).1
  have index := (node?_iff.1 found).2
  have le := le_of_mem_lineage mem listed
  obtain ⟨bound, entered⟩ := List.getElem?_eq_some_iff.1 entered
  obtain ⟨bound', later⟩ := List.getElem?_eq_some_iff.1 later
  by_contra notBefore
  rcases Nat.lt_or_eq_of_le (Nat.le_of_not_lt notBefore) with after | rfl
  · have before := (List.pairwise_iff_getElem.1 (inOrder_plan t) q p bound' bound after).opens (by rw [entered]; rfl)
    rw [entered, later] at before
    exact absurd before (by simp only [Step.node] at index ⊢; omega)
  · exact other (later.symm.trans entered)

end Whole

end SuiteTree

end TestIsolation
