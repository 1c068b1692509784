import TestIsolation.Proofs.Suite.Bracketing

/-!
# The traversal as nested brackets

The traversal of a tree is a sequence of brackets, one pair for a suite and one step for a test (`SuiteTree.nested`):
the steps of a node are its own alone (`SuiteTree.filter_plan`), those between the two of a suite are the steps of its
descendants, and the opening ones come in the order of the nodes (`SuiteTree.opens_stepsFrom`).
-/

namespace TestIsolation

set_option autoImplicit false

/-- A suite is entered and left by steps of its own, and by no others. -/
theorem Node.Bracketed.filter_own {β : Type} {n : Node β} {steps before inner after : List Step}
    (bracketed : n.Bracketed steps before inner after) (size : 0 < n.size) :
    steps.filter (·.node = n.index) = [.enter n.index, .exit n.index] := by
  obtain ⟨split, inside, outside⟩ := bracketed
  have none_ {others : List Step} (apart : ∀ step ∈ others, step.node ≠ n.index) :
      others.filter (·.node = n.index) = [] := by
    simpa [List.filter_eq_nil_iff] using apart
  have front : ∀ step ∈ before, step.node ≠ n.index := fun step listed => by
    have apart := outside step (List.mem_append_left _ listed)
    omega
  have behind : ∀ step ∈ after, step.node ≠ n.index := fun step listed => by
    have apart := outside step (List.mem_append_right _ listed)
    omega
  have within : ∀ step ∈ inner, step.node ≠ n.index := fun step listed => Nat.ne_of_gt (inside step listed).1
  rw [split, List.filter_append, none_ front, List.filter_cons_of_pos (by simp [Step.node]), List.filter_append,
    none_ within, List.filter_cons_of_pos (by simp [Step.node]), none_ behind]
  rfl

namespace SuiteTree

variable {β : Type}

mutual

/-- Nodes are opened in order. -/
theorem opens_stepsFrom (first : Nat) (t : SuiteTree β) :
    ((stepsFrom first t).filter (·.opens)).map (·.node) = List.range' first t.size := by
  match t with
  | .test slots body => rfl
  | .suite slots children =>
    rw [stepsFrom, size, List.filter_cons_of_pos rfl, List.filter_append, List.filter_cons_of_neg Bool.false_ne_true,
      List.filter_nil, List.append_nil, List.map_cons, opens_siblingSteps, Nat.add_comm 1, List.range'_succ]
    rfl

theorem opens_siblingSteps (first : Nat) (ts : List (SuiteTree β)) :
    ((siblingSteps first ts).filter (·.opens)).map (·.node) = List.range' first (sizes ts) := by
  match ts with
  | [] => rfl
  | t :: rest =>
    rw [siblingSteps, sizes, List.filter_append, List.map_append, opens_stepsFrom, opens_siblingSteps,
      List.range'_append_1]

end

section Whole

variable {t : SuiteTree β} {n : Node β}

/-- **The steps of a node are its own alone**: one for a test, and two for a suite, which is entered first. -/
theorem filter_plan (mem : n ∈ t.nodes) : t.plan.filter (·.node = n.index) = n.steps := by
  have own (step : Step) : step ∈ t.plan.filter (·.node = n.index) ↔ step ∈ n.steps := by
    rw [List.mem_filter, decide_eq_true_iff]
    constructor
    · rintro ⟨listed, same⟩
      exact mem_steps_of_node? listed (node?_iff.2 ⟨mem, same.symm⟩)
    · intro listed
      exact ⟨mem_plan.2 ⟨n, mem, listed⟩, (Node.of_mem_steps listed).1⟩
  cases test : n.isTest with
  | true =>
    have single : n.steps = [.leaf n.index] := by rw [Node.steps, if_pos test]
    rw [single] at own ⊢
    have once : t.plan.filter (·.node = n.index) |>.Nodup := t.nodup_plan.filter _
    exact List.perm_singleton.1 ((List.perm_ext_iff_of_nodup once (List.pairwise_singleton _ _)).2 own)
  | false =>
    obtain ⟨before, inner, after, bracketed⟩ := bracketed mem test
    rw [bracketed.filter_own (within_nodesFrom 0 none [] t mem).size, Node.steps, test]
    rfl

/-- **The steps within a suite are those of its descendants.** -/
theorem exists_inner (mem : n ∈ t.nodes) (suite : n.isTest = false) :
    ∃ before inner after, t.plan = before ++ .enter n.index :: (inner ++ .exit n.index :: after) ∧
      ∀ step, step ∈ inner ↔ ∃ m ∈ t.nodes, n.index ∈ m.ancestors ∧ step ∈ m.steps := by
  obtain ⟨before, inner, after, split, inside, outside⟩ := bracketed mem suite
  refine ⟨before, inner, after, split, fun step => ⟨fun listed => ?_, ?_⟩⟩
  · have planned : step ∈ t.plan := by simp [split, listed]
    obtain ⟨m, known, own⟩ := mem_plan.1 planned
    have below := inside step listed
    rw [(Node.of_mem_steps own).1, below_iff mem known] at below
    exact ⟨m, known, (List.mem_cons.1 below.1).resolve_left below.2, own⟩
  · rintro ⟨m, known, above, own⟩
    have earlier := Nat.ne_of_lt (lt_of_mem_ancestors known above)
    have below := (below_iff mem known).2 ⟨List.mem_cons_of_mem _ above, earlier⟩
    rw [← (Node.of_mem_steps own).1] at below
    have planned := mem_plan.2 ⟨m, known, own⟩
    have apart : step ∉ before ++ after := fun listed => by
      have outer := outside step listed
      simp only [Node.Below] at below
      omega
    rw [List.mem_append, not_or] at apart
    simp only [split, List.mem_append, List.mem_cons, apart.1, apart.2, false_or, or_false] at planned
    rcases planned with rfl | listed | rfl
    · exact absurd below.1 (Nat.lt_irrefl _)
    · exact listed
    · exact absurd below.1 (Nat.lt_irrefl _)

end Whole

/-- The traversal of a tree brackets it. -/
structure Nested (t : SuiteTree β) : Prop where
  /-- Every step is that of a node. -/
  node : ∀ step ∈ t.plan, ∃ n ∈ t.nodes, step.node = n.index
  /-- A test has one step. -/
  test : ∀ n ∈ t.nodes, n.isTest = true → t.plan.filter (·.node = n.index) = [.leaf n.index]
  /-- A suite is entered once and then left once. -/
  suite : ∀ n ∈ t.nodes, n.isTest = false → t.plan.filter (·.node = n.index) = [.enter n.index, .exit n.index]
  /-- In between come the steps of its descendants and no others. -/
  inner : ∀ n ∈ t.nodes, n.isTest = false → ∃ before inner after,
    t.plan = before ++ .enter n.index :: (inner ++ .exit n.index :: after) ∧
      ∀ step, step ∈ inner ↔ ∃ m ∈ t.nodes, n.index ∈ m.ancestors ∧ step ∈ m.steps
  /-- Nodes are opened in the order of their numbers. -/
  preorder : (t.plan.filter (·.opens)).map (·.node) = List.range t.nodes.length
  index : t.nodes.map (·.index) = List.range t.nodes.length

/-- **The traversal brackets the tree.** -/
theorem nested (t : SuiteTree β) : Nested t where
  node step listed := by
    obtain ⟨n, mem, own⟩ := mem_plan.1 listed
    exact ⟨n, mem, (Node.of_mem_steps own).1⟩
  test n mem test := by rw [filter_plan mem, Node.steps, if_pos test]
  suite n mem suite := by rw [filter_plan mem, Node.steps, suite]; rfl
  inner n mem suite := exists_inner mem suite
  preorder := by rw [plan, opens_stepsFrom, length_nodes, List.range_eq_range']
  index := by rw [nodes, map_index_nodesFrom, ← nodes, length_nodes, List.range_eq_range']

end SuiteTree

end TestIsolation
