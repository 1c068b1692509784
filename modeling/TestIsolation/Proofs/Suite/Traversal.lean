import TestIsolation.Suite.Tree

/-!
# The traversal of a suite tree

The steps of a tree name its own nodes only (`SuiteTree.node_of_mem_stepsFrom`), and every node is closed once: after
the step of a test, or the one that leaves a suite, the node does not come up again (`SuiteTree.exists_closing`).
-/

namespace TestIsolation

set_option autoImplicit false

/-- Whether a node is done after a step of its own. -/
def Step.closes : Step → Bool
  | enter _ => false
  | leaf _ | exit _ => true

/-- Whether a step enters or leaves a suite. -/
def Step.isSuite : Step → Bool
  | leaf _ => false
  | enter _ | exit _ => true

/-- A node has a step of its own that is its last and closes it. -/
def ClosedIn (node : Nat) (steps : List Step) : Prop :=
  ∃ before step after, steps = before ++ step :: after ∧ step.closes = true ∧ step.node = node ∧
    ∀ later ∈ after, later.node ≠ node

theorem ClosedIn.append_left {node : Nat} {steps : List Step} (closed : ClosedIn node steps) (first : List Step) :
    ClosedIn node (first ++ steps) := by
  obtain ⟨before, step, after, rfl, closes, own, last⟩ := closed
  exact ⟨first ++ before, step, after, by rw [List.append_assoc], closes, own, last⟩

theorem ClosedIn.append_right {node : Nat} {steps : List Step} (closed : ClosedIn node steps) {rest : List Step}
    (others : ∀ later ∈ rest, later.node ≠ node) : ClosedIn node (steps ++ rest) := by
  obtain ⟨before, step, after, rfl, closes, own, last⟩ := closed
  refine ⟨before, step, after ++ rest, by simp, closes, own, ?_⟩
  intro later mem
  rcases List.mem_append.1 mem with mem | mem
  · exact last later mem
  · exact others later mem

namespace SuiteTree

variable {β : Type}

mutual

theorem length_nodesFrom (first : Nat) (above : Option String) (ancestors : List Nat) (t : SuiteTree β) :
    (nodesFrom first above ancestors t).length = t.size := by
  match t with
  | .test slots body => rw [nodesFrom, size, List.length_singleton]
  | .suite slots children =>
    rw [nodesFrom, size, List.length_cons, length_siblingNodes]
    omega

theorem length_siblingNodes (first : Nat) (above : Option String) (ancestors : List Nat) (ts : List (SuiteTree β)) :
    (siblingNodes first above ancestors ts).length = sizes ts := by
  match ts with
  | [] => rfl
  | t :: rest => rw [siblingNodes, sizes, List.length_append, length_nodesFrom, length_siblingNodes]

end

mutual

/-- A tree's steps are those of its own nodes. -/
theorem node_of_mem_stepsFrom (first : Nat) (t : SuiteTree β) {step : Step} (mem : step ∈ stepsFrom first t) :
    first ≤ step.node ∧ step.node < first + t.size := by
  match t with
  | .test slots body =>
    rw [stepsFrom, List.mem_singleton] at mem
    subst mem
    simp [Step.node, size]
  | .suite slots children =>
    rw [size]
    rw [stepsFrom, List.mem_cons, List.mem_append, List.mem_singleton] at mem
    rcases mem with rfl | inside | rfl
    · simp only [Step.node]
      omega
    · have bounds := node_of_mem_siblingSteps (first + 1) children inside
      omega
    · simp only [Step.node]
      omega

theorem node_of_mem_siblingSteps (first : Nat) (ts : List (SuiteTree β)) {step : Step}
    (mem : step ∈ siblingSteps first ts) : first ≤ step.node ∧ step.node < first + sizes ts := by
  match ts with
  | [] => simp [siblingSteps] at mem
  | t :: rest =>
    rw [sizes]
    rw [siblingSteps, List.mem_append] at mem
    rcases mem with inside | behind
    · have bounds := node_of_mem_stepsFrom first t inside
      omega
    · have bounds := node_of_mem_siblingSteps (first + t.size) rest behind
      omega

end

mutual

/-- **Every node is closed**, and then does not come up again. -/
theorem exists_closing (first : Nat) (t : SuiteTree β) {node : Nat} (low : first ≤ node)
    (high : node < first + t.size) : ClosedIn node (stepsFrom first t) := by
  match t with
  | .test slots body =>
    rw [size] at high
    rw [stepsFrom]
    exact ⟨[], .leaf first, [], rfl, rfl, by simp only [Step.node]; omega, by simp⟩
  | .suite slots children =>
    rw [size] at high
    rw [stepsFrom]
    by_cases own : node = first
    · exact ⟨.enter first :: siblingSteps (first + 1) children, .exit first, [], rfl, rfl, own.symm, by simp⟩
    · have inside := exists_siblingClosing (first + 1) children (show first + 1 ≤ node by omega) (by omega)
      refine ClosedIn.append_left (inside.append_right ?_) [.enter first]
      intro later mem
      rw [List.mem_singleton] at mem
      subst mem
      exact Ne.symm own

theorem exists_siblingClosing (first : Nat) (ts : List (SuiteTree β)) {node : Nat} (low : first ≤ node)
    (high : node < first + sizes ts) : ClosedIn node (siblingSteps first ts) := by
  match ts with
  | [] =>
    rw [sizes] at high
    omega
  | t :: rest =>
    rw [sizes] at high
    rw [siblingSteps]
    by_cases here : node < first + t.size
    · refine (exists_closing first t low here).append_right ?_
      intro later mem
      have bounds := node_of_mem_siblingSteps (first + t.size) rest mem
      omega
    · exact (exists_siblingClosing (first + t.size) rest (by omega) (by omega)).append_left _

end

theorem length_nodes (t : SuiteTree β) : t.nodes.length = t.size := length_nodesFrom 0 none [] t

/-- Every step is that of a node. -/
theorem exists_node (t : SuiteTree β) {step : Step} (mem : step ∈ t.outline.steps) :
    ∃ n, t.outline.node? step.node = some n := by
  have bounds := node_of_mem_stepsFrom 0 t mem
  rw [Nat.zero_add, ← length_nodes] at bounds
  exact ⟨_, List.getElem?_eq_getElem bounds.2⟩

end SuiteTree

end TestIsolation
