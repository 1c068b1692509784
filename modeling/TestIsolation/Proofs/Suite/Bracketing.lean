import TestIsolation.Proofs.Suite.Lineage

/-!
# Suites as brackets

The steps between those that enter and leave a suite are the ones of the nodes below it, and no others are
(`SuiteTree.bracketed`). A node is below exactly those that its parent is at or below (`SuiteTree.parent`), so what is
handed on from children to parents reaches the whole lineage (`SuiteTree.lineage_induction`).
-/

namespace TestIsolation

set_option autoImplicit false

/-- Whether a number belongs to a node strictly below. -/
def Node.Below {β : Type} (n : Node β) (index : Nat) : Prop := n.index < index ∧ index < n.index + n.size

/-- The steps of a tree with those of a suite's subtree set apart. -/
structure Node.Bracketed {β : Type} (n : Node β) (steps before inner after : List Step) : Prop where
  split : steps = before ++ .enter n.index :: (inner ++ .exit n.index :: after)
  inside : ∀ step ∈ inner, n.Below step.node
  outside : ∀ step ∈ before ++ after, step.node < n.index ∨ n.index + n.size ≤ step.node

namespace SuiteTree

variable {β : Type}

mutual

theorem bracketed_stepsFrom (first : Nat) (path : Option String) (above : List Nat) (t : SuiteTree β) {n : Node β}
    (mem : n ∈ nodesFrom first path above t) (suite : n.isTest = false) :
    ∃ before inner after, n.Bracketed (stepsFrom first t) before inner after := by
  match t with
  | .test slots body =>
    rw [nodesFrom, List.mem_singleton] at mem
    subst mem
    cases suite
  | .suite slots children =>
    rw [nodesFrom, List.mem_cons] at mem
    rcases mem with rfl | mem
    · refine ⟨[], siblingSteps (first + 1) children, [], rfl, ?_, by simp⟩
      intro step inner
      have bounds := node_of_mem_siblingSteps (first + 1) children inner
      simp only [Node.Below]
      omega
    · have placed := within_siblingNodes (first + 1) _ _ children mem
      have low := placed.low
      have high := placed.high
      obtain ⟨before, inner, after, split, inside, outside⟩ := bracketed_siblingSteps (first + 1) _ _ children mem suite
      refine ⟨.enter first :: before, inner, after ++ [.exit first], by simp [stepsFrom, split], inside, ?_⟩
      intro step listed
      simp only [List.cons_append, List.mem_cons, ← List.append_assoc, List.mem_append, List.not_mem_nil, or_false]
        at listed
      rcases listed with rfl | listed | rfl
      · simp only [Step.node]
        omega
      · exact outside step (List.mem_append.2 listed)
      · simp only [Step.node]
        omega

theorem bracketed_siblingSteps (first : Nat) (path : Option String) (above : List Nat) (ts : List (SuiteTree β))
    {n : Node β} (mem : n ∈ siblingNodes first path above ts) (suite : n.isTest = false) :
    ∃ before inner after, n.Bracketed (siblingSteps first ts) before inner after := by
  match ts with
  | [] => simp [siblingNodes] at mem
  | t :: rest =>
    rw [siblingNodes, List.mem_append] at mem
    rcases mem with mem | mem
    · have high := (within_nodesFrom first path above t mem).high
      obtain ⟨before, inner, after, split, inside, outside⟩ := bracketed_stepsFrom first path above t mem suite
      refine ⟨before, inner, after ++ siblingSteps (first + t.size) rest, by simp [siblingSteps, split], inside, ?_⟩
      intro step listed
      rw [← List.append_assoc, List.mem_append] at listed
      rcases listed with listed | behind
      · exact outside step listed
      · have bounds := node_of_mem_siblingSteps (first + t.size) rest behind
        omega
    · have low := (within_siblingNodes (first + t.size) path above rest mem).low
      obtain ⟨before, inner, after, split, inside, outside⟩ :=
        bracketed_siblingSteps (first + t.size) path above rest mem suite
      refine ⟨stepsFrom first t ++ before, inner, after, by simp [siblingSteps, split], inside, ?_⟩
      intro step listed
      rw [List.append_assoc, List.mem_append] at listed
      rcases listed with ahead | listed
      · have bounds := node_of_mem_stepsFrom first t ahead
        omega
      · exact outside step listed

end

theorem mem_siblingIndices (first : Nat) (ts : List (SuiteTree β)) {i : Nat} (listed : i ∈ siblingIndices first ts) :
    first ≤ i ∧ i < first + sizes ts := by
  induction ts generalizing first with
  | nil => cases listed
  | cons t rest ih =>
    have positive : 0 < t.size := by
      cases t <;> simp only [size] <;> omega
    rw [sizes]
    rcases List.mem_cons.1 listed with rfl | later
    · omega
    · have bounds := ih (first + t.size) later
      omega

mutual

/-- The children of a node are below it. -/
theorem below_nodesFrom (first : Nat) (path : Option String) (above : List Nat) (t : SuiteTree β) {n : Node β}
    (mem : n ∈ nodesFrom first path above t) : ∀ i ∈ n.children, n.Below i := by
  match t with
  | .test slots body =>
    rw [nodesFrom, List.mem_singleton] at mem
    subst mem
    exact fun _ => nofun
  | .suite slots children =>
    rw [nodesFrom, List.mem_cons] at mem
    rcases mem with rfl | mem
    · intro i listed
      have bounds := mem_siblingIndices (first + 1) children listed
      simp only [Node.Below]
      omega
    · exact below_siblingNodes (first + 1) _ _ children mem

theorem below_siblingNodes (first : Nat) (path : Option String) (above : List Nat) (ts : List (SuiteTree β))
    {n : Node β} (mem : n ∈ siblingNodes first path above ts) : ∀ i ∈ n.children, n.Below i := by
  match ts with
  | [] => simp [siblingNodes] at mem
  | t :: rest =>
    rw [siblingNodes, List.mem_append] at mem
    rcases mem with mem | mem
    · exact below_nodesFrom first path above t mem
    · exact below_siblingNodes (first + t.size) path above rest mem

end

mutual

/-- What is above a node that is not the first is a node of the tree, of which it is a child. -/
theorem parent_nodesFrom (first : Nat) (path : Option String) (above : List Nat) (t : SuiteTree β) {n : Node β}
    (mem : n ∈ nodesFrom first path above t) :
    n.index = first ∧ n.ancestors = above ∨
      ∃ p ∈ nodesFrom first path above t, n.ancestors = p.lineage ∧ n.index ∈ p.children := by
  match t with
  | .test slots body =>
    rw [nodesFrom, List.mem_singleton] at mem
    subst mem
    exact .inl ⟨rfl, rfl⟩
  | .suite slots children =>
    rw [nodesFrom, List.mem_cons] at mem
    rcases mem with rfl | mem
    · exact .inl ⟨rfl, rfl⟩
    · right
      simp only [nodesFrom, List.mem_cons, exists_eq_or_imp]
      exact (parent_siblingNodes (first + 1) _ _ children mem).imp_left And.symm

theorem parent_siblingNodes (first : Nat) (path : Option String) (above : List Nat) (ts : List (SuiteTree β))
    {n : Node β} (mem : n ∈ siblingNodes first path above ts) :
    n.index ∈ siblingIndices first ts ∧ n.ancestors = above ∨
      ∃ p ∈ siblingNodes first path above ts, n.ancestors = p.lineage ∧ n.index ∈ p.children := by
  match ts with
  | [] => simp [siblingNodes] at mem
  | t :: rest =>
    rw [siblingNodes, List.mem_append] at mem
    simp only [siblingNodes, siblingIndices, List.mem_append, List.mem_cons]
    rcases mem with mem | mem
    · rcases parent_nodesFrom first path above t mem with ⟨own, top⟩ | ⟨p, listed, child⟩
      · exact .inl ⟨.inl own, top⟩
      · exact .inr ⟨p, .inl listed, child⟩
    · rcases parent_siblingNodes (first + t.size) path above rest mem with ⟨own, top⟩ | ⟨p, listed, child⟩
      · exact .inl ⟨.inr own, top⟩
      · exact .inr ⟨p, .inr listed, child⟩

end

/-! ## The tree as a whole -/

section Whole

variable {t : SuiteTree β} {n m : Node β}

/-- **A suite brackets the steps of its subtree.** -/
theorem bracketed (mem : n ∈ t.nodes) (suite : n.isTest = false) :
    ∃ before inner after, n.Bracketed t.plan before inner after := bracketed_stepsFrom 0 none [] t mem suite

theorem below_of_mem_children (mem : n ∈ t.nodes) {i : Nat} (child : i ∈ n.children) : n.Below i :=
  below_nodesFrom 0 none [] t mem i child

/-- **Once a suite was left, its subtree does not come up again.** -/
theorem outside_of_exit (mem : n ∈ t.nodes) {seq : Nat} (due : t.plan[seq]? = some (.exit n.index)) :
    ∀ step ∈ t.plan.drop (seq + 1), step.node < n.index ∨ n.index + n.size ≤ step.node := by
  have own := mem_steps_of_node? (List.mem_of_getElem? due) (node?_iff.2 ⟨mem, rfl⟩)
  have suite : n.isTest = false := by simpa [Step.isSuite] using (Node.of_mem_steps own).2.symm
  obtain ⟨before, inner, after, split, _, outside⟩ := bracketed mem suite
  have cut : t.plan = (before ++ .enter n.index :: inner) ++ .exit n.index :: after := by simp [split]
  have place : t.plan[(before ++ .enter n.index :: inner).length]? = some (.exit n.index) := by
    rw [cut, List.getElem?_append_right (Nat.le_refl _), Nat.sub_self]
    rfl
  have same := (List.getElem?_inj (List.getElem?_eq_some_iff.1 due).1 t.nodup_plan).1 (due.trans place.symm)
  have rest : t.plan.drop (seq + 1) = after := by
    rw [same, cut, List.drop_append, List.drop_of_length_le (Nat.le_succ _), Nat.add_sub_cancel_left]
    rfl
  intro step listed
  exact outside step (List.mem_append_right _ (rest ▸ listed))

/-- **A suite is left after all steps of the nodes below it.** -/
theorem lt_exit (mem : n ∈ t.nodes) {seq k : Nat} (due : t.plan[seq]? = some (.exit n.index)) {step : Step}
    (other : t.plan[k]? = some step) (below : n.Below step.node) : k < seq := by
  rcases Nat.lt_trichotomy k seq with early | rfl | late
  · exact early
  · rw [due, Option.some.injEq] at other
    subst other
    exact absurd below.1 (Nat.lt_irrefl _)
  · have listed : step ∈ t.plan.drop (seq + 1) := by
      refine List.mem_of_getElem? (i := k - (seq + 1)) ?_
      rw [List.getElem?_drop, Nat.add_sub_cancel' late, other]
    have outside := outside_of_exit mem due step listed
    have inside := below
    simp only [Node.Below] at inside
    omega

/-- Below a node are those that it is above. -/
theorem below_iff (left : n ∈ t.nodes) (right : m ∈ t.nodes) :
    n.Below m.index ↔ n.index ∈ m.lineage ∧ n.index ≠ m.index := by
  rw [mem_lineage_iff left right]
  simp only [Node.Below, Node.covers, Bool.and_eq_true, decide_eq_true_eq]
  omega

/-- **What is above a node is its parent's lineage.** -/
theorem parent (mem : n ∈ t.nodes) :
    n.ancestors = [] ∨ ∃ p ∈ t.nodes, n.ancestors = p.lineage ∧ n.index ∈ p.children :=
  (parent_nodesFrom 0 none [] t mem).imp_left And.right

/-- What holds of a node and is handed on from children to parents holds along the lineage. -/
theorem lineage_induction {motive : Node β → Prop} (mem : m ∈ t.nodes) (base : motive m)
    (up : ∀ p ∈ t.nodes, ∀ c ∈ t.nodes, c.index ∈ p.children → motive c → motive p) (inside : n ∈ t.nodes)
    (listed : n.index ∈ m.lineage) : motive n := by
  induction hm : m.index using Nat.strongRecOn generalizing m with
  | ind index ih =>
    subst hm
    rcases List.mem_cons.1 listed with own | above
    · exact eq_of_index inside mem own ▸ base
    · rcases parent mem with top | ⟨p, known, lineage, child⟩
      · rw [top] at above
        cases above
      · exact ih p.index (below_of_mem_children known child).1 known (up p known m mem child base)
          (lineage ▸ above) rfl

end Whole

end SuiteTree

end TestIsolation
