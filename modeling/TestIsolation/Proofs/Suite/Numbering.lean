import Mathlib.Data.List.Chain
import TestIsolation.Proofs.Suite.Bracketing

/-!
# Nodes and their parents

A node is a child of another exactly if that is its parent (`SuiteTree.mem_children_iff`), and then it lies one level
deeper, goes by the path of its parent with its own name behind it and has the lineage of its parent behind it
(`Node.ChildOf`). So the walk from any node to parent after parent ends at the root (`SuiteTree.walk`). All this, with
the ranges of numbers that subtrees have, is what a tree in pre-order comes to (`SuiteTree.numbered`).
-/

namespace TestIsolation

set_option autoImplicit false

variable {β : Type}

/-- What a node has from its parent. -/
structure Node.ChildOf (c p : Node β) : Prop where
  ancestors : c.ancestors = p.lineage
  depth : c.depth = p.depth + 1
  path : c.path = p.path ++ pathSeparator ++ c.name

namespace SuiteTree

/-- What the roots of sibling trees have from above. -/
structure Heads (path : Option String) (above : List Nat) (c : Node β) : Prop where
  ancestors : c.ancestors = above
  depth : c.depth = above.length
  path : c.path = pathBelow path c.name

theorem head_nodesFrom (first : Nat) (path : Option String) (above : List Nat) (t : SuiteTree β) :
    ∃ c ∈ nodesFrom first path above t, c.index = first ∧ Heads path above c := by
  cases t with
  | test slots body => exact ⟨_, by rw [nodesFrom]; exact List.mem_cons_self, rfl, rfl, rfl, rfl⟩
  | suite slots children => exact ⟨_, by rw [nodesFrom]; exact List.mem_cons_self, rfl, rfl, rfl, rfl⟩

/-- Sibling trees have a root for each of their numbers. -/
theorem head_siblingNodes (first : Nat) (path : Option String) (above : List Nat) (ts : List (SuiteTree β)) {i : Nat}
    (listed : i ∈ siblingIndices first ts) :
    ∃ c ∈ siblingNodes first path above ts, c.index = i ∧ Heads path above c := by
  induction ts generalizing first with
  | nil => cases listed
  | cons t rest ih =>
    rw [siblingNodes]
    rcases List.mem_cons.1 listed with rfl | later
    · obtain ⟨c, mem, own⟩ := head_nodesFrom i path above t
      exact ⟨c, List.mem_append_left _ mem, own⟩
    · obtain ⟨c, mem, own⟩ := ih (first + t.size) later
      exact ⟨c, List.mem_append_right _ mem, own⟩

theorem pairwise_siblingIndices (first : Nat) (ts : List (SuiteTree β)) :
    (siblingIndices first ts).Pairwise (· < ·) := by
  induction ts generalizing first with
  | nil => exact .nil
  | cons t rest ih =>
    have positive : 0 < t.size := by
      cases t <;> simp only [size] <;> omega
    refine List.pairwise_cons.2 ⟨fun i later => ?_, ih (first + t.size)⟩
    have bounds := mem_siblingIndices (first + t.size) rest later
    omega

/-- The children of a node among some nodes, in pre-order. -/
structure Parental (nodes : List (Node β)) (p : Node β) : Prop where
  depth : p.depth = p.ancestors.length
  sorted : p.children.Pairwise (· < ·)
  children : ∀ i ∈ p.children, ∃ c ∈ nodes, c.index = i ∧ c.ChildOf p

theorem Parental.mono {few many : List (Node β)} {p : Node β} (parental : Parental few p) (subset : few ⊆ many) :
    Parental many p := by
  refine ⟨parental.depth, parental.sorted, fun i listed => ?_⟩
  obtain ⟨c, mem, own⟩ := parental.children i listed
  exact ⟨c, subset mem, own⟩

mutual

theorem parental_nodesFrom (first : Nat) (path : Option String) (above : List Nat) (t : SuiteTree β) {p : Node β}
    (mem : p ∈ nodesFrom first path above t) : Parental (nodesFrom first path above t) p := by
  match t with
  | .test slots body =>
    rw [nodesFrom, List.mem_singleton] at mem
    subst mem
    exact ⟨rfl, .nil, nofun⟩
  | .suite slots children =>
    rw [nodesFrom, List.mem_cons] at mem
    rw [nodesFrom]
    rcases mem with rfl | mem
    · refine ⟨rfl, pairwise_siblingIndices (first + 1) children, fun i listed => ?_⟩
      obtain ⟨c, inside, own, ancestors, depth, name⟩ := head_siblingNodes (first + 1)
        (some (pathBelow path slots.name)) (first :: above) children listed
      exact ⟨c, List.mem_cons_of_mem _ inside, own, ancestors, depth, name⟩
    · exact (parental_siblingNodes (first + 1) _ _ children mem).mono (List.subset_cons_self _ _)

theorem parental_siblingNodes (first : Nat) (path : Option String) (above : List Nat) (ts : List (SuiteTree β))
    {p : Node β} (mem : p ∈ siblingNodes first path above ts) : Parental (siblingNodes first path above ts) p := by
  match ts with
  | [] => simp [siblingNodes] at mem
  | t :: rest =>
    rw [siblingNodes, List.mem_append] at mem
    rw [siblingNodes]
    rcases mem with mem | mem
    · exact (parental_nodesFrom first path above t mem).mono (List.subset_append_left _ _)
    · exact (parental_siblingNodes (first + t.size) path above rest mem).mono (List.subset_append_right _ _)

end

/-! ## The tree as a whole -/

section Whole

variable {t : SuiteTree β} {n p c : Node β}

/-- A child knows its parent. -/
theorem childOf_of_mem_children (parent : p ∈ t.nodes) (child : c ∈ t.nodes) (listed : c.index ∈ p.children) :
    c.ChildOf p := by
  obtain ⟨c', mem, own, childOf⟩ := (parental_nodesFrom 0 none [] t parent).children _ listed
  exact eq_of_index mem child own ▸ childOf

/-- **A node is a child of its parent**, and of no other. -/
theorem mem_children_iff (parent : p ∈ t.nodes) (child : c ∈ t.nodes) :
    c.index ∈ p.children ↔ c.parent? = some p.index := by
  constructor
  · intro listed
    rw [Node.parent?, (childOf_of_mem_children parent child listed).ancestors]
    rfl
  · intro above
    rcases SuiteTree.parent child with top | ⟨p', known, lineage, listed⟩
    · rw [Node.parent?, top] at above
      cases above
    · rw [Node.parent?, lineage] at above
      exact eq_of_index known parent (Option.some.inj above) ▸ listed

theorem exists_parent (child : c ∈ t.nodes) {i : Nat} (above : c.parent? = some i) : ∃ p ∈ t.nodes, p.index = i := by
  rcases SuiteTree.parent child with top | ⟨p, known, lineage, listed⟩
  · rw [Node.parent?, top] at above
    cases above
  · rw [Node.parent?, lineage] at above
    exact ⟨p, known, Option.some.inj above⟩

/-- Only the first node has no parent. -/
theorem index_eq_zero (mem : n ∈ t.nodes) (top : n.parent? = none) : n.index = 0 := by
  rcases parent_nodesFrom 0 none [] t mem with ⟨first, _⟩ | ⟨p, _, lineage, _⟩
  · exact first
  · rw [Node.parent?, lineage] at top
    cases top

/-- **The root is above every node.** -/
theorem zero_mem_lineage (mem : n ∈ t.nodes) : 0 ∈ n.lineage := by
  induction hn : n.index using Nat.strongRecOn generalizing n with
  | ind index ih =>
    subst hn
    rcases SuiteTree.parent mem with top | ⟨p, known, lineage, listed⟩
    · rw [← index_eq_zero mem (by rw [Node.parent?, top]; rfl)]
      exact List.mem_cons_self
    · rw [Node.lineage, lineage]
      exact List.mem_cons_of_mem _ (ih p.index (below_of_mem_children known listed).1 known rfl)

/-- What is above a node is above all nodes below it. -/
theorem lineage_subset (low : c ∈ t.nodes) (mem : n ∈ t.nodes) (listed : n.index ∈ c.lineage) :
    n.lineage ⊆ c.lineage := by
  refine lineage_induction (motive := fun n => n.lineage ⊆ c.lineage) low (List.Subset.refl _) ?_ mem listed
  intro p parent child known below subset i above
  rw [← (childOf_of_mem_children parent known below).ancestors] at above
  exact subset (List.mem_cons_of_mem _ above)

/-- A test has no children. -/
theorem children_of_test (mem : n ∈ t.nodes) (test : n.isTest = true) : n.children = [] := by
  refine List.eq_nil_iff_forall_not_mem.2 fun i listed => ?_
  obtain ⟨c, child, rfl, childOf⟩ := (parental_nodesFrom 0 none [] t mem).children i listed
  have above : n.index ∈ c.ancestors := childOf.ancestors ▸ List.mem_cons_self
  obtain rfl := eq_of_test_on_lineage test mem child (List.mem_cons_of_mem _ above)
  exact Nat.lt_irrefl _ (lt_of_mem_ancestors mem above)

/-- What holds of a node if it holds of its children holds of every node. -/
theorem children_induction {motive : Node β → Prop}
    (down : ∀ p ∈ t.nodes, (∀ c ∈ t.nodes, c.index ∈ p.children → motive c) → motive p) (mem : n ∈ t.nodes) :
    motive n := by
  induction left : t.size - n.index using Nat.strongRecOn generalizing n with
  | ind left' ih =>
    subst left
    refine down n mem fun c child listed => ih _ ?_ child rfl
    have later := (below_of_mem_children mem listed).1
    have placed := within_nodesFrom 0 none [] t child
    have high := placed.high
    have size := placed.size
    omega

/-- The walk from a node goes on as that from its parent. -/
theorem lineage_of_above (mem : n ∈ t.nodes) (above : n.ancestors = p.lineage) :
    t.outline.lineage n = n :: t.outline.lineage p := by
  rw [Outline.lineage, Node.lineage, List.filterMap_cons_some (node?_iff.2 ⟨mem, rfl⟩), above]
  rfl

/-- The walk from a node to parent after parent. -/
structure Walk (t : SuiteTree β) (n : Node β) (walk : List (Node β)) : Prop where
  start : walk.head? = some n
  links : walk.IsChain fun lower upper => lower.parent? = some upper.index
  length : walk.length = n.depth + 1
  finish : ∃ root ∈ t.nodes, walk.getLast? = some root ∧ root.index = 0 ∧ root.parent? = none

/-- **The walk from any node ends at the root**, after as many nodes as the node is deep and one more. -/
theorem walk (mem : n ∈ t.nodes) : Walk t n (t.outline.lineage n) := by
  induction hn : n.index using Nat.strongRecOn generalizing n with
  | ind index ih =>
    subst hn
    have own : t.outline.node? n.index = some n := node?_iff.2 ⟨mem, rfl⟩
    have depth := (parental_nodesFrom 0 none [] t mem).depth
    rcases SuiteTree.parent mem with top | ⟨p, known, lineage, listed⟩
    · have alone : t.outline.lineage n = [n] := by simp [Outline.lineage, Node.lineage, top, own]
      have orphan : n.parent? = none := by simp [Node.parent?, top]
      rw [alone]
      exact ⟨rfl, List.isChain_singleton n, by simp [depth, top], n, mem, rfl, index_eq_zero mem orphan, orphan⟩
    · obtain ⟨start, links, length, root, inside, last, first⟩ :=
        ih p.index (below_of_mem_children known listed).1 known rfl
      rw [lineage_of_above mem lineage]
      refine ⟨rfl, ?_, ?_, root, inside, by rw [List.getLast?_cons, last]; rfl, first⟩
      · refine links.cons fun upper head => ?_
        rw [start, Option.mem_some_iff] at head
        rw [← head]
        exact (mem_children_iff known mem).1 listed
      · rw [List.length_cons, length, (childOf_of_mem_children known mem listed).depth]

end Whole

/-- The nodes of a tree are numbered in pre-order, and each is linked with its parent. -/
structure Numbered (t : SuiteTree β) : Prop where
  /-- A number is a position. -/
  index : ∀ (i : Nat) (n : Node β), t.nodes[i]? = some n → n.index = i
  /-- The numbers of a subtree are those from its root on. -/
  subtree : ∀ n ∈ t.nodes, 0 < n.size ∧ n.index + n.size ≤ t.nodes.length ∧
    ∀ m ∈ t.nodes, n ∈ t.outline.lineage m ↔ n.index ≤ m.index ∧ m.index < n.index + n.size
  /-- Children come after their parent and in order, and their links go both ways. -/
  children : ∀ p ∈ t.nodes, p.children.Pairwise (· < ·) ∧
    ∀ i ∈ p.children, p.index < i ∧ ∃ c ∈ t.nodes, c.index = i ∧ c.parent? = some p.index
  parent : ∀ c ∈ t.nodes, ∀ i, c.parent? = some i → ∃ p ∈ t.nodes, p.index = i ∧ c.index ∈ p.children ∧
    c.depth = p.depth + 1 ∧ c.path = p.path ++ "::" ++ c.name
  /-- The first node is the one without a parent. -/
  root : ∃ n ∈ t.nodes, n.index = 0 ∧ n.parent? = none ∧ n.depth = 0 ∧ n.path = n.name
  lineage : ∀ n ∈ t.nodes, Walk t n (t.outline.lineage n)

theorem mem_outline_lineage_iff {t : SuiteTree β} {n m : Node β} (left : n ∈ t.nodes) :
    n ∈ t.outline.lineage m ↔ n.index ∈ m.lineage := by
  rw [Outline.lineage, List.mem_filterMap]
  constructor
  · rintro ⟨i, listed, found⟩
    exact (node?_iff.1 found).2 ▸ listed
  · intro listed
    exact ⟨n.index, listed, node?_iff.2 ⟨left, rfl⟩⟩

/-- **Nodes are numbered in pre-order.** -/
theorem numbered (t : SuiteTree β) : Numbered t where
  index i n found := (node?_iff.1 found).2
  subtree n mem := by
    have placed := within_nodesFrom 0 none [] t mem
    have high := placed.high
    refine ⟨placed.size, by rw [length_nodes]; omega, fun m inside => ?_⟩
    rw [mem_outline_lineage_iff mem, mem_lineage_iff mem inside]
    simp [Node.covers]
  children p mem := by
    have parental := parental_nodesFrom 0 none [] t mem
    refine ⟨parental.sorted, fun i listed => ⟨(below_of_mem_children mem listed).1, ?_⟩⟩
    obtain ⟨c, inside, rfl, _⟩ := parental.children i listed
    exact ⟨c, inside, rfl, (mem_children_iff mem inside).1 listed⟩
  parent c mem i above := by
    obtain ⟨p, known, rfl⟩ := exists_parent mem above
    have listed := (mem_children_iff known mem).2 above
    have childOf := childOf_of_mem_children known mem listed
    exact ⟨p, known, rfl, listed, childOf.depth, childOf.path⟩
  root := by
    obtain ⟨n, mem, first, ancestors, depth, path⟩ := head_nodesFrom 0 none [] t
    exact ⟨n, mem, first, by rw [Node.parent?, ancestors]; rfl, depth, path⟩
  lineage n mem := walk mem

end SuiteTree

end TestIsolation
