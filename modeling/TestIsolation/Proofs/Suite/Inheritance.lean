import TestIsolation.Proofs.Suite.Image

/-!
# What nodes inherit

A node that leaves a slot to its ancestors has what its parent has. So the slot that counts is the one of the first node
on the walk to the root that does not leave it (`Nearest`), and a resolution finds the fixture of that node
(`Outline.resolve_of_nearest`) or its timeout (`Outline.resolveTimeout_iff`). The root of a tree that was built leaves
neither of its fixtures (`Registry.exists_root`), so every walk for a fixture comes to such a node
(`Registry.exists_nearest`); one for a timeout may pass the root.
-/

namespace TestIsolation

set_option autoImplicit false

variable {β : Type}

/-! ## The first that does not leave it -/

/-- A node is the first on a line that does not leave something to those behind it. -/
def Nearest (leaves : Node β → Prop) (line : List (Node β)) (n : Node β) : Prop :=
  ∃ before after, line = before ++ n :: after ∧ (∀ m ∈ before, leaves m) ∧ ¬leaves n

section Line

variable {leaves : Node β → Prop} {line : List (Node β)} {n : Node β}

theorem Nearest.mem (nearest : Nearest leaves line n) : n ∈ line := by
  obtain ⟨before, after, rfl, _⟩ := nearest
  simp

/-- Some node on a line is the first that does not leave it, or all do. -/
theorem exists_nearest_or (leaves : Node β → Prop) (line : List (Node β)) :
    (∃ n, Nearest leaves line n) ∨ ∀ n ∈ line, leaves n := by
  induction line with
  | nil => exact .inr nofun
  | cons m line ih =>
    by_cases left : leaves m
    · rcases ih with ⟨n, before, after, rfl, passed, own⟩ | all
      · exact .inl ⟨n, m :: before, after, rfl, List.forall_mem_cons.2 ⟨left, passed⟩, own⟩
      · exact .inr (List.forall_mem_cons.2 ⟨left, all⟩)
    · exact .inl ⟨m, [], line, rfl, nofun, left⟩

end Line

theorem Fixture.explicit?_eq_some_iff {slot : Fixture β} {run : β} :
    slot.explicit? = some run ↔ slot = .explicit run := by
  cases slot <;> simp [explicit?]

namespace Outline

variable {o : Outline β} {n m : Node β}

theorem mem_nodes_of_mem_lineage (listed : m ∈ o.lineage n) : m ∈ o.nodes := by
  obtain ⟨i, _, found⟩ := List.mem_filterMap.1 listed
  exact List.mem_of_getElem? found

/-- **A walk ends at the first slot that is not inherited.** -/
theorem resolve_of_nearest {slot : Node β → Fixture β} {line : List (Node β)}
    (nearest : Nearest (slot · = .inherited) line m) : resolve (line.map slot) = (slot m).explicit? := by
  obtain ⟨before, after, rfl, passed, own⟩ := nearest
  induction before with
  | nil =>
    rw [List.nil_append, List.map_cons]
    cases slotted : slot m with
    | inherited => exact absurd slotted own
    | none | explicit run => rfl
  | cons first before ih =>
    obtain ⟨left, passed⟩ := List.forall_mem_cons.1 passed
    rw [List.cons_append, List.map_cons, left]
    exact ih passed

/-- **A walk finds a fixture exactly if the first slot that is not inherited declares it.** -/
theorem resolve_eq_some_iff {slot : Node β → Fixture β} {line : List (Node β)} {f : β} :
    resolve (line.map slot) = some f ↔ ∃ m, Nearest (slot · = .inherited) line m ∧ slot m = .explicit f := by
  rcases exists_nearest_or (slot · = .inherited) line with ⟨m, nearest⟩ | all
  · constructor
    · intro found
      rw [resolve_of_nearest nearest] at found
      exact ⟨m, nearest, Fixture.explicit?_eq_some_iff.1 found⟩
    · rintro ⟨m', nearest', own⟩
      exact (resolve_of_nearest nearest').trans (Fixture.explicit?_eq_some_iff.2 own)
  · have nothing : resolve (line.map slot) = none := by
      induction line with
      | nil => rfl
      | cons first line ih =>
        obtain ⟨left, all⟩ := List.forall_mem_cons.1 all
        rw [List.map_cons, left]
        exact ih all
    rw [nothing]
    constructor
    · nofun
    · rintro ⟨m, nearest, own⟩
      rw [all m nearest.mem] at own
      cases own

theorem resolveTimeout_iff {timeout : Timeout} :
    o.resolveTimeout n = some timeout ↔
      ∃ m, Nearest (·.slots.timeout = .inherited) (o.lineage n) m ∧ m.slots.timeout = timeout := by
  rw [resolveTimeout, List.find?_map, Option.map_eq_some_iff]
  refine exists_congr fun m => and_congr_left fun _ => ?_
  rw [List.find?_eq_some_iff_append]
  constructor
  · rintro ⟨own, before, after, split, passed⟩
    exact ⟨before, after, split, fun k mem => by simpa using passed k mem, by simpa using own⟩
  · rintro ⟨before, after, split, passed, own⟩
    exact ⟨by simpa using own, before, after, split, fun k mem => by simpa using passed k mem⟩

theorem resolveTimeout_eq_none_iff :
    o.resolveTimeout n = none ↔ ∀ m ∈ o.lineage n, m.slots.timeout = .inherited := by
  rw [resolveTimeout, List.find?_eq_none]
  simp

section Whole

variable {t : SuiteTree β} {n p : Node β}

theorem resolveTimeout_of_own (mem : n ∈ t.nodes) (sets : n.slots.timeout ≠ .inherited) :
    t.outline.resolveTimeout n = some n.slots.timeout := by
  have own := SuiteTree.node?_iff.2 ⟨mem, rfl⟩
  simp [resolveTimeout, lineage, Node.lineage, own, sets]

theorem resolveTimeout_of_top (mem : n ∈ t.nodes) (left : n.slots.timeout = .inherited) (top : n.ancestors = []) :
    t.outline.resolveTimeout n = none := by
  have own := SuiteTree.node?_iff.2 ⟨mem, rfl⟩
  simp [resolveTimeout, lineage, Node.lineage, own, left, top]

theorem resolveTimeout_of_above (mem : n ∈ t.nodes) (left : n.slots.timeout = .inherited)
    (above : n.ancestors = p.lineage) : t.outline.resolveTimeout n = t.outline.resolveTimeout p := by
  simp [resolveTimeout, SuiteTree.lineage_of_above mem above, left]

end Whole

end Outline

namespace Registry

variable {decls : List (Declaration β)} {t : SuiteTree β} {n : Node β}

/-- **The root leaves neither of its fixtures.** -/
theorem root_declares (built : build decls = .ok t) {root : Node β} (mem : root ∈ t.nodes) (first : root.index = 0) :
    root.slots.setup ≠ .inherited ∧ root.slots.teardown ≠ .inherited := by
  obtain ⟨top, checked, grown⟩ := build_eq_ok_iff.1 built
  obtain ⟨order, shown⟩ := checked.shows grown
  obtain ⟨d, here⟩ := standsFor shown mem
  obtain rfl : d = top := by
    have place := here.place
    rw [first, shown.head] at place
    exact (Option.some.inj place).symm
  rw [here.slots]
  exact checkRoot_eq_ok_iff.1 checked.fixtures

end Registry

/-- A slot for a fixture comes down to a fixture, or to none, as inheritance has it. -/
structure Inherits (t : SuiteTree β) (slot : Node β → Fixture β) (result : Node β → Option β) (n : Node β) :
    Prop where
  /-- The walk to the root comes to a node that does not leave the slot, and what counts is declared there. -/
  ends : ∃ m ∈ t.nodes, Nearest (slot · = .inherited) (t.outline.lineage n) m ∧ result n = (slot m).explicit?
  found_iff : ∀ f, result n = some f ↔
    ∃ m, Nearest (slot · = .inherited) (t.outline.lineage n) m ∧ slot m = .explicit f
  /-- A node that leaves the slot has what its parent has. -/
  parent : slot n = .inherited → ∃ p ∈ t.nodes, n.parent? = some p.index ∧ result n = result p

/-- **A slot that the root does not leave is inherited.** -/
theorem inherits_of_root {t : SuiteTree β} {slot : Node β → Fixture β} {n : Node β} (mem : n ∈ t.nodes)
    (declared : ∀ root ∈ t.nodes, root.index = 0 → slot root ≠ .inherited) :
    Inherits t slot (fun n => Outline.resolve ((t.outline.lineage n).map slot)) n := by
  obtain ⟨root, top, last, first, -⟩ := (SuiteTree.walk mem).finish
  obtain ⟨m, nearest⟩ : ∃ m, Nearest (slot · = .inherited) (t.outline.lineage n) m := by
    rcases exists_nearest_or (slot · = .inherited) (t.outline.lineage n) with some | all
    · exact some
    · exact absurd (all root (List.mem_of_getLast? last)) (declared root top first)
  have result := Outline.resolve_of_nearest nearest
  have known := Outline.mem_nodes_of_mem_lineage nearest.mem
  refine ⟨⟨m, known, nearest, result⟩, fun f => Outline.resolve_eq_some_iff, fun left => ?_⟩
  rcases SuiteTree.parent mem with top | ⟨p, known, lineage, listed⟩
  · exact absurd left (declared n mem (SuiteTree.index_eq_zero mem (by rw [Node.parent?, top]; rfl)))
  · refine ⟨p, known, (SuiteTree.mem_children_iff known mem).1 listed, ?_⟩
    rw [SuiteTree.lineage_of_above mem lineage, List.map_cons, left]
    rfl

open Registry in
/-- **Inheritance is resolution at the parent.** For every list of declarations that is accepted and every node of its
tree, the walk from the node to parent after parent ends at the root, and before it passes the root a search for a setup
or a teardown comes to a node that declares the slot. It finds a fixture exactly if that node declares it; all nodes
before it leave the slot to their ancestors, so such a node has the fixture of its parent. The timeout of a node is the
one of the first node on the walk that does not leave it to its ancestors. There is none exactly if all of them leave
it, the root as well. -/
theorem inheritance_at_parent {decls : List (Declaration β)} {t : SuiteTree β} (built : build decls = .ok t)
    {n : Node β} (mem : n ∈ t.nodes) :
    t.Walk n (t.outline.lineage n) ∧ Inherits t (·.slots.setup) t.outline.resolveSetup n ∧
      Inherits t (·.slots.teardown) t.outline.resolveTeardown n ∧
      (∀ timeout, t.outline.resolveTimeout n = some timeout ↔
        ∃ m, Nearest (·.slots.timeout = .inherited) (t.outline.lineage n) m ∧ m.slots.timeout = timeout) ∧
      (t.outline.resolveTimeout n = none ↔ ∀ m ∈ t.outline.lineage n, m.slots.timeout = .inherited) ∧
      ∀ p ∈ t.nodes, n.parent? = some p.index → n.slots.timeout = .inherited →
        t.outline.resolveTimeout n = t.outline.resolveTimeout p := by
  have setup := inherits_of_root mem fun root top first => (root_declares built top first).1
  have teardown := inherits_of_root mem fun root top first => (root_declares built top first).2
  refine ⟨SuiteTree.walk mem, setup, teardown, fun timeout => Outline.resolveTimeout_iff,
    Outline.resolveTimeout_eq_none_iff, fun p known parent left => ?_⟩
  have childOf := SuiteTree.childOf_of_mem_children known mem ((SuiteTree.mem_children_iff known mem).2 parent)
  exact Outline.resolveTimeout_of_above mem left childOf.ancestors

open Registry in
/-- A test two levels below the root: it leaves its setup and its timeout to its ancestors, and its suite leaves them as
well. The root has a setup but no timeout, and the suite ends the search for a teardown with none. -/
theorem inheritance_at_parent_two_levels :
    let decls : List (Declaration Nat) := [⟨⟨"add", .inherited, .inherited, .inherited⟩, some "math", some 1⟩,
      ⟨⟨"math", .inherited, .none, .inherited⟩, some "all", none⟩,
      ⟨⟨"all", .explicit 2, .explicit 3, .inherited⟩, none, none⟩]
    let math : SuiteTree Nat :=
      .suite ⟨"math", .inherited, .none, .inherited⟩ [.test ⟨"add", .inherited, .inherited, .inherited⟩ 1]
    let t : SuiteTree Nat := .suite ⟨"all", .explicit 2, .explicit 3, .inherited⟩ [math]
    let n : Node Nat :=
      ⟨2, "all::math::add", 2, ⟨"add", .inherited, .inherited, .inherited⟩, some 1, [1, 0], [], 1⟩
    build decls = .ok t ∧ n ∈ t.nodes ∧ t.outline.resolveSetup n = some 2 ∧ t.outline.resolveTeardown n = none ∧
      t.outline.resolveTimeout n = none ∧ ∀ m ∈ t.outline.lineage n, m.slots.timeout = .inherited := by
  intro decls math t n
  have names : checkNames [] decls = .ok () := rfl
  have found : root decls = .ok ⟨⟨"all", .explicit 2, .explicit 3, .inherited⟩, none, none⟩ := rfl
  have parents : checkParents decls decls = .ok () := rfl
  have suites : decls.filter (·.isSuite) = [⟨⟨"math", .inherited, .none, .inherited⟩, some "all", none⟩,
      ⟨⟨"all", .explicit 2, .explicit 3, .inherited⟩, none, none⟩] := rfl
  have built : build decls = .ok t := by
    simp only [build, names, found, parents, suites]
    cbv
  have mem : n ∈ t.nodes := by decide +kernel
  obtain ⟨_, _, _, _, none_, _⟩ := inheritance_at_parent built mem
  exact ⟨built, mem, by decide +kernel, by decide +kernel, by decide +kernel, none_.1 (by decide +kernel)⟩

end TestIsolation
