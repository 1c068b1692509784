import TestIsolation.Proofs.Run.Reordering
import TestIsolation.Proofs.Suite.Naming

/-!
# Nodes and runs found by their paths

A tree and the run trees of its invocations are searched from the front (`findIdx?_key_iff`), and a run never changes
what node it is of (`Aggregator.identity_submitAll`). So a path leads to its node, and to the run of that node, exactly
if no earlier node has the path. That is so for every node if no name begins with a colon, or none ends with one
(`path_identifies`); otherwise it may fail (`path_shared_by_two`).
-/

namespace TestIsolation

set_option autoImplicit false

variable {β : Type}

/-- The first item with the key of another is that item exactly if no earlier one has the key. -/
theorem findIdx?_key_iff {α : Type} {key : α → String} {items : List α} {i : Nat} {item : α}
    (here : items[i]? = some item) :
    items.findIdx? (key · == key item) = some i ↔ ∀ j < i, ∀ other, items[j]? = some other → key other ≠ key item := by
  obtain ⟨bound, eq⟩ := List.getElem?_eq_some_iff.1 here
  rw [List.findIdx?_eq_some_iff_getElem]
  constructor
  · rintro ⟨_, -, first⟩ j before other found
    obtain ⟨_, rfl⟩ := List.getElem?_eq_some_iff.1 found
    simpa using first j before
  · intro first
    refine ⟨bound, by simp [eq], fun j before => ?_⟩
    simpa using first j before _ (List.getElem?_eq_getElem (by omega))

/-! ## Runs -/

/-- The node that a run is of. -/
def Run.identity (r : Run) : Nat × String := (r.node, r.path)

theorem Run.identity_left (r : Run) (teardown : Option Completion) (children setup : Status) (now : Timestamp) :
    (r.left teardown children setup now).identity = r.identity := by
  cases teardown <;> simp only [left] <;> split <;> rfl

theorem RunTree.identity_modify (t : RunTree) (node : Nat) {f : Run → Run} (same : ∀ r, (f r).identity = r.identity) :
    (t.modify node f).runs.map Run.identity = t.runs.map Run.identity := by
  apply List.ext_getElem?
  intro i
  simp only [RunTree.modify, List.getElem?_map, List.getElem?_modify]
  cases t.runs[i]? with
  | none => simp
  | some r => by_cases own : node = i <;> simp [own, same]

namespace Aggregator

/-- **Runs stay those of their nodes.** -/
theorem identity_apply (g : Aggregator) (step : Step) (c : Option Completion) (now : Timestamp) :
    (g.apply step c now).tree.runs.map Run.identity = g.tree.runs.map Run.identity := by
  cases step with
  | enter node => exact g.tree.identity_modify node fun r => by cases c <;> rfl
  | leaf node => exact g.tree.identity_modify node fun r => rfl
  | exit node => exact g.tree.identity_modify node fun r => r.identity_left _ _ _ _

theorem identity_replay (g : Aggregator) (entries : List Applied) :
    (g.replay entries).tree.runs.map Run.identity = g.tree.runs.map Run.identity := by
  induction entries generalizing g with
  | nil => rfl
  | cons e entries ih => exact (ih (g.apply e.step e.completion e.time)).trans (g.identity_apply _ _ _)

theorem identity_submitAll (o : Outline β) (ds : List Delivery) :
    ((new o).submitAll ds).tree.runs.map Run.identity = o.nodes.map fun n => (n.index, n.path) := by
  obtain ⟨entries, -, kept⟩ := exists_kept_submitAll o ds
  rw [kept.tree_eq, identity_replay]
  simp [new, RunTree.new, Run.identity, Run.pending]

end Aggregator

/-! ## Paths -/

/-- A node is found by its path, and in every run tree its run is. -/
structure SuiteTree.Found (t : SuiteTree β) (n : Node β) : Prop where
  node : t.outline.find? n.path = some n.index
  run : ∀ ds, ((Aggregator.new t.outline).submitAll ds).tree.find? n.path = some n.index ∧
    ∃ r, ((Aggregator.new t.outline).submitAll ds).tree.run? n.index = some r ∧ r.identity = (n.index, n.path)

namespace SuiteTree

theorem node_found_iff {t : SuiteTree β} {n : Node β} (mem : n ∈ t.nodes) :
    t.outline.find? n.path = some n.index ↔ ∀ m ∈ t.nodes, m.index < n.index → m.path ≠ n.path := by
  have here : t.outline.nodes[n.index]? = some n := node?_iff.2 ⟨mem, rfl⟩
  rw [Outline.find?, findIdx?_key_iff here]
  constructor
  · intro first m inside before
    exact first m.index before m (node?_iff.2 ⟨inside, rfl⟩)
  · intro first j before other found
    obtain ⟨inside, rfl⟩ := node?_iff.1 found
    exact first other inside before

/-- In a run tree a path leads where it leads in the tree. -/
theorem find?_submitAll (t : SuiteTree β) (ds : List Delivery) (path : String) :
    ((Aggregator.new t.outline).submitAll ds).tree.find? path = t.outline.find? path := by
  have same := congrArg (List.map Prod.snd) (Aggregator.identity_submitAll t.outline ds)
  rw [List.map_map, List.map_map] at same
  have key {α : Type} (f : α → String) (l : List α) : l.findIdx? (f · == path) = (l.map f).findIdx? (· == path) := by
    rw [List.findIdx?_map]
    rfl
  rw [RunTree.find?, Outline.find?, key Run.path, key Node.path]
  exact congrArg _ same

/-- A node is found exactly if no earlier one has its path. -/
theorem found_iff {t : SuiteTree β} {n : Node β} (mem : n ∈ t.nodes) :
    t.Found n ↔ ∀ m ∈ t.nodes, m.index < n.index → m.path ≠ n.path := by
  rw [← node_found_iff mem]
  refine ⟨Found.node, fun node => ⟨node, fun ds => ⟨(t.find?_submitAll ds n.path).trans node, ?_⟩⟩⟩
  have here : t.outline.nodes[n.index]? = some n := node?_iff.2 ⟨mem, rfl⟩
  have own := congrArg (·[n.index]?) (Aggregator.identity_submitAll t.outline ds)
  simp only [List.getElem?_map, here, Option.map_some, Option.map_eq_some_iff] at own
  exact own

end SuiteTree

/-- **Paths identify nodes unless a colon may move.** In a tree that was built two nodes share their path exactly if
they are the same, or if their trails first differ in siblings of which one is called as the other with a colon at the
end, while below the other comes a name that begins with a colon and the rest agrees. A path leads to its node, and in
every run tree to the run of that node, exactly if no earlier node has it. So it does for all nodes if no declared name
begins with a colon, or none ends with one. -/
theorem path_identifies {decls : List (Declaration β)} {t : SuiteTree β} (built : Registry.build decls = .ok t) :
    (∀ n ∈ t.nodes, ∀ m ∈ t.nodes, n.path = m.path ↔ n = m ∨ ColonMoved (t.outline.trail n) (t.outline.trail m) ∨
        ColonMoved (t.outline.trail m) (t.outline.trail n)) ∧
      (∀ n ∈ t.nodes, t.Found n ↔ ∀ m ∈ t.nodes, m.index < n.index → m.path ≠ n.path) ∧
      ((∀ d ∈ decls, d.name.toList.head? ≠ some ':') ∨ (∀ d ∈ decls, d.name.toList.getLast? ≠ some ':') →
        (t.nodes.map (·.path)).Nodup ∧ ∀ n ∈ t.nodes, t.Found n) := by
  obtain ⟨named, proper⟩ := Registry.named_build built
  refine ⟨fun n left m right => SuiteTree.path_eq_iff_trail named proper left right, fun n => SuiteTree.found_iff, ?_⟩
  intro colons
  have declared {n : Node β} (mem : n ∈ t.nodes) {name : String} (inside : name ∈ t.outline.trail n) :
      ∃ d ∈ decls, d.name = name := by
    rcases SuiteTree.mem_of_mem_trailsFrom t named (SuiteTree.trail_mem mem) inside with above | listed
    · cases above
    · exact List.mem_map.1 listed
  have fixed {n m : Node β} (left : n ∈ t.nodes) (right : m ∈ t.nodes) :
      ¬ColonMoved (t.outline.trail n) (t.outline.trail m) := by
    intro moved
    obtain ⟨⟨first, inside, begins⟩, last, inside', ends⟩ := moved.exists_names
    rcases colons with never | never
    · obtain ⟨d, mem, rfl⟩ := declared left inside
      exact never d mem begins
    · obtain ⟨d, mem, rfl⟩ := declared right inside'
      exact never d mem ends
  have apart {n m : Node β} (left : n ∈ t.nodes) (right : m ∈ t.nodes) (same : n.path = m.path) : n = m := by
    rcases (SuiteTree.path_eq_iff_trail named proper left right).1 same with eq | moved | moved
    · exact eq
    · exact absurd moved (fixed left right)
    · exact absurd moved (fixed right left)
  constructor
  · have nodup : (t.nodes.map (·.index)).Nodup := by
      rw [SuiteTree.nodes, SuiteTree.map_index_nodesFrom]
      exact List.nodup_range'
    exact (List.Nodup.of_map _ nodup).map_on fun n left m right => apart left right
  · intro n mem
    rw [SuiteTree.found_iff mem]
    intro m inside before same
    rw [apart inside mem same] at before
    exact absurd before (Nat.lt_irrefl _)

/-- Names may hold single colons, and end with them if none begins with one. -/
theorem path_identifies_colons :
    let decls : List (Declaration Unit) := [⟨⟨"r:", .none, .none, .none⟩, none, none⟩,
      ⟨⟨"a", .none, .none, .none⟩, some "r:", none⟩, ⟨⟨"b:c", .none, .none, .none⟩, some "a", some ()⟩,
      ⟨⟨"a:", .none, .none, .none⟩, some "r:", none⟩, ⟨⟨"b:c", .none, .none, .none⟩, some "a:", some ()⟩]
    let t : SuiteTree Unit := .suite ⟨"r:", .none, .none, .none⟩
      [.suite ⟨"a", .none, .none, .none⟩ [.test ⟨"b:c", .none, .none, .none⟩ ()],
        .suite ⟨"a:", .none, .none, .none⟩ [.test ⟨"b:c", .none, .none, .none⟩ ()]]
    Registry.build decls = .ok t ∧ t.nodes.map (·.path) = ["r:", "r:::a", "r:::a::b:c", "r:::a:", "r:::a:::b:c"] ∧
      ∀ n ∈ t.nodes, t.Found n := by
  intro decls t
  have names : Registry.checkNames [] decls = .ok () := rfl
  have root : Registry.root decls = .ok ⟨⟨"r:", .none, .none, .none⟩, none, none⟩ := rfl
  have parents : Registry.checkParents decls decls = .ok () := rfl
  have suites : decls.filter (·.isSuite) = [⟨⟨"r:", .none, .none, .none⟩, none, none⟩,
      ⟨⟨"a", .none, .none, .none⟩, some "r:", none⟩, ⟨⟨"a:", .none, .none, .none⟩, some "r:", none⟩] := rfl
  have built : Registry.build decls = .ok t := by
    simp only [Registry.build, names, root, parents, suites]
    cbv
  exact ⟨built, by decide, ((path_identifies built).2.2 (.inl (by decide))).2⟩

/-- Two tests share their path. In the tree and in every run tree it leads to the first, so the second is not found. -/
theorem path_shared_by_two :
    let decls : List (Declaration Unit) := [⟨⟨"r", .none, .none, .none⟩, none, none⟩,
      ⟨⟨"a", .none, .none, .none⟩, some "r", none⟩, ⟨⟨":b", .none, .none, .none⟩, some "a", some ()⟩,
      ⟨⟨"a:", .none, .none, .none⟩, some "r", none⟩, ⟨⟨"b", .none, .none, .none⟩, some "a:", some ()⟩]
    let t : SuiteTree Unit := .suite ⟨"r", .none, .none, .none⟩
      [.suite ⟨"a", .none, .none, .none⟩ [.test ⟨":b", .none, .none, .none⟩ ()],
        .suite ⟨"a:", .none, .none, .none⟩ [.test ⟨"b", .none, .none, .none⟩ ()]]
    Registry.build decls = .ok t ∧ t.nodes.map (·.path) = ["r", "r::a", "r::a:::b", "r::a:", "r::a:::b"] ∧
      t.outline.find? "r::a:::b" = some 2 ∧ (RunTree.new t.outline).find? "r::a:::b" = some 2 := by
  intro decls t
  have names : Registry.checkNames [] decls = .ok () := rfl
  have root : Registry.root decls = .ok ⟨⟨"r", .none, .none, .none⟩, none, none⟩ := rfl
  have parents : Registry.checkParents decls decls = .ok () := rfl
  have suites : decls.filter (·.isSuite) = [⟨⟨"r", .none, .none, .none⟩, none, none⟩,
      ⟨⟨"a", .none, .none, .none⟩, some "r", none⟩, ⟨⟨"a:", .none, .none, .none⟩, some "r", none⟩] := rfl
  have built : Registry.build decls = .ok t := by
    simp only [Registry.build, names, root, parents, suites]
    cbv
  exact ⟨built, by decide, by decide, by decide⟩

end TestIsolation
