import TestIsolation.Proofs.Suite.Acceptance
import TestIsolation.Proofs.Suite.Numbering

/-!
# The tree as an image of its declarations

A tree that was built has one node for each declaration, with what was declared, and the children of a suite are the
declarations that name it as their parent, in their order (`Registry.Image`). The names that lead to a node are those of
the suites above its declaration (`Registry.ancestry_of_node`), so that no declaration has two nodes.
-/

namespace TestIsolation

set_option autoImplicit false

namespace Registry

variable {β : Type} {decls all : List (Declaration β)} {d e : Declaration β} {t : SuiteTree β} {n : Node β}

/-- A node carries what was declared. A limit of zero is none. -/
structure Carries (n : Node β) (d : Declaration β) : Prop where
  name : n.name = d.name
  body : n.body = d.body
  setup : n.slots.setup = d.slots.setup
  teardown : n.slots.teardown = d.slots.teardown
  zero : ∀ limit, d.slots.timeout = .after limit → limit.nanos = 0 → n.slots.timeout = .none
  timeout : (∀ limit, d.slots.timeout = .after limit → limit.nanos ≠ 0) → n.slots.timeout = d.slots.timeout

theorem carries_of_kept (slots : n.slots = keptSlots d) (body : n.body = d.body) : Carries n d where
  name := by rw [Node.name, slots]; rfl
  body := body
  setup := by rw [slots]; rfl
  teardown := by rw [slots]; rfl
  zero limit declared nothing := by simp [slots, keptSlots, declared, Timeout.normalized, nothing]
  timeout some := by
    rw [slots, keptSlots]
    cases declared : d.slots.timeout with
    | after limit => simp [Timeout.normalized, some limit declared]
    | none | forever | inherited => rfl

/-- A node stands for the declaration at its number, and its children for the declarations in that. -/
structure StandsFor (decls all : List (Declaration β)) (n : Node β) (d : Declaration β) : Prop where
  place : all[n.index]? = some d
  slots : n.slots = keptSlots d
  body : n.body = d.body
  children : n.children.map (all[·]?) = (if d.isSuite then childrenOf d.name decls else []).map some

/-! ## Where declarations stand -/

theorem prefix_drop_append {α : Type} {items here there : List α} {first : Nat}
    (placed : here ++ there <+: items.drop first) :
    here <+: items.drop first ∧ there <+: items.drop (first + here.length) := by
  obtain ⟨rest, split⟩ := placed
  refine ⟨⟨there ++ rest, by rw [← split, List.append_assoc]⟩, rest, ?_⟩
  rw [← List.drop_drop, ← split, List.append_assoc, List.drop_left]

theorem getElem?_of_prefix_drop {α : Type} {items rest : List α} {item : α} {first : Nat}
    (placed : item :: rest <+: items.drop first) : items[first]? = some item := by
  obtain ⟨behind, split⟩ := placed
  rw [← List.head?_drop, ← split]
  rfl

theorem Shows.placed {order : List (Declaration β)} {first : Nat} (shown : Shows decls t d order)
    (placed : order <+: all.drop first) : all[first]? = some d := by
  cases t with
  | test slots body =>
    obtain ⟨_, _, rfl⟩ := shown
    exact getElem?_of_prefix_drop placed
  | suite slots children =>
    obtain ⟨_, _, _, below, rfl, _⟩ := shown
    exact getElem?_of_prefix_drop placed

/-- What a tree shows begins with what its root does. -/
theorem Shows.head {order : List (Declaration β)} (shown : Shows decls t d order) : order[0]? = some d :=
  shown.placed List.prefix_rfl

theorem ShowsAll.placed {ts : List (SuiteTree β)} {ds order : List (Declaration β)} {first : Nat}
    (shown : ShowsAll decls ts ds order) (placed : order <+: all.drop first) :
    (SuiteTree.siblingIndices first ts).map (all[·]?) = ds.map some := by
  induction ts generalizing ds order first with
  | nil =>
    obtain ⟨rfl, _⟩ := shown
    rfl
  | cons t rest ih =>
    obtain ⟨d, ds', here, there, rfl, rfl, own, later⟩ := shown
    obtain ⟨front, behind⟩ := prefix_drop_append placed
    rw [length_shows t own] at behind
    rw [SuiteTree.siblingIndices, List.map_cons, List.map_cons, own.placed front, ih later behind]

mutual

theorem standsFor_nodesFrom (first : Nat) (path : Option String) (above : List Nat) (t : SuiteTree β)
    {d : Declaration β} {order : List (Declaration β)} (shown : Shows decls t d order)
    (placed : order <+: all.drop first) {n : Node β} (mem : n ∈ SuiteTree.nodesFrom first path above t) :
    ∃ e, StandsFor decls all n e := by
  match t with
  | .test slots body =>
    have own := shown.placed placed
    obtain ⟨test, rfl, rfl⟩ := shown
    rw [SuiteTree.nodesFrom, List.mem_singleton] at mem
    subst mem
    exact ⟨d, own, rfl, test.symm, by simp [Declaration.isSuite, test]⟩
  | .suite slots children =>
    have own := shown.placed placed
    obtain ⟨none, rfl, _, below, rfl, inside⟩ := shown
    have split : [d] ++ below <+: all.drop first := placed
    have behind : below <+: all.drop (first + 1) := (prefix_drop_append split).2
    rw [SuiteTree.nodesFrom, List.mem_cons] at mem
    rcases mem with rfl | mem
    · refine ⟨d, own, rfl, none.symm, ?_⟩
      simp [Declaration.isSuite, none, inside.placed behind]
    · exact standsFor_siblingNodes (first + 1) _ _ children inside behind mem

theorem standsFor_siblingNodes (first : Nat) (path : Option String) (above : List Nat) (ts : List (SuiteTree β))
    {ds order : List (Declaration β)} (shown : ShowsAll decls ts ds order) (placed : order <+: all.drop first)
    {n : Node β} (mem : n ∈ SuiteTree.siblingNodes first path above ts) : ∃ e, StandsFor decls all n e := by
  match ts with
  | [] => simp [SuiteTree.siblingNodes] at mem
  | t :: rest =>
    obtain ⟨d, ds', here, there, rfl, rfl, own, later⟩ := shown
    obtain ⟨front, behind⟩ := prefix_drop_append placed
    rw [length_shows t own] at behind
    rw [SuiteTree.siblingNodes, List.mem_append] at mem
    rcases mem with mem | mem
    · exact standsFor_nodesFrom first path above t own front mem
    · exact standsFor_siblingNodes (first + t.size) path above rest later behind mem

end

/-! ## One node for each declaration -/

section Whole

variable {order : List (Declaration β)}

theorem standsFor (shown : Shows decls t d order) (mem : n ∈ t.nodes) : ∃ e, StandsFor decls order n e :=
  standsFor_nodesFrom 0 none [] t shown List.prefix_rfl mem

/-- A suite's child stands for a declaration in it. -/
theorem StandsFor.of_mem_children {p c : Node β} {dp dc : Declaration β} (upper : StandsFor decls order p dp)
    (lower : StandsFor decls order c dc) (listed : c.index ∈ p.children) :
    dp.isSuite = true ∧ dc ∈ childrenOf dp.name decls := by
  have known : some dc ∈ (if dp.isSuite then childrenOf dp.name decls else []).map some := by
    rw [← upper.children, ← lower.place]
    exact List.mem_map_of_mem (f := (order[·]?)) listed
  obtain ⟨dc', mem, same⟩ := List.mem_map.1 known
  obtain rfl := Option.some.inj same
  split at mem
  · rename_i suite
    exact ⟨suite, mem⟩
  · cases mem

theorem StandsFor.name {dn : Declaration β} (here : StandsFor decls order n dn) : n.name = dn.name :=
  (carries_of_kept here.slots here.body).name

/-- **The names above a node are those of the suites above its declaration.** -/
theorem ancestry_of_node (shown : Shows decls t d order) (top : d.parent = none) (subset : order ⊆ decls)
    (mem : n ∈ t.nodes) {dn : Declaration β} (here : StandsFor decls order n dn) :
    ∃ above, Ancestry decls dn above ∧ t.outline.trail n = (dn.name :: above).reverse := by
  induction hn : n.index using Nat.strongRecOn generalizing n dn with
  | ind index ih =>
    subst hn
    have own := SuiteTree.node?_iff.2 ⟨mem, rfl⟩
    rcases SuiteTree.parent_nodesFrom 0 none [] t mem with ⟨first, nothing⟩ | ⟨p, known, lineage, listed⟩
    · obtain rfl : dn = d := by
        have place := here.place
        rw [first, shown.head] at place
        exact (Option.some.inj place).symm
      refine ⟨[], .top top, ?_⟩
      rw [Outline.trail_of_node? own, nothing, here.name]
      rfl
    · obtain ⟨dp, upper⟩ := standsFor shown known
      obtain ⟨above, line, trail⟩ := ih p.index (SuiteTree.below_of_mem_children known listed).1 known upper rfl
      obtain ⟨suite, inside⟩ := upper.of_mem_children here listed
      have parent : dn.parent = some dp.name := by simpa using (List.mem_filter.1 inside).2
      refine ⟨dp.name :: above, .under (subset (List.mem_of_getElem? upper.place)) suite parent line, ?_⟩
      rw [List.reverse_cons, ← trail, Outline.trail_of_node? own, lineage, here.name]
      rfl

theorem subset_of_shows (shown : Shows decls t d order) (mem : d ∈ decls) : order ⊆ decls := by
  intro e listed
  obtain ⟨i, found⟩ := List.mem_iff_getElem?.1 listed
  have bound : i < t.nodes.length := by
    rw [SuiteTree.length_nodes, ← length_shows t shown]
    exact (List.getElem?_eq_some_iff.1 found).1
  have own := SuiteTree.node?_iff.1 (List.getElem?_eq_getElem bound)
  obtain ⟨dn, here⟩ := standsFor shown own.1
  obtain rfl : dn = e := by
    have place := here.place
    rw [own.2, found] at place
    exact (Option.some.inj place).symm
  rcases SuiteTree.parent_nodesFrom 0 none [] t own.1 with ⟨first, _⟩ | ⟨p, known, _, below⟩
  · have place := here.place
    rw [first, shown.head] at place
    exact Option.some.inj place ▸ mem
  · obtain ⟨dp, upper⟩ := standsFor shown known
    exact (List.mem_filter.1 (upper.of_mem_children here below).2).1

end Whole

/-- A tree with a node for each declaration: in pre-order, the nodes stand for the given ones. -/
structure Image (decls : List (Declaration β)) (t : SuiteTree β) (order : List (Declaration β)) : Prop where
  /-- Nothing is lost, and nothing comes twice. -/
  all : order.Perm decls
  count : t.nodes.length = order.length
  node : ∀ n ∈ t.nodes, ∃ d, order[n.index]? = some d ∧ Carries n d ∧
    n.children.map (order[·]?) = (if d.isSuite then decls.filter (·.parent = some d.name) else []).map some

/-- **What is built is an image of the declarations.** -/
theorem exists_image (built : build decls = .ok t) : ∃ order, Image decls t order := by
  obtain ⟨top, checked, grown⟩ := build_eq_ok_iff.1 built
  obtain ⟨order, shown⟩ := checked.shows grown
  obtain ⟨mem, none⟩ := checked.top_mem
  have subset := subset_of_shows shown mem
  have count : t.nodes.length = order.length := by rw [SuiteTree.length_nodes, length_shows t shown]
  refine ⟨order, ⟨?_, count, fun n inside => ?_⟩⟩
  · have once : decls.Nodup := by
      refine (checked.wellFormed grown).siblings.imp fun {d e} apart same => ?_
      exact apart (congrArg Declaration.parent same) (congrArg Declaration.name same)
    have once' : order.Nodup := by
      rw [List.nodup_iff_getElem?_ne_getElem?]
      intro i j less bound same
      have left := SuiteTree.node?_iff.1 (List.getElem?_eq_getElem (show i < t.nodes.length by omega))
      have right := SuiteTree.node?_iff.1 (List.getElem?_eq_getElem (show j < t.nodes.length by omega))
      obtain ⟨di, here⟩ := standsFor shown left.1
      obtain ⟨dj, there⟩ := standsFor shown right.1
      have place := here.place
      have place' := there.place
      rw [left.2] at place
      rw [right.2, ← same, place] at place'
      obtain rfl := Option.some.inj place'
      -- Two nodes of one declaration would have the same names above them.
      obtain ⟨above, line, trail⟩ := ancestry_of_node shown none subset left.1 here
      obtain ⟨above', line', trail'⟩ := ancestry_of_node shown none subset right.1 there
      rw [line'.unique checked.distinct line, ← trail] at trail'
      have eq := SuiteTree.eq_of_trail (named_build built).1 right.1 left.1 trail'
      have index := congrArg Node.index eq
      rw [left.2, right.2] at index
      omega
    rw [List.perm_ext_iff_of_nodup once' once]
    refine fun d => ⟨fun listed => subset listed, fun known => ?_⟩
    obtain ⟨above, line⟩ := checked.rooted d known
    exact shown.mem_of_ancestry checked.only known line
  · obtain ⟨d, here⟩ := standsFor shown inside
    exact ⟨d, here.place, carries_of_kept here.slots here.body, here.children⟩

end Registry

open Registry in
/-- **The tree shows the declarations as they are.** For every list that is accepted, the tree has one node for each
declaration, with its name, kind, fixtures and timeout; nodes are numbered in pre-order, so that a subtree has the
numbers from its root on and parents have smaller ones than their children; the children of a suite are the declarations
that name it as their parent, in their order; parents, depths and paths agree; and the walk from a node upwards ends at
the root, after as many nodes as the node is deep and one more. The runs of the tree are numbered as its nodes are. -/
theorem tree_shows_declarations {β : Type} {decls : List (Declaration β)} {t : SuiteTree β}
    (built : build decls = .ok t) :
    (∃ order, Image decls t order) ∧ t.Numbered ∧
      ∀ n ∈ t.nodes, (RunTree.new t.outline).run? n.index = some (.pending n) := by
  refine ⟨exists_image built, t.numbered, fun n mem => ?_⟩
  have found : t.outline.nodes[n.index]? = some n := SuiteTree.node?_iff.2 ⟨mem, rfl⟩
  rw [RunTree.run?, RunTree.new, List.getElem?_map, found]
  rfl

open Registry in
/-- Tests may be declared before their suites and between those of other suites, and a test may be called as a suite. -/
theorem tree_shows_declarations_mixed :
    let decls : List (Declaration Nat) := [⟨⟨"x", .none, .inherited, .after ⟨0⟩⟩, some "b", some 1⟩,
      ⟨⟨"b", .explicit 2, .none, .forever⟩, some "r", none⟩, ⟨⟨"b", .none, .none, .inherited⟩, some "a", some 3⟩,
      ⟨⟨"a", .none, .none, .inherited⟩, some "r", none⟩, ⟨⟨"y", .none, .none, .after ⟨5⟩⟩, some "b", some 4⟩,
      ⟨⟨"r", .none, .explicit 5, .none⟩, none, none⟩]
    let t : SuiteTree Nat := .suite ⟨"r", .none, .explicit 5, .none⟩
      [.suite ⟨"b", .explicit 2, .none, .forever⟩
        [.test ⟨"x", .none, .inherited, .none⟩ 1, .test ⟨"y", .none, .none, .after ⟨5⟩⟩ 4],
      .suite ⟨"a", .none, .none, .inherited⟩ [.test ⟨"b", .none, .none, .inherited⟩ 3]]
    build decls = .ok t ∧ (∃ order, Image decls t order) ∧ t.Numbered ∧
      ∀ n ∈ t.nodes, (RunTree.new t.outline).run? n.index = some (.pending n) := by
  intro decls t
  have names : checkNames [] decls = .ok () := rfl
  have found : root decls = .ok ⟨⟨"r", .none, .explicit 5, .none⟩, none, none⟩ := rfl
  have parents : checkParents decls decls = .ok () := rfl
  have suites : decls.filter (·.isSuite) = [⟨⟨"b", .explicit 2, .none, .forever⟩, some "r", none⟩,
      ⟨⟨"a", .none, .none, .inherited⟩, some "r", none⟩, ⟨⟨"r", .none, .explicit 5, .none⟩, none, none⟩] := rfl
  have built : build decls = .ok t := by
    simp only [build, names, found, parents, suites]
    cbv
  exact ⟨built, tree_shows_declarations built⟩

end TestIsolation
