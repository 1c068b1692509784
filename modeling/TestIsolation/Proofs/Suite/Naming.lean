import Mathlib.Data.List.Nodup
import TestIsolation.Proofs.Run.Replay
import TestIsolation.Proofs.Suite.Joining
import TestIsolation.Proofs.Suite.Lineage
import TestIsolation.Suite.Registry

/-!
# Paths as names of nodes

The path of a node is made of the names from the root down to it, its trail (`SuiteTree.map_path_nodes`). In a tree that
was built (`Registry.named_build`) no two nodes share their trail (`SuiteTree.eq_of_trail`), but they may share their
path where a colon moves from one name to another (`SuiteTree.path_eq_iff_trail`).
-/

namespace TestIsolation

set_option autoImplicit false

variable {β : Type}

/-- The names from the root down to a node. -/
def Outline.trail (o : Outline β) (n : Node β) : List String := ((o.lineage n).map (·.name)).reverse

theorem Outline.trail_of_node? {o : Outline β} {n : Node β} (found : o.node? n.index = some n) :
    o.trail n = ((n.ancestors.filterMap o.node?).map (·.name)).reverse ++ [n.name] := by
  simp [trail, lineage, Node.lineage, found]

/-- The path that names make; no names make none. -/
def pathOf? : List String → Option String
  | [] => none
  | name :: below => some (pathSeparator.intercalate (name :: below))

theorem pathBelow_pathOf? (above : List String) (name : String) :
    SuiteTree.pathBelow (pathOf? above) name = pathSeparator.intercalate (above ++ [name]) := by
  cases above with
  | nil => simp [pathOf?, SuiteTree.pathBelow]
  | cons first above =>
    rw [String.intercalate_append_of_ne_nil (by simp) (by simp), String.intercalate_singleton]
    rfl

theorem pathOf?_concat (above : List String) (name : String) :
    pathOf? (above ++ [name]) = some (pathSeparator.intercalate (above ++ [name])) := by
  cases above <;> rfl

namespace SuiteTree

/-! ## Trails -/

mutual

/-- The trails of a tree's nodes in pre-order, given the one above. -/
def trailsFrom (above : List String) : SuiteTree β → List (List String)
  | test slots _ => [above ++ [slots.name]]
  | suite slots children => (above ++ [slots.name]) :: siblingTrails (above ++ [slots.name]) children

/-- The trails of the nodes of sibling trees. -/
def siblingTrails (above : List String) : List (SuiteTree β) → List (List String)
  | [] => []
  | t :: rest => trailsFrom above t ++ siblingTrails above rest

end

mutual

/-- The names in a tree are some of those given, and no two siblings share theirs. -/
def Named (names : List String) : SuiteTree β → Prop
  | test slots _ => slots.name ∈ names
  | suite slots children => slots.name ∈ names ∧ NamedAll names children

/-- The same of sibling trees. -/
def NamedAll (names : List String) : List (SuiteTree β) → Prop
  | [] => True
  | t :: rest => Named names t ∧ (∀ u ∈ rest, u.slots.name ≠ t.slots.name) ∧ NamedAll names rest

end

mutual

/-- Paths are made of trails. -/
theorem map_path_nodesFrom (first : Nat) (above : List String) (ancestors : List Nat) (t : SuiteTree β) :
    (nodesFrom first (pathOf? above) ancestors t).map (·.path) =
      (trailsFrom above t).map pathSeparator.intercalate := by
  match t with
  | .test slots body => simp [nodesFrom, trailsFrom, pathBelow_pathOf?]
  | .suite slots children =>
    have below := map_path_siblingNodes (first + 1) (above ++ [slots.name]) (first :: ancestors) children
    rw [pathOf?_concat] at below
    simp [nodesFrom, trailsFrom, pathBelow_pathOf?, below]

theorem map_path_siblingNodes (first : Nat) (above : List String) (ancestors : List Nat) (ts : List (SuiteTree β)) :
    (siblingNodes first (pathOf? above) ancestors ts).map (·.path) =
      (siblingTrails above ts).map pathSeparator.intercalate := by
  match ts with
  | [] => rfl
  | t :: rest =>
    rw [siblingNodes, siblingTrails, List.map_append, List.map_append, map_path_nodesFrom, map_path_siblingNodes]

end

section Whole

variable {o : Outline β}

mutual

/-- The names on a node's lineage are its trail. -/
theorem map_trail_nodesFrom (first : Nat) (path : Option String) (ancestors : List Nat) (above : List String)
    (names : ((ancestors.filterMap o.node?).map (·.name)).reverse = above) (t : SuiteTree β)
    (known : ∀ n ∈ nodesFrom first path ancestors t, o.node? n.index = some n) :
    (nodesFrom first path ancestors t).map o.trail = trailsFrom above t := by
  match t with
  | .test slots body =>
    rw [nodesFrom] at known
    rw [nodesFrom, trailsFrom, List.map_singleton, Outline.trail_of_node? (known _ List.mem_cons_self), names]
    rfl
  | .suite slots children =>
    rw [nodesFrom] at known
    have own := Outline.trail_of_node? (known _ List.mem_cons_self)
    rw [names] at own
    have below := map_trail_siblingNodes (first + 1) (some (pathBelow path slots.name)) (first :: ancestors)
      (above ++ [slots.name]) own children fun n mem => known n (List.mem_cons_of_mem _ mem)
    rw [nodesFrom, trailsFrom, List.map_cons, own, below]
    rfl

theorem map_trail_siblingNodes (first : Nat) (path : Option String) (ancestors : List Nat) (above : List String)
    (names : ((ancestors.filterMap o.node?).map (·.name)).reverse = above) (ts : List (SuiteTree β))
    (known : ∀ n ∈ siblingNodes first path ancestors ts, o.node? n.index = some n) :
    (siblingNodes first path ancestors ts).map o.trail = siblingTrails above ts := by
  match ts with
  | [] => rfl
  | t :: rest =>
    simp only [siblingNodes, List.forall_mem_append] at known
    rw [siblingNodes, siblingTrails, List.map_append, map_trail_nodesFrom first path ancestors above names t known.1,
      map_trail_siblingNodes (first + t.size) path ancestors above names rest known.2]

end

end Whole

mutual

/-- Trails go through the root of their tree. -/
theorem prefix_of_mem_trailsFrom {above trail : List String} (t : SuiteTree β) (mem : trail ∈ trailsFrom above t) :
    above ++ [t.slots.name] <+: trail := by
  match t with
  | .test slots body =>
    rw [trailsFrom, List.mem_singleton] at mem
    subst mem
    exact List.prefix_rfl
  | .suite slots children =>
    rw [trailsFrom, List.mem_cons] at mem
    rcases mem with rfl | mem
    · exact List.prefix_rfl
    · obtain ⟨u, -, through⟩ := exists_prefix_of_mem_siblingTrails children mem
      exact (List.prefix_append _ _).trans through

theorem exists_prefix_of_mem_siblingTrails {above trail : List String} (ts : List (SuiteTree β))
    (mem : trail ∈ siblingTrails above ts) : ∃ t ∈ ts, above ++ [t.slots.name] <+: trail := by
  match ts with
  | [] => simp [siblingTrails] at mem
  | t :: rest =>
    rw [siblingTrails, List.mem_append] at mem
    rcases mem with mem | mem
    · exact ⟨t, by simp, prefix_of_mem_trailsFrom t mem⟩
    · obtain ⟨u, inside, through⟩ := exists_prefix_of_mem_siblingTrails rest mem
      exact ⟨u, by simp [inside], through⟩

end

mutual

/-- Trails are made of the names in the tree. -/
theorem mem_of_mem_trailsFrom {names above trail : List String} {name : String} (t : SuiteTree β)
    (named : t.Named names) (mem : trail ∈ trailsFrom above t) (inside : name ∈ trail) :
    name ∈ above ∨ name ∈ names := by
  match t with
  | .test slots body =>
    rw [trailsFrom, List.mem_singleton] at mem
    subst mem
    rw [Named] at named
    rcases List.mem_append.1 inside with upper | own
    · exact .inl upper
    · exact .inr (List.mem_singleton.1 own ▸ named)
  | .suite slots children =>
    rw [Named] at named
    rw [trailsFrom, List.mem_cons] at mem
    have upper_or_own : name ∈ above ++ [slots.name] → name ∈ above ∨ name ∈ names := by
      intro listed
      rcases List.mem_append.1 listed with upper | own
      · exact .inl upper
      · exact .inr (List.mem_singleton.1 own ▸ named.1)
    rcases mem with rfl | mem
    · exact upper_or_own inside
    · rcases mem_of_mem_siblingTrails children named.2 mem inside with listed | below
      · exact upper_or_own listed
      · exact .inr below

theorem mem_of_mem_siblingTrails {names above trail : List String} {name : String} (ts : List (SuiteTree β))
    (named : NamedAll names ts) (mem : trail ∈ siblingTrails above ts) (inside : name ∈ trail) :
    name ∈ above ∨ name ∈ names := by
  match ts with
  | [] => simp [siblingTrails] at mem
  | t :: rest =>
    rw [NamedAll] at named
    rw [siblingTrails, List.mem_append] at mem
    rcases mem with mem | mem
    · exact mem_of_mem_trailsFrom t named.1 mem inside
    · exact mem_of_mem_siblingTrails rest named.2.2 mem inside

end

mutual

/-- **Trails tell nodes apart.** -/
theorem nodup_trailsFrom {names : List String} (above : List String) (t : SuiteTree β) (named : t.Named names) :
    (trailsFrom above t).Nodup := by
  match t with
  | .test slots body =>
    rw [trailsFrom]
    exact List.pairwise_singleton _ _
  | .suite slots children =>
    rw [Named] at named
    rw [trailsFrom, List.nodup_cons]
    refine ⟨fun mem => ?_, nodup_siblingTrails _ children named.2⟩
    obtain ⟨u, -, through⟩ := exists_prefix_of_mem_siblingTrails children mem
    have bound := through.length_le
    simp at bound

theorem nodup_siblingTrails {names : List String} (above : List String) (ts : List (SuiteTree β))
    (named : NamedAll names ts) : (siblingTrails above ts).Nodup := by
  match ts with
  | [] => exact List.nodup_nil
  | t :: rest =>
    rw [NamedAll] at named
    rw [siblingTrails, List.nodup_append]
    refine ⟨nodup_trailsFrom above t named.1, nodup_siblingTrails above rest named.2.2, ?_⟩
    rintro trail here _ there rfl
    have own := prefix_of_mem_trailsFrom t here
    obtain ⟨u, inside, other⟩ := exists_prefix_of_mem_siblingTrails rest there
    -- the two prefixes have one length, so the siblings would share their name
    have same := List.prefix_of_prefix_length_le own other (by simp)
    have eq := same.eq_of_length (by simp)
    exact named.2.1 u inside (by simpa using (List.append_cancel_left eq).symm)

end

/-! ## The tree as a whole -/

theorem map_trail_nodes (t : SuiteTree β) : t.nodes.map t.outline.trail = trailsFrom [] t :=
  map_trail_nodesFrom 0 none [] [] rfl t fun _ mem => node?_iff.2 ⟨mem, rfl⟩

/-- **A path is made of the names on the way to its node.** -/
theorem map_path_nodes (t : SuiteTree β) :
    t.nodes.map (·.path) = t.nodes.map fun n => pathSeparator.intercalate (t.outline.trail n) := by
  have paths := map_path_nodesFrom 0 [] [] t
  rw [← map_trail_nodes, List.map_map] at paths
  exact paths

theorem path_eq {t : SuiteTree β} {n : Node β} (mem : n ∈ t.nodes) :
    n.path = pathSeparator.intercalate (t.outline.trail n) :=
  List.map_inj_left.1 (map_path_nodes t) n mem

theorem trail_mem {t : SuiteTree β} {n : Node β} (mem : n ∈ t.nodes) : t.outline.trail n ∈ trailsFrom [] t := by
  rw [← map_trail_nodes]
  exact List.mem_map_of_mem mem

/-- **Nodes have trails of their own.** -/
theorem eq_of_trail {names : List String} {t : SuiteTree β} (named : t.Named names) {n m : Node β}
    (left : n ∈ t.nodes) (right : m ∈ t.nodes) (same : t.outline.trail n = t.outline.trail m) : n = m := by
  have nodup := nodup_trailsFrom [] t named
  rw [← map_trail_nodes] at nodup
  exact List.inj_on_of_nodup_map nodup left right same

/-- Nodes share their path exactly if they are the same or a colon has moved between their trails. -/
theorem path_eq_iff_trail {names : List String} {t : SuiteTree β} (named : t.Named names)
    (proper : ∀ name ∈ names, ProperName name) {n m : Node β} (left : n ∈ t.nodes) (right : m ∈ t.nodes) :
    n.path = m.path ↔ n = m ∨ ColonMoved (t.outline.trail n) (t.outline.trail m) ∨
      ColonMoved (t.outline.trail m) (t.outline.trail n) := by
  have own {k : Node β} (mem : k ∈ t.nodes) : ∀ name ∈ t.outline.trail k, ProperName name := by
    intro name inside
    rcases mem_of_mem_trailsFrom t named (trail_mem mem) inside with above | listed
    · cases above
    · exact proper name listed
  have some {k : Node β} (mem : k ∈ t.nodes) : t.outline.trail k ≠ [] := by
    rw [Outline.trail_of_node? (node?_iff.2 ⟨mem, rfl⟩)]
    simp
  rw [path_eq left, path_eq right, path_eq_iff (own left) (own right) (some left) (some right)]
  constructor
  · rintro (same | moved)
    · exact .inl (eq_of_trail named left right same)
    · exact .inr moved
  · rintro (rfl | moved)
    · exact .inl rfl
    · exact .inr moved

end SuiteTree

/-! ## What is built -/

namespace Registry

/-- Declarations that are checked have proper names. -/
theorem proper_of_checkNames {decls : List (Declaration β)} {known : List String}
    (checked : checkNames known decls = .ok ()) : ∀ d ∈ decls, ProperName d.name := by
  induction decls generalizing known with
  | nil => simp
  | cons d rest ih =>
    unfold checkNames at checked
    split_ifs at checked with empty separated suite repeated
    · exact List.forall_mem_cons.2 ⟨⟨empty, by simpa using separated⟩, ih checked⟩
    · exact List.forall_mem_cons.2 ⟨⟨empty, by simpa using separated⟩, ih checked⟩

mutual

/-- What grows from declarations has their names, and siblings have names of their own. -/
theorem named_grow {names : List String} (pool : List (Declaration β)) (d : Declaration β) (own : d.name ∈ names)
    (inside : ∀ c ∈ pool, c.name ∈ names) {t : SuiteTree β} (grown : grow pool d = .ok t) :
    t.Named names ∧ t.slots.name = d.name := by
  unfold grow at grown
  split at grown
  · cases grown
    exact ⟨own, rfl⟩
  · split at grown
    · cases grown
      exact ⟨⟨own, trivial⟩, rfl⟩
    · split at grown
      · rename_i trees below
        cases grown
        have all := named_growAll (othersThan d.name pool) d.name [] (childrenOf d.name pool)
          (fun c mem => inside c (List.mem_filter.1 mem).1) (fun c mem => inside c (List.mem_filter.1 mem).1) below
        exact ⟨⟨own, all.1⟩, rfl⟩
      · cases grown
termination_by (pool.length, 0)
decreasing_by exact Prod.Lex.left _ _ (length_othersThan_lt (by assumption))

theorem named_growAll {names : List String} (pool : List (Declaration β)) (suite : String) (seen : List String)
    (children : List (Declaration β)) (own : ∀ c ∈ children, c.name ∈ names) (inside : ∀ c ∈ pool, c.name ∈ names)
    {ts : List (SuiteTree β)} (grown : growAll pool suite seen children = .ok ts) :
    SuiteTree.NamedAll names ts ∧ ∀ t ∈ ts, t.slots.name ∉ seen := by
  match children with
  | [] =>
    unfold growAll at grown
    cases grown
    exact ⟨trivial, nofun⟩
  | d :: rest =>
    unfold growAll at grown
    split at grown
    · cases grown
    · rename_i fresh
      split at grown
      · cases grown
      · rename_i t first
        split at grown
        · rename_i trees more
          cases grown
          obtain ⟨named, name⟩ := named_grow pool d (own d (by simp)) inside first
          obtain ⟨all, apart⟩ := named_growAll pool suite (d.name :: seen) rest
            (fun c mem => own c (by simp [mem])) inside more
          simp only [List.mem_cons, not_or] at apart
          refine ⟨⟨named, fun u mem => name ▸ (apart u mem).1, all⟩, ?_⟩
          intro u mem
          rcases List.mem_cons.1 mem with rfl | mem
          · exact name ▸ fresh
          · exact (apart u mem).2
        · cases grown
termination_by (pool.length, children.length + 1)

end

theorem exists_of_bind_eq_ok {α γ : Type} {x : Except RegistryError α} {f : α → Except RegistryError γ} {b : γ}
    (ok : (x >>= f) = .ok b) : ∃ a, x = .ok a ∧ f a = .ok b := by
  cases x with
  | error e => cases ok
  | ok a => exact ⟨a, rfl, ok⟩

theorem mem_of_root {decls : List (Declaration β)} {top : Declaration β} (found : root decls = .ok top) :
    top ∈ decls := by
  have listed : top ∈ decls.filter (·.parent.isNone) := by
    unfold root at found
    split at found
    · cases found
    · rename_i one
      cases found
      rw [one]
      exact List.mem_singleton_self _
    · cases found
  exact List.mem_of_mem_filter listed

/-- What is built has the names of its declarations, all of them proper, and siblings have names of their own. -/
theorem named_build {decls : List (Declaration β)} {t : SuiteTree β} (built : build decls = .ok t) :
    t.Named (decls.map (·.name)) ∧ ∀ name ∈ decls.map (·.name), ProperName name := by
  obtain ⟨_, names, built⟩ := exists_of_bind_eq_ok built
  obtain ⟨top, found, built⟩ := exists_of_bind_eq_ok built
  obtain ⟨-, -, built⟩ := exists_of_bind_eq_ok built
  obtain ⟨-, -, built⟩ := exists_of_bind_eq_ok built
  obtain ⟨-, -, grown⟩ := exists_of_bind_eq_ok built
  have own {d : Declaration β} (mem : d ∈ decls) : d.name ∈ decls.map (·.name) := List.mem_map_of_mem mem
  refine ⟨(named_grow decls top (own (mem_of_root found)) (fun _ => own) grown).1, ?_⟩
  simpa using proper_of_checkNames names

end Registry

end TestIsolation
