import TestIsolation.Proofs.Suite.Ancestry
import TestIsolation.Proofs.Suite.Lineage

/-!
# What grows from declarations

A tree shows declarations (`Registry.Shows`) if its nodes, in pre-order, are the given ones, and the children of a suite
are all declarations that name it as their parent, in the order of the list. A tree is grown from a pool that gets
smaller on the way down. As no suite is above itself, the pool still has all that is asked of it, so that the tree shows
the whole list (`shows_grow`).
-/

namespace TestIsolation

set_option autoImplicit false

namespace Registry

variable {β : Type} {decls : List (Declaration β)} {d p : Declaration β} {above : List String}

mutual

/-- A tree shows a declaration and what is declared below it; in pre-order these are the given ones. -/
def Shows (decls : List (Declaration β)) : SuiteTree β → Declaration β → List (Declaration β) → Prop
  | .test slots body, d, order => d.body = some body ∧ slots = keptSlots d ∧ order = [d]
  | .suite slots children, d, order =>
    d.body = none ∧ slots = keptSlots d ∧ ((childrenOf d.name decls).map (·.name)).Nodup ∧
      ∃ below, order = d :: below ∧ ShowsAll decls children (childrenOf d.name decls) below

/-- The same of sibling trees and declarations. -/
def ShowsAll (decls : List (Declaration β)) :
    List (SuiteTree β) → List (Declaration β) → List (Declaration β) → Prop
  | [], ds, order => ds = [] ∧ order = []
  | t :: rest, ds, order =>
    ∃ d ds' here there, ds = d :: ds' ∧ order = here ++ there ∧ Shows decls t d here ∧ ShowsAll decls rest ds' there

end

/-! ## The pool -/

/-- The declarations that are in none of some suites. -/
def remaining (decls : List (Declaration β)) (above : List String) : List (Declaration β) :=
  above.foldr othersThan decls

theorem childrenOf_remaining {suite : String} (apart : suite ∉ above) :
    childrenOf suite (remaining decls above) = childrenOf suite decls := by
  induction above with
  | nil => rfl
  | cons name above ih =>
    rw [List.mem_cons, not_or] at apart
    rw [← ih apart.2, remaining, List.foldr_cons, childrenOf, othersThan, List.filter_filter]
    refine List.filter_congr fun c _ => ?_
    by_cases own : c.parent = some suite
    · simp [own, apart.1]
    · simp [own]

mutual

/-- **What grows shows the whole list.** -/
theorem shows_grow (distinct : SuitesDistinct decls) (pool : List (Declaration β)) (above : List String)
    (left : pool = remaining decls above) (d : Declaration β) (mem : d ∈ decls) (line : Ancestry decls d above)
    {t : SuiteTree β} (grown : grow pool d = .ok t) : ∃ order, Shows decls t d order := by
  unfold grow at grown
  split at grown
  · rename_i body test
    cases grown
    exact ⟨[d], test, rfl, rfl⟩
  · rename_i none
    have suite : d.isSuite = true := by simp [Declaration.isSuite, none]
    have all : childrenOf d.name pool = childrenOf d.name decls :=
      left ▸ childrenOf_remaining (line.not_mem distinct mem suite)
    split at grown
    · rename_i nothing
      cases grown
      rw [all] at nothing
      refine ⟨[d], none, rfl, ?_, [], rfl, ?_⟩
      · rw [nothing]
        exact List.nodup_nil
      · exact ⟨nothing, rfl⟩
    · split at grown
      · rename_i trees below
        cases grown
        rw [all] at below
        obtain ⟨⟨order, shown⟩, nodup, _⟩ := showsAll_growAll distinct (othersThan d.name pool) (d.name :: above)
          (by rw [left]; rfl) d.name [] (childrenOf d.name decls) (fun c listed => by
            obtain ⟨inside, parent⟩ := List.mem_filter.1 listed
            exact ⟨inside, .under mem suite (by simpa using parent) line⟩) below
        exact ⟨d :: order, none, rfl, nodup, order, rfl, shown⟩
      · cases grown
termination_by (pool.length, 0)
decreasing_by exact Prod.Lex.left _ _ (length_othersThan_lt (by assumption))

theorem showsAll_growAll (distinct : SuitesDistinct decls) (pool : List (Declaration β)) (above : List String)
    (left : pool = remaining decls above) (suite : String) (seen : List String) (ds : List (Declaration β))
    (lines : ∀ c ∈ ds, c ∈ decls ∧ Ancestry decls c above) {ts : List (SuiteTree β)}
    (grown : growAll pool suite seen ds = .ok ts) :
    (∃ order, ShowsAll decls ts ds order) ∧ (ds.map (·.name)).Nodup ∧ ∀ c ∈ ds, c.name ∉ seen := by
  match ds with
  | [] =>
    unfold growAll at grown
    cases grown
    exact ⟨⟨[], rfl, rfl⟩, List.nodup_nil, nofun⟩
  | d :: rest =>
    rw [List.forall_mem_cons] at lines
    unfold growAll at grown
    split at grown
    · cases grown
    · rename_i fresh
      split at grown
      · cases grown
      · rename_i t first
        split at grown
        · rename_i trees more
          cases grown
          obtain ⟨here, shown⟩ := shows_grow distinct pool above left d lines.1.1 lines.1.2 first
          obtain ⟨⟨there, all⟩, nodup, apart⟩ :=
            showsAll_growAll distinct pool above left suite (d.name :: seen) rest lines.2 more
          simp only [List.mem_cons, not_or] at apart
          refine ⟨⟨here ++ there, d, rest, here, there, rfl, rfl, shown, all⟩, ?_, ?_⟩
          · rw [List.map_cons, List.nodup_cons]
            refine ⟨fun listed => ?_, nodup⟩
            obtain ⟨c, inside, same⟩ := List.mem_map.1 listed
            exact (apart c inside).1 same
          · rw [List.forall_mem_cons]
            exact ⟨fresh, fun c listed => (apart c listed).2⟩
        · cases grown
termination_by (pool.length, ds.length + 1)

end

/-! ## What is shown -/

mutual

theorem length_shows (t : SuiteTree β) {d : Declaration β} {order : List (Declaration β)}
    (shown : Shows decls t d order) : order.length = t.size := by
  match t with
  | .test slots body =>
    obtain ⟨_, _, rfl⟩ := shown
    rfl
  | .suite slots children =>
    obtain ⟨_, _, _, below, rfl, all⟩ := shown
    rw [List.length_cons, length_showsAll children all, SuiteTree.size, Nat.add_comm]

theorem length_showsAll (ts : List (SuiteTree β)) {ds order : List (Declaration β)}
    (shown : ShowsAll decls ts ds order) : order.length = SuiteTree.sizes ts := by
  match ts with
  | [] =>
    obtain ⟨_, rfl⟩ := shown
    rfl
  | t :: rest =>
    obtain ⟨d, ds', here, there, rfl, rfl, first, later⟩ := shown
    rw [List.length_append, length_shows t first, length_showsAll rest later, SuiteTree.sizes]

end

/-- A tree shows the declaration it was asked for. -/
theorem Shows.own {t : SuiteTree β} {order : List (Declaration β)} (shown : Shows decls t d order) : d ∈ order := by
  cases t with
  | test slots body =>
    obtain ⟨_, _, rfl⟩ := shown
    exact List.mem_singleton_self d
  | suite slots children =>
    obtain ⟨_, _, _, below, rfl, _⟩ := shown
    exact List.mem_cons_self

theorem ShowsAll.subset {ts : List (SuiteTree β)} {ds order : List (Declaration β)}
    (shown : ShowsAll decls ts ds order) : ds ⊆ order := by
  induction ts generalizing ds order with
  | nil =>
    obtain ⟨rfl, rfl⟩ := shown
    exact List.Subset.refl _
  | cons t rest ih =>
    obtain ⟨d, ds', here, there, rfl, rfl, first, later⟩ := shown
    refine List.cons_subset.2 ⟨List.mem_append_left _ first.own, fun c listed => ?_⟩
    exact List.mem_append_right _ (ih later listed)

/-- What holds of the declarations in a suite that is shown. -/
structure Opened (decls order : List (Declaration β)) (p : Declaration β) : Prop where
  nodup : ((childrenOf p.name decls).map (·.name)).Nodup
  subset : childrenOf p.name decls ⊆ order

mutual

/-- **A suite that is shown is shown with all that is in it**, and its children have names of their own. -/
theorem opened_of_shows (t : SuiteTree β) {d : Declaration β} {order : List (Declaration β)}
    (shown : Shows decls t d order) (listed : p ∈ order) (suite : p.isSuite = true) : Opened decls order p := by
  match t with
  | .test slots body =>
    obtain ⟨test, _, rfl⟩ := shown
    obtain rfl := List.mem_singleton.1 listed
    simp [Declaration.isSuite, test] at suite
  | .suite slots children =>
    obtain ⟨_, _, nodup, below, rfl, all⟩ := shown
    rcases List.mem_cons.1 listed with rfl | inside
    · exact ⟨nodup, fun c known => List.mem_cons_of_mem _ (all.subset known)⟩
    · obtain ⟨names, subset⟩ := opened_of_showsAll children all inside suite
      exact ⟨names, fun c known => List.mem_cons_of_mem _ (subset known)⟩

theorem opened_of_showsAll (ts : List (SuiteTree β)) {ds order : List (Declaration β)}
    (shown : ShowsAll decls ts ds order) (listed : p ∈ order) (suite : p.isSuite = true) :
    Opened decls order p := by
  match ts with
  | [] =>
    obtain ⟨_, rfl⟩ := shown
    cases listed
  | t :: rest =>
    obtain ⟨d, ds', here, there, rfl, rfl, first, later⟩ := shown
    rcases List.mem_append.1 listed with inside | inside
    · obtain ⟨names, subset⟩ := opened_of_shows t first inside suite
      exact ⟨names, fun c known => List.mem_append_left _ (subset known)⟩
    · obtain ⟨names, subset⟩ := opened_of_showsAll rest later inside suite
      exact ⟨names, fun c known => List.mem_append_right _ (subset known)⟩

end

/-- **Nothing is lost**: every declaration from which the root is reached is shown. -/
theorem Shows.mem_of_ancestry {t : SuiteTree β} {top : Declaration β} {order : List (Declaration β)}
    (shown : Shows decls t top order) (only : ∀ d ∈ decls, d.parent = none → d = top) (mem : d ∈ decls)
    (line : Ancestry decls d above) : d ∈ order := by
  induction line with
  | top none => exact only _ mem none ▸ shown.own
  | under inside suite parent upper ih =>
    refine (opened_of_shows t shown (ih inside) suite).subset (List.mem_filter.2 ⟨mem, ?_⟩)
    simpa using parent

end Registry

end TestIsolation
