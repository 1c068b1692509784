import Mathlib.Data.List.Chain
import Mathlib.Data.List.Nodup
import TestIsolation.Suite.Registry

/-!
# Declared ancestors

Declarations name their parents, and parents are declared suites with parents of their own. Where suites have names of
their own a declaration has one line of suites above it at most (`Ancestry.unique`), and no suite comes twice on it
(`Ancestry.nodup`). Following parents always comes to an end (`climb_cycleFrom?`): at the root, or at a name that has
come up before, and then the names so far are a chain of parents (`Climb.cyclic`).
-/

namespace TestIsolation

set_option autoImplicit false

namespace Registry

variable {β : Type} {decls suites pool : List (Declaration β)} {d : Declaration β} {above chain : List String}
  {cursor : Option String} {result : Option (List String)}

/-- A declared suite has this parent. -/
def ParentLink (suites : List (Declaration β)) (name parent : String) : Prop :=
  ∃ d ∈ suites, d.name = name ∧ d.parent = some parent

/-- Following parents reaches the root; these are the suites above a declaration, the nearest first. -/
inductive Ancestry (decls : List (Declaration β)) : Declaration β → List String → Prop where
  | top {d : Declaration β} (none : d.parent = none) : Ancestry decls d []
  | under {d p : Declaration β} {above : List String} (mem : p ∈ decls) (suite : p.isSuite = true)
      (parent : d.parent = some p.name) (upper : Ancestry decls p above) : Ancestry decls d (p.name :: above)

/-- Suites have names of their own. -/
def SuitesDistinct (decls : List (Declaration β)) : Prop := ((decls.filter (·.isSuite)).map (·.name)).Nodup

theorem SuitesDistinct.eq (distinct : SuitesDistinct decls) {p q : Declaration β} (left : p ∈ decls)
    (suite : p.isSuite = true) (right : q ∈ decls) (suite' : q.isSuite = true) (same : p.name = q.name) : p = q :=
  List.inj_on_of_nodup_map distinct (List.mem_filter.2 ⟨left, suite⟩) (List.mem_filter.2 ⟨right, suite'⟩) same

/-! ## Lines of suites -/

namespace Ancestry

/-- **There is one line upwards.** -/
theorem unique (distinct : SuitesDistinct decls) (line : Ancestry decls d above) {other : List String}
    (line' : Ancestry decls d other) : above = other := by
  induction line generalizing other with
  | top none =>
    cases line' with
    | top _ => rfl
    | under _ _ parent _ =>
      rw [none] at parent
      cases parent
  | under mem suite parent upper ih =>
    cases line' with
    | top none =>
      rw [none] at parent
      cases parent
    | under mem' suite' parent' upper' =>
      rw [parent, Option.some.injEq] at parent'
      obtain rfl := distinct.eq mem suite mem' suite' parent'
      rw [ih upper']

/-- Whatever is on a line has a shorter one. -/
theorem exists_of_mem (line : Ancestry decls d above) {name : String} (listed : name ∈ above) :
    ∃ p ∈ decls, p.isSuite = true ∧ p.name = name ∧ ∃ rest, Ancestry decls p rest ∧ rest.length < above.length := by
  induction line with
  | top none => cases listed
  | @under d p above mem suite parent upper ih =>
    rcases List.mem_cons.1 listed with rfl | listed
    · exact ⟨p, mem, suite, rfl, above, upper, Nat.lt_succ_self _⟩
    · obtain ⟨q, known, suite', own, rest, line, shorter⟩ := ih listed
      exact ⟨q, known, suite', own, rest, line, Nat.lt_succ_of_lt shorter⟩

/-- A suite is not above itself. -/
theorem not_mem (distinct : SuitesDistinct decls) (mem : d ∈ decls) (suite : d.isSuite = true)
    (line : Ancestry decls d above) : d.name ∉ above := by
  intro listed
  obtain ⟨p, known, suite', same, rest, line', shorter⟩ := line.exists_of_mem listed
  obtain rfl := distinct.eq known suite' mem suite same
  rw [line.unique distinct line'] at shorter
  exact absurd shorter (Nat.lt_irrefl _)

/-- **No suite comes twice on a line.** -/
theorem nodup (distinct : SuitesDistinct decls) (line : Ancestry decls d above) : above.Nodup := by
  induction line with
  | top none => exact List.nodup_nil
  | under mem suite parent upper ih => exact List.nodup_cons.2 ⟨upper.not_mem distinct mem suite, ih⟩

theorem length_le (distinct : SuitesDistinct decls) (line : Ancestry decls d above) :
    above.length ≤ decls.length := by
  have inside : above ⊆ decls.map (·.name) := by
    intro name listed
    obtain ⟨p, known, _, own, _⟩ := line.exists_of_mem listed
    exact List.mem_map.2 ⟨p, known, own⟩
  simpa using (line.nodup distinct).length_le_of_subset inside

end Ancestry

/-- A declaration in a suite, which is declared too. -/
structure Child (decls : List (Declaration β)) (c p : Declaration β) : Prop where
  mem : c ∈ decls
  inside : p ∈ decls
  suite : p.isSuite = true
  parent : c.parent = some p.name

/-- **Going down comes to an end** where going up reaches the root. -/
theorem wellFounded_child (distinct : SuitesDistinct decls)
    (rooted : ∀ d ∈ decls, ∃ above, Ancestry decls d above) : WellFounded (Child decls) := by
  -- A line gets longer by one on every way down, and none is longer than the list.
  have below (k : Nat) (p : Declaration β) (above : List String) (line : Ancestry decls p above)
      (room : decls.length < above.length + k) : Acc (Child decls) p := by
    induction k generalizing p above with
    | zero => exact absurd (line.length_le distinct) (by omega)
    | succ k ih =>
      refine .intro p fun c child => ih c (p.name :: above) (.under child.inside child.suite child.parent line) ?_
      rw [List.length_cons]
      omega
  refine ⟨fun p => .intro p fun c child => ?_⟩
  obtain ⟨above, line⟩ := rooted c child.mem
  exact below (decls.length + 1) c above line (by omega)

/-! ## Following parents -/

/-- What following parents from the end of a chain of names comes to: a chain that closes, or nothing. -/
inductive Climb (suites : List (Declaration β)) : List String → Option String → Option (List String) → Prop where
  /-- The root has no parent. -/
  | root (chain : List String) : Climb suites chain none none
  /-- The parent has come up before. -/
  | again {chain : List String} {parent : String} (listed : parent ∈ chain) :
      Climb suites chain (some parent) (some (chain ++ [parent]))
  /-- The parent is no suite. -/
  | lost {chain : List String} {parent : String} (fresh : parent ∉ chain)
      (unknown : suites.find? (·.name = parent) = none) : Climb suites chain (some parent) none
  | up {chain : List String} {parent : String} {d : Declaration β} {result : Option (List String)}
      (fresh : parent ∉ chain) (found : suites.find? (·.name = parent) = some d)
      (rest : Climb suites (chain ++ [parent]) d.parent result) : Climb suites chain (some parent) result

/-- **Every climb comes to an end.** The suites that have come up can be left out, as no climb asks for them again. -/
theorem climb_cycleFrom? (pool : List (Declaration β)) (chain : List String) (cursor : Option String)
    (agree : ∀ name ∉ chain, pool.find? (·.name = name) = suites.find? (·.name = name)) :
    Climb suites chain cursor (cycleFrom? pool chain cursor) := by
  induction pool, chain, cursor using cycleFrom?.induct with
  | case1 pool chain =>
    rw [cycleFrom?]
    exact .root chain
  | case2 pool chain parent listed =>
    rw [cycleFrom?, if_pos listed]
    exact .again listed
  | case3 pool chain parent fresh unknown =>
    rw [cycleFrom?, if_neg fresh]
    split
    · exact .lost fresh (agree parent fresh ▸ unknown)
    · rename_i d found
      rw [unknown] at found
      cases found
  | case4 pool chain parent fresh d found ih =>
    rw [cycleFrom?, if_neg fresh]
    split
    · rename_i unknown
      rw [unknown] at found
      cases found
    · rename_i d' found'
      rw [found, Option.some.injEq] at found'
      subst found'
      refine .up fresh (agree parent fresh ▸ found) (ih fun name others => ?_)
      rw [List.mem_append, List.mem_singleton, not_or] at others
      rw [← agree name others.1, without, List.find?_filter]
      congr 1
      funext e
      by_cases own : e.name = name
      · simp [own, others.2]
      · simp [own]

namespace Climb

/-- **A climb that closes has followed parents**, and only its last name has come up before. -/
theorem cyclic (climb : Climb suites chain cursor result) {cycle : List String} (closes : result = some cycle)
    (links : chain.IsChain (ParentLink suites)) (once : chain.Nodup)
    (next : ∀ last ∈ chain.getLast?, ∀ parent ∈ cursor, ParentLink suites last parent) :
    cycle.IsChain (ParentLink suites) ∧ chain <+: cycle ∧
      ∃ front last, cycle = front ++ [last] ∧ last ∈ front ∧ front.Nodup := by
  have longer {chain : List String} {parent : String} (links : chain.IsChain (ParentLink suites))
      (next : ∀ last ∈ chain.getLast?, ParentLink suites last parent) :
      (chain ++ [parent]).IsChain (ParentLink suites) :=
    links.append (List.isChain_singleton parent) fun last listed first own => by
      cases own
      exact next last listed
  induction climb with
  | root chain => cases closes
  | lost fresh unknown => cases closes
  | @again chain parent listed =>
    cases closes
    exact ⟨longer links fun last mem => next last mem parent rfl, List.prefix_append _ _, chain, parent, rfl, listed,
      once⟩
  | @up chain parent d result fresh found rest ih =>
    have own : d.name = parent := by simpa using List.find?_some found
    obtain ⟨chained, through, front⟩ := ih closes (longer links fun last mem => next last mem parent rfl)
      (once.append (List.nodup_singleton parent) (by simpa using fresh)) (by
        intro last listed above known
        rw [List.getLast?_concat, Option.mem_some_iff] at listed
        exact ⟨d, List.mem_of_find?_eq_some found, own.trans listed, known⟩)
    exact ⟨chained, (List.prefix_append _ _).trans through, front⟩

/-- A climb that does not close has reached the root, if every parent is a suite. -/
theorem exists_ancestry (climb : Climb (decls.filter (·.isSuite)) chain cursor result) (unclosed : result = none)
    (known : ∀ d ∈ decls, ∀ parent, d.parent = some parent → ∃ p ∈ decls, p.isSuite = true ∧ p.name = parent)
    {d : Declaration β} (mem : d ∈ decls) (start : d.parent = cursor) : ∃ above, Ancestry decls d above := by
  induction climb generalizing d with
  | root chain => exact ⟨[], .top start⟩
  | again listed => cases unclosed
  | lost fresh unknown =>
    obtain ⟨p, inside, suite, own⟩ := known d mem _ start
    exact absurd own (by simpa using List.find?_eq_none.1 unknown p (List.mem_filter.2 ⟨inside, suite⟩))
  | @up chain parent p result fresh found rest ih =>
    obtain ⟨inside, suite⟩ := List.mem_filter.1 (List.mem_of_find?_eq_some found)
    have own : p.name = parent := by simpa using List.find?_some found
    obtain ⟨above, line⟩ := ih unclosed inside rfl
    exact ⟨p.name :: above, .under inside suite (own ▸ start) line⟩

/-- A climb up a line of suites that have not come up does not close. -/
theorem eq_none (distinct : SuitesDistinct decls) (line : Ancestry decls d above)
    (climb : Climb (decls.filter (·.isSuite)) chain d.parent result) (fresh : ∀ name ∈ above, name ∉ chain) :
    result = none := by
  induction line generalizing chain with
  | top none =>
    rw [none] at climb
    cases climb with
    | root _ => rfl
  | @under d p above mem suite parent upper ih =>
    rw [parent] at climb
    cases climb with
    | again listed => exact absurd listed (fresh p.name List.mem_cons_self)
    | lost _ unknown => rfl
    | @up _ _ q _ _ found rest =>
      obtain ⟨inside, suite'⟩ := List.mem_filter.1 (List.mem_of_find?_eq_some found)
      obtain rfl := distinct.eq inside suite' mem suite (by simpa using List.find?_some found)
      refine ih rest fun name listed => ?_
      rw [List.mem_append, List.mem_singleton, not_or]
      refine ⟨fresh name (List.mem_cons_of_mem _ listed), ?_⟩
      rintro rfl
      exact upper.not_mem distinct mem suite listed

end Climb

/-- **A climb finds a cycle exactly if the root is not reached.** -/
theorem cycleFrom?_eq_none_iff (distinct : SuitesDistinct decls)
    (known : ∀ d ∈ decls, ∀ parent, d.parent = some parent → ∃ p ∈ decls, p.isSuite = true ∧ p.name = parent)
    (mem : d ∈ decls) (suite : d.isSuite = true) :
    cycleFrom? (decls.filter (·.isSuite)) [d.name] d.parent = none ↔ ∃ above, Ancestry decls d above := by
  have climb := climb_cycleFrom? (decls.filter (·.isSuite)) [d.name] d.parent fun _ _ => rfl
  constructor
  · intro unclosed
    exact climb.exists_ancestry unclosed known mem rfl
  · rintro ⟨above, line⟩
    refine climb.eq_none distinct line fun name listed own => ?_
    rw [List.mem_singleton.1 own] at listed
    exact line.not_mem distinct mem suite listed

end Registry

end TestIsolation
