import TestIsolation.Proofs.Suite.Growth
import TestIsolation.Proofs.Suite.Naming

/-!
# Which declarations make a tree

Each check of a build is passed exactly if the declarations have the property it is named for, and a tree grows exactly
if siblings have names of their own. Together that is `WellFormed`, and a list is accepted exactly if it is well-formed
(`build_accepts`). The walks of a build end on any list, and a chain that is refused is one that parents really make.
-/

namespace TestIsolation

set_option autoImplicit false

theorem properName_iff {name : String} : ProperName name ↔ name ≠ "" ∧ ¬[':', ':'] <:+: name.toList := by
  have whole : textOccursIn pathSeparator name = false ↔ ¬[':', ':'] <:+: name.toList := by
    rw [← Bool.not_eq_true, textOccursIn, occursIn_iff]
    rfl
  exact ⟨fun proper => ⟨proper.some, whole.1 proper.whole⟩, fun both => ⟨both.1, whole.2 both.2⟩⟩

namespace Registry

variable {β : Type} {decls pool : List (Declaration β)} {d top : Declaration β} {t : SuiteTree β}

/-- Declarations that make a tree. -/
structure WellFormed (decls : List (Declaration β)) : Prop where
  names : ∀ d ∈ decls, d.name ≠ "" ∧ ¬[':', ':'] <:+: d.name.toList
  suites : ((decls.filter (·.isSuite)).map (·.name)).Nodup
  root : decls.countP (·.parent.isNone) = 1
  parents : ∀ d ∈ decls, ∀ parent, d.parent = some parent → ∃ p ∈ decls, p.isSuite = true ∧ p.name = parent
  rooted : ∀ d ∈ decls, d.isSuite = true → ∃ above, Ancestry decls d above
  fixtures : ∀ d ∈ decls, d.parent = none → d.slots.setup ≠ .inherited ∧ d.slots.teardown ≠ .inherited
  siblings : decls.Pairwise fun d e => d.parent = e.parent → d.name ≠ e.name

/-- A chain of parents, from a declared suite on, that comes back to one of its names. -/
structure Cyclic (decls : List (Declaration β)) (chain : List String) : Prop where
  start : ∃ d ∈ decls, d.isSuite = true ∧ chain.head? = some d.name
  links : chain.IsChain (ParentLink (decls.filter (·.isSuite)))
  repeats : ∃ front last, chain = front ++ [last] ∧ last ∈ front ∧ front.Nodup

/-! ## What each check asks -/

theorem checkNames_eq_ok_iff {known : List String} :
    checkNames known decls = .ok () ↔
      (∀ d ∈ decls, ProperName d.name) ∧ SuitesDistinct decls ∧ ∀ d ∈ decls, d.isSuite = true → d.name ∉ known := by
  induction decls generalizing known with
  | nil => simp [checkNames, SuitesDistinct]
  | cons d rest ih =>
    simp only [List.forall_mem_cons]
    by_cases proper : ProperName d.name
    · have head : checkNames known (d :: rest) =
          if d.isSuite then
            if d.name ∈ known then .error (.duplicateSuite d.name) else checkNames (d.name :: known) rest
          else checkNames known rest := by
        rw [checkNames, if_neg proper.some, if_neg (by rw [proper.whole]; exact Bool.false_ne_true)]
      rw [head]
      cases suite : d.isSuite with
      | true =>
        by_cases listed : d.name ∈ known
        · simp [listed]
        · rw [if_pos rfl, if_neg listed, ih]
          simp only [SuitesDistinct, List.filter_cons, suite, if_true, List.map_cons, List.nodup_cons, List.mem_map,
            List.mem_filter, List.mem_cons, not_or, proper, listed, not_false_eq_true, true_and, forall_const]
          constructor
          · rintro ⟨names, distinct, apart⟩
            refine ⟨names, ⟨?_, distinct⟩, fun e mem own => (apart e mem own).2⟩
            rintro ⟨e, ⟨mem, own⟩, same⟩
            exact (apart e mem own).1 same
          · rintro ⟨names, ⟨fresh, distinct⟩, apart⟩
            exact ⟨names, distinct, fun e mem own => ⟨fun same => fresh ⟨e, ⟨mem, own⟩, same⟩, apart e mem own⟩⟩
      | false =>
        rw [if_neg Bool.false_ne_true, ih]
        simp [SuitesDistinct, suite, proper]
    · have refused : checkNames known (d :: rest) ≠ .ok () := fun checked =>
        proper (proper_of_checkNames checked d List.mem_cons_self)
      simp [refused, proper]

theorem root_eq_ok_iff : root decls = .ok top ↔ decls.filter (·.parent.isNone) = [top] := by
  unfold root
  split
  · rename_i nothing
    simp [nothing]
  · rename_i one only
    simp [only]
  · rename_i nothing several
    constructor
    · exact nofun
    · intro only
      exact absurd only (several top)

theorem checkParents_eq_ok_iff {all : List (Declaration β)} :
    checkParents all decls = .ok () ↔
      ∀ d ∈ decls, ∀ parent, d.parent = some parent → ∃ p ∈ all, p.isSuite = true ∧ p.name = parent := by
  induction decls with
  | nil => simp [checkParents]
  | cons d rest ih =>
    rw [List.forall_mem_cons, ← ih, checkParents]
    cases parent : d.parent with
    | none => simp
    | some name =>
      have known : (all.any fun p => p.isSuite && p.name = name) = true ↔
          ∃ p ∈ all, p.isSuite = true ∧ p.name = name := by
        simp
      simp only [Option.some.injEq, forall_eq', ← known]
      split_ifs with found <;> simp [found]

theorem checkCycles_eq_ok_iff {suites : List (Declaration β)} :
    checkCycles suites decls = .ok () ↔ ∀ d ∈ decls, cycleFrom? suites [d.name] d.parent = none := by
  induction decls with
  | nil => simp [checkCycles]
  | cons d rest ih =>
    rw [List.forall_mem_cons, ← ih, checkCycles]
    cases cycleFrom? suites [d.name] d.parent <;> simp

theorem checkCycles_eq_error {suites : List (Declaration β)} {e : RegistryError}
    (refused : checkCycles suites decls = .error e) :
    ∃ d ∈ decls, ∃ chain, e = .cycle chain ∧ cycleFrom? suites [d.name] d.parent = some chain := by
  induction decls with
  | nil => cases refused
  | cons d rest ih =>
    rw [checkCycles] at refused
    cases found : cycleFrom? suites [d.name] d.parent with
    | some chain =>
      rw [found] at refused
      cases refused
      exact ⟨d, List.mem_cons_self, chain, rfl, found⟩
    | none =>
      rw [found] at refused
      obtain ⟨c, mem, chain, rest⟩ := ih refused
      exact ⟨c, List.mem_cons_of_mem _ mem, chain, rest⟩

theorem checkRoot_eq_ok_iff :
    checkRoot d = .ok () ↔ d.slots.setup ≠ .inherited ∧ d.slots.teardown ≠ .inherited := by
  unfold checkRoot
  cases d.slots.setup <;> cases d.slots.teardown <;> simp [Fixture.isInherited]

/-! ## What grows -/

/-- Declarations in one suite have names of their own. -/
theorem nodup_of_siblings (siblings : decls.Pairwise fun d e => d.parent = e.parent → d.name ≠ e.name)
    (suite : String) : ((childrenOf suite decls).map (·.name)).Nodup := by
  rw [List.Nodup, List.pairwise_map]
  refine (siblings.filter (·.parent = some suite)).imp_of_mem fun {d e} left right apart => apart ?_
  have here := (List.mem_filter.1 left).2
  have there := (List.mem_filter.1 right).2
  rw [decide_eq_true_eq] at here there
  rw [here, there]

mutual

/-- **A tree grows** where siblings have names of their own. -/
theorem exists_grow (pool : List (Declaration β)) (d : Declaration β)
    (siblings : pool.Pairwise fun d e => d.parent = e.parent → d.name ≠ e.name) : ∃ t, grow pool d = .ok t := by
  unfold grow
  split
  · exact ⟨_, rfl⟩
  · split
    · exact ⟨_, rfl⟩
    · obtain ⟨ts, grown⟩ := exists_growAll (othersThan d.name pool) (siblings.filter _) d.name []
        (childrenOf d.name pool) (nodup_of_siblings siblings d.name) fun _ _ => List.not_mem_nil
      rw [grown]
      exact ⟨_, rfl⟩
termination_by (pool.length, 0)
decreasing_by exact Prod.Lex.left _ _ (length_othersThan_lt (by assumption))

theorem exists_growAll (pool : List (Declaration β))
    (siblings : pool.Pairwise fun d e => d.parent = e.parent → d.name ≠ e.name) (suite : String) (seen : List String)
    (ds : List (Declaration β)) (nodup : (ds.map (·.name)).Nodup) (fresh : ∀ d ∈ ds, d.name ∉ seen) :
    ∃ ts, growAll pool suite seen ds = .ok ts := by
  match ds with
  | [] =>
    unfold growAll
    exact ⟨_, rfl⟩
  | d :: rest =>
    rw [List.map_cons, List.nodup_cons] at nodup
    rw [List.forall_mem_cons] at fresh
    obtain ⟨t, first⟩ := exists_grow pool d siblings
    obtain ⟨ts, more⟩ := exists_growAll pool siblings suite (d.name :: seen) rest nodup.2 fun c mem listed => by
      rcases List.mem_cons.1 listed with same | listed
      · exact nodup.1 (same ▸ List.mem_map_of_mem mem)
      · exact fresh.2 c mem listed
    unfold growAll
    rw [if_neg fresh.1, first, more]
    exact ⟨_, rfl⟩
termination_by (pool.length, ds.length + 1)

end

mutual

/-- A tree only fails to grow for siblings of one name. -/
theorem grow_eq_error (pool : List (Declaration β)) (d : Declaration β) {e : RegistryError}
    (refused : grow pool d = .error e) : ∃ suite name, e = .duplicateChild suite name := by
  unfold grow at refused
  split at refused
  · cases refused
  · split at refused
    · cases refused
    · split at refused
      · cases refused
      · rename_i below
        cases refused
        exact growAll_eq_error (othersThan d.name pool) d.name [] (childrenOf d.name pool) below
termination_by (pool.length, 0)
decreasing_by exact Prod.Lex.left _ _ (length_othersThan_lt (by assumption))

theorem growAll_eq_error (pool : List (Declaration β)) (suite : String) (seen : List String)
    (ds : List (Declaration β)) {e : RegistryError} (refused : growAll pool suite seen ds = .error e) :
    ∃ suite name, e = .duplicateChild suite name := by
  match ds with
  | [] =>
    unfold growAll at refused
    cases refused
  | d :: rest =>
    unfold growAll at refused
    split at refused
    · cases refused
      exact ⟨suite, d.name, rfl⟩
    · split at refused
      · rename_i first
        cases refused
        exact grow_eq_error pool d first
      · split at refused
        · cases refused
        · rename_i later
          cases refused
          exact growAll_eq_error pool suite (d.name :: seen) rest later
termination_by (pool.length, ds.length + 1)

end

/-! ## A build as a whole -/

/-- Declarations that pass all checks before a tree is grown, with the root among them. -/
structure Checked (decls : List (Declaration β)) (top : Declaration β) : Prop where
  names : checkNames [] decls = .ok ()
  root : root decls = .ok top
  parents : checkParents decls decls = .ok ()
  cycles : checkCycles (decls.filter (·.isSuite)) (decls.filter (·.isSuite)) = .ok ()
  fixtures : checkRoot top = .ok ()

theorem build_eq_ok_iff : build decls = .ok t ↔ ∃ top, Checked decls top ∧ grow decls top = .ok t := by
  constructor
  · intro built
    obtain ⟨_, names, built⟩ := exists_of_bind_eq_ok built
    obtain ⟨top, root, built⟩ := exists_of_bind_eq_ok built
    obtain ⟨_, parents, built⟩ := exists_of_bind_eq_ok built
    obtain ⟨_, cycles, built⟩ := exists_of_bind_eq_ok built
    obtain ⟨_, fixtures, grown⟩ := exists_of_bind_eq_ok built
    exact ⟨top, ⟨names, root, parents, cycles, fixtures⟩, grown⟩
  · rintro ⟨top, ⟨names, root, parents, cycles, fixtures⟩, grown⟩
    simp only [build, names, root, parents, cycles, fixtures, grown, bind, Except.bind]

namespace Checked

variable (checked : Checked decls top)

include checked

theorem distinct : SuitesDistinct decls := (checkNames_eq_ok_iff.1 checked.names).2.1

theorem known : ∀ d ∈ decls, ∀ parent, d.parent = some parent → ∃ p ∈ decls, p.isSuite = true ∧ p.name = parent :=
  checkParents_eq_ok_iff.1 checked.parents

theorem only : ∀ d ∈ decls, d.parent = none → d = top := by
  intro d mem none
  have listed : d ∈ decls.filter (·.parent.isNone) := List.mem_filter.2 ⟨mem, by simp [none]⟩
  rw [root_eq_ok_iff.1 checked.root] at listed
  exact List.mem_singleton.1 listed

theorem top_mem : top ∈ decls ∧ top.parent = none := by
  have listed : top ∈ decls.filter (·.parent.isNone) := by
    rw [root_eq_ok_iff.1 checked.root]
    exact List.mem_singleton_self top
  exact ⟨(List.mem_filter.1 listed).1, by simpa using (List.mem_filter.1 listed).2⟩

/-- **The root is reached from everywhere.** -/
theorem rooted : ∀ d ∈ decls, ∃ above, Ancestry decls d above := by
  have fromSuite (p : Declaration β) (mem : p ∈ decls) (suite : p.isSuite = true) : ∃ above, Ancestry decls p above :=
    (cycleFrom?_eq_none_iff checked.distinct checked.known mem suite).1
      (checkCycles_eq_ok_iff.1 checked.cycles p (List.mem_filter.2 ⟨mem, suite⟩))
  intro d mem
  cases parent : d.parent with
  | none => exact ⟨[], .top parent⟩
  | some name =>
    obtain ⟨p, inside, suite, rfl⟩ := checked.known d mem name parent
    obtain ⟨above, line⟩ := fromSuite p inside suite
    exact ⟨p.name :: above, .under inside suite parent line⟩

/-- What grows shows the declarations. -/
theorem shows (grown : grow decls top = .ok t) : ∃ order, Shows decls t top order :=
  shows_grow checked.distinct decls [] rfl top checked.top_mem.1 (.top checked.top_mem.2) grown

end Checked

/-- **Declarations that made a tree are well-formed.** -/
theorem Checked.wellFormed (checked : Checked decls top) (grown : grow decls top = .ok t) : WellFormed decls := by
  obtain ⟨order, shown⟩ := checked.shows grown
  refine ⟨?_, checked.distinct, ?_, checked.known, fun d mem _ => checked.rooted d mem, ?_, ?_⟩
  · intro d mem
    exact properName_iff.1 ((checkNames_eq_ok_iff.1 checked.names).1 d mem)
  · rw [List.countP_eq_length_filter, root_eq_ok_iff.1 checked.root]
    rfl
  · intro d mem none
    rw [checked.only d mem none]
    exact checkRoot_eq_ok_iff.1 checked.fixtures
  · rw [List.pairwise_iff_forall_sublist]
    intro d e sub same
    have mem := sub.subset
    cases parent : d.parent with
    | none =>
      -- There would be two roots.
      have two := sub.filter (·.parent.isNone)
      rw [root_eq_ok_iff.1 checked.root] at two
      simp [parent, ← same] at two
    | some name =>
      obtain ⟨p, inside, suite, rfl⟩ := checked.known d (mem (by simp)) name parent
      obtain ⟨above, line⟩ := checked.rooted p inside
      have names := (opened_of_shows t shown (shown.mem_of_ancestry checked.only inside line) suite).nodup
      have both := (sub.filter (·.parent = some p.name)).map (·.name)
      rw [List.filter_cons_of_pos (by simpa using parent), List.filter_cons_of_pos (by simpa [← same] using parent)]
        at both
      have apart := names.sublist both
      simpa using apart

/-- A chain of suites that is refused is a cycle. -/
theorem cyclic_of_checkCycles {chain : List String}
    (refused : checkCycles (decls.filter (·.isSuite)) (decls.filter (·.isSuite)) = .error (.cycle chain)) :
    Cyclic decls chain := by
  obtain ⟨d, listed, _, same, found⟩ := checkCycles_eq_error refused
  cases same
  have climb := climb_cycleFrom? (decls.filter (·.isSuite)) [d.name] d.parent fun _ _ => rfl
  obtain ⟨links, through, repeats⟩ := climb.cyclic found (List.isChain_singleton _) (List.nodup_singleton _) <| by
    intro last own parent above
    rw [List.getLast?_singleton, Option.mem_some_iff] at own
    exact ⟨d, listed, own, above⟩
  obtain ⟨mem, suite⟩ := List.mem_filter.1 listed
  obtain ⟨rest, rfl⟩ := through
  exact ⟨⟨d, mem, suite, rfl⟩, links, repeats⟩

theorem of_bind_eq_error {α γ : Type} {x : Except RegistryError α} {f : α → Except RegistryError γ}
    {e : RegistryError} (refused : (x >>= f) = .error e) : x = .error e ∨ ∃ a, f a = .error e := by
  cases x with
  | error e' =>
    cases refused
    exact .inl rfl
  | ok a => exact .inr ⟨a, refused⟩

section Cycle

variable {chain : List String}

theorem checkNames_ne_cycle {known : List String} : checkNames known decls ≠ .error (.cycle chain) := by
  induction decls generalizing known with
  | nil => exact nofun
  | cons d rest ih =>
    rw [checkNames]
    split_ifs <;> simp [ih]

theorem checkParents_ne_cycle {all : List (Declaration β)} : checkParents all decls ≠ .error (.cycle chain) := by
  induction decls with
  | nil => exact nofun
  | cons d rest ih =>
    rw [checkParents]
    split
    · exact ih
    · split_ifs <;> simp [ih]

theorem root_ne_cycle : root decls ≠ .error (.cycle chain) := by
  unfold root
  split <;> simp

theorem checkRoot_ne_cycle : checkRoot d ≠ .error (.cycle chain) := by
  unfold checkRoot
  split_ifs <;> simp

/-- Only the check for cycles refuses a chain. -/
theorem checkCycles_of_build (refused : build decls = .error (.cycle chain)) :
    checkCycles (decls.filter (·.isSuite)) (decls.filter (·.isSuite)) = .error (.cycle chain) := by
  obtain ⟨_, refused⟩ := (of_bind_eq_error refused).resolve_left checkNames_ne_cycle
  obtain ⟨top, refused⟩ := (of_bind_eq_error refused).resolve_left root_ne_cycle
  obtain ⟨_, refused⟩ := (of_bind_eq_error refused).resolve_left checkParents_ne_cycle
  rcases of_bind_eq_error refused with cycles | ⟨_, refused⟩
  · exact cycles
  · obtain ⟨_, refused⟩ := (of_bind_eq_error refused).resolve_left checkRoot_ne_cycle
    obtain ⟨_, _, other⟩ := grow_eq_error decls top refused
    cases other

end Cycle

/-- **Well-formed declarations make a tree.** -/
theorem WellFormed.exists_build (formed : WellFormed decls) : ∃ t, build decls = .ok t := by
  obtain ⟨top, only⟩ : ∃ top, decls.filter (·.parent.isNone) = [top] := by
    rw [← List.length_eq_one_iff, ← List.countP_eq_length_filter]
    exact formed.root
  have listed : top ∈ decls.filter (·.parent.isNone) := by
    rw [only]
    exact List.mem_singleton_self top
  obtain ⟨mem, none⟩ := List.mem_filter.1 listed
  have checked : Checked decls top := {
    names := checkNames_eq_ok_iff.2
      ⟨fun d mem => properName_iff.2 (formed.names d mem), formed.suites, fun _ _ _ => List.not_mem_nil⟩
    root := root_eq_ok_iff.2 only
    parents := checkParents_eq_ok_iff.2 formed.parents
    cycles := by
      refine checkCycles_eq_ok_iff.2 fun d listed => ?_
      obtain ⟨mem, suite⟩ := List.mem_filter.1 listed
      exact (cycleFrom?_eq_none_iff formed.suites formed.parents mem suite).2 (formed.rooted d mem suite)
    fixtures := checkRoot_eq_ok_iff.2 (formed.fixtures top mem (by simpa using none)) }
  obtain ⟨t, grown⟩ := exists_grow decls top formed.siblings
  exact ⟨t, build_eq_ok_iff.2 ⟨top, checked, grown⟩⟩

/-- **The walks of a build come to an end**, whatever is declared. -/
structure Ends (decls : List (Declaration β)) : Prop where
  /-- Following the parents of a suite comes to what it is checked for. -/
  climbs : ∀ d ∈ decls, d.isSuite = true →
    Climb (decls.filter (·.isSuite)) [d.name] d.parent (cycleFrom? (decls.filter (·.isSuite)) [d.name] d.parent)
  /-- No way from suites to what is declared in them goes on for ever once all checks are passed. -/
  descents : ∀ top, Checked decls top → WellFounded (Child decls)

theorem ends (decls : List (Declaration β)) : Ends decls where
  climbs _ _ _ := climb_cycleFrom? _ _ _ fun _ _ => rfl
  descents _ checked := wellFounded_child checked.distinct checked.rooted

end Registry

open Registry in
/-- **Exactly the well-formed declarations make a tree.** Whatever is declared and in whatever order, a build ends; it
makes a tree exactly if all names are proper, suites have names of their own, one declaration alone has no parent, every
other names a declared suite as its parent, the root is reached from every suite and inherits no fixture, and no two
declarations in one suite share their name. If it refuses a cycle, that is a chain of parents from a declared suite on,
whose last name alone has come up before. -/
theorem build_accepts {β : Type} (decls : List (Declaration β)) :
    ((∃ t, build decls = .ok t) ↔ WellFormed decls) ∧ Ends decls ∧
      ∀ chain, build decls = .error (.cycle chain) → Cyclic decls chain := by
  refine ⟨⟨?_, WellFormed.exists_build⟩, ends decls, fun chain refused => cyclic_of_checkCycles ?_⟩
  · rintro ⟨t, built⟩
    obtain ⟨top, checked, grown⟩ := build_eq_ok_iff.1 built
    exact checked.wellFormed grown
  · exact checkCycles_of_build refused

open Registry in
/-- A suite whose parents go round in a circle that it is not part of. -/
theorem build_accepts_circle :
    let decls : List (Declaration Unit) := [⟨⟨"a", .none, .none, .none⟩, some "b", none⟩,
      ⟨⟨"b", .none, .none, .none⟩, some "c", none⟩, ⟨⟨"r", .none, .none, .none⟩, none, none⟩,
      ⟨⟨"c", .none, .none, .none⟩, some "b", none⟩]
    build decls = .error (.cycle ["a", "b", "c", "b"]) ∧ Cyclic decls ["a", "b", "c", "b"] ∧ ¬WellFormed decls := by
  intro decls
  have names : checkNames [] decls = .ok () := rfl
  have found : root decls = .ok ⟨⟨"r", .none, .none, .none⟩, none, none⟩ := rfl
  have parents : checkParents decls decls = .ok () := rfl
  have suites : decls.filter (·.isSuite) = decls := rfl
  have refused : build decls = .error (.cycle ["a", "b", "c", "b"]) := by
    simp only [build, names, found, parents, suites]
    cbv
  obtain ⟨accepts, _, cycles⟩ := build_accepts decls
  refine ⟨refused, cycles _ refused, fun formed => ?_⟩
  obtain ⟨t, built⟩ := accepts.2 formed
  rw [refused] at built
  cases built

end TestIsolation
