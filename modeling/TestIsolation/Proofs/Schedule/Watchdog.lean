import TestIsolation.CommandLine.Usage
import TestIsolation.Proofs.Schedule.Operations
import TestIsolation.Proofs.Suite.Inheritance

/-!
# The limits of units

Which timeout governs a declaration follows from the declarations alone (`Registry.Governed`), and the tree knows the
same (`Registry.governed_of_node`), where a limit of zero is none. A unit in flight has its deadline from the limit of
its node, counted from its start (`Loop.Reached.armed`). So a declared limit of zero never arms a watchdog
(`watchdogs_armed`). A configured default of zero does, as nothing normalizes it (`zero_default_armed`).
-/

namespace TestIsolation

set_option autoImplicit false

/-! ## The timeout that governs a node -/

theorem Timeout.normalized_ne_inherited {timeout : Timeout} :
    timeout.normalized ≠ .inherited ↔ timeout ≠ .inherited := by
  cases timeout with
  | after limit =>
    simp only [normalized]
    split <;> simp
  | _ => rfl

namespace Registry

variable {β : Type} {decls order : List (Declaration β)} {d dn : Declaration β} {t : SuiteTree β} {n : Node β}
  {timeout : Option Timeout}

/-- The timeout that governs a declaration: its own or, where that is inherited, the one of its suite. Where it is
inherited up to the root, none does. -/
inductive Governed (decls : List (Declaration β)) : Declaration β → Option Timeout → Prop where
  | own {d : Declaration β} (sets : d.slots.timeout ≠ .inherited) : Governed decls d (some d.slots.timeout)
  | top {d : Declaration β} (left : d.slots.timeout = .inherited) (none : d.parent = none) : Governed decls d .none
  | above {d p : Declaration β} {timeout : Option Timeout} (left : d.slots.timeout = .inherited) (mem : p ∈ decls)
      (suite : p.isSuite = true) (parent : d.parent = some p.name) (upper : Governed decls p timeout) :
      Governed decls d timeout

/-- **One timeout governs.** -/
theorem Governed.unique (distinct : SuitesDistinct decls) (governed : Governed decls d timeout)
    {other : Option Timeout} (governed' : Governed decls d other) : timeout = other := by
  induction governed with
  | own sets =>
    cases governed' with
    | own _ => rfl
    | top left _ | above left => exact absurd left sets
  | top left none =>
    cases governed' with
    | own sets => exact absurd left sets
    | top _ _ => rfl
    | above _ _ _ parent _ =>
      rw [none] at parent
      cases parent
  | above left mem suite parent upper ih =>
    cases governed' with
    | own sets => exact absurd left sets
    | top _ none =>
      rw [none] at parent
      cases parent
    | above _ mem' suite' parent' upper' =>
      rw [parent, Option.some.injEq] at parent'
      obtain rfl := distinct.eq mem suite mem' suite' parent'
      exact ih upper'

/-- **The tree knows what governs.** -/
theorem governed_of_node (shown : Shows decls t d order) (top : d.parent = none) (subset : order ⊆ decls)
    (mem : n ∈ t.nodes) (here : StandsFor decls order n dn) :
    ∃ timeout, Governed decls dn timeout ∧ t.outline.resolveTimeout n = timeout.map .normalized := by
  induction hn : n.index using Nat.strongRecOn generalizing n dn with
  | ind index ih =>
    subst hn
    have kept : n.slots.timeout = dn.slots.timeout.normalized := by rw [here.slots]; rfl
    by_cases left : dn.slots.timeout = .inherited
    · have left' : n.slots.timeout = .inherited := by rw [kept, left]; rfl
      rcases SuiteTree.parent_nodesFrom 0 none [] t mem with ⟨first, nothing⟩ | ⟨p, known, lineage, listed⟩
      · obtain rfl : dn = d := by
          have place := here.place
          rw [first, shown.head] at place
          exact (Option.some.inj place).symm
        exact ⟨none, .top left top, Outline.resolveTimeout_of_top mem left' nothing⟩
      · obtain ⟨dp, upper⟩ := standsFor shown known
        have below := (SuiteTree.below_of_mem_children known listed).1
        obtain ⟨timeout, governed, resolved⟩ := ih p.index below known upper rfl
        obtain ⟨suite, inside⟩ := upper.of_mem_children here listed
        have parent : dn.parent = some dp.name := by simpa using (List.mem_filter.1 inside).2
        refine ⟨timeout, .above left (subset (List.mem_of_getElem? upper.place)) suite parent governed, ?_⟩
        rw [Outline.resolveTimeout_of_above mem left' lineage, resolved]
    · refine ⟨some dn.slots.timeout, .own left, ?_⟩
      rw [Outline.resolveTimeout_of_own mem (kept ▸ Timeout.normalized_ne_inherited.2 left), kept]
      rfl

/-- A node is that of a declaration, which is told by the names on the way down. -/
structure NodeOf (decls : List (Declaration β)) (t : SuiteTree β) (d : Declaration β) (n : Node β) : Prop where
  mem : d ∈ decls
  carries : Carries n d
  names : ∃ above, Ancestry decls d above ∧ t.outline.trail n = (d.name :: above).reverse

end Registry

/-- A node has a limit exactly if a limit that is not zero governs it, or nothing does; then it is the default. -/
theorem Assignment.limit?_iff {β : Type} {a : Assignment β} {n : Node β} {timeout : Option Timeout}
    (resolved : a.outline.resolveTimeout n = timeout.map .normalized) (limit : Duration) :
    a.limit? n = some limit ↔
      timeout = some (.after limit) ∧ limit.nanos ≠ 0 ∨ timeout = none ∧ limit = a.settings.defaultTimeout := by
  rw [limit?, resolved]
  cases timeout with
  | none => simp [eq_comm]
  | some timeout =>
    cases timeout with
    | after given =>
      by_cases zero : given.nanos = 0
      · simp only [Option.map_some, Timeout.normalized, zero, if_true, reduceCtorEq, false_and, or_false,
          Option.some.injEq, Timeout.after.injEq, false_iff]
        rintro ⟨rfl, some⟩
        exact some zero
      · simp only [Option.map_some, Timeout.normalized, zero, if_false, reduceCtorEq, false_and, or_false,
          Option.some.injEq, Timeout.after.injEq]
        constructor
        · rintro rfl
          exact ⟨rfl, zero⟩
        · exact And.left
    | none | forever | inherited => simp [Timeout.normalized]

/-- **A unit in flight is armed with the limit of its node**, counted from its start, throughout a run. -/
theorem Loop.Reached.armed {β : Type} {a : Assignment β} {w : World β} {l : Loop} (reached : Reached a w l) :
    ∀ f ∈ l.execution.inFlight, ∃ n ∈ a.outline.nodes, f.node = n.index ∧
      f.unit.supervision.deadline = (a.limit? n).map fun limit => ⟨f.unit.startedAt.after limit, limit⟩ := by
  intro f flying
  obtain ⟨n, inside, own, life, instant, now, started, ops, held⟩ := reached.operated f flying
  refine ⟨n, inside, own, ?_⟩
  rw [held, Supervision.deadline_performAll, started]
  rfl

open Registry Loop in
/-- **What arms a watchdog.** In a tree that was built every node stands for a declaration, which is told by the names
on the way to it, and one timeout or none governs that. The watchdog of the node's units is armed with the limit that
governs unless it is zero, and if nothing governs with the default of the run, whatever that is: the flag, or else the
variable if it is readable, or else three seconds. In every state of every run the units of the node that are in flight
have the deadline that follows from this, counted from their start. So a zero limit arms a watchdog only where nothing
governs and the default is zero. -/
theorem watchdogs_armed {β : Type} {decls : List (Declaration β)} {t : SuiteTree β} (built : build decls = .ok t)
    (flags : RunFlags) (processors : Nat) (lookup : String → Option String) :
    let settings := flags.overlay (.ofVariables processors lookup)
    let a : Assignment β := ⟨t.outline, settings⟩
    settings.defaultTimeout = (flags.timeoutMillis.map Duration.ofMillis <|>
        (lookup Settings.timeoutVariable).bind readDuration?).getD (.ofSeconds 3) ∧
      ∀ n ∈ t.nodes,
        (∃ d timeout, NodeOf decls t d n ∧ (∀ other, Governed decls d other ↔ other = timeout) ∧
          ∀ limit, a.limit? n = some limit ↔
            timeout = some (.after limit) ∧ limit.nanos ≠ 0 ∨ timeout = none ∧ limit = settings.defaultTimeout) ∧
        ∀ (w : World β) (l : Loop), Reached a w l → ∀ f ∈ l.execution.inFlight, f.node = n.index →
          f.unit.supervision.deadline = (a.limit? n).map fun limit => ⟨f.unit.startedAt.after limit, limit⟩ := by
  intro settings a
  refine ⟨?_, fun n mem => ⟨?_, fun w l reached f flying own => ?_⟩⟩
  · cases given : flags.timeoutMillis <;> simp [settings, RunFlags.overlay, given, Settings.ofVariables]
  · obtain ⟨top, checked, grown⟩ := build_eq_ok_iff.1 built
    obtain ⟨order, shown⟩ := checked.shows grown
    obtain ⟨inside, none⟩ := checked.top_mem
    have subset := subset_of_shows shown inside
    obtain ⟨d, here⟩ := standsFor shown mem
    obtain ⟨timeout, governed, resolved⟩ := governed_of_node shown none subset mem here
    have known : NodeOf decls t d n := {
      mem := subset (List.mem_of_getElem? here.place)
      carries := carries_of_kept here.slots here.body
      names := ancestry_of_node shown none subset mem here }
    refine ⟨d, timeout, known, fun other => ⟨fun governed' => ?_, ?_⟩, Assignment.limit?_iff resolved⟩
    · exact governed'.unique checked.distinct governed
    · rintro rfl
      exact governed
  · obtain ⟨m, inside, same, armed⟩ := reached.armed f flying
    obtain rfl := SuiteTree.eq_of_index mem inside (own.symm.trans same)
    exact armed

open Registry in
/-- A limit of zero below a suite that has none, one that overrides a suite's, and a default of a second. -/
theorem watchdogs_armed_mixed :
    let decls : List (Declaration Nat) := [⟨⟨"r", .none, .none, .inherited⟩, none, none⟩,
      ⟨⟨"b", .none, .none, .forever⟩, some "r", none⟩, ⟨⟨"x", .none, .none, .after ⟨0⟩⟩, some "b", some 1⟩,
      ⟨⟨"y", .none, .none, .after ⟨5⟩⟩, some "b", some 2⟩, ⟨⟨"z", .none, .none, .inherited⟩, some "r", some 3⟩]
    let t : SuiteTree Nat := .suite ⟨"r", .none, .none, .inherited⟩
      [.suite ⟨"b", .none, .none, .forever⟩
        [.test ⟨"x", .none, .none, .none⟩ 1, .test ⟨"y", .none, .none, .after ⟨5⟩⟩ 2],
      .test ⟨"z", .none, .none, .inherited⟩ 3]
    let lookup : String → Option String := fun name => if name = Settings.timeoutVariable then some "1s" else none
    let a : Assignment Nat := ⟨t.outline, ({} : RunFlags).overlay (.ofVariables 1 lookup)⟩
    build decls = .ok t ∧ ∀ n ∈ t.nodes, ∀ limit, a.limit? n = some limit → limit.nanos ≠ 0 := by
  intro decls t lookup a
  have names : checkNames [] decls = .ok () := rfl
  have found : root decls = .ok ⟨⟨"r", .none, .none, .inherited⟩, none, none⟩ := rfl
  have parents : checkParents decls decls = .ok () := rfl
  have suites : decls.filter (·.isSuite) = [⟨⟨"r", .none, .none, .inherited⟩, none, none⟩,
      ⟨⟨"b", .none, .none, .forever⟩, some "r", none⟩] := rfl
  have built : build decls = .ok t := by
    simp only [build, names, found, parents, suites]
    cbv
  refine ⟨built, fun n mem limit armed => ?_⟩
  obtain ⟨default, nodes⟩ := watchdogs_armed built {} 1 lookup
  obtain ⟨⟨_, _, _, _, limits⟩, _⟩ := nodes n mem
  rcases (limits limit).1 armed with ⟨_, some⟩ | ⟨_, rfl⟩
  · exact some
  · rw [default]
    decide +kernel

/-- **A default of zero arms a watchdog.** With the flag that sets it to zero, every unit that nothing governs is
killed at once. A test that takes its time is timed out, and the run has failed. -/
theorem zero_default_armed :
    let decls : List (Declaration Script) :=
      [⟨{ name := "s" }, none, none⟩, ⟨{ name := "t" }, some "s", some [.sleep 500]⟩]
    let t : SuiteTree Script := .suite { name := "s" } [.test { name := "t" } [.sleep 500]]
    let flags : RunFlags := { timeoutMillis := some 0 }
    let a : Assignment Script := ⟨t.outline, flags.overlay (.ofVariables 1 fun _ => none)⟩
    let w : World Script := { process := fun plan => .run plan (.start none), now := 5 }
    Command.ofArguments ["run", "--timeout-ms", "0"] = .ok (.run flags) ∧ Registry.build decls = .ok t ∧
      (∀ n ∈ t.nodes, a.limit? n = some ⟨0⟩) ∧
      ((a.run w {}).tree.run? 1).map (·.status) = some .timedOut ∧ (a.run w {}).tree.exitCode = 1 := by
  intro decls t flags a w
  have names : Registry.checkNames [] decls = .ok () := rfl
  have found : Registry.root decls = .ok ⟨{ name := "s" }, none, none⟩ := rfl
  have parents : Registry.checkParents decls decls = .ok () := rfl
  have suites : decls.filter (·.isSuite) = [⟨{ name := "s" }, none, none⟩] := rfl
  have built : Registry.build decls = .ok t := by
    simp only [Registry.build, names, found, parents, suites]
    cbv
  exact ⟨by decide +kernel, built, by decide +kernel, by decide +kernel, by decide +kernel⟩

end TestIsolation
