import TestIsolation.Proofs.Run.Outcomes

/-!
# When suites start and end

A suite without fixtures is stamped with the clock when its steps are applied, and that is when the last one of the
steps so far was delivered (`turn?`), not when its own were. So a suite never ends before its children, and never starts
after a suite among them. But it may start after a test among them, and last no longer than a moment, if some step
before its own is delivered late (`interval_encloses_children`, `suite_starts_after_child`).
-/

namespace TestIsolation

set_option autoImplicit false

/-! ## When the turn of a step comes -/

/-- The time at which the last one of the steps up to some step was delivered. -/
def turn? (ds : List Delivery) (seq : Nat) : Option Timestamp := ((inTurn ds (seq + 1)).map (·.time)).max?

section Turn

variable {ds more : List Delivery} {p q seq : Nat} {now later : Timestamp}

theorem turn?_eq_some_iff : turn? ds seq = some now ↔
    (∃ k ≤ seq, ∃ d, ds.find? (·.seq = k) = some d ∧ d.time = now) ∧
      ∀ k ≤ seq, ∀ d, ds.find? (·.seq = k) = some d → d.time ≤ now := by
  have given (d : Delivery) : d ∈ inTurn ds (seq + 1) ↔ ∃ k ≤ seq, ds.find? (·.seq = k) = some d := by
    simp only [inTurn, List.mem_filterMap, List.mem_range, Nat.lt_succ_iff]
  rw [turn?, List.max?_eq_some_iff]
  simp only [List.mem_map, given]
  constructor
  · rintro ⟨⟨d, ⟨k, early, found⟩, same⟩, bound⟩
    exact ⟨⟨k, early, d, found, same⟩, fun k early d found => bound d.time ⟨d, ⟨k, early, found⟩, rfl⟩⟩
  · rintro ⟨⟨k, early, d, found, same⟩, bound⟩
    refine ⟨⟨d, ⟨k, early, found⟩, same⟩, ?_⟩
    rintro _ ⟨d, ⟨k, early, found⟩, rfl⟩
    exact bound k early d found

theorem turn?_mono (le : p ≤ q) (turn : turn? ds p = some now) (turn' : turn? ds q = some later) : now ≤ later := by
  obtain ⟨⟨k, early, d, found, rfl⟩, -⟩ := turn?_eq_some_iff.1 turn
  exact (turn?_eq_some_iff.1 turn').2 k (Nat.le_trans early le) d found

/-- What is delivered later does not count for steps that were all delivered. -/
theorem turn?_append (all : ∀ k ≤ seq, k ∈ ds.map (·.seq)) : turn? (ds ++ more) seq = turn? ds seq := by
  have same : inTurn (ds ++ more) (seq + 1) = inTurn ds (seq + 1) := by
    apply List.filterMap_congr
    intro k early
    obtain ⟨d, found⟩ := mem_map_seq_iff.1 (all k (Nat.lt_succ_iff.1 (List.mem_range.1 early)))
    rw [List.find?_append, found, Option.some_or]
  rw [turn?, same, turn?]

end Turn

/-- The step that closes a node. -/
def Node.lastStep {β : Type} (n : Node β) : Step := if n.isTest then .leaf n.index else .exit n.index

theorem Node.lastStep_mem_steps {β : Type} (n : Node β) : n.lastStep ∈ n.steps := by
  cases test : n.isTest <;> simp [lastStep, steps, test]

theorem Node.closes_lastStep {β : Type} (n : Node β) : n.lastStep.closes = true := by
  cases test : n.isTest <;> simp [lastStep, Step.closes, test]

namespace Aggregator

variable {β : Type} {o : Outline β} {t : SuiteTree β} {ds : List Delivery} {g : Aggregator} {entries : List Applied}
  {n : Node β}

/-- The turn of the next step has not come. -/
theorem Kept.not_all_delivered (kept : Kept o ((new o).submitAll ds) entries)
    (more : ((new o).submitAll ds).applied < o.steps.length) :
    ((new o).submitAll ds).applied ∉ ds.map (·.seq) := by
  intro listed
  obtain ⟨c, given⟩ := (exists_delivered_iff o ds more).2 listed
  exact kept.next c given

/-- **On a clock that does not go back every step is applied when its turn comes.** -/
theorem exists_timed_submitAll (o : Outline β) (ds : List Delivery) (clock : ds.Pairwise (·.time ≤ ·.time)) :
    ∃ entries, Kept o ((new o).submitAll ds) entries ∧
      ∀ (k : Nat) (e : Applied), entries[k]? = some e → turn? ds k = some e.time := by
  induction ds using List.reverseRecOn with
  | nil => exact ⟨[], kept_new o, by simp⟩
  | append_singleton ds d ih =>
    obtain ⟨before, -, last⟩ := List.pairwise_append.1 clock
    obtain ⟨entries, kept, times⟩ := ih before
    obtain ⟨more, now, kept'⟩ := kept.submit d.seq d.completion d.time
    rw [← submitAll_concat] at kept'
    refine ⟨entries ++ more, kept', fun k e here => ?_⟩
    have applied : k < ((new o).submitAll (ds ++ [d])).applied := by
      rw [← kept'.count]
      exact (List.getElem?_eq_some_iff.1 here).1
    have inside := kept'.applied_le
    by_cases early : k < entries.length
    · rw [List.getElem?_append_left early] at here
      rw [turn?_append, times k e here]
      intro j le
      rw [kept.count] at early
      exact (exists_delivered_iff o ds (by omega)).1 (kept.exists_of_lt_applied (by omega))
    · have added : e ∈ more := by
        rw [List.getElem?_append_right (by omega)] at here
        exact List.mem_of_getElem? here
      rw [now e added, turn?_eq_some_iff]
      constructor
      · -- The first step without a completion got its own from this delivery.
        have missing := kept.not_all_delivered (by rw [kept.count] at early; omega)
        have filled : ((new o).submitAll ds).applied ∈ (ds ++ [d]).map (·.seq) :=
          (exists_delivered_iff o (ds ++ [d]) (by rw [kept.count] at early; omega)).1
            (kept'.exists_of_lt_applied (by rw [kept.count] at early; omega))
        refine ⟨((new o).submitAll ds).applied, by rw [kept.count] at early; omega, d, ?_, rfl⟩
        have nowhere : ds.find? (·.seq = ((new o).submitAll ds).applied) = none := by
          rw [← Option.not_isSome_iff_eq_none, Option.isSome_iff_exists, ← mem_map_seq_iff]
          exact missing
        have own : d.seq = ((new o).submitAll ds).applied := by
          rw [List.map_append, List.mem_append] at filled
          simpa [eq_comm] using filled.resolve_left missing
        rw [List.find?_append, nowhere, Option.none_or, List.find?_singleton, if_pos (decide_eq_true own)]
      · intro j le d' found
        have mem := List.mem_of_find?_eq_some found
        rw [List.mem_append, List.mem_singleton] at mem
        obtain there | rfl := mem
        · exact last d' there d (List.mem_singleton_self d)
        · exact Int.le_refl _

/-! ## What the steps of a node leave behind -/

theorem startedAt_left (r : Run) (teardown : Option Completion) (children setup : Status) (now : Timestamp) :
    (r.left teardown children setup now).startedAt = r.startedAt := by
  cases teardown <;> simp only [Run.left] <;> split <;> rfl

theorem endedAt_left (r : Run) (children setup : Status) (now : Timestamp) :
    (r.left none children setup now).endedAt = some now := by
  simp only [Run.left]
  split <;> rfl

/-- Only the steps that enter a suite and that settle a test say when a node started. -/
theorem startedAt_apply (g : Aggregator) {step : Step} {i : Nat} (others : step ≠ .enter i ∧ step ≠ .leaf i)
    (c : Option Completion) (now : Timestamp) :
    ((g.apply step c now).tree.run? i).map (·.startedAt) = (g.tree.run? i).map (·.startedAt) := by
  by_cases own : step.node = i
  · cases step with
    | enter node => exact absurd (congrArg Step.enter own) others.1
    | leaf node => exact absurd (congrArg Step.leaf own) others.2
    | exit node =>
      obtain rfl : node = i := own
      rw [run?_apply_exit, Option.map_map]
      congr 1
      funext r
      exact startedAt_left r _ _ _ _
  · rw [run?_apply_of_ne g own]

theorem startedAt_replay (g : Aggregator) {entries : List Applied} {i : Nat}
    (others : ∀ e ∈ entries, e.step ≠ .enter i ∧ e.step ≠ .leaf i) :
    ((g.replay entries).tree.run? i).map (·.startedAt) = (g.tree.run? i).map (·.startedAt) := by
  induction entries generalizing g with
  | nil => rfl
  | cons e entries ih =>
    rw [List.forall_mem_cons] at others
    exact (ih (g.apply e.step e.completion e.time) others.2).trans (startedAt_apply g others.1 _ _)

namespace Replays

variable {i k : Nat} {e : Applied}

/-- **A suite that was entered without a setup started when that was applied.** -/
theorem startedAt_of_enter (replays : Replays t.outline g entries) (here : entries[k]? = some e)
    (entered : e.step = .enter i) (plain : e.completion = none) {r : Run} (own : g.tree.run? i = some r) :
    r.startedAt = some e.time := by
  obtain ⟨cut, later⟩ := replays.split here
  have due := (replays.of_getElem? here).1
  rw [entered] at due
  obtain ⟨n, known⟩ := t.exists_node (List.mem_of_getElem? due)
  have suite := SuiteTree.mem_steps_of_node? (List.mem_of_getElem? due) known
  have others : ∀ e' ∈ entries.drop (k + 1), e'.step ≠ .enter i ∧ e'.step ≠ .leaf i := by
    intro e' listed
    constructor
    · intro again
      have once := t.nodup_plan.sublist (List.drop_sublist k t.plan)
      obtain ⟨bound, step⟩ := List.getElem?_eq_some_iff.1 due
      rw [List.drop_eq_getElem_cons bound, step, List.nodup_cons] at once
      exact once.1 (again ▸ later e' listed)
    · intro leaf
      have listed' := later e' listed
      rw [leaf] at listed'
      have test : Step.leaf i ∈ n.steps := SuiteTree.mem_steps_of_node? (List.mem_of_mem_drop listed') known
      have differs := (Node.of_mem_steps suite).2.trans (Node.of_mem_steps test).2.symm
      cases differs
  have start := startedAt_replay (((new t.outline).replay (entries.take k)).apply e.step e.completion e.time) others
  rw [← replay_append_cons, ← cut, ← replays.tree_eq, own, entered, plain] at start
  rw [run?_apply_enter, Option.map_map] at start
  obtain ⟨first, -, same⟩ := Option.map_eq_some_iff.1 start.symm
  exact same.symm

/-- **A suite that was left without a teardown ended when that was applied.** -/
theorem endedAt_of_exit (replays : Replays t.outline g entries) (here : entries[k]? = some e)
    (left : e.step = .exit i) (plain : e.completion = none) {r : Run} (own : g.tree.run? i = some r) :
    r.endedAt = some e.time := by
  have closed := replays.run?_of_closes here (by rw [left]; rfl)
  rw [left, Step.node, own, plain, run?_apply_exit] at closed
  obtain ⟨first, -, rfl⟩ := Option.map_eq_some_iff.1 closed.symm
  exact endedAt_left first _ _ _

end Replays

/-! ## Intervals -/

section Spans

variable (kept : Kept t.outline ((new t.outline).submitAll ds) entries)
  (turns : ∀ (k : Nat) (e : Applied), entries[k]? = some e → turn? ds k = some e.time)
  (plain : ∀ d ∈ ds, ∀ step, t.plan[d.seq]? = some step → step.isSuite = true → d.completion = none)
  (timed : ∀ d ∈ ds, ∀ c ∈ d.completion, c.startedAt ≤ c.endedAt ∧ c.endedAt ≤ d.time)

include kept

/-- What was applied at a step comes from its first delivery. -/
theorem exists_first {k : Nat} {e : Applied} (here : entries[k]? = some e) :
    ∃ d ∈ ds, ds.find? (·.seq = k) = some d ∧ d.seq = k ∧ d.completion = e.completion := by
  obtain ⟨due, given⟩ := kept.of_getElem? here
  have inside : k < t.outline.steps.length := (List.getElem?_eq_some_iff.1 due).1
  rw [delivered_submitAll, if_pos inside, Option.some.injEq, Option.map_eq_some_iff] at given
  obtain ⟨d, found, same⟩ := given
  exact ⟨d, List.mem_of_find?_eq_some found, found, by simpa using List.find?_some found, same⟩

include turns plain timed

/-- **When a node that was closed started and ended.** A suite did when its steps were applied, and a test did before
that. -/
theorem exists_span (mem : n ∈ t.nodes) {k : Nat} (last : t.plan[k]? = some n.lastStep)
    (closed : k < ((new t.outline).submitAll ds).applied) :
    ∃ r start finish turn, ((new t.outline).submitAll ds).tree.run? n.index = some r ∧ r.startedAt = some start ∧
      r.endedAt = some finish ∧ turn? ds k = some turn ∧ start ≤ finish ∧ finish ≤ turn ∧
      (n.isTest = false → finish = turn ∧ ∀ p, t.plan[p]? = some (.enter n.index) → turn? ds p = some start) := by
  obtain ⟨r, own⟩ := kept.exists_run mem
  obtain ⟨e, here⟩ : ∃ e, entries[k]? = some e := ⟨_, List.getElem?_eq_getElem (kept.count.symm ▸ closed)⟩
  obtain ⟨d, given, found, seq, completion⟩ := exists_first kept here
  have due := (kept.of_getElem? here).1
  have turn := turns k e here
  rw [last, Option.some.injEq] at due
  cases test : n.isTest with
  | true =>
    rw [Node.lastStep, if_pos test] at due
    obtain ⟨first, rfl⟩ := kept.settled_of_leaf here due.symm own
    refine ⟨_, _, _, e.time, own, rfl, rfl, turn, ?_, ?_, nofun⟩
    · cases done : e.completion with
      | none => exact Int.le_refl _
      | some c => exact (timed d given c (completion.trans done)).1
    · cases done : e.completion with
      | none => exact Int.le_refl _
      | some c =>
        have ready := (turn?_eq_some_iff.1 turn).2 k (Nat.le_refl k) d found
        exact Int.le_trans (timed d given c (completion.trans done)).2 ready
  | false =>
    simp only [Node.lastStep, test, Bool.false_eq_true, if_false] at last due
    obtain ⟨p, entered⟩ := List.mem_iff_getElem?.1 (SuiteTree.mem_plan.2 ⟨n, mem, Node.enter_mem_steps test⟩)
    have before : p < k :=
      SuiteTree.enter_lt entered last (SuiteTree.node?_iff.2 ⟨mem, rfl⟩) List.mem_cons_self nofun
    obtain ⟨e', here'⟩ : ∃ e', entries[p]? = some e' :=
      ⟨_, List.getElem?_eq_getElem (Nat.lt_trans before (kept.count.symm ▸ closed))⟩
    obtain ⟨d', given', -, seq', completion'⟩ := exists_first kept here'
    have due' := (kept.of_getElem? here').1
    rw [entered, Option.some.injEq] at due'
    have teardown : e.completion = none := completion ▸ plain d given (.exit n.index) (seq ▸ last) rfl
    have setup : e'.completion = none := completion' ▸ plain d' given' (.enter n.index) (seq' ▸ entered) rfl
    refine ⟨r, e'.time, e.time, e.time, own, kept.startedAt_of_enter here' due'.symm setup own,
      kept.endedAt_of_exit here due.symm teardown own, turn, ?_, Int.le_refl _, fun _ => ⟨rfl, ?_⟩⟩
    · exact turn?_mono (Nat.le_of_lt before) (turns p e' here') turn
    · intro p' entered'
      obtain rfl := (List.getElem?_inj (List.getElem?_eq_some_iff.1 entered').1 t.nodup_plan).1
        (entered'.trans entered.symm)
      exact turns p' e' here'

end Spans

end Aggregator

open Aggregator in
/-- **A suite's interval encloses its children's where nothing before it comes late.** On a clock that does not go back,
a suite without fixtures that was left ended no earlier than each of its children, and started no later than each suite
among them. It started no later than a child exactly if its step and all steps before that were delivered by then, and
then it took no less time. -/
theorem interval_encloses_children {β : Type} (t : SuiteTree β) (ds : List Delivery)
    (clock : ds.Pairwise (·.time ≤ ·.time))
    (plain : ∀ d ∈ ds, ∀ step, t.plan[d.seq]? = some step → step.isSuite = true → d.completion = none)
    (timed : ∀ d ∈ ds, ∀ c ∈ d.completion, c.startedAt ≤ c.endedAt ∧ c.endedAt ≤ d.time)
    {n : Node β} (mem : n ∈ t.nodes) {p q : Nat}
    (entered : t.plan[p]? = some (.enter n.index)) (left : t.plan[q]? = some (.exit n.index))
    (settled : q < ((new t.outline).submitAll ds).applied) :
    let tree := ((new t.outline).submitAll ds).tree
    ∃ r start finish, tree.run? n.index = some r ∧ r.startedAt = some start ∧ r.endedAt = some finish ∧
      turn? ds p = some start ∧ turn? ds q = some finish ∧
      ∀ m ∈ t.nodes, m.index ∈ n.children → ∃ r' start' finish', tree.run? m.index = some r' ∧
        r'.startedAt = some start' ∧ r'.endedAt = some finish' ∧ finish' ≤ finish ∧
        (m.isTest = false → start ≤ start') ∧
        (start ≤ start' ↔ ∀ k ≤ p, ∀ d, ds.find? (·.seq = k) = some d → d.time ≤ start') ∧
        (start ≤ start' → r'.duration ≤ r.duration) := by
  intro tree
  obtain ⟨entries, kept, turns⟩ := exists_timed_submitAll t.outline ds clock
  have suite : n.isTest = false := by
    have own := SuiteTree.mem_steps_of_node? (List.mem_of_getElem? left) (SuiteTree.node?_iff.2 ⟨mem, rfl⟩)
    simpa [Step.isSuite] using (Node.of_mem_steps own).2.symm
  have last : t.plan[q]? = some n.lastStep := by rw [left, Node.lastStep, suite]; rfl
  obtain ⟨r, start, finish, turn, own, started, ended, turned, ordered, -, exact_⟩ :=
    exists_span kept turns plain timed mem last settled
  obtain ⟨rfl, starts⟩ := exact_ suite
  have entry := starts p entered
  refine ⟨r, start, finish, own, started, ended, entry, turned, fun m child listed => ?_⟩
  obtain ⟨k, due⟩ := List.mem_iff_getElem?.1 (SuiteTree.mem_plan.2 ⟨m, child, m.lastStep_mem_steps⟩)
  have below := SuiteTree.below_of_mem_children mem listed
  have before : k < q := by
    apply SuiteTree.lt_exit mem left due
    rwa [(Node.of_mem_steps m.lastStep_mem_steps).1]
  obtain ⟨r', start', finish', turn', own', started', ended', turned', -, early, exact_'⟩ :=
    exists_span kept turns plain timed child due (Nat.lt_trans before settled)
  have ends : finish' ≤ finish := Int.le_trans early (turn?_mono (Nat.le_of_lt before) turned' turned)
  refine ⟨r', start', finish', own', started', ended', ends, ?_, ?_, ?_⟩
  · intro suite'
    obtain ⟨p', entered'⟩ := List.mem_iff_getElem?.1 (SuiteTree.mem_plan.2 ⟨m, child, Node.enter_mem_steps suite'⟩)
    have above : n.index ∈ m.lineage := (SuiteTree.below_iff mem child).1 below |>.1
    have later : p < p' := by
      apply SuiteTree.enter_lt entered entered' (SuiteTree.node?_iff.2 ⟨child, rfl⟩) above
      intro same
      exact Nat.ne_of_gt below.1 (Step.enter.inj same)
    exact turn?_mono (Nat.le_of_lt later) entry ((exact_' suite').2 p' entered')
  · obtain ⟨⟨k, le, d, found, rfl⟩, bound⟩ := turn?_eq_some_iff.1 entry
    constructor
    · exact fun starts j le d found => Int.le_trans (bound j le d found) starts
    · exact fun all => all k le d found
  · intro starts
    simp only [Run.duration, started, ended, started', ended']
    exact Int.toNat_le_toNat (Int.sub_le_sub ends starts)

open Aggregator in
/-- A suite that is reached on time behind a test. -/
theorem interval_encloses_children_reached :
    let t : SuiteTree Nat := .suite { name := "r" }
      [.test { name := "a" } 0, .suite { name := "s" } [.test { name := "b" } 1]]
    let ran (start finish : Timestamp) : Option Completion :=
      some { status := .passed, startedAt := start, endedAt := finish }
    let ds : List Delivery := [⟨0, none, 0⟩, ⟨1, ran 0 1, 1⟩, ⟨2, none, 1⟩, ⟨4, none, 2⟩, ⟨3, ran 2 3, 3⟩]
    let tree := ((new t.outline).submitAll ds).tree
    ds.Pairwise (·.time ≤ ·.time) ∧
      (∀ d ∈ ds, ∀ step, t.plan[d.seq]? = some step → step.isSuite = true → d.completion = none) ∧
      (∀ d ∈ ds, ∀ c ∈ d.completion, c.startedAt ≤ c.endedAt ∧ c.endedAt ≤ d.time) ∧
      ∃ r r' start start', tree.run? 2 = some r ∧ tree.run? 3 = some r' ∧ r.startedAt = some start ∧
        r'.startedAt = some start' ∧ start ≤ start' ∧ r'.duration ≤ r.duration := by
  intro t ran ds tree
  have clock : ds.Pairwise (·.time ≤ ·.time) := by decide
  have plain : ∀ d ∈ ds, ∀ step, t.plan[d.seq]? = some step → step.isSuite = true → d.completion = none := by
    have each : ∀ d ∈ ds, ∀ step ∈ (t.plan[d.seq]?).toList, step.isSuite = true → d.completion = none := by decide
    intro d mem step due
    exact each d mem step (by rw [due]; exact List.mem_singleton_self step)
  have timed : ∀ d ∈ ds, ∀ c ∈ d.completion, c.startedAt ≤ c.endedAt ∧ c.endedAt ≤ d.time := by decide
  obtain ⟨r, start, _, own, started, _, _, _, children⟩ := interval_encloses_children t ds clock plain timed
    (n := t.nodes[2]) (List.getElem_mem _) (p := 2) (q := 4) rfl rfl (by decide +kernel)
  obtain ⟨r', start', _, own', started', _, _, _, reached, lasts⟩ :=
    children t.nodes[3] (List.getElem_mem _) (by decide +kernel)
  have known : (tree.run? 3).map (·.startedAt) = some (some 2) := by decide +kernel
  have early : start ≤ start' := by
    refine reached.2 fun k le d found => ?_
    have same : tree.run? 3 = some r' := own'
    rw [same, Option.map_some, started', Option.some.injEq, Option.some.injEq] at known
    rw [known]
    have all : ∀ k < 3, ∀ d ∈ ds.find? (·.seq = k), d.time ≤ 2 := by decide
    exact all k (Nat.lt_succ_of_le le) d found
  exact ⟨clock, plain, timed, r, r', start, start', own, own', started, started', early, lasts early⟩

open Aggregator in
/-- **A suite may start after its test.** The test `b` of the suite `s` runs when the suite was entered, and both are
over before the test that comes first. So the suite starts and ends when that is over, in no time. -/
theorem suite_starts_after_child :
    let t : SuiteTree Nat := .suite { name := "r" }
      [.test { name := "a" } 0, .suite { name := "s" } [.test { name := "b" } 1]]
    let ran (start finish : Timestamp) : Option Completion :=
      some { status := .passed, startedAt := start, endedAt := finish }
    let ds : List Delivery :=
      [⟨0, none, 0⟩, ⟨2, none, 1⟩, ⟨3, ran 2 3, 3⟩, ⟨4, none, 4⟩, ⟨1, ran 0 10, 10⟩, ⟨5, none, 11⟩]
    let g := (new t.outline).submitAll ds
    t.plan = [.enter 0, .leaf 1, .enter 2, .leaf 3, .exit 2, .exit 0] ∧ ds.Pairwise (·.time ≤ ·.time) ∧
      (∀ d ∈ ds, ∀ c ∈ d.completion, c.startedAt ≤ c.endedAt ∧ c.endedAt ≤ d.time) ∧ g.isComplete = true ∧
      (g.tree.run? 2).map (fun r => (r.startedAt, r.endedAt, r.duration)) = some (some 10, some 10, 0) ∧
      (g.tree.run? 3).map (fun r => (r.startedAt, r.endedAt, r.duration)) = some (some 2, some 3, 1) := by
  intro t ran ds g
  exact ⟨rfl, by decide, by decide, by decide +kernel, by decide +kernel, by decide +kernel⟩

end TestIsolation
