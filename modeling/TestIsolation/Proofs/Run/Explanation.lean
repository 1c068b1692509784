import TestIsolation.Proofs.Run.Severity
import TestIsolation.Proofs.Run.Untimed

/-!
# Reasons for what went wrong

If every completion that is no success comes with a reason or with failures, then so does every run of a tree whose
steps were all applied (`Kept.isExplained`): a suite notes what its setup came to, and when it is left, what its
teardown and its children did. The observers are told of every run as it is in the end (`Kept.exists_told`), and of no
other run that it is over (`Kept.run_mem_of_told`).
-/

namespace TestIsolation

set_option autoImplicit false

/-- A completion is a success, or has a reason or failures. -/
def Completion.IsExplained (c : Completion) : Prop :=
  c.status.isSuccess = true ∨ c.reason.isSome = true ∨ c.failures ≠ []

/-- A run is a success, or has a reason or failures. -/
def Run.IsExplained (r : Run) : Prop := r.status.isSuccess = true ∨ r.reason.isSome = true ∨ r.failures ≠ []

/-! ## Completions -/

theorem Summary.isExplained_classifyExit (s : Summary) (code : Int) :
    (s.classifyExit code).status.isSuccess = true ∨ (s.classifyExit code).reason.isSome = true ∨ s.failures ≠ [] := by
  unfold classifyExit
  split
  · exact .inr (.inl rfl)
  · exact .inr (.inl rfl)
  · split <;> exact .inr (.inl rfl)
  · split_ifs with failed
    · exact .inr (.inr failed)
    · exact .inr (.inl rfl)
    · exact .inr (.inl rfl)
    · exact .inl rfl
    · exact .inl rfl

/-- **What a unit came to has a reason unless it is a success**, or there are failures. -/
theorem Summary.isExplained_classify (s : Summary) (exit : ExitCondition) (kill : Option KillCause) :
    (s.classify exit kill).status.isSuccess = true ∨ (s.classify exit kill).reason.isSome = true ∨
      s.failures ≠ [] := by
  unfold classify
  split
  · exact .inr (.inl rfl)
  · exact .inr (.inl rfl)
  · exact .inr (.inl rfl)
  · unfold classifyEnd
    split
    · exact s.isExplained_classifyExit _
    · exact .inr (.inl rfl)

theorem Completion.isExplained_notRun (status : Status) (reason : String) (now : Timestamp) :
    (notRun status reason now).IsExplained := .inr (.inl rfl)

/-! ## Suites -/

namespace Status

theorem isSuccess_worst {a b : Status} (left : a.isSuccess = true) (right : b.isSuccess = true) :
    (a.worst b).isSuccess = true := by
  unfold worst
  split
  · exact right
  · exact left

theorem isSuccess_fixtureContribution {s : Status} (success : s.isSuccess = true) :
    s.fixtureContribution.isSuccess = true := by
  rw [fixtureContribution, if_pos success]
  rfl

end Status

namespace Run

variable (r : Run) (children setup : Status) (now : Timestamp)

theorem isSome_reason_explain (said : r.reason.isSome = true ∨ children.isSuccess = false) :
    (r.explain children).reason.isSome = true := by
  unfold explain
  split
  · rfl
  · rename_i other
    simp only [Bool.and_eq_true, Option.isNone_iff_eq_none, Bool.not_eq_true', not_and, Bool.not_eq_false] at other
    by_contra missing
    rw [Bool.not_eq_true, Option.isSome_eq_false_iff, Option.isNone_iff_eq_none] at missing
    rw [missing, other missing] at said
    simp at said

/-- A reason stays when the suite is left. -/
theorem isSome_reason_leave (teardown : Option Completion)
    (said : r.reason.isSome = true ∨ ∃ c, teardown = some c ∧ c.status.isSuccess = false) :
    (r.leave teardown children setup now).reason.isSome = true := by
  cases teardown with
  | none => simpa [leave] using said
  | some c =>
    simp only [leave, teardownReason]
    split
    · rename_i success
      simpa [success] using said
    · rfl

/-- **A suite that is left as no success has a reason**, if it has one where its setup was none. -/
theorem isExplained_left (teardown : Option Completion)
    (noted : setup.isSuccess = false → r.reason.isSome = true) :
    (r.left teardown children setup now).IsExplained := by
  cases success : (r.left teardown children setup now).status.isSuccess with
  | true => exact .inl success
  | false =>
    refine .inr (.inl ?_)
    rw [left_eq]
    apply isSome_reason_explain
    rw [status_left] at success
    cases below : children.isSuccess with
    | false => exact .inr rfl
    | true =>
      refine .inl (isSome_reason_leave _ _ _ _ _ ?_)
      by_contra silent
      push Not at silent
      obtain ⟨unsaid, calm⟩ := silent
      have ready : setup.isSuccess = true := by
        by_contra failed
        exact unsaid (noted (Bool.eq_false_iff.2 failed))
      have fixtures : (fixtures setup teardown).isSuccess = true := by
        cases teardown with
        | none => exact ready
        | some c =>
          have torn : c.status.isSuccess = true := by simpa using calm c rfl
          exact Status.isSuccess_worst ready (Status.isSuccess_fixtureContribution torn)
      rw [Status.isSuccess_worst below fixtures] at success
      cases success

end Run

/-- What observers are told when a step is applied. -/
def Step.eventKind : Step → EventKind
  | enter _ => .suiteStarted
  | leaf _ => .testFinished
  | exit _ => .suiteFinished

theorem Step.closes_iff (step : Step) : step.closes = true ↔ step.eventKind ≠ .suiteStarted := by
  cases step <;> simp [closes, eventKind]

namespace Aggregator

variable {β : Type} {t : SuiteTree β} {g : Aggregator} {entries : List Applied} {node : Nat}

/-- A suite whose setup was no success has a reason. -/
def Noted (g : Aggregator) (node : Nat) : Prop :=
  ∀ r, g.tree.run? node = some r → ((g.setups[node]?).getD .passed).isSuccess = false → r.reason.isSome = true

theorem noted_new (o : Outline β) (node : Nat) : (new o).Noted node := by
  intro r _ failed
  have passed : ((new o).setups[node]?).getD .passed = .passed := by
    simp only [new, List.getElem?_map]
    cases o.nodes[node]? <;> rfl
  rw [passed] at failed
  cases failed

/-- Only the step of a test could take a reason away. -/
theorem Noted.apply (noted : g.Noted node) {step : Step} (suite : step ≠ .leaf node) (c : Option Completion)
    (now : Timestamp) : (g.apply step c now).Noted node := by
  by_cases own : step.node = node
  · subst own
    intro r found failed
    cases step with
    | leaf node => exact absurd rfl suite
    | enter node =>
      simp only [Step.node, run?_apply_enter, Option.map_eq_some_iff] at found
      simp only [Step.node, Aggregator.apply, tell] at failed
      obtain ⟨before, known, rfl⟩ := found
      cases c with
      | none => exact noted before known failed
      | some c =>
        have other : c.status ≠ .passed := by
          intro passed
          have same : ((g.setups.set node c.status.fixtureContribution)[node]?).getD .passed = .passed := by
            rw [List.getElem?_set, if_pos rfl, passed]
            split <;> rfl
          rw [same] at failed
          cases failed
        simp only [Run.entered, if_neg other, Option.isSome_some]
    | exit node =>
      simp only [Step.node, run?_apply_exit, Option.map_eq_some_iff] at found
      obtain ⟨before, known, rfl⟩ := found
      rw [Run.left_eq]
      exact Run.isSome_reason_explain _ _ (.inl (Run.isSome_reason_leave _ _ _ _ _ (.inl (noted before known failed))))
  · intro r found failed
    rw [run?_apply_of_ne g own] at found
    rw [setups_apply_of_ne g fun same => own (by rw [same, Step.node])] at failed
    exact noted r found failed

theorem Noted.replay (noted : g.Noted node) (suite : ∀ e ∈ entries, e.step ≠ .leaf node) :
    (g.replay entries).Noted node := by
  induction entries generalizing g with
  | nil => exact noted
  | cons e entries ih =>
    rw [List.forall_mem_cons] at suite
    exact ih (noted.apply suite.1 e.completion e.time) suite.2

/-- **The step that closes a node leaves an explanation.** -/
theorem isExplained_apply (g : Aggregator) {step : Step} (closes : step.closes = true) {c : Option Completion}
    (said : ∀ done ∈ c, done.IsExplained) (noted : ∀ node, step = .exit node → g.Noted node) (now : Timestamp)
    {r : Run} (own : (g.apply step c now).tree.run? step.node = some r) : r.IsExplained := by
  cases step with
  | enter node => cases closes
  | leaf node =>
    simp only [Step.node, run?_apply_leaf, Option.map_eq_some_iff] at own
    obtain ⟨before, _, rfl⟩ := own
    cases c with
    | none => exact Completion.isExplained_notRun .terminated "no completion delivered" now
    | some done => exact said done rfl
  | exit node =>
    simp only [Step.node, run?_apply_exit, Option.map_eq_some_iff] at own
    obtain ⟨before, known, rfl⟩ := own
    exact Run.isExplained_left _ _ _ _ _ (noted node rfl before known)

/-! ## What observers are told -/

theorem told_apply_eq (g : Aggregator) (step : Step) (c : Option Completion) (now : Timestamp) :
    (g.apply step c now).told =
      (((g.apply step c now).tree.run? step.node).map fun run => ⟨step.eventKind, run, now⟩).toList ++ g.told := by
  cases step <;> rfl

/-- **Observers are told once a step is applied**, and of nothing else. -/
theorem mem_told_replay (g : Aggregator) {e : Event} : e ∈ (g.replay entries).told ↔
    e ∈ g.told ∨ ∃ before applied after, entries = before ++ applied :: after ∧
      ((((g.replay before).apply applied.step applied.completion applied.time).tree.run? applied.step.node).map
        fun run => ⟨applied.step.eventKind, run, applied.time⟩) = some e := by
  induction entries generalizing g with
  | nil => simp [replay]
  | cons first entries ih =>
    have one : (g.replay (first :: entries)) = (g.apply first.step first.completion first.time).replay entries := rfl
    rw [one, ih, told_apply_eq, List.mem_append, Option.mem_toList]
    constructor
    · rintro ((here | before) | ⟨before, applied, after, rfl, later⟩)
      · exact .inr ⟨[], first, entries, rfl, here⟩
      · exact .inl before
      · exact .inr ⟨first :: before, applied, after, rfl, later⟩
    · rintro (before | ⟨_ | ⟨_, before⟩, applied, after, split, here⟩)
      · exact .inl (.inr before)
      · cases split
        exact .inl (.inl here)
      · cases split
        exact .inr ⟨before, applied, after, rfl, here⟩

namespace Kept

variable (kept : Kept t.outline g entries)

include kept

/-- The run of a node that was closed, by the steps before the one that closed it. -/
theorem run?_of_split {before after : List Applied} {e : Applied} (split : entries = before ++ e :: after)
    (closes : e.step.closes = true) : g.tree.run? e.step.node =
      (((new t.outline).replay before).apply e.step e.completion e.time).tree.run? e.step.node := by
  have here : entries[before.length]? = some e := by simp [split]
  have first : entries.take before.length = before := by simp [split]
  exact first ▸ kept.run?_of_closes here closes

/-- What observers are told of a run that is over is how it is in the end. -/
theorem run_mem_of_told {e : Event} (told : e ∈ g.events) (closing : e.kind ≠ .suiteStarted) : e.run ∈ g.tree.runs := by
  rw [events, List.mem_reverse, kept.told_eq, mem_told_replay] at told
  rcases told with none_ | ⟨before, applied, after, split, here⟩
  · cases none_
  · obtain ⟨run, own, rfl⟩ := Option.map_eq_some_iff.1 here
    rw [← kept.run?_of_split split (applied.step.closes_iff.2 closing)] at own
    exact List.mem_of_getElem? own

variable (complete : g.isComplete = true)

include complete

/-- Every run was closed by a step. -/
theorem exists_closing {r : Run} (mem : r ∈ g.tree.runs) : ∃ before e after, entries = before ++ e :: after ∧
    e.step.closes = true ∧ g.tree.run? e.step.node = some r := by
  obtain ⟨node, own⟩ := List.mem_iff_getElem?.1 mem
  obtain ⟨n, inside, index⟩ := kept.exists_node_of_run own
  have bound : n.index < t.nodes.length := (List.getElem?_eq_some_iff.1 (SuiteTree.node?_iff.2 ⟨inside, rfl⟩)).1
  have size : node < 0 + t.size := by
    rw [SuiteTree.length_nodes] at bound
    omega
  obtain ⟨before, step, after, split, closes, closed, _⟩ := t.exists_closing 0 (Nat.zero_le node) size
  obtain ⟨first, rest, rfl, _, behind⟩ := List.map_eq_append_iff.1 ((kept.map_step complete).trans split)
  obtain ⟨e, later, rfl, rfl, _⟩ := List.map_eq_cons_iff.1 behind
  exact ⟨first, e, later, rfl, closes, closed ▸ own⟩

/-- **No failure goes unexplained**, on any level. -/
theorem isExplained (said : ∀ e ∈ entries, ∀ done ∈ e.completion, done.IsExplained) :
    ∀ r ∈ g.tree.runs, r.IsExplained := by
  intro r mem
  obtain ⟨before, e, after, split, closes, own⟩ := kept.exists_closing complete mem
  rw [kept.run?_of_split split closes] at own
  refine isExplained_apply _ closes (said e (by simp [split])) (fun node left => ?_) e.time own
  -- A suite has no step of a test.
  refine (noted_new t.outline node).replay fun other listed leaf => ?_
  have due {e : Applied} (mem : e ∈ entries) : e.step ∈ t.plan := kept.map_step complete ▸ List.mem_map_of_mem mem
  have left' : Step.exit node ∈ t.plan := left ▸ due (by simp [split])
  have leaf' : Step.leaf node ∈ t.plan := leaf ▸ due (by simp [split, listed])
  obtain ⟨n, known⟩ := t.exists_node left'
  have suite := (Node.of_mem_steps (SuiteTree.mem_steps_of_node? left' known)).2
  have test := (Node.of_mem_steps (SuiteTree.mem_steps_of_node? leaf' known)).2
  rw [← suite] at test
  cases test

/-- The observers are told of every run when it is over. -/
theorem exists_told {r : Run} (mem : r ∈ g.tree.runs) : ∃ e ∈ g.events, e.kind ≠ .suiteStarted ∧ e.run = r := by
  obtain ⟨before, e, after, split, closes, own⟩ := kept.exists_closing complete mem
  refine ⟨⟨e.step.eventKind, r, e.time⟩, ?_, e.step.closes_iff.1 closes, rfl⟩
  rw [kept.run?_of_split split closes] at own
  rw [events, List.mem_reverse, kept.told_eq, mem_told_replay]
  exact .inr ⟨before, e, after, split, by rw [own]; rfl⟩

end Kept

end Aggregator

end TestIsolation
