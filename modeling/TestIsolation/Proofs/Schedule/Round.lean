import TestIsolation.Proofs.Schedule.Move

/-!
# Rounds

In a round, a run is stopped if it was told to, dispatches steps, and looks at its units. A round is a chain of moves
(`moves_prepared`, `moves_round`), and after it has dispatched, a run has come to the end of its steps or waits for
something in flight (`flying_of_prepared`).
-/

namespace TestIsolation

set_option autoImplicit false

namespace Execution

variable {β υ : Type} {a : Assignment β} {rules : Conduct υ} {x y : Execution υ} {control : UnitControl β υ}
  {now : Timestamp}

theorem dispatchHalted_eq (halt : Halt) (seq : Nat) (step : Step) :
    x.dispatchHalted halt seq step now = x.report seq (halt.completion step now) now := by
  cases step <;> rfl

/-- Carries a decision out for the next step. -/
def perform (a : Assignment β) (control : UnitControl β υ) (now : Timestamp) (x : Execution υ) :
    Decision β → Execution υ
  | .pass reason => x.report x.cursor (skipped reason now) now
  | .launch n plan barrier => x.launch a control x.cursor n plan barrier now

/-- Whether a decision has to wait for what is in flight. -/
def Fits (a : Assignment β) (x : Execution υ) : Decision β → Prop
  | .pass _ => True
  | .launch _ _ true => x.inFlight = []
  | .launch _ _ false => x.inFlight.length < a.settings.effectiveJobs

theorem dispatchTest_eq_some {node : Nat} {n : Node β} (h : x.dispatchTest a control x.cursor n now = some y) :
    x.Fits a (a.decision x.blocked (.leaf node) n) ∧
      y = x.perform a control now (a.decision x.blocked (.leaf node) n) := by
  unfold dispatchTest at h
  split at h
  · cases h
  rename_i room
  rw [show x.blockage? n = Assignment.blockageIn x.blocked n from rfl] at h
  unfold Assignment.decision
  cases blocked : Assignment.blockageIn x.blocked n with
  | some blockage =>
    simp only [blocked, Option.some.injEq] at h
    exact ⟨trivial, h.symm⟩
  | none =>
    simp only [blocked] at h
    cases selected : a.selects n with
    | true =>
      simp only [selected, if_true, Option.some.injEq] at h
      refine ⟨?_, h.symm⟩
      simp only [if_true, Fits]
      omega
    | false =>
      simp only [selected, Bool.false_eq_true, if_false, Option.some.injEq] at h
      exact ⟨trivial, h.symm⟩

theorem dispatchSuite_eq_some {step : Step} (suite : ∀ node, step ≠ .leaf node) {n : Node β}
    (h : x.dispatchSuite a control x.cursor step n now = some y) :
    x.Fits a (a.decision x.blocked step n) ∧ y = x.perform a control now (a.decision x.blocked step n) := by
  unfold dispatchSuite at h
  rw [show x.blockage? n = Assignment.blockageIn x.blocked n from rfl] at h
  cases fixture : Assignment.fixturePlan? n step with
  | none =>
    have decided : a.decision x.blocked step n = .pass none := by
      cases step with
      | leaf node => exact absurd rfl (suite node)
      | enter node | exit node => simp only [Assignment.decision, fixture]
    simp only [fixture, Option.some.injEq] at h
    rw [decided]
    exact ⟨trivial, h.symm⟩
  | some plan =>
    have decided : a.decision x.blocked step n =
        if (Assignment.blockageIn x.blocked n).isNone && a.selects n then .launch n plan true else .pass none := by
      cases step with
      | leaf node => exact absurd rfl (suite node)
      | enter node | exit node => simp only [Assignment.decision, fixture]
    simp only [fixture] at h
    rw [decided]
    split at h
    · rename_i runs
      simp only [runs, if_true]
      split at h
      · rename_i idle
        exact ⟨List.isEmpty_iff.1 idle, (Option.some.inj h).symm⟩
      · cases h
    · rename_i stays
      simp only [stays, if_false, Bool.false_eq_true]
      exact ⟨trivial, (Option.some.inj h).symm⟩

/-- A step that is dispatched is settled for a halt, or as decided. -/
theorem dispatchStep_eq_some {step : Step} (h : x.dispatchStep a control step now = some y) :
    x.inFlight.any (·.barrier) = false ∧
      ((∃ halt, x.halt = some halt ∧ y = x.report x.cursor (halt.completion step now) now) ∨
        ∃ n, x.halt = none ∧ a.outline.node? step.node = some n ∧ x.Fits a (a.decision x.blocked step n) ∧
          y = x.perform a control now (a.decision x.blocked step n)) := by
  unfold dispatchStep at h
  split at h
  · cases h
  rename_i free
  refine ⟨by simpa using free, ?_⟩
  cases halted : x.halt with
  | some halt =>
    simp only [halted, Option.some.injEq] at h
    exact .inl ⟨halt, rfl, by rw [← h, dispatchHalted_eq]⟩
  | none =>
    cases found : a.outline.node? step.node with
    | none => simp [halted, found] at h
    | some n =>
      simp only [halted, found] at h
      refine .inr ⟨n, rfl, rfl, ?_⟩
      cases step with
      | leaf node => exact dispatchTest_eq_some h
      | enter node => exact dispatchSuite_eq_some (by simp) h
      | exit node => exact dispatchSuite_eq_some (by simp) h

/-- A step that a run waits with has something in flight before it. -/
theorem flying_of_dispatchStep_eq_none {step : Step} {n : Node β} (found : a.outline.node? step.node = some n)
    (h : x.dispatchStep a control step now = none) : x.inFlight ≠ [] := by
  intro nothing
  have jobs : ¬a.settings.effectiveJobs ≤ 0 := by
    simp only [Settings.effectiveJobs]
    omega
  cases halted : x.halt with
  | some halt => simp [dispatchStep, halted, nothing] at h
  | none =>
    cases step with
    | leaf node =>
      simp only [dispatchStep, nothing, halted, found, dispatchTest, List.any_nil, Bool.false_eq_true, if_false,
        List.length_nil, jobs] at h
      split at h
      · cases h
      · split at h <;> cases h
    | enter node | exit node =>
      simp only [dispatchStep, nothing, halted, found, dispatchSuite, List.any_nil, Bool.false_eq_true, if_false,
        List.isEmpty_nil, if_true] at h
      split at h
      · split at h <;> cases h
      · cases h

/-! ## Dispatching is a chain of moves -/

theorem move_of_dispatchStep (starts : ∀ seq plan limit, rules.mayStart seq (control.start seq plan limit))
    {step : Step} (due : x.aggregator.steps[x.cursor]? = some step) (h : x.dispatchStep a control step now = some y) :
    Move a rules x { y with cursor := x.cursor + 1 } ∧ y.cursor = x.cursor ∧
      y.aggregator.steps = x.aggregator.steps := by
  obtain ⟨free, ⟨halt, halted, rfl⟩ | ⟨n, running, found, fits, rfl⟩⟩ := dispatchStep_eq_some h
  · exact ⟨.giveUp due free halted now, rfl, Aggregator.steps_submit _ _ _ _⟩
  · cases decided : a.decision x.blocked step n with
    | pass reason => exact ⟨.pass due free running found decided now, rfl, Aggregator.steps_submit _ _ _ _⟩
    | launch n' plan barrier =>
      rw [decided] at fits
      refine ⟨.launch due free running found decided ?_ ?_ (starts _ _ _) now, cursor_launch barrier now,
        steps_launch barrier now⟩
      · rintro rfl
        exact fits
      · rintro rfl
        exact fits

/-- Dispatching goes on until no step is left or the next one has to wait. -/
theorem moves_dispatchAll (now : Timestamp)
    (starts : ∀ seq plan limit, rules.mayStart seq (control.start seq plan limit)) (steps : List Step)
    (rest : steps = x.aggregator.steps.drop x.cursor) :
    Moves a rules x (x.dispatchAll a control now steps) ∧
      (let y := x.dispatchAll a control now steps
       y.aggregator.steps.length ≤ y.cursor ∨
        ∃ step ∈ y.aggregator.steps, y.dispatchStep a control step now = none) := by
  induction steps generalizing x with
  | nil =>
    refine ⟨.refl, .inl ?_⟩
    exact List.drop_eq_nil_iff.1 rest.symm
  | cons step steps ih =>
    have due : x.aggregator.steps[x.cursor]? = some step := by
      rw [← List.head?_drop, ← rest]
      rfl
    simp only [dispatchAll]
    cases dispatched : x.dispatchStep a control step now with
    | none => exact ⟨.refl, .inr ⟨step, List.mem_of_getElem? due, dispatched⟩⟩
    | some y =>
      obtain ⟨move, cursor, same⟩ := move_of_dispatchStep starts due dispatched
      have next : steps = y.aggregator.steps.drop (y.cursor + 1) := by
        rw [same, cursor, ← List.tail_drop, ← rest, List.tail_cons]
      obtain ⟨moves, stop⟩ := ih (x := { y with cursor := y.cursor + 1 }) next
      rw [← cursor] at move
      exact ⟨.head move moves, stop⟩

theorem moves_dispatch (starts : ∀ seq plan limit, rules.mayStart seq (control.start seq plan limit)) :
    Moves a rules x (x.dispatch a control now) :=
  (moves_dispatchAll now starts _ rfl).1

theorem moves_interrupt (control : UnitControl β υ) {stop : Bool} (told : stop = true → rules.mayStop) :
    Moves a rules x (x.interrupt control stop) := by
  unfold interrupt
  split
  · rename_i stops
    rw [Bool.and_eq_true, Option.isNone_iff_eq_none] at stops
    exact .single (.interrupt control stops.1 (told stops.2))
  · exact .refl

/-! ## Looking at units is a chain of moves -/

theorem moves_inspect {look : InFlight υ → υ × Option Completion}
    (ends : ∀ f unit c, look f = (unit, some c) → rules.mayEnd f c) (seq : Nat) :
    Moves a rules x (x.inspect a control look now seq) := by
  unfold inspect
  cases flying : x.inFlight.find? (·.seq = seq) with
  | none => exact .refl
  | some f =>
    rcases looked : look f with ⟨unit, _ | c⟩
    · simp only [looked]
      exact .single (.update seq unit)
    · simp only [looked]
      exact .single (.finish (List.mem_of_find?_eq_some flying) control (ends f unit c looked) now)

theorem moves_collect {look : InFlight υ → υ × Option Completion}
    (ends : ∀ f unit c, look f = (unit, some c) → rules.mayEnd f c) :
    Moves a rules x (x.collect a control look now) := by
  unfold collect
  generalize x.inFlight.map (·.seq) = seqs
  induction seqs generalizing x with
  | nil => exact .refl
  | cons seq seqs ih => exact (moves_inspect ends seq).trans ih

end Execution

/-! ## Rounds -/

/-- What a run meets in one round. -/
structure Round (β υ : Type) where
  /-- The run is told to stop. -/
  stop : Bool
  /-- How units are started and killed before the wait. -/
  control : UnitControl β υ
  now : Timestamp
  /-- How units are killed after the wait. -/
  controlLater : UnitControl β υ
  /-- What a look at a unit gives after the wait. -/
  look : InFlight υ → υ × Option Completion
  later : Timestamp

/-- A round in which nothing happens that may not. -/
structure Round.Follows {β υ : Type} (r : Round β υ) (rules : Conduct υ) : Prop where
  starts : ∀ seq plan limit, rules.mayStart seq (r.control.start seq plan limit)
  ends : ∀ f unit c, r.look f = (unit, some c) → rules.mayEnd f c
  stops : r.stop = true → rules.mayStop

namespace Execution

variable {β υ : Type}

/-- The state of a run when it starts to wait. -/
def prepared (a : Assignment β) (r : Round β υ) (x : Execution υ) : Execution υ :=
  (x.interrupt r.control r.stop).dispatch a r.control r.now

/-- The state of a run after a round. -/
def round (a : Assignment β) (r : Round β υ) (x : Execution υ) : Execution υ :=
  (x.prepared a r).collect a r.controlLater r.look r.later

variable {a : Assignment β} {rules : Conduct υ} {r : Round β υ}

theorem moves_prepared (follows : r.Follows rules) (x : Execution υ) : Moves a rules x (x.prepared a r) :=
  (moves_interrupt r.control follows.stops).trans (moves_dispatch follows.starts)

theorem moves_collected (follows : r.Follows rules) (x : Execution υ) :
    Moves a rules (x.prepared a r) (x.round a r) := moves_collect follows.ends

/-- **A run that has dispatched waits for something in flight**, or is at the end of its steps. -/
theorem flying_of_prepared (follows : r.Follows rules) {x : Execution υ}
    (nodes : ∀ step ∈ (x.prepared a r).aggregator.steps, ∃ n, a.outline.node? step.node = some n)
    (more : (x.prepared a r).cursor < (x.prepared a r).aggregator.steps.length) : (x.prepared a r).inFlight ≠ [] := by
  have stop := (moves_dispatchAll (a := a) (x := x.interrupt r.control r.stop) r.now follows.starts _ rfl).2
  rcases stop with done | ⟨step, mem, waits⟩
  · exact absurd more (Nat.not_lt.2 done)
  · obtain ⟨n, found⟩ := nodes step mem
    exact flying_of_dispatchStep_eq_none found waits

end Execution

end TestIsolation
