import TestIsolation.Proofs.Schedule.Course
import TestIsolation.Proofs.Suite.Lineage
import TestIsolation.Schedule.EventLoop

/-!
# Barriers and the bound on jobs

The unit of a suite's fixture is a barrier: it starts when every earlier step is settled, and nothing is dispatched
before it is settled itself. This holds of every state that a run passes through (`Visited`), as does the bound on what
is in flight at once (`barriers_hold`).
-/

namespace TestIsolation

set_option autoImplicit false

/-- Anything may happen. -/
def Conduct.free (υ : Type) : Conduct υ := ⟨fun _ _ => True, fun _ _ => True, True⟩

theorem Conduct.starts_free {β υ : Type} (control : UnitControl β υ) :
    ∀ seq plan limit, (Conduct.free υ).mayStart seq (control.start seq plan limit) := fun _ _ _ => trivial

namespace Execution

variable {β υ : Type} {a : Assignment β} {rules : Conduct υ} {x y : Execution υ}

/-- The states that a run passes through: at its start, when it was told to stop or not, after every step that it
dispatches and after every unit that it looks at, whatever comes of it. -/
inductive Visited (a : Assignment β) : Execution υ → Prop where
  | new : Visited a (new a)
  | interrupt {x : Execution υ} (before : Visited a x) (control : UnitControl β υ) (stop : Bool) :
      Visited a (x.interrupt control stop)
  | dispatch {x y : Execution υ} {control : UnitControl β υ} {step : Step} {now : Timestamp} (before : Visited a x)
      (due : x.aggregator.steps[x.cursor]? = some step) (dispatched : x.dispatchStep a control step now = some y) :
      Visited a { y with cursor := y.cursor + 1 }
  | inspect {x : Execution υ} (before : Visited a x) (control : UnitControl β υ)
      (look : InFlight υ → υ × Option Completion) (now : Timestamp) (seq : Nat) :
      Visited a (x.inspect a control look now seq)

theorem Visited.reachable (visited : Visited a x) : Reachable a (.free υ) x := by
  induction visited with
  | new => exact .refl
  | interrupt before control stop ih => exact ih.trans (moves_interrupt control fun _ => trivial)
  | dispatch before due dispatched ih =>
    obtain ⟨move, cursor, _⟩ := move_of_dispatchStep (Conduct.starts_free _) due dispatched
    rw [cursor]
    exact ih.tail move
  | inspect before control look now seq ih => exact ih.trans (moves_inspect (fun _ _ _ _ => trivial) seq)

/-- Dispatching passes through visited states only. -/
theorem Visited.dispatchAll {control : UnitControl β υ} {now : Timestamp} (visited : Visited a x) (steps : List Step)
    (rest : steps = x.aggregator.steps.drop x.cursor) : Visited a (x.dispatchAll a control now steps) := by
  induction steps generalizing x with
  | nil => exact visited
  | cons step steps ih =>
    have due : x.aggregator.steps[x.cursor]? = some step := by
      rw [← List.head?_drop, ← rest]
      rfl
    simp only [Execution.dispatchAll]
    cases dispatched : x.dispatchStep a control step now with
    | none => exact visited
    | some y =>
      obtain ⟨_, cursor, same⟩ := move_of_dispatchStep (Conduct.starts_free control) due dispatched
      refine ih (visited.dispatch due dispatched) ?_
      rw [same, cursor, ← List.tail_drop, ← rest, List.tail_cons]

theorem Visited.collect (visited : Visited a x) (control : UnitControl β υ) (look : InFlight υ → υ × Option Completion)
    (now : Timestamp) : Visited a (x.collect a control look now) := by
  unfold Execution.collect
  generalize x.inFlight.map (·.seq) = seqs
  induction seqs generalizing x with
  | nil => exact visited
  | cons seq seqs ih => exact ih (visited.inspect control look now seq)

theorem Visited.prepared (visited : Visited a x) (r : Round β υ) : Visited a (x.prepared a r) :=
  (visited.interrupt r.control r.stop).dispatchAll _ rfl

theorem Visited.round (visited : Visited a x) (r : Round β υ) : Visited a (x.round a r) :=
  (visited.prepared r).collect _ _ _

/-! ## What is in flight and in the log -/

/-- When a suite's unit was started, all earlier steps had been reported. -/
def Drained (a : Assignment β) (changes : List Change) : Prop :=
  ∀ change before, change :: before <:+ changes → change.after = .spawning →
    (∀ step, a.outline.steps[change.seq]? = some step → step.isSuite = true) →
      ∀ seq < change.seq, seq ∈ reportedIn before

theorem Drained.cons {changes : List Change} (drained : Drained a changes) {change : Change}
    (first : change.after = .spawning →
      (∀ step, a.outline.steps[change.seq]? = some step → step.isSuite = true) →
        ∀ seq < change.seq, seq ∈ reportedIn changes) : Drained a (change :: changes) := by
  intro other before listed spawning suite
  rcases List.suffix_cons_iff.1 listed with same | listed
  · cases same
    exact first spawning suite
  · exact drained other before listed spawning suite

/-- A change that starts no unit. -/
theorem Drained.other {changes : List Change} (drained : Drained a changes) {change : Change}
    (later : change.after ≠ .spawning) : Drained a (change :: changes) :=
  drained.cons fun spawning => absurd spawning later

/-- A run keeps the bound on its jobs, and the order of its steps at fixtures. -/
structure Ordered (a : Assignment β) (x : Execution υ) : Prop where
  room : x.flights.length ≤ a.settings.effectiveJobs
  /-- What is in flight belongs to the node of its step, and is a barrier if that is a suite's. -/
  kinds : ∀ f ∈ x.flights, ∃ step n, a.outline.steps[f.seq]? = some step ∧
    a.outline.node? step.node = some n ∧ f.node = n.index ∧ f.barrier = step.isSuite
  dispatched : ∀ change ∈ x.changes, change.seq < x.cursor
  drained : Drained a x.changes

namespace Ordered

theorem new (a : Assignment β) : Ordered a (new a : Execution υ) where
  room := Nat.zero_le _
  kinds := by simp [Execution.new, flights]
  dispatched := by simp [Execution.new]
  drained := by simp [Execution.new, Drained]

/-- Nothing new is in flight. -/
theorem shrink (ordered : Ordered a x) (flights : y.flights.Sublist x.flights)
    (dispatched : ∀ change ∈ y.changes, change.seq < y.cursor) (drained : Drained a y.changes) : Ordered a y where
  room := Nat.le_trans flights.length_le ordered.room
  kinds := fun f mem => ordered.kinds f (flights.subset mem)
  dispatched := dispatched
  drained := drained

/-- The changes so far were of steps before the cursor, wherever it goes. -/
theorem dispatched_cons (ordered : Ordered a x) {cursor : Nat} (le : x.cursor ≤ cursor) :
    ∀ change ∈ x.changes, change.seq < cursor :=
  fun change mem => Nat.lt_of_lt_of_le (ordered.dispatched change mem) le

/-- The next step is settled without a unit. -/
theorem report (ordered : Ordered a x) (c : Option Completion) (now : Timestamp) :
    Ordered a { x.report x.cursor c now with cursor := x.cursor + 1 } := by
  refine ordered.shrink (List.Sublist.refl _) ?_ ?_
  · exact List.forall_mem_cons.2 ⟨Nat.lt_succ_self _, ordered.dispatched_cons (Nat.le_succ _)⟩
  · exact ordered.drained.other (by simp)

/-- The unit of the next step may be started. -/
theorem drained_spawning (ordered : Ordered a x) (sound : Sound a x) {step : Step}
    (due : x.aggregator.steps[x.cursor]? = some step) (alone : step.isSuite = true → x.inFlight = [])
    (before : UnitState) : Drained a (⟨x.cursor, before, .spawning⟩ :: x.changes) := by
  refine ordered.drained.cons fun _ suite seq early => ?_
  have nothing : x.flights = [] := (flights_eq_nil x).2 (alone (suite step (sound.steps ▸ due)))
  exact (sound.reported seq).2 ⟨early, by simp [nothing]⟩

theorem launch (ordered : Ordered a x) (sound : Sound a x) {step : Step} {n n' : Node β} {plan : UnitPlan β}
    {barrier : Bool} {control : UnitControl β υ} (due : x.aggregator.steps[x.cursor]? = some step)
    (found : a.outline.node? step.node = some n) (decided : a.decision x.blocked step n = .launch n' plan barrier)
    (alone : barrier = true → x.inFlight = [])
    (room : barrier = false → x.inFlight.length < a.settings.effectiveJobs) (now : Timestamp) :
    Ordered a { x.launch a control x.cursor n' plan barrier now with cursor := x.cursor + 1 } := by
  obtain ⟨rfl, rfl⟩ := Assignment.decision_eq_launch decided
  have spawning := ordered.drained_spawning sound due alone
  have earlier := ordered.dispatched_cons (Nat.le_succ _)
  cases started : control.start x.cursor plan (a.limit? n') with
  | ok unit =>
    rw [launch_of_ok started]
    exact {
      room := by
        have jobs : 0 < a.settings.effectiveJobs := by
          simp only [Settings.effectiveJobs]
          omega
        simp only [flights, List.map_append, List.map_singleton, List.length_append, List.length_map,
          List.length_singleton]
        cases suite : step.isSuite with
        | true =>
          rw [alone suite]
          exact jobs
        | false => exact room suite
      kinds := by
        intro f mem
        simp only [flights, List.map_append, List.map_singleton, List.mem_append, List.mem_singleton] at mem
        rcases mem with mem | rfl
        · exact ordered.kinds f mem
        · exact ⟨step, n', sound.steps ▸ due, found, rfl, rfl⟩
      dispatched := List.forall_mem_cons.2 ⟨Nat.lt_succ_self _, List.forall_mem_cons.2 ⟨Nat.lt_succ_self _, earlier⟩⟩
      drained := (spawning _).other (by simp) }
  | error e =>
    rw [launch_of_error started]
    refine ordered.shrink ?_ ?_ ?_
    · exact (flights_settle _ _ _ _ _ _ _).symm ▸ List.Sublist.refl _
    · rw [changes_settle]
      exact List.forall_mem_cons.2 ⟨Nat.lt_succ_self _, List.forall_mem_cons.2 ⟨Nat.lt_succ_self _,
        List.forall_mem_cons.2 ⟨Nat.lt_succ_self _, earlier⟩⟩⟩
    · rw [changes_settle]
      exact ((spawning _).other (by simp)).other (by simp)

theorem finish (ordered : Ordered a x) (sound : Sound a x) {f : InFlight υ} (flying : f ∈ x.inFlight)
    (control : UnitControl β υ) (c : Completion) (now : Timestamp) : Ordered a (x.retire a control f c now) := by
  have early := sound.flying_lt_cursor flying
  rw [retire_eq]
  refine ordered.shrink ?_ ?_ ?_
  · rw [flights_settle]
    exact (flights_filter x f.seq).symm ▸ List.filter_sublist
  · rw [changes_settle, cursor_settle]
    exact List.forall_mem_cons.2 ⟨early, List.forall_mem_cons.2 ⟨early, ordered.dispatched⟩⟩
  · rw [changes_settle]
    exact (ordered.drained.other (by simp)).other (by simp)

/-- **Every move keeps the order.** -/
theorem move (ordered : Ordered a x) (sound : Sound a x) (move : Move a rules x y) : Ordered a y := by
  cases move with
  | interrupt control running told =>
    exact ordered.shrink ((flights_haltFor x control _).symm ▸ List.Sublist.refl _) ordered.dispatched ordered.drained
  | update seq unit =>
    exact ordered.shrink ((flights_replace x seq unit).symm ▸ List.Sublist.refl _) ordered.dispatched ordered.drained
  | giveUp due free halted now => exact ordered.report _ now
  | pass due free running found decided now => exact ordered.report _ now
  | launch due free running found decided alone room start now =>
    exact ordered.launch sound due found decided alone room now
  | finish flying control ends now => exact ordered.finish sound flying control _ now

end Ordered

theorem Reachable.ordered (reachable : Reachable a rules x) : Ordered a x := by
  induction reachable with
  | refl => exact .new a
  | tail before move ih => exact ih.move (Reachable.sound before) move

/-- A step whose unit was started is in the log. -/
theorem mem_started_iff {seq : Nat} :
    seq ∈ x.started ↔ ∃ change ∈ x.changes, change.after = .spawning ∧ change.seq = seq := by
  simp [started, and_assoc]

/-- What a run of a suite tree keeps to. -/
structure Orderly (t : SuiteTree β) (settings : Settings) (x : Execution υ) : Prop where
  jobs : x.inFlight.length ≤ settings.effectiveJobs
  /-- A unit in flight is a barrier if it is that of a suite's step. -/
  kinds : ∀ f ∈ x.inFlight, ∃ step, t.plan[f.seq]? = some step ∧ step.node = f.node ∧ f.barrier = step.isSuite
  /-- A barrier is alone, -/
  alone : ∀ f ∈ x.inFlight, f.barrier = true → x.inFlight = [f]
  /-- and while it is in flight nothing has been done about later steps. -/
  halts : ∀ f ∈ x.inFlight, f.barrier = true → ∀ seq, f.seq < seq → seq ∉ x.started ∧ seq ∉ x.reported
  /-- The log has every earlier step reported when a suite's unit is started. -/
  drained : ∀ change before, change :: before <:+ x.changes → change.after = .spawning →
    (∃ step, t.plan[change.seq]? = some step ∧ step.isSuite = true) → ∀ seq < change.seq, seq ∈ reportedIn before
  /-- When a step starts a suite's unit, nothing is in flight and every earlier step is settled. -/
  settled : ∀ (control : UnitControl β υ) (step : Step) (now : Timestamp) (y : Execution υ),
    t.plan[x.cursor]? = some step → step.isSuite = true →
      x.dispatchStep ⟨t.outline, settings⟩ control step now = some y → x.cursor ∈ y.started →
        x.inFlight = [] ∧ ∀ seq < x.cursor, x.states[seq]? = some .reported

/-- A step that starts a suite's unit found nothing in flight. -/
theorem Ordered.idle_of_started {control : UnitControl β υ} {step : Step} {now : Timestamp} (ordered : Ordered a x)
    (suite : step.isSuite = true) (dispatched : x.dispatchStep a control step now = some y)
    (started : x.cursor ∈ y.started) : x.inFlight = [] := by
  have fresh : x.cursor ∉ x.started := by
    intro before
    obtain ⟨change, listed, _, own⟩ := mem_started_iff.1 before
    exact absurd (ordered.dispatched change listed) (by omega)
  have quiet (c : Option Completion) : x.cursor ∉ (x.report x.cursor c now).started := by
    simpa [Execution.started] using fresh
  obtain ⟨_, ⟨halt, _, rfl⟩ | ⟨n, _, _, fits, rfl⟩⟩ := dispatchStep_eq_some dispatched
  · exact absurd started (quiet _)
  · cases decided : a.decision x.blocked step n with
    | pass reason =>
      rw [decided] at started
      exact absurd started (quiet _)
    | launch n' plan barrier =>
      obtain ⟨_, rfl⟩ := Assignment.decision_eq_launch decided
      rw [decided, suite] at fits
      exact fits

theorem Ordered.orderly {t : SuiteTree β} {settings : Settings} (ordered : Ordered ⟨t.outline, settings⟩ x)
    (sound : Sound ⟨t.outline, settings⟩ x) : Orderly t settings x where
  jobs := by
    have room := ordered.room
    rwa [flights, List.length_map] at room
  kinds := by
    intro f flying
    obtain ⟨step, n, due, found, node, barrier⟩ := ordered.kinds _ (mem_flights x flying)
    exact ⟨step, due, ((SuiteTree.node?_iff.1 found).2.symm.trans node.symm), barrier⟩
  alone := by
    intro f flying barrier
    obtain ⟨only, _⟩ := sound.alone _ (mem_flights x flying) barrier
    obtain ⟨g, single, _⟩ := List.map_eq_singleton_iff.1 only
    rw [single, List.mem_singleton] at flying
    rw [single, flying]
  halts := by
    intro f flying barrier seq later
    obtain ⟨_, last⟩ := sound.alone _ (mem_flights x flying) barrier
    have last : f.seq + 1 = x.cursor := last
    refine ⟨fun started => ?_, fun reported => ?_⟩
    · obtain ⟨change, listed, _, own⟩ := mem_started_iff.1 started
      have early := ordered.dispatched change listed
      omega
    · have early := ((sound.reported seq).1 reported).1
      omega
  drained := by
    rintro change before listed spawning ⟨step, due, suite⟩
    refine ordered.drained change before listed spawning ?_
    intro other found
    rw [show t.plan[change.seq]? = some other from found, Option.some.injEq] at due
    exact due ▸ suite
  settled := by
    intro control step now y due suite dispatched started
    have idle := ordered.idle_of_started suite dispatched started
    refine ⟨idle, fun seq early => ?_⟩
    have bound := sound.cursor
    rw [sound.states seq (by omega), place, if_neg (by omega), (flights_eq_nil x).2 idle]
    rfl

end Execution

/-! ## The event loop -/

namespace Loop

open Execution

variable {β : Type} {a : Assignment β} {w : World β}

/-- However often the loop goes round, it comes to a visited state. -/
theorem visited_drive (start : Interruption) (fuel : Nat) {l : Loop} (visited : Visited a l.execution) :
    Visited a (drive a w start l fuel).1 := by
  obtain ⟨clock, visited⟩ := drive_induction (P := fun l => Visited a l.execution)
    (fun l visited => (visited.interrupt _ _).dispatchAll _ rfl) (fun l later visited _ => visited.collect _ _ _)
    visited fuel
  exact visited

end Loop

open Execution in
/-- **Barriers and the bound on jobs hold throughout a run.** Whatever is told, started or looked at in a run of a suite
tree, in every state that it passes through: at most as many units are in flight as there are jobs; the unit of a
suite's fixture is in flight alone, and until it is settled no later step is started or reported; and when it was
started, every earlier step had been reported, and nothing was in flight any more. So it is in the event loop, however
often it goes round. -/
theorem barriers_hold {β υ : Type} (t : SuiteTree β) (settings : Settings) :
    (∀ x : Execution υ, Visited ⟨t.outline, settings⟩ x → Orderly t settings x) ∧
      ∀ (w : World β) (start : Interruption) (fuel : Nat),
        Orderly t settings
          (Loop.drive ⟨t.outline, settings⟩ w start ⟨.new ⟨t.outline, settings⟩, w.clock⟩ fuel).1 := by
  have orderly {υ : Type} {x : Execution υ} (visited : Visited ⟨t.outline, settings⟩ x) : Orderly t settings x :=
    visited.reachable.ordered.orderly visited.reachable.sound
  exact ⟨fun _ => orderly, fun w start fuel => orderly (Loop.visited_drive start fuel .new)⟩

open Execution in
/-- A suite with a setup and two tests on two jobs: the setup is alone in the first round, and the tests are in flight
together in the second. -/
theorem barriers_hold_two_jobs :
    let t : SuiteTree Nat := .suite { name := "s", setup := .explicit 0 }
      [.test { name := "a" } 1, .test { name := "b" } 2]
    let settings : Settings := { jobs := 2 }
    let a : Assignment Nat := ⟨t.outline, settings⟩
    let r : Round Nat Unit :=
      .prompt (fun _ => .ok ()) (fun _ => { status := .passed, startedAt := 5, endedAt := 6 }) false
    let x := (new a).prepared a r
    let y := ((new a).round a r).prepared a r
    x.inFlight.map (fun f => (f.seq, f.barrier)) = [(0, true)] ∧
      y.inFlight.map (fun f => (f.seq, f.barrier)) = [(1, false), (2, false)] ∧ Orderly t settings x ∧
      Orderly t settings y := by
  intro t settings a r x y
  have first : Visited a x := Visited.new.prepared r
  have second : Visited a y := (Visited.new.round r).prepared r
  exact ⟨by decide +kernel, by decide +kernel, (barriers_hold t settings).1 x first,
    (barriers_hold t settings).1 y second⟩

end TestIsolation
