import TestIsolation.Proofs.Schedule.Bookkeeping
import TestIsolation.Proofs.Schedule.ProcessEnd
import TestIsolation.Proofs.Schedule.Settlement

/-!
# Runs on a clock

A run on a clock goes on in `Tick`s: time passes, the run is told to stop, a step is dispatched, or a unit is looked
at. Nothing says how much time passes, or that a unit is looked at soon after there is something to see. What one tick
does to a unit in flight is said once (`Tick.flying`, `Tick.goes`): it stays as it is, is killed or looked at, or its
end is seen and its completion is handed in.
-/

namespace TestIsolation

set_option autoImplicit false

/-- What becomes of a unit that stays in flight. -/
inductive Running.Evolves (clock later : Instant) (now : Timestamp) (u : Running) : Running → Prop where
  | kept (le : clock.nanos ≤ later.nanos) : Evolves clock later now u u
  | killed (cause : KillCause) (le : clock.nanos ≤ later.nanos) : Evolves clock later now u (u.killFor cause later)
  | glanced (g : Glance) (inTurn : g.InTurn clock) (last : g.struck = later) (goes : (u.glance g now).2 = none) :
      Evolves clock later now u (u.glance g now).1

theorem Glance.InTurn.le {g : Glance} {clock : Instant} (inTurn : g.InTurn clock) : clock.nanos ≤ g.struck.nanos := by
  have pumped := inTurn.pumped
  have reaped := inTurn.reaped
  have struck := inTurn.struck
  omega

/-- A unit in flight stays steady. -/
theorem Running.Steady.evolves {u v : Running} {clock later : Instant} {now : Timestamp} (steady : u.Steady clock)
    (evolves : Evolves clock later now u v) : v.Steady later := by
  cases evolves with
  | kept le => exact steady.mono le
  | killed cause le => exact steady.killFor le cause
  | glanced g inTurn last goes =>
    subst last
    exact steady.glance inTurn goes

/-- A unit in flight keeps the first reason it was killed for. -/
theorem Running.Steady.kill_evolves {u v : Running} {clock later : Instant} {now : Timestamp} {cause : KillCause}
    (steady : u.Steady clock) (evolves : Evolves clock later now u v) (killed : u.supervision.kill = some cause) :
    v.supervision.kill = some cause := by
  cases evolves with
  | kept le => exact killed
  | killed other le => rwa [killFor_of_killed (by rw [killed]; rfl)]
  | glanced g inTurn last goes =>
    obtain ⟨c, completed, _⟩ := glance_of_killed steady killed inTurn now
    rw [completed] at goes
    cases goes

theorem Conduct.starts_any {β υ : Type} (control : UnitControl β υ) :
    ∀ seq plan limit, (Conduct.any υ).mayStart seq (control.start seq plan limit) := fun _ _ _ => trivial

/-- A unit that could not be started is no reason to give the run up. -/
theorem StartError.status_ne (e : StartError) (now : Timestamp) : (e.completion now).status ≠ .terminated := nofun

/-- A unit that is decided on is that of its step. -/
theorem Loop.plan?_of_launch {β : Type} {a : Assignment β} {blocked : List (Option Blockage)} {step : Step}
    {n n' : Node β} {plan : UnitPlan β} {barrier : Bool} (found : a.outline.node? step.node = some n)
    (decided : a.decision blocked step n = .launch n' plan barrier) : plan? a step = some plan := by
  rw [plan?, found]
  cases step with
  | leaf node =>
    simp only [Assignment.decision] at decided
    split at decided
    · cases decided
    · split at decided
      · cases decided
        rfl
      · cases decided
  | enter node | exit node =>
    simp only [Assignment.decision] at decided
    split at decided
    · rename_i fixture
      split at decided
      · cases decided
        exact fixture
      · cases decided
    · cases decided

namespace Execution

variable {β υ : Type} {a : Assignment β} {x y : Execution υ} {control : UnitControl β υ}

/-- What becomes of what is in flight when a unit has ended: nothing, or the run is given up for that. -/
theorem settle_cases (seq node : Nat) (barrier : Bool) (c : Completion) (now : Timestamp) :
    (x.settle a control seq node barrier c now).inFlight = x.inFlight ∧
        (x.settle a control seq node barrier c now).halt = x.halt ∨
      ((x.settle a control seq node barrier c now).inFlight =
          x.inFlight.map fun f => { f with unit := control.kill .abandon f.unit }) ∧
        x.halt = none ∧ (x.settle a control seq node barrier c now).halt = some .abandoned := by
  rw [settle_eq]
  split
  · rename_i stops
    exact .inr ⟨rfl, by simpa using stops.2.1, rfl⟩
  · exact .inl ⟨rfl, rfl⟩

/-- What is in flight once a step was dispatched. A unit that was started is that of the step, with the limit of its
node. -/
theorem inFlight_dispatchStep {step : Step} {now : Timestamp}
    (dispatched : x.dispatchStep a control step now = some y) :
    y.inFlight = x.inFlight ∨ ∃ n barrier unit plan, a.outline.node? step.node = some n ∧
      Loop.plan? a step = some plan ∧ control.start x.cursor plan (a.limit? n) = .ok unit ∧
      y.inFlight = x.inFlight ++ [⟨x.cursor, n.index, barrier, unit⟩] := by
  obtain ⟨_, ⟨halt, _, rfl⟩ | ⟨n, running, found, _, rfl⟩⟩ := dispatchStep_eq_some dispatched
  · exact .inl rfl
  · cases decided : a.decision x.blocked step n with
    | pass reason => exact .inl rfl
    | launch n' plan barrier =>
      obtain ⟨rfl, _⟩ := Assignment.decision_eq_launch decided
      simp only [perform]
      cases started : control.start x.cursor plan (a.limit? n') with
      | ok unit =>
        rw [launch_of_ok started]
        exact .inr ⟨n', _, unit, plan, found, Loop.plan?_of_launch found decided, started, rfl⟩
      | error e =>
        rw [launch_of_error started]
        rcases settle_cases _ _ _ _ _ with ⟨same, _⟩ | ⟨_, _, given⟩
        · exact .inl same
        · rw [halt_settle, if_neg fun stops => e.status_ne now stops.1, running] at given
          cases given

/-- What was handed in for a step is kept. -/
theorem Move.delivered {rules : Conduct υ} (move : Move a rules x y) {seq : Nat} {c : Option Completion}
    (given : x.aggregator.delivered[seq]? = some (some c)) : y.aggregator.delivered[seq]? = some (some c) := by
  rcases move.reports with ⟨same, _⟩ | ⟨other, c', now, submitted, _, _⟩
  · rw [same, given]
  · rw [submitted]
    by_cases due : x.aggregator.delivered[other]? = some none
    · have differs : other ≠ seq := by
        rintro rfl
        rw [given] at due
        cases due
      rw [Aggregator.delivered_submit due, List.getElem?_set_ne differs, given]
    · rw [Aggregator.submit_of_not_due due, given]

theorem Moves.delivered {rules : Conduct υ} (moves : Moves a rules x y) {seq : Nat} {c : Option Completion}
    (given : x.aggregator.delivered[seq]? = some (some c)) : y.aggregator.delivered[seq]? = some (some c) := by
  induction moves with
  | refl => exact given
  | tail _ move ih => exact move.delivered ih

/-- Nothing was handed in for a step that was not reported. -/
theorem Reachable.undelivered (reachable : Reachable a (.any υ) x) {seq : Nat} (inside : seq < a.outline.steps.length)
    (unreported : seq ∉ x.reported) : x.aggregator.delivered[seq]? = some none := by
  obtain ⟨ds, accounted⟩ := reachable.accounted fun _ _ ends => ends
  have absent : ds.find? (·.seq = seq) = none := by
    rw [List.find?_eq_none]
    intro d mem same
    have reported : d.seq ∈ x.reported := by
      rw [← List.mem_reverse, ← accounted.seqs]
      exact List.mem_map_of_mem mem
    rw [decide_eq_true_iff.1 same] at reported
    exact unreported reported
  rw [accounted.aggregator, Aggregator.delivered_submitAll, if_pos inside, absent]
  rfl

/-- Nothing was handed in for a step in flight. -/
theorem Reachable.undelivered_flying (reachable : Reachable a (.any υ) x) {f : InFlight υ} (flying : f ∈ x.inFlight) :
    x.aggregator.delivered[f.seq]? = some none := by
  have sound := reachable.sound
  exact reachable.undelivered (Nat.lt_of_lt_of_le (sound.flying_lt_cursor flying) sound.cursor)
    (sound.flying_not_reported flying)

/-- A unit in flight is the only one of its step. -/
theorem Sound.eq_of_flying (sound : Sound a x) {f g : InFlight υ} (flying : f ∈ x.inFlight) (other : g ∈ x.inFlight)
    (same : f.seq = g.seq) : f = g := by
  have nodup : (x.inFlight.map (·.seq)).Nodup := by
    have apart := sound.nodup
    rwa [flights, List.map_map] at apart
  exact List.inj_on_of_nodup_map nodup flying other same

theorem Sound.find?_flying (sound : Sound a x) {f : InFlight υ} (flying : f ∈ x.inFlight) :
    x.inFlight.find? (·.seq = f.seq) = some f := by
  cases found : x.inFlight.find? (·.seq = f.seq) with
  | none => exact absurd (decide_eq_true rfl) (List.find?_eq_none.1 found f flying)
  | some g => rw [sound.eq_of_flying (List.mem_of_find?_eq_some found) flying (by simpa using List.find?_some found)]

/-- What becomes of what is in flight when a unit is taken out. -/
theorem retire_cases (a : Assignment β) (control : UnitControl β υ) (x : Execution υ) (f : InFlight υ) (c : Completion)
    (now : Timestamp) :
    (x.retire a control f c now).inFlight = x.inFlight.filter (·.seq ≠ f.seq) ∧
        (x.retire a control f c now).halt = x.halt ∨
      ((x.retire a control f c now).inFlight =
          (x.inFlight.filter (·.seq ≠ f.seq)).map fun f => { f with unit := control.kill .abandon f.unit }) ∧
        x.halt = none ∧ (x.retire a control f c now).halt = some .abandoned :=
  settle_cases f.seq f.node f.barrier c now

/-- What comes of a look: there is no such unit in flight, the unit goes on, or it has ended. -/
theorem inspect_cases (a : Assignment β) (control : UnitControl β υ) (look : InFlight υ → υ × Option Completion)
    (now : Timestamp) (x : Execution υ) (seq : Nat) :
    x.inspect a control look now seq = x ∨
      (∃ f ∈ x.inFlight, f.seq = seq ∧ (look f).2 = none ∧
        x.inspect a control look now seq = x.replace f.seq (look f).1) ∨
      ∃ f ∈ x.inFlight, f.seq = seq ∧ ∃ c, (look f).2 = some c ∧
        x.inspect a control look now seq = x.retire a control f c now := by
  unfold inspect
  cases found : x.inFlight.find? (·.seq = seq) with
  | none => exact .inl rfl
  | some f =>
    right
    have mem := List.mem_of_find?_eq_some found
    have own : f.seq = seq := by simpa using List.find?_some found
    rcases looked : look f with ⟨unit, _ | c⟩
    · exact .inl ⟨f, mem, own, by rw [looked], by simp only [looked, own]⟩
    · exact .inr ⟨f, mem, own, c, by rw [looked], by simp only [looked]⟩

/-- What is in flight with the unit of one step changed. -/
theorem Sound.mem_replace (sound : Sound a x) {f g : InFlight υ} (flying : f ∈ x.inFlight) (unit : υ) :
    g ∈ (x.replace f.seq unit).inFlight ↔ g = { f with unit } ∨ g ∈ x.inFlight ∧ g.seq ≠ f.seq := by
  simp only [replace, List.mem_map]
  constructor
  · rintro ⟨h, mem, rfl⟩
    by_cases own : h.seq = f.seq
    · obtain rfl := sound.eq_of_flying mem flying own
      exact .inl (if_pos rfl)
    · rw [if_neg own]
      exact .inr ⟨mem, own⟩
  · rintro (rfl | ⟨mem, other⟩)
    · exact ⟨f, flying, if_pos rfl⟩
    · exact ⟨g, mem, if_neg other⟩

end Execution

namespace Loop

open Execution

variable {β : Type} {a : Assignment β} {w : World β} {l l' : Loop}

/-- What a look at a unit in flight gives. -/
def glanceAt (g : Glance) (now : Timestamp) (f : InFlight Running) : Running × Option Completion := f.unit.glance g now

/-- One thing that happens in a run, at any time. -/
inductive Tick (a : Assignment β) (w : World β) (l : Loop) : Loop → Prop where
  /-- Time passes. -/
  | wait (later : Instant) (le : l.clock.nanos ≤ later.nanos) : Tick a w l ⟨l.execution, later⟩
  /-- The run is told to stop. -/
  | interrupt (running : l.execution.halt = none) :
      Tick a w l ⟨l.execution.haltFor (controlAt a w l.clock) .interrupted, l.clock⟩
  /-- The next step is dispatched. -/
  | dispatch {step : Step} {y : Execution Running} (due : l.execution.aggregator.steps[l.execution.cursor]? = some step)
      (dispatched : l.execution.dispatchStep a (controlAt a w l.clock) step w.now = some y) :
      Tick a w l ⟨{ y with cursor := y.cursor + 1 }, l.clock⟩
  /-- A unit is looked at. -/
  | look (g : Glance) (inTurn : g.InTurn l.clock) (seq : Nat) :
      Tick a w l ⟨l.execution.inspect a (controlAt a w g.struck) (glanceAt g w.now) w.now seq, g.struck⟩

/-- What happens in a run in turn. -/
abbrev Ticks (a : Assignment β) (w : World β) : Loop → Loop → Prop := Relation.ReflTransGen (Tick a w)

/-- What a run on a clock can come to. -/
abbrev Reached (a : Assignment β) (w : World β) (l : Loop) : Prop := Ticks a w ⟨.new a, w.clock⟩ l

/-- What a look comes to is an outcome. -/
theorem ends_glanceAt (g : Glance) (now : Timestamp) (f : InFlight Running) (unit : Running) (c : Completion)
    (looked : glanceAt g now f = (unit, some c)) : c.status.isTerminal = true := by
  simp only [glanceAt, Running.glance] at looked
  split at looked
  · cases looked
    exact Summary.isTerminal_classify _ _ _
  · cases looked

/-- A tick is a chain of moves. -/
theorem Tick.moves (tick : Tick a w l l') : Moves a (.any Running) l.execution l'.execution := by
  cases tick with
  | wait later le => exact .refl
  | interrupt running => exact .single (.interrupt _ running trivial)
  | dispatch due dispatched =>
    obtain ⟨move, cursor, _⟩ := move_of_dispatchStep (Conduct.starts_any _) due dispatched
    simp only [cursor]
    exact .single move
  | look g inTurn seq => exact moves_inspect (ends_glanceAt g w.now) seq

theorem Ticks.moves (ticks : Ticks a w l l') : Moves a (.any Running) l.execution l'.execution := by
  induction ticks with
  | refl => exact .refl
  | tail _ tick ih => exact ih.trans tick.moves

theorem Reached.reachable (reached : Reached a w l) : Reachable a (.any Running) l.execution := Ticks.moves reached

/-! ## Units in flight -/

/-- What is in flight with every unit killed. -/
theorem mem_map_kill {flying : List (InFlight Running)} {cause : KillCause} {clock later : Instant} {now : Timestamp}
    (le : clock.nanos ≤ later.nanos) {f : InFlight Running} (mem : f ∈ flying) :
    ∃ f' ∈ flying.map fun f => { f with unit := f.unit.killFor cause later },
      f'.flight = f.flight ∧ f.unit.Evolves clock later now f'.unit :=
  ⟨_, List.mem_map_of_mem mem, rfl, .killed cause le⟩

/-- **What a tick does to a unit in flight**: it stays in flight, or its end is seen and its completion handed in. -/
theorem Tick.goes (tick : Tick a w l l') (sound : Sound a l.execution) {f : InFlight Running}
    (flying : f ∈ l.execution.inFlight) :
    (∃ f' ∈ l'.execution.inFlight, f'.flight = f.flight ∧ f.unit.Evolves l.clock l'.clock w.now f'.unit) ∨
      ∃ g c, g.InTurn l.clock ∧ (f.unit.glance g w.now).2 = some c ∧
        l'.execution.aggregator = l.execution.aggregator.submit f.seq (some c) w.now := by
  cases tick with
  | wait later le => exact .inl ⟨f, flying, rfl, .kept le⟩
  | interrupt running => exact .inl (mem_map_kill (Nat.le_refl _) flying)
  | @dispatch step y due dispatched =>
    left
    rcases inFlight_dispatchStep dispatched with same | ⟨n, barrier, unit, plan, _, _, _, more⟩
    · exact ⟨f, same ▸ flying, rfl, .kept (Nat.le_refl _)⟩
    · exact ⟨f, more ▸ List.mem_append_left _ flying, rfl, .kept (Nat.le_refl _)⟩
  | look g inTurn seq =>
    rcases inspect_cases a (controlAt a w g.struck) (glanceAt g w.now) w.now l.execution seq with
      same | ⟨f₀, there, rfl, goes, same⟩ | ⟨f₀, there, rfl, c, completed, same⟩
    · left
      simp only [same]
      exact ⟨f, flying, rfl, .kept inTurn.le⟩
    · left
      simp only [same, sound.mem_replace there]
      by_cases own : f.seq = f₀.seq
      · obtain rfl := sound.eq_of_flying flying there own
        exact ⟨_, .inl rfl, rfl, .glanced g inTurn rfl goes⟩
      · exact ⟨f, .inr ⟨flying, own⟩, rfl, .kept inTurn.le⟩
    · simp only [same]
      by_cases own : f.seq = f₀.seq
      · obtain rfl := sound.eq_of_flying flying there own
        exact .inr ⟨g, c, inTurn, completed, by rw [retire_eq, aggregator_settle]⟩
      · left
        have stays : f ∈ l.execution.inFlight.filter (·.seq ≠ f₀.seq) :=
          List.mem_filter.2 ⟨flying, decide_eq_true own⟩
        rcases retire_cases a (controlAt a w g.struck) l.execution f₀ c w.now with ⟨rest, _⟩ | ⟨killed, _⟩
        · rw [rest]
          exact ⟨f, stays, rfl, .kept inTurn.le⟩
        · rw [killed]
          exact mem_map_kill inTurn.le stays

/-- **Where a unit in flight comes from**: it was in flight before, or was just started as the unit of its step with the
limit of its node. -/
theorem Tick.comes (tick : Tick a w l l') (sound : Sound a l.execution) {f' : InFlight Running}
    (flying : f' ∈ l'.execution.inFlight) :
    (∃ f ∈ l.execution.inFlight, f'.flight = f.flight ∧ f.unit.Evolves l.clock l'.clock w.now f'.unit) ∨
      ∃ step n plan, a.outline.steps[f'.seq]? = some step ∧ a.outline.node? step.node = some n ∧ f'.node = n.index ∧
        plan? a step = some plan ∧
        f'.unit = .start (w.process plan) (a.limit? n) a.settings.consoleLimit l'.clock w.now := by
  have killed {flying : List (InFlight Running)} {cause : KillCause} {clock later : Instant}
      (le : clock.nanos ≤ later.nanos) {f' : InFlight Running}
      (mem : f' ∈ flying.map fun f => { f with unit := f.unit.killFor cause later }) :
      ∃ f ∈ flying, f'.flight = f.flight ∧ f.unit.Evolves clock later w.now f'.unit := by
    obtain ⟨f, before, rfl⟩ := List.mem_map.1 mem
    exact ⟨f, before, rfl, .killed cause le⟩
  cases tick with
  | wait later le => exact .inl ⟨f', flying, rfl, .kept le⟩
  | interrupt running => exact .inl (killed (Nat.le_refl _) flying)
  | @dispatch step y due dispatched =>
    rcases inFlight_dispatchStep dispatched with same | ⟨n, barrier, unit, plan, found, own, started, more⟩
    · exact .inl ⟨f', same ▸ flying, rfl, .kept (Nat.le_refl _)⟩
    · simp only [more, List.mem_append, List.mem_singleton] at flying
      rcases flying with flying | rfl
      · exact .inl ⟨f', flying, rfl, .kept (Nat.le_refl _)⟩
      · right
        simp only [controlAt] at started
        split at started
        · cases started
        · cases started
          exact ⟨step, n, plan, sound.steps ▸ due, found, rfl, own, rfl⟩
  | look g inTurn seq =>
    left
    rcases inspect_cases a (controlAt a w g.struck) (glanceAt g w.now) w.now l.execution seq with
      same | ⟨f₀, there, rfl, goes, same⟩ | ⟨f₀, there, rfl, c, completed, same⟩
    · simp only [same] at flying
      exact ⟨f', flying, rfl, .kept inTurn.le⟩
    · simp only [same, sound.mem_replace there] at flying
      rcases flying with rfl | ⟨mem, _⟩
      · exact ⟨f₀, there, rfl, .glanced g inTurn rfl goes⟩
      · exact ⟨f', mem, rfl, .kept inTurn.le⟩
    · simp only [same] at flying
      rcases retire_cases a (controlAt a w g.struck) l.execution f₀ c w.now with ⟨rest, _⟩ | ⟨struck, _⟩
      · rw [rest] at flying
        exact ⟨f', List.mem_of_mem_filter flying, rfl, .kept inTurn.le⟩
      · rw [struck] at flying
        obtain ⟨f, mem, same, evolves⟩ := killed inTurn.le flying
        exact ⟨f, List.mem_of_mem_filter mem, same, evolves⟩

/-- **Units in flight are steady** throughout a run. -/
theorem Reached.steady (reached : Reached a w l) : ∀ f ∈ l.execution.inFlight, f.unit.Steady l.clock := by
  induction reached with
  | refl => exact fun f mem => absurd mem List.not_mem_nil
  | tail before tick ih =>
    intro f' flying
    obtain ⟨f, mem, _, evolves⟩ | ⟨_, _, _, _, _, _, _, started⟩ := tick.comes (Reached.reachable before).sound flying
    · exact (ih f mem).evolves evolves
    · rw [started]
      exact Running.steady_start ..

/-! ## The event loop -/

/-- Dispatching is a chain of ticks. -/
theorem ticks_dispatchAll (steps : List Step) {x : Execution Running} (clock : Instant)
    (rest : steps = x.aggregator.steps.drop x.cursor) :
    Ticks a w ⟨x, clock⟩ ⟨x.dispatchAll a (controlAt a w clock) w.now steps, clock⟩ := by
  induction steps generalizing x with
  | nil => exact .refl
  | cons step steps ih =>
    have due : x.aggregator.steps[x.cursor]? = some step := by
      rw [← List.head?_drop, ← rest]
      rfl
    simp only [dispatchAll]
    cases dispatched : x.dispatchStep a (controlAt a w clock) step w.now with
    | none => exact .refl
    | some y =>
      obtain ⟨_, cursor, same⟩ :=
        move_of_dispatchStep (Conduct.starts_any _) due dispatched
      refine .head (.dispatch (l := ⟨x, clock⟩) due dispatched) (ih ?_)
      rw [same, cursor, ← List.tail_drop, ← rest, List.tail_cons]

/-- Looking at every unit is a chain of ticks. -/
theorem ticks_collect (x : Execution Running) (clock : Instant) :
    Ticks a w ⟨x, clock⟩ ⟨x.collect a (controlAt a w clock) (lookAt clock w.now) w.now, clock⟩ := by
  have inTurn : (Glance.at clock).InTurn clock := ⟨Nat.le_refl _, Nat.le_refl _, Nat.le_refl _, Nat.le_refl _⟩
  unfold collect
  generalize x.inFlight.map (·.seq) = seqs
  induction seqs generalizing x with
  | nil => exact .refl
  | cons seq seqs ih => exact .head (.look (l := ⟨x, clock⟩) (.at clock) inTurn seq) (ih _)

/-- The event loop prepares its wait by ticks. -/
theorem ticks_prepare (start : Interruption) (l : Loop) : Ticks a w l ⟨prepare a w start l, l.clock⟩ := by
  unfold prepare
  simp only
  refine .trans ?_ (ticks_dispatchAll _ l.clock rfl)
  unfold interrupt
  split
  · rename_i stops
    rw [Bool.and_eq_true, Option.isNone_iff_eq_none] at stops
    exact .single (.interrupt stops.1)
  · exact .refl

/-- **The event loop is a run on a clock.** -/
theorem ticks_drive (start : Interruption) (fuel : Nat) (l : Loop) :
    ∃ clock, Ticks a w l ⟨(drive a w start l fuel).1, clock⟩ :=
  drive_induction (P := Ticks a w l) (fun m ticks => ticks.trans (ticks_prepare start m))
    (fun m later ticks le => (ticks.tail (.wait later le)).trans (ticks_collect m.execution later)) .refl fuel

end Loop

end TestIsolation
