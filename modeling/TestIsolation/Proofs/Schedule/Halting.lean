import TestIsolation.Proofs.Schedule.Condemned

/-!
# What it means to give a run up

A run is given up in one tick: it is told to stop, or a unit that has ended is the reason. That tick and all later ones
start nothing (`Ticks.started_of_halted`), and the reason stays (`Moves.halt_eq`). What was handed in by then is kept.
Of the units in flight, those whose watchdog has struck keep that, and all others are killed for the run
(`Tick.halting`), since nothing else kills a unit as long as the run goes on (`Reached.undisturbed`). So what every test
comes to is known from the state in which the run was given up (`halt_at_once`), and one more look at what is in flight
brings the run to its end (`over_of_halted`).
-/

namespace TestIsolation

set_option autoImplicit false

/-! ## Units that nothing but their watchdog has struck -/

namespace Running

variable {u : Running} {clock : Instant}

/-- If a unit was killed, then by its watchdog. -/
def Undisturbed (u : Running) : Prop := ∀ cause, u.supervision.kill = some cause → ∃ limit, cause = .watchdog limit

theorem undisturbed_start (life : ProcessLife) (limit : Option Duration) (consoleLimit : Nat) (clock : Instant)
    (now : Timestamp) : (start life limit consoleLimit clock now).Undisturbed := nofun

/-- A look kills a unit by its watchdog or not at all. -/
theorem Undisturbed.glance (undisturbed : u.Undisturbed) (steady : u.Steady clock) {g : Glance} {now : Timestamp}
    (goes : (u.glance g now).2 = none) : (u.glance g now).1.Undisturbed := by
  cases ended : (u.pump g.pumped).process.endedBy (u.age g.reaped) with
  | some exit =>
    obtain ⟨c, completed, _⟩ := glance_of_ended steady.unseen ended now
    rw [completed] at goes
    cases goes
  | none =>
    have kept : (u.pump g.pumped).supervision.kill = u.supervision.kill := Supervision.kill_pump _ _
    rw [glance_of_unended steady.unseen ended]
    intro cause killed
    simp only [struck] at killed
    obtain same | ⟨limit, struck⟩ := (u.pump g.pumped).supervision.enforceDeadline_cases g.begun
    · rw [same, kept] at killed
      exact undisturbed cause killed
    · rw [struck, Supervision.killFor] at killed
      split at killed
      · rw [kept] at killed
        exact undisturbed cause killed
      · exact ⟨limit, (Option.some.inj killed).symm⟩

/-- A unit that is killed for the run was struck by its watchdog before, or is now killed for the run. -/
theorem Undisturbed.kill_killFor (undisturbed : u.Undisturbed) (steady : u.Steady clock) (cause : KillCause)
    (later : Instant) :
    (∃ limit, u.supervision.kill = some (.watchdog limit) ∧
        (u.killFor cause later).supervision.kill = some (.watchdog limit)) ∨
      u.supervision.kill = none ∧ (u.killFor cause later).supervision.kill = some cause := by
  cases running : u.supervision.kill with
  | none =>
    rw [steady.killFor_of_running running]
    exact .inr ⟨rfl, rfl⟩
  | some first =>
    obtain ⟨limit, rfl⟩ := undisturbed first running
    rw [killFor_of_killed (by rw [running]; rfl)]
    exact .inl ⟨limit, rfl, running⟩

end Running

namespace Execution

variable {β υ : Type} {a : Assignment β} {rules : Conduct υ} {control : UnitControl β υ} {x y : Execution υ}

/-! ## What is started and handed in -/

/-- A move after which the run is given up starts nothing. -/
theorem Move.started_of_halted (move : Move a rules x y) (halted : y.halt ≠ none) : y.started = x.started := by
  cases move with
  | interrupt control running told | update seq unit => rfl
  | giveUp due free given now => simp [started]
  | pass due free running found decided now => exact absurd running halted
  | finish flying control ends now => simp [started, retire_eq]
  | @launch step n n' plan barrier control due free running found decided alone room start now =>
    exfalso
    cases started : control.start x.cursor plan (a.limit? n') with
    | ok unit =>
      rw [launch_of_ok started] at halted
      exact halted running
    | error e =>
      rw [launch_of_error started] at halted
      simp only [halt_settle] at halted
      rw [if_neg fun stops => e.status_ne now stops.1] at halted
      exact halted running

/-- Whatever is handed in for a test is a completion. -/
theorem Reachable.delivered_leaf (reachable : Reachable a rules x) {seq node : Nat}
    (test : a.outline.steps[seq]? = some (.leaf node)) {c : Option Completion}
    (given : x.aggregator.delivered[seq]? = some (some c)) : c.isSome = true := by
  induction reachable with
  | refl =>
    simp only [new, Aggregator.new, List.getElem?_map, test] at given
    cases given
  | @tail x y before move ih =>
    have reachable : Reachable a rules x := before
    have sound := reachable.sound
    have handed {other : Nat} {c' : Option Completion} {now : Timestamp}
        (submitted : y.aggregator = x.aggregator.submit other c' now) (complete : other = seq → c'.isSome = true) :
        c.isSome = true := by
      by_cases due : x.aggregator.delivered[other]? = some none
      · rw [submitted, Aggregator.delivered_submit due] at given
        by_cases own : other = seq
        · subst own
          rw [List.getElem?_set_self (List.getElem?_eq_some_iff.1 due).1] at given
          cases given
          exact complete rfl
        · rw [List.getElem?_set_ne own] at given
          exact ih given
      · rw [submitted, Aggregator.submit_of_not_due due] at given
        exact ih given
    cases move with
    | interrupt control running told | update seq unit => exact ih given
    | @giveUp step halt due free halted now =>
      refine handed rfl fun own => ?_
      subst own
      obtain rfl : Step.leaf node = step := Option.some.inj (test.symm.trans (sound.steps ▸ due))
      rfl
    | @pass step n reason due free running found decided now =>
      refine handed rfl fun own => ?_
      subst own
      obtain rfl : Step.leaf node = step := Option.some.inj (test.symm.trans (sound.steps ▸ due))
      rcases Assignment.decision_leaf (a := a) x.blocked node n with
        ⟨b, _, skips⟩ | ⟨_, _, skips⟩ | ⟨_, _, launches⟩
      · rw [decided, Decision.pass.injEq] at skips
        rw [skips]
        rfl
      · rw [decided, Decision.pass.injEq] at skips
        rw [skips]
        rfl
      · rw [decided] at launches
        cases launches
    | @launch step n n' plan barrier control due free running found decided alone room start now =>
      cases started : control.start x.cursor plan (a.limit? n') with
      | ok unit =>
        rw [launch_of_ok started] at given
        exact ih given
      | error e =>
        rw [launch_of_error started] at handed
        exact handed (aggregator_settle ..) fun _ => rfl
    | finish flying control ends now =>
      rw [retire_eq] at handed
      exact handed (aggregator_settle ..) fun _ => rfl

/-- A run that is given up with nothing in flight settles all its steps. -/
theorem dispatchAll_of_halted (a : Assignment β) (control : UnitControl β υ) (now : Timestamp) {halt : Halt}
    (given : x.halt = some halt) (nothing : x.inFlight = []) (steps : List Step) :
    (x.dispatchAll a control now steps).inFlight = [] ∧
      (x.dispatchAll a control now steps).cursor = x.cursor + steps.length := by
  induction steps generalizing x with
  | nil => exact ⟨nothing, rfl⟩
  | cons step steps ih =>
    have dispatched : x.dispatchStep a control step now = some (x.dispatchHalted halt x.cursor step now) := by
      simp [dispatchStep, nothing, given]
    simp only [dispatchAll, dispatched]
    obtain ⟨empty, cursor⟩ := ih (x := { x.dispatchHalted halt x.cursor step now with
      cursor := (x.dispatchHalted halt x.cursor step now).cursor + 1 }) (by cases step <;> exact given)
      (by cases step <;> exact nothing)
    refine ⟨empty, cursor.trans ?_⟩
    have same : (x.dispatchHalted halt x.cursor step now).cursor = x.cursor := by cases step <;> rfl
    simp only [same, List.length_cons]
    omega

/-- What nothing was handed in for was not reported. -/
theorem Reachable.unreported (reachable : Reachable a (.any υ) x) {seq : Nat}
    (open_ : x.aggregator.delivered[seq]? = some none) : seq ∉ x.reported := by
  intro reported
  obtain ⟨ds, accounted⟩ := reachable.accounted fun _ _ ends => ends
  rw [← List.mem_reverse, ← accounted.seqs] at reported
  obtain ⟨d, listed, own⟩ := List.mem_map.1 reported
  rw [accounted.aggregator, Aggregator.delivered_submitAll] at open_
  split at open_
  · rw [Option.some.injEq, Option.map_eq_none_iff] at open_
    exact List.find?_eq_none.1 open_ d listed (decide_eq_true own)
  · cases open_

end Execution

namespace Loop

open Execution

variable {β : Type} {a : Assignment β} {w : World β} {l l' : Loop} {halt : Halt}

/-- A tick is at most one move. -/
theorem Tick.eq_or_move (tick : Tick a w l l') :
    l'.execution = l.execution ∨ Move a (.any Running) l.execution l'.execution := by
  cases tick with
  | wait later le => exact .inl rfl
  | interrupt running => exact .inr (.interrupt _ running trivial)
  | dispatch due dispatched =>
    obtain ⟨move, cursor, _⟩ := move_of_dispatchStep (Conduct.starts_any _) due dispatched
    simp only [cursor]
    exact .inr move
  | look g inTurn seq =>
    rcases inspect_cases a (controlAt a w g.struck) (glanceAt g w.now) w.now l.execution seq with
      same | ⟨f, flying, _, _, same⟩ | ⟨f, flying, _, c, completed, same⟩
    · exact .inl same
    · simp only [same]
      exact .inr (.update _ _)
    · simp only [same]
      exact .inr (.finish flying _ (ends_glanceAt g w.now f _ c (Prod.ext rfl completed)) w.now)

/-- **Nothing is started in a tick after which the run is given up.** -/
theorem Tick.started_of_halted (tick : Tick a w l l') (halted : l'.execution.halt ≠ none) :
    l'.execution.started = l.execution.started := by
  rcases tick.eq_or_move with same | move
  · rw [same]
  · exact move.started_of_halted halted

theorem Ticks.started_of_halted (ticks : Ticks a w l l') (halted : l.execution.halt ≠ none) :
    l'.execution.started = l.execution.started := by
  induction ticks with
  | refl => rfl
  | @tail y z before tick ih =>
    have given : y.execution.halt ≠ none := (Ticks.moves before).halted halted
    exact (tick.started_of_halted (tick.moves.halted given)).trans ih

/-! ## The tick that gives the run up -/

theorem Tick.undisturbed (tick : Tick a w l l') (reached : Reached a w l) (running : l'.execution.halt = none)
    (before : ∀ f ∈ l.execution.inFlight, f.unit.Undisturbed) :
    ∀ f ∈ l'.execution.inFlight, f.unit.Undisturbed := by
  have sound := reached.reachable.sound
  cases tick with
  | wait later le => exact before
  | interrupt _ => cases running
  | dispatch due dispatched =>
    rcases inFlight_dispatchStep dispatched with same | ⟨n, barrier, unit, plan, _, _, started, more⟩
    · simp only [same]
      exact before
    · simp only [more]
      intro f flying
      rw [List.mem_append, List.mem_singleton] at flying
      rcases flying with flying | rfl
      · exact before f flying
      · simp only [controlAt] at started
        split at started
        · cases started
        · cases started
          exact Running.undisturbed_start _ _ _ _ _
  | look g inTurn seq =>
    rcases inspect_cases a (controlAt a w g.struck) (glanceAt g w.now) w.now l.execution seq with
      same | ⟨f₀, there, rfl, goes, same⟩ | ⟨f₀, there, rfl, c, completed, same⟩
    · simp only [same]
      exact before
    · simp only [same]
      intro f flying
      rcases (sound.mem_replace there _).1 flying with rfl | ⟨flying, _⟩
      · exact (before f₀ there).glance (reached.steady f₀ there) goes
      · exact before f flying
    · simp only [same] at running ⊢
      intro f flying
      rcases retire_cases a (controlAt a w g.struck) l.execution f₀ c w.now with ⟨rest, _⟩ | ⟨_, _, given⟩
      · rw [rest] at flying
        exact before f (List.mem_of_mem_filter flying)
      · rw [running] at given
        cases given

/-- **As long as a run goes on, nothing but its watchdog kills a unit.** -/
theorem Reached.undisturbed (reached : Reached a w l) (running : l.execution.halt = none) :
    ∀ f ∈ l.execution.inFlight, f.unit.Undisturbed := by
  induction reached with
  | refl => exact fun f mem => absurd mem List.not_mem_nil
  | tail before tick ih =>
    refine tick.undisturbed before running (ih ?_)
    by_contra halted
    exact tick.moves.halted halted running

/-- **The tick that gives the run up** kills what stays in flight, and nothing new is in flight. -/
theorem Tick.halting (tick : Tick a w l l') (running : l.execution.halt = none)
    (halted : l'.execution.halt = some halt) :
    ∀ f' ∈ l'.execution.inFlight, ∃ f ∈ l.execution.inFlight,
      f'.seq = f.seq ∧ f'.unit = f.unit.killFor halt.killCause l'.clock := by
  have going {x : Execution Running} (same : x.halt = l.execution.halt) (given : x.halt = some halt) : False := by
    rw [same, running] at given
    cases given
  cases tick with
  | wait later le => exact (going rfl halted).elim
  | interrupt _ =>
    intro f' flying
    obtain ⟨f, before, rfl⟩ := List.mem_map.1 flying
    cases halted
    exact ⟨f, before, rfl, rfl⟩
  | dispatch due dispatched => exact (going (halt_dispatchStep dispatched) halted).elim
  | look g inTurn seq =>
    rcases inspect_cases a (controlAt a w g.struck) (glanceAt g w.now) w.now l.execution seq with
      same | ⟨f₀, there, rfl, goes, same⟩ | ⟨f₀, there, rfl, c, completed, same⟩
    · simp only [same] at halted
      exact (going rfl halted).elim
    · simp only [same] at halted
      exact (going rfl halted).elim
    · simp only [same] at halted ⊢
      intro f' flying
      rcases retire_cases a (controlAt a w g.struck) l.execution f₀ c w.now with ⟨_, same⟩ | ⟨struck, _, given⟩
      · exact (going same halted).elim
      · rw [struck] at flying
        obtain ⟨f, mem, rfl⟩ := List.mem_map.1 flying
        rw [given] at halted
        cases halted
        exact ⟨f, List.mem_of_mem_filter mem, rfl, rfl⟩

/-! ## What tests come to -/

/-- The watchdog of a step's unit has struck. -/
def Struck (l : Loop) (seq : Nat) : Prop :=
  ∃ f ∈ l.execution.inFlight, f.seq = seq ∧ ∃ limit, f.unit.supervision.kill = some (.watchdog limit)

/-- The outcome of a test that is open when a run is given up: that of its watchdog if it has struck by then, and
otherwise the reason that the run is given up for. -/
structure CutOff (l : Loop) (halt : Halt) (seq : Nat) (c : Completion) : Prop where
  struck : Struck l seq → c.status = .timedOut
  spared : ¬Struck l seq → c.status = .terminated ∧ c.reason = some halt.reason

/-- **What is open when the run is given up is cut off.** -/
theorem Tick.destined (tick : Tick a w l l') (reached : Reached a w l) (running : l.execution.halt = none)
    (halted : l'.execution.halt = some halt) {seq : Nat}
    (open_ : l'.execution.aggregator.delivered[seq]? = some none) : Destined l' seq (CutOff l halt seq) := by
  have later : Reached a w l' := reached.tail tick
  by_cases due : l'.execution.cursor ≤ seq
  · refine .inl ⟨halt, halted, due, fun now => ⟨?_, fun _ => ⟨rfl, rfl⟩⟩⟩
    rintro ⟨f, flying, rfl, _⟩
    have before := reached.reachable.sound.flying_lt_cursor flying
    have after := Moves.cursor_le tick.moves
    omega
  · obtain ⟨f', flying', rfl⟩ := exists_flying_of_unreported later (later.reachable.unreported open_) (by omega)
    obtain ⟨f, flying, own, unit⟩ := tick.halting running halted f' flying'
    refine .inr (.inl ⟨f', flying', rfl, ?_⟩)
    rcases (reached.undisturbed running f flying).kill_killFor (reached.steady f flying) halt.killCause l'.clock with
      ⟨limit, first, killed⟩ | ⟨free, killed⟩ <;> rw [← unit] at killed
    · refine ⟨_, killed, fun c judged => ⟨fun _ => judged.status, fun spared => ?_⟩⟩
      exact absurd ⟨f, flying, own.symm, limit, first⟩ spared
    · refine ⟨_, killed, fun c judged => ⟨?_, fun _ => ⟨?_, judged.reason halt rfl⟩⟩⟩
      · rintro ⟨other, there, same, limit, first⟩
        rw [reached.reachable.sound.eq_of_flying there flying (same.trans own), free] at first
        cases first
      · rw [judged.status]
        cases halt <;> rfl

/-! ## The end of a run that is given up -/

/-- A look at a unit of a run that is given up gives its completion. -/
theorem isSome_lookAt_of_halted (reached : Reached a w l) (halted : l.execution.halt ≠ none) {later : Instant}
    (le : l.clock.nanos ≤ later.nanos) : ∀ f ∈ l.execution.inFlight, (lookAt later w.now f).2.isSome = true := by
  intro f flying
  obtain ⟨cause, killed⟩ := Option.isSome_iff_exists.1 (reached.killed halted f flying)
  have inTurn : (Glance.at later).InTurn l.clock := ⟨Nat.le_refl _, le, Nat.le_refl _, Nat.le_refl _⟩
  obtain ⟨c, completed, -⟩ := Running.glance_of_killed (reached.steady f flying) killed inTurn w.now
  have looked : (lookAt later w.now f).2 = some c := completed
  rw [looked]
  rfl

/-- Looks at units of a run that is given up take them out of flight. -/
theorem flights_foldl_inspect_of_halted {later : Instant} (seqs : List Nat) (reached : Reached a w l)
    (halted : l.execution.halt ≠ none) (le : l.clock.nanos ≤ later.nanos) :
    ∀ flight ∈ (seqs.foldl (inspect a (controlAt a w later) (lookAt later w.now) w.now) l.execution).flights,
      flight ∈ l.execution.flights ∧ flight.seq ∉ seqs := by
  induction seqs generalizing l with
  | nil => exact fun flight mem => ⟨mem, List.not_mem_nil⟩
  | cons seq seqs ih =>
    intro flight mem
    have inTurn : (Glance.at later).InTurn l.clock := ⟨Nat.le_refl _, le, Nat.le_refl _, Nat.le_refl _⟩
    have tick : Tick a w l ⟨l.execution.inspect a (controlAt a w later) (lookAt later w.now) w.now seq, later⟩ :=
      .look (.at later) inTurn seq
    obtain ⟨still, apart⟩ := ih (reached.tail tick) (tick.moves.halted halted) (Nat.le_refl _) flight mem
    rw [flights_inspect (isSome_lookAt_of_halted reached halted le), List.mem_filter, decide_eq_true_eq] at still
    exact ⟨still.1, fun listed => (List.mem_cons.1 listed).elim still.2 apart⟩

/-- A run that is given up with nothing in flight is over once it has dispatched its steps. -/
theorem isOver_dispatch_of_halted (reached : Reached a w l) (halted : l.execution.halt ≠ none)
    (nothing : l.execution.inFlight = []) :
    (l.execution.dispatch a (controlAt a w l.clock) w.now).isOver = true := by
  obtain ⟨halt, given⟩ := Option.ne_none_iff_exists'.1 halted
  have ticks : Ticks a w l ⟨l.execution.dispatch a (controlAt a w l.clock) w.now, l.clock⟩ :=
    ticks_dispatchAll _ l.clock rfl
  have steps := (Reached.reachable (reached.trans ticks)).sound.steps
  have same := reached.reachable.sound.steps
  obtain ⟨empty, cursor⟩ := dispatchAll_of_halted a (controlAt a w l.clock) w.now given nothing
    (l.execution.aggregator.steps.drop l.execution.cursor)
  rw [dispatch] at steps ⊢
  rw [isOver, steps, cursor, empty, List.length_drop, same, List.isEmpty_nil, Bool.true_and, decide_eq_true_iff]
  exact Nat.sub_le_iff_le_add'.1 (Nat.le_refl _)

/-- **One look at what is in flight and one dispatch bring a run that is given up to its end.** -/
theorem over_of_halted (reached : Reached a w l) (halted : l.execution.halt ≠ none) {later : Instant}
    (le : l.clock.nanos ≤ later.nanos) :
    let x := (l.execution.collect a (controlAt a w later) (lookAt later w.now) w.now).dispatch a
      (controlAt a w later) w.now
    x.isOver = true ∧ Ticks a w l ⟨x, later⟩ := by
  intro x
  have looks : Ticks a w l ⟨l.execution.collect a (controlAt a w later) (lookAt later w.now) w.now, later⟩ :=
    .head (.wait later le) (ticks_collect l.execution later)
  have nothing : (l.execution.collect a (controlAt a w later) (lookAt later w.now) w.now).inFlight = [] := by
    rw [← flights_eq_nil, List.eq_nil_iff_forall_not_mem]
    intro flight mem
    obtain ⟨there, apart⟩ := flights_foldl_inspect_of_halted _ reached halted le flight mem
    obtain ⟨f, flying, rfl⟩ := List.mem_map.1 there
    exact apart (List.mem_map_of_mem flying)
  exact ⟨isOver_dispatch_of_halted (reached.trans looks) ((Ticks.moves looks).halted halted) nothing,
    looks.trans (ticks_dispatchAll _ later rfl)⟩

end Loop

open Execution Loop in
/-- **A run is given up at once, and only what is open by then is cut off.** In a run on a clock, let one tick give the
run up, for an interruption or for a unit that was terminated, and let anything happen after that. Then the run stays
given up for the same reason, no unit of any kind is started in that tick or later, and what was handed in by then is
kept, whether or not it was applied. When the run is over, every test is settled with what was handed in for it by then,
or else it timed out if the watchdog of its unit had struck before, and is terminated with the reason of the run if not.
To be over it takes no more than one look at what is in flight and one dispatch, whenever they come. The states of the
event loop are such states (`ticks_drive`). -/
theorem halt_at_once {β : Type} {t : SuiteTree β} {settings : Settings} {w : World β} {y z l : Loop} {halt : Halt}
    (reached : Reached ⟨t.outline, settings⟩ w y) (running : y.execution.halt = none)
    (tick : Tick ⟨t.outline, settings⟩ w y z) (halted : z.execution.halt = some halt)
    (ticks : Ticks ⟨t.outline, settings⟩ w z l) :
    l.execution.halt = some halt ∧ l.execution.started = y.execution.started ∧
      (∀ (seq : Nat) (c : Option Completion), z.execution.aggregator.delivered[seq]? = some (some c) →
        l.execution.aggregator.delivered[seq]? = some (some c)) ∧
      (l.execution.isOver = true → ∀ (seq node : Nat), t.plan[seq]? = some (.leaf node) →
        ∃ (r : Run) (c : Completion), l.execution.aggregator.tree.run? node = some (r.settled c) ∧
          (z.execution.aggregator.delivered[seq]? = some (some (some c)) ∨
            z.execution.aggregator.delivered[seq]? = some none ∧ CutOff y halt seq c)) ∧
      ∀ later : Instant, l.clock.nanos ≤ later.nanos →
        let control := controlAt ⟨t.outline, settings⟩ w later
        let x := (l.execution.collect ⟨t.outline, settings⟩ control (lookAt later w.now) w.now).dispatch
          ⟨t.outline, settings⟩ control w.now
        x.isOver = true ∧ Ticks ⟨t.outline, settings⟩ w l ⟨x, later⟩ := by
  have given : z.execution.halt ≠ none := by simp [halted]
  have start : Reached ⟨t.outline, settings⟩ w z := reached.tail tick
  have later : Reached ⟨t.outline, settings⟩ w l := start.trans ticks
  have stays := (Ticks.moves ticks).halt_eq halted
  refine ⟨stays, ?_, fun seq c => (Ticks.moves ticks).delivered, ?_, ?_⟩
  · rw [Ticks.started_of_halted ticks given, tick.started_of_halted given]
  · intro atEnd seq node test
    have inside := (List.getElem?_eq_some_iff.1 test).1
    obtain ⟨entries, kept⟩ := later.reachable.kept
    have complete := (later.reachable.settled (fun _ _ ends => ends) atEnd).applied
    -- What the test comes to is what was handed in for it, or what it is destined to.
    obtain ⟨c, delivered, known⟩ : ∃ c, l.execution.aggregator.delivered[seq]? = some (some (some c)) ∧
        (z.execution.aggregator.delivered[seq]? = some (some (some c)) ∨
          z.execution.aggregator.delivered[seq]? = some none ∧ CutOff y halt seq c) := by
      cases handed : z.execution.aggregator.delivered[seq]? with
      | none =>
        obtain ⟨_, kept⟩ := start.reachable.kept
        rw [List.getElem?_eq_none_iff, kept.length] at handed
        exact absurd inside (Nat.not_lt.2 handed)
      | some given =>
        cases given with
        | none =>
          have destined := (tick.destined reached running halted handed).ticks start test ticks
          obtain ⟨c, delivered, cut⟩ := destined.atEnd later inside atEnd
          exact ⟨c, delivered, .inr ⟨rfl, cut⟩⟩
        | some c =>
          obtain ⟨done, rfl⟩ := Option.isSome_iff_exists.1 (start.reachable.delivered_leaf test handed)
          exact ⟨done, (Ticks.moves ticks).delivered handed, .inl rfl⟩
    obtain ⟨r, own⟩ := kept.exists_settled complete test delivered
    exact ⟨r, c, own, known⟩
  · intro instant le
    exact over_of_halted later (by simp [stays]) le

open Execution Loop in
/-- Three tests at two jobs, where the token is cancelled when the second has passed and waits for the first. The first
is killed and the third is never started, but the second keeps its result. -/
theorem halt_at_once_cancelled :
    let t : SuiteTree Script := .suite { name := "s" }
      [.test { name := "a" } [.sleep 300], .test { name := "b" } [], .test { name := "c" } []]
    let a : Assignment Script := ⟨t.outline, { jobs := 2 }⟩
    let w : World Script := { process := fun plan => .run plan (.start none), now := 5 }
    let at_ : Instant := ⟨100000000⟩
    let control := controlAt a w at_
    let x := prepare a w {} ⟨.new a, w.clock⟩
    let y : Loop := ⟨x.collect a control (lookAt at_ w.now) w.now, at_⟩
    let z : Loop := ⟨y.execution.haltFor (controlAt a w y.clock) .interrupted, y.clock⟩
    let l := (z.execution.collect a control (lookAt at_ w.now) w.now).dispatch a control w.now
    y.execution.halt = none ∧ l.halt = some .interrupted ∧ l.started = y.execution.started ∧ l.isOver = true ∧
      (∃ (r : Run) (c : Completion), l.aggregator.tree.run? 2 = some (r.settled c) ∧
        (z.execution.aggregator.delivered[2]? = some (some (some c)) ∨
          z.execution.aggregator.delivered[2]? = some none ∧ CutOff y .interrupted 2 c)) ∧
      l.aggregator.tree.leaves.map (fun r => (r.status, r.reason)) =
        [(.terminated, some "run interrupted"), (.passed, none), (.terminated, some "run interrupted")] := by
  intro t a w at_ control x y z l
  obtain ⟨running, runs⟩ : y.execution.halt = none ∧ l.aggregator.tree.leaves.map (fun r => (r.status, r.reason)) =
      [(.terminated, some "run interrupted"), (.passed, none), (.terminated, some "run interrupted")] := by
    decide +kernel
  have reached : Reached a w y :=
    ((ticks_prepare {} ⟨.new a, w.clock⟩).tail (.wait at_ (Nat.zero_le _))).trans (ticks_collect x at_)
  have now : y.clock.nanos ≤ at_.nanos := Nat.le_refl _
  clear_value y
  have tick : Tick a w y z := .interrupt running
  obtain ⟨_, _, _, _, ends⟩ := halt_at_once reached running tick rfl .refl
  obtain ⟨atEnd, ticks⟩ := ends at_ now
  obtain ⟨stays, started, _, settled, _⟩ := halt_at_once reached running tick rfl ticks
  exact ⟨running, stays, started, atEnd, settled atEnd 2 2 rfl, runs⟩

end TestIsolation
