import TestIsolation.Proofs.Schedule.Clocked
import TestIsolation.Proofs.Schedule.Starting

/-!
# Steps whose outcome is settled from outside

A unit that was killed is condemned: it is in flight until it is next looked at, and then it is judged by the reason
(`Condemned.ticks`). When a run is given up, whatever is in flight has been killed (`Reached.killed`) and no unit is
started any more. So a test that was not reported by then is forgone (`forgone_of_halted`). What is known of the
outcome of a test in one of these ways stays true until the test ends so (`Destined.ticks`, `Destined.atEnd`).
-/

namespace TestIsolation

set_option autoImplicit false

namespace Execution

variable {β υ : Type} {a : Assignment β} {control : UnitControl β υ} {now : Timestamp} {x y : Execution υ}

/-- Dispatching a step never gives the run up. -/
theorem halt_dispatchStep {step : Step} (dispatched : x.dispatchStep a control step now = some y) :
    y.halt = x.halt := by
  obtain ⟨_, ⟨halt, _, rfl⟩ | ⟨n, _, _, _, rfl⟩⟩ := dispatchStep_eq_some dispatched
  · rfl
  · cases a.decision x.blocked step n with
    | pass reason => rfl
    | launch n' plan barrier =>
      simp only [perform]
      cases started : control.start x.cursor plan (a.limit? n') with
      | ok unit => rw [launch_of_ok started]
      | error e =>
        rw [launch_of_error started, halt_settle, if_neg fun stops => e.status_ne now stops.1]

/-- A run that is given up starts nothing. -/
theorem inFlight_dispatchStep_of_halted {step : Step} (dispatched : x.dispatchStep a control step now = some y)
    (halted : x.halt ≠ none) : y.inFlight = x.inFlight := by
  obtain ⟨_, ⟨halt, _, rfl⟩ | ⟨n, running, _, _, _⟩⟩ := dispatchStep_eq_some dispatched
  · rfl
  · exact absurd running halted

/-- A run that is given up stays so, for the same reason. -/
theorem Move.halt_eq {rules : Conduct υ} (move : Move a rules x y) {halt : Halt} (given : x.halt = some halt) :
    y.halt = some halt := by
  cases move with
  | interrupt control running told | pass due free running found decided now =>
    rw [running] at given
    cases given
  | launch due free running found decided alone room start now =>
    rw [running] at given
    cases given
  | giveUp due free halted now | update seq unit => exact given
  | finish flying control ends now => simp [retire_eq, halt_settle, given]

theorem Moves.halt_eq {rules : Conduct υ} (moves : Moves a rules x y) {halt : Halt} (given : x.halt = some halt) :
    y.halt = some halt := by
  induction moves with
  | refl => exact given
  | tail _ move ih => exact move.halt_eq ih

theorem Moves.halted {rules : Conduct υ} (moves : Moves a rules x y) (halted : x.halt ≠ none) : y.halt ≠ none := by
  obtain ⟨halt, given⟩ := Option.ne_none_iff_exists'.1 halted
  rw [moves.halt_eq given]
  exact Option.some_ne_none halt

theorem cursor_inspect (look : InFlight υ → υ × Option Completion) (seq : Nat) :
    (x.inspect a control look now seq).cursor = x.cursor := by
  unfold inspect
  split
  · rfl
  · split
    · rfl
    · exact cursor_retire _ _ _

end Execution

namespace Loop

open Execution

variable {β : Type} {a : Assignment β} {w : World β} {l l' : Loop}

/-- **What a tick does to a unit that was killed**: it stays in flight and keeps the reason, or its completion is handed
in and is judged by the reason. -/
theorem Tick.killed_goes (tick : Tick a w l l') (reached : Reached a w l) {f : InFlight Running}
    (flying : f ∈ l.execution.inFlight) {cause : KillCause} (killed : f.unit.supervision.kill = some cause) :
    (∃ f' ∈ l'.execution.inFlight, f'.seq = f.seq ∧ f'.unit.supervision.kill = some cause) ∨
      ∃ c, l'.execution.aggregator.delivered[f.seq]? = some (some (some c)) ∧ cause.Judges c := by
  have steady := reached.steady f flying
  obtain ⟨f', flying', same, evolves⟩ | ⟨g, c, inTurn, completed, submitted⟩ :=
    tick.goes reached.reachable.sound flying
  · exact .inl ⟨f', flying', congrArg Flight.seq same, steady.kill_evolves evolves killed⟩
  · have due := reached.reachable.undelivered_flying flying
    obtain ⟨c', completed', judged⟩ := Running.glance_of_killed steady killed inTurn w.now
    obtain rfl : c' = c := Option.some.inj (completed'.symm.trans completed)
    refine .inr ⟨c', ?_, judged⟩
    rw [submitted, Aggregator.delivered_submit due, List.getElem?_set_self (List.getElem?_eq_some_iff.1 due).1]

/-- The unit of a step was killed for a reason with a status: it is in flight, or its completion has the status. -/
def Condemned (l : Loop) (seq : Nat) (s : Status) : Prop :=
  (∃ f ∈ l.execution.inFlight, f.seq = seq ∧ ∃ cause, f.unit.supervision.kill = some cause ∧ cause.status = s) ∨
    ∃ c, l.execution.aggregator.delivered[seq]? = some (some (some c)) ∧ c.status = s

/-- **A condemned unit stays so**, whatever happens. -/
theorem Condemned.tick {seq : Nat} {s : Status} (condemned : Condemned l seq s) (reached : Reached a w l)
    (tick : Tick a w l l') : Condemned l' seq s := by
  rcases condemned with ⟨f, flying, rfl, cause, killed, rfl⟩ | ⟨c, delivered, judged⟩
  · rcases tick.killed_goes reached flying killed with ⟨f', flying', own, killed'⟩ | ⟨c, delivered, judged⟩
    · exact .inl ⟨f', flying', own, cause, killed', rfl⟩
    · exact .inr ⟨c, delivered, judged.status⟩
  · exact .inr ⟨c, tick.moves.delivered delivered, judged⟩

theorem Condemned.ticks {seq : Nat} {s : Status} (condemned : Condemned l seq s) (reached : Reached a w l)
    (ticks : Ticks a w l l') : Condemned l' seq s := by
  induction ticks with
  | refl => exact condemned
  | tail before tick ih => exact ih.tick (reached.trans before) tick

/-- A condemned unit that is still in flight is judged when it is next looked at. -/
theorem Condemned.judged {seq : Nat} {s : Status} (condemned : Condemned l seq s) (reached : Reached a w l) :
    (∃ f ∈ l.execution.inFlight, f.seq = seq ∧
      ∀ g : Glance, g.InTurn l.clock → ∃ c, (f.unit.glance g w.now).2 = some c ∧ c.status = s) ∨
    ∃ c, l.execution.aggregator.delivered[seq]? = some (some (some c)) ∧ c.status = s := by
  refine condemned.imp_left ?_
  rintro ⟨f, flying, own, cause, killed, rfl⟩
  refine ⟨f, flying, own, fun g inTurn => ?_⟩
  obtain ⟨c, completed, judged⟩ := Running.glance_of_killed (reached.steady f flying) killed inTurn w.now
  exact ⟨c, completed, judged.status⟩

/-! ## Runs that are given up -/

/-- A unit in flight that was killed is condemned. -/
theorem condemned_of_killed {f : InFlight Running} (flying : f ∈ l.execution.inFlight)
    (killed : f.unit.supervision.kill.isSome = true) : Condemned l f.seq .terminated ∨ Condemned l f.seq .timedOut := by
  obtain ⟨cause, first⟩ := Option.isSome_iff_exists.1 killed
  cases cause with
  | watchdog limit => exact .inr (.inl ⟨f, flying, rfl, _, first, rfl⟩)
  | interrupt | abandon => exact .inl (.inl ⟨f, flying, rfl, _, first, rfl⟩)

/-- In a run that is given up, whatever stays in flight has been killed. -/
theorem Tick.killed (tick : Tick a w l l') (reached : Reached a w l) (halted : l'.execution.halt ≠ none)
    (before : l.execution.halt ≠ none → ∀ f ∈ l.execution.inFlight, f.unit.supervision.kill.isSome = true) :
    ∀ f ∈ l'.execution.inFlight, f.unit.supervision.kill.isSome = true := by
  have steady := reached.steady
  cases tick with
  | wait later le => exact before halted
  | interrupt running =>
    intro f flying
    obtain ⟨f, mem, rfl⟩ := List.mem_map.1 flying
    exact (steady f mem).isSome_kill_killFor _ _
  | dispatch due dispatched =>
    have given := halt_dispatchStep dispatched ▸ halted
    simp only [inFlight_dispatchStep_of_halted dispatched given]
    exact before given
  | look g inTurn seq =>
    have sound := reached.reachable.sound
    rcases inspect_cases a (controlAt a w g.struck) (glanceAt g w.now) w.now l.execution seq with
      same | ⟨f₀, there, rfl, goes, same⟩ | ⟨f₀, there, rfl, c, completed, same⟩
    · simp only [same] at halted ⊢
      exact before halted
    · simp only [same] at halted ⊢
      intro f flying
      rcases (sound.mem_replace there _).1 flying with rfl | ⟨mem, _⟩
      · obtain ⟨cause, first⟩ := Option.isSome_iff_exists.1 (before halted f₀ there)
        obtain ⟨c, completed, _⟩ := Running.glance_of_killed (steady f₀ there) first inTurn w.now
        have goes : (f₀.unit.glance g w.now).2 = none := goes
        rw [goes] at completed
        cases completed
      · exact before halted f mem
    · simp only [same] at halted ⊢
      intro f flying
      rcases retire_cases a (controlAt a w g.struck) l.execution f₀ c w.now with ⟨rest, going⟩ | ⟨struck, _⟩
      · rw [rest] at flying
        rw [going] at halted
        exact before halted f (List.mem_of_mem_filter flying)
      · rw [struck] at flying
        obtain ⟨f, mem, rfl⟩ := List.mem_map.1 flying
        exact (steady f (List.mem_of_mem_filter mem)).isSome_kill_killFor _ _

/-- **When a run is given up, whatever is in flight has been killed.** -/
theorem Reached.killed (reached : Reached a w l) (halted : l.execution.halt ≠ none) :
    ∀ f ∈ l.execution.inFlight, f.unit.supervision.kill.isSome = true := by
  induction reached with
  | refl => exact absurd rfl halted
  | tail before tick ih => exact tick.killed before halted ih

/-- What a step comes to is known to have a property: it is to be dispatched in a run that is given up, its unit was
killed, or its completion was handed in. -/
def Destined (l : Loop) (seq : Nat) (P : Completion → Prop) : Prop :=
  (∃ halt, l.execution.halt = some halt ∧ l.execution.cursor ≤ seq ∧
      ∀ now, P (.notRun .terminated halt.reason now)) ∨
    (∃ f ∈ l.execution.inFlight, f.seq = seq ∧ ∃ cause, f.unit.supervision.kill = some cause ∧
      ∀ c, cause.Judges c → P c) ∨
    ∃ c, l.execution.aggregator.delivered[seq]? = some (some (some c)) ∧ P c

theorem Destined.mono {seq : Nat} {P Q : Completion → Prop} (destined : Destined l seq P) (le : ∀ c, P c → Q c) :
    Destined l seq Q := by
  rcases destined with ⟨halt, given, ahead, holds⟩ | ⟨f, flying, own, cause, killed, holds⟩ | ⟨c, delivered, holds⟩
  · exact .inl ⟨halt, given, ahead, fun now => le _ (holds now)⟩
  · exact .inr (.inl ⟨f, flying, own, cause, killed, fun c judges => le c (holds c judges)⟩)
  · exact .inr (.inr ⟨c, delivered, le c holds⟩)

/-- **What is known of the outcome of a test stays true**, whatever happens. -/
theorem Destined.tick {seq node : Nat} {P : Completion → Prop} (destined : Destined l seq P) (reached : Reached a w l)
    (test : a.outline.steps[seq]? = some (.leaf node)) (tick : Tick a w l l') : Destined l' seq P := by
  rcases destined with ⟨halt, given, ahead, holds⟩ | ⟨f, flying, rfl, cause, killed, holds⟩ | ⟨c, delivered, holds⟩
  · have later := tick.moves.halt_eq given
    cases tick with
    | wait later le => exact .inl ⟨halt, given, ahead, holds⟩
    | interrupt running =>
      rw [running] at given
      cases given
    | look g inTurn seq => exact .inl ⟨halt, later, by simpa only [cursor_inspect] using ahead, holds⟩
    | @dispatch step y due dispatched =>
      obtain ⟨_, ⟨halt', given', rfl⟩ | ⟨n, running, _, _, _⟩⟩ := dispatchStep_eq_some dispatched
      · obtain rfl : halt' = halt := Option.some.inj (given'.symm.trans given)
        rcases Nat.lt_or_eq_of_le ahead with further | rfl
        · exact .inl ⟨halt', later, further, holds⟩
        · have sound := reached.reachable.sound
          obtain rfl : Step.leaf node = step := Option.some.inj (test.symm.trans (sound.steps ▸ due))
          have inside := (List.getElem?_eq_some_iff.1 test).1
          have fresh := reached.reachable.undelivered inside sound.cursor_not_reported
          refine .inr (.inr ⟨.notRun .terminated halt'.reason w.now, ?_, holds w.now⟩)
          simp only [aggregator_report, Halt.completion]
          rw [Aggregator.delivered_submit fresh, List.getElem?_set_self (List.getElem?_eq_some_iff.1 fresh).1]
      · rw [running] at given
        cases given
  · rcases tick.killed_goes reached flying killed with ⟨f', flying', own, killed'⟩ | ⟨c, delivered, judged⟩
    · exact .inr (.inl ⟨f', flying', own, cause, killed', holds⟩)
    · exact .inr (.inr ⟨c, delivered, holds c judged⟩)
  · exact .inr (.inr ⟨c, tick.moves.delivered delivered, holds⟩)

theorem Destined.ticks {seq node : Nat} {P : Completion → Prop} (destined : Destined l seq P) (reached : Reached a w l)
    (test : a.outline.steps[seq]? = some (.leaf node)) (ticks : Ticks a w l l') : Destined l' seq P := by
  induction ticks with
  | refl => exact destined
  | tail before tick ih => exact ih.tick (reached.trans before) test tick

/-- **In the end it is handed in.** -/
theorem Destined.atEnd {seq : Nat} {P : Completion → Prop} (destined : Destined l seq P) (reached : Reached a w l)
    (inside : seq < a.outline.steps.length) (atEnd : l.execution.isOver = true) :
    ∃ c, l.execution.aggregator.delivered[seq]? = some (some (some c)) ∧ P c := by
  simp only [isOver, Bool.and_eq_true, List.isEmpty_iff, decide_eq_true_eq, reached.reachable.sound.steps] at atEnd
  obtain ⟨nothing, done⟩ := atEnd
  rcases destined with ⟨_, _, ahead, _⟩ | ⟨f, flying, _⟩ | delivered
  · omega
  · rw [nothing] at flying
    cases flying
  · exact delivered

/-- What becomes of a step is settled: it is to be dispatched in a run that is given up, or its unit is condemned. -/
def Forgone (l : Loop) (seq : Nat) : Prop :=
  (l.execution.halt ≠ none ∧ l.execution.cursor ≤ seq) ∨ Condemned l seq .terminated ∨ Condemned l seq .timedOut

/-- A step that is forgone comes to nothing but an end from outside. -/
theorem Forgone.destined {seq : Nat} (forgone : Forgone l seq) :
    Destined l seq fun c => c.status = .terminated ∨ c.status = .timedOut := by
  have condemned {s : Status} (condemned : Condemned l seq s) : Destined l seq (·.status = s) :=
    .inr (condemned.imp_left fun ⟨f, flying, own, cause, killed, judged⟩ =>
      ⟨f, flying, own, cause, killed, fun c judges => judges.status.trans judged⟩)
  rcases forgone with ⟨halted, ahead⟩ | terminated | timedOut
  · obtain ⟨halt, given⟩ := Option.ne_none_iff_exists'.1 halted
    exact .inl ⟨halt, given, ahead, fun now => .inl rfl⟩
  · exact (condemned terminated).mono fun c => .inl
  · exact (condemned timedOut).mono fun c => .inr

/-- What was not reported is ahead, or in flight. -/
theorem exists_flying_of_unreported (reached : Reached a w l) {seq : Nat} (unreported : seq ∉ l.execution.reported)
    (dispatched : seq < l.execution.cursor) : ∃ f ∈ l.execution.inFlight, f.seq = seq := by
  have flying : seq ∈ l.execution.flights.map (·.seq) := by
    by_contra landed
    exact unreported ((reached.reachable.sound.reported seq).2 ⟨dispatched, landed⟩)
  obtain ⟨_, listed, rfl⟩ := List.mem_map.1 flying
  obtain ⟨f, mem, rfl⟩ := List.mem_map.1 listed
  exact ⟨f, mem, rfl⟩

/-- What was not reported when the run was given up is forgone. -/
theorem forgone_of_halted (reached : Reached a w l) (halted : l.execution.halt ≠ none) {seq : Nat}
    (unreported : seq ∉ l.execution.reported) : Forgone l seq := by
  by_cases due : l.execution.cursor ≤ seq
  · exact .inl ⟨halted, due⟩
  · obtain ⟨f, mem, rfl⟩ := exists_flying_of_unreported reached unreported (by omega)
    exact .inr (condemned_of_killed mem (reached.killed halted f mem))

end Loop

end TestIsolation
