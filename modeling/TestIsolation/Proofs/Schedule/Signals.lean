import TestIsolation.Proofs.Schedule.Halting

/-!
# Signals and the runs of one process

That a signal to stop was caught is on record for the process, and every run asks for it. Only a run that catches
signals clears the record, when it starts. So a run that catches none is told to stop by its own token, or by a signal
that was caught in the last run before it that does (`interrupted_by_token_or_leftover`). Such a signal always stops it,
before it has started anything (`Loop.drive_of_isStop`), even if it came too late for the run that caught it
(`stopped_by_leftover_signal`). The event loop is one of the runs that this is about (`Watched.happens_run`).
-/

namespace TestIsolation

set_option autoImplicit false

/-! ## What is told only grows -/

namespace Aggregator

/-- A step tells the observers more. -/
theorem told_apply (g : Aggregator) (step : Step) (c : Option Completion) (now : Timestamp) :
    g.told <:+ (g.apply step c now).told := by
  cases step <;> exact List.suffix_append _ _

theorem told_drain (g : Aggregator) (now : Timestamp) (fuel : Nat) : g.told <:+ (g.drain now fuel).told := by
  induction fuel generalizing g with
  | zero => exact List.suffix_rfl
  | succ fuel ih =>
    simp only [drain]
    split
    · rename_i step c _ _
      exact (g.told_apply step c now).trans (ih { g.apply step c now with applied := g.applied + 1 })
    · exact List.suffix_rfl

theorem told_submit (g : Aggregator) (seq : Nat) (c : Option Completion) (now : Timestamp) :
    g.told <:+ (g.submit seq c now).told := by
  unfold submit
  split
  · exact told_drain { g with delivered := g.delivered.set seq (some c) } now _
  · exact List.suffix_rfl

end Aggregator

open Execution in
/-- The observers are told more as a run goes on. -/
theorem Execution.Moves.told {β υ : Type} {a : Assignment β} {rules : Conduct υ} {x y : Execution υ}
    (moves : Moves a rules x y) : x.aggregator.told <:+ y.aggregator.told := by
  induction moves with
  | refl => exact List.suffix_rfl
  | tail _ move ih =>
    rcases move.reports with ⟨same, _⟩ | ⟨seq, c, now, submitted, _, _⟩
    · rwa [same]
    · rw [submitted]
      exact ih.trans (Aggregator.told_submit ..)

/-! ## Where a run is told to stop -/

namespace Execution

variable {β υ : Type} {a : Assignment β} {control : UnitControl β υ} {now : Timestamp} {x : Execution υ}

theorem halt_dispatchAll (steps : List Step) : (x.dispatchAll a control now steps).halt = x.halt := by
  induction steps generalizing x with
  | nil => rfl
  | cons step steps ih =>
    simp only [dispatchAll]
    split
    · rename_i y dispatched
      exact ih.trans (halt_dispatchStep dispatched :)
    · rfl

/-- Dispatching never gives the run up. -/
theorem halt_dispatch : (x.dispatch a control now).halt = x.halt := halt_dispatchAll _

/-- A look at a unit never tells the run to stop, -/
theorem interrupted_of_inspect {look : InFlight υ → υ × Option Completion} {seq : Nat}
    (interrupted : (x.inspect a control look now seq).halt = some .interrupted) : x.halt = some .interrupted := by
  rcases inspect_cases a control look now x seq with
    same | ⟨f, _, _, _, same⟩ | ⟨f, _, _, c, _, same⟩ <;> rw [same] at interrupted
  · exact interrupted
  · exact interrupted
  · rcases retire_cases a control x f c now with ⟨_, kept⟩ | ⟨_, _, given⟩
    · rwa [kept] at interrupted
    · rw [given] at interrupted
      cases interrupted

/-- nor do looks at all of them. -/
theorem interrupted_of_collect {look : InFlight υ → υ × Option Completion}
    (interrupted : (x.collect a control look now).halt = some .interrupted) : x.halt = some .interrupted := by
  unfold collect at interrupted
  generalize x.inFlight.map (·.seq) = seqs at interrupted
  induction seqs generalizing x with
  | nil => exact interrupted
  | cons seq seqs ih => exact interrupted_of_inspect (ih interrupted)

end Execution

/-! ## Runs that may be told to stop -/

/-- A run on a clock, with what was done to stop it so far. -/
structure Watched where
  loop : Loop
  interruption : Interruption

namespace Watched

open Execution

variable {β : Type} {a : Assignment β} {w : World β} {s s' : Watched}

/-- A run that starts in a process with something on record. -/
def start (a : Assignment β) (w : World β) (before : Interruption) : Watched :=
  ⟨⟨.new a, w.clock⟩, w.interruptionAtStart before⟩

/-- One thing that happens in a run, or is done to stop it, at any time. -/
inductive Happens (a : Assignment β) (w : World β) (s : Watched) : Watched → Prop where
  /-- The run's own token is cancelled. -/
  | cancel : Happens a w s ⟨s.loop, { s.interruption with cancelled := true }⟩
  /-- A signal arrives. -/
  | signal (caught : w.catchesSignals = true) : Happens a w s ⟨s.loop, { s.interruption with signaled := true }⟩
  /-- The run goes on. It is told to stop only if something was done. -/
  | tick {l : Loop} (tick : Loop.Tick a w s.loop l)
      (told : s.loop.execution.halt = none → l.execution.halt = some .interrupted →
        s.interruption.isStop = true) : Happens a w s ⟨l, s.interruption⟩

/-- What happens in turn. -/
abbrev Happen (a : Assignment β) (w : World β) : Watched → Watched → Prop := Relation.ReflTransGen (Happens a w)

/-- Where no signals are caught the record of the process stays. -/
theorem Happen.signaled_eq (happen : Happen a w s s') (bare : w.catchesSignals = false) :
    s'.interruption.signaled = s.interruption.signaled := by
  induction happen with
  | refl => rfl
  | tail _ happens ih =>
    cases happens with
    | cancel | tick tick told => exact ih
    | signal caught =>
      rw [bare] at caught
      cases caught

/-- **A run that was told to stop had reason to.** -/
theorem Happen.isStop (happen : Happen a w s s') (running : s.loop.execution.halt = none)
    (interrupted : s'.loop.execution.halt = some .interrupted) : s'.interruption.isStop = true := by
  induction happen with
  | refl =>
    rw [running] at interrupted
    cases interrupted
  | @tail s₁ s₂ before happens ih =>
    cases happens with
    | cancel => simp [Interruption.isStop]
    | signal caught => simp [Interruption.isStop]
    | tick tick told =>
      cases halt : s₁.loop.execution.halt with
      | none => exact told halt interrupted
      | some first =>
        obtain rfl : first = .interrupted :=
          Option.some.inj ((tick.moves.halt_eq halt).symm.trans interrupted)
        exact ih halt

/-! ## The event loop -/

/-- A run whose interruption is what was done about its events. -/
def ofLoop (w : World β) (start : Interruption) (l : Loop) : Watched :=
  ⟨l, w.interruptionAfter start l.execution.aggregator.events⟩

/-- More is on record later: the token was cancelled, or a signal was caught where signals are. -/
structure Grows (w : World β) (i j : Interruption) : Prop where
  cancelled : i.cancelled = true → j.cancelled = true
  signaled : i.signaled = true → j.signaled = true
  caught : j.signaled = true → i.signaled = true ∨ w.catchesSignals = true

theorem Grows.isStop {i j : Interruption} (grows : Grows w i j) (stop : i.isStop = true) : j.isStop = true := by
  rw [Interruption.isStop, Bool.or_eq_true] at stop ⊢
  exact stop.imp grows.cancelled grows.signaled

theorem Grows.happen {i j : Interruption} (grows : Grows w i j) (l : Loop) : Happen a w ⟨l, i⟩ ⟨l, j⟩ := by
  obtain ⟨c, s⟩ := i
  obtain ⟨c', s'⟩ := j
  obtain ⟨cancelled, signaled, caught⟩ := grows
  have first : Happen a w ⟨l, ⟨c, s⟩⟩ ⟨l, ⟨c', s⟩⟩ := by
    cases c <;> cases c'
    · exact .refl
    · exact .single .cancel
    · simp at cancelled
    · exact .refl
  refine first.trans ?_
  cases s <;> cases s'
  · exact .refl
  · exact .single (.signal (by simpa using caught))
  · simp at signaled
  · exact .refl

/-- The record grows with what the observers are told. -/
theorem grows_of_ticks (start : Interruption) {l l' : Loop} (ticks : Loop.Ticks a w l l') :
    Grows w (w.interruptionAfter start l.execution.aggregator.events)
      (w.interruptionAfter start l'.execution.aggregator.events) := by
  have more {p : Event → Bool} (some : l.execution.aggregator.events.any p = true) :
      l'.execution.aggregator.events.any p = true := by
    simp only [Aggregator.events, List.any_reverse] at some ⊢
    obtain ⟨e, told, holds⟩ := List.any_eq_true.1 some
    exact List.any_eq_true.2 ⟨e, (Loop.Ticks.moves ticks).told.subset told, holds⟩
  simp only [World.interruptionAfter]
  refine ⟨?_, ?_, ?_⟩ <;> simp only [Bool.or_eq_true, Bool.and_eq_true]
  · exact Or.imp_right more
  · exact Or.imp_right (And.imp_right more)
  · rintro (before | ⟨caught, -⟩)
    · exact .inl (.inl before)
    · exact .inr caught

/-- Ticks of the loop are such things, if there is reason where they tell the run to stop. -/
theorem happen_ofLoop (start : Interruption) {l l' : Loop} (ticks : Loop.Ticks a w l l')
    (told : l.execution.halt = none → l'.execution.halt = some .interrupted →
      (w.interruptionAfter start l.execution.aggregator.events).isStop = true) :
    Happen a w (ofLoop w start l) (ofLoop w start l') := by
  induction ticks with
  | refl => exact .refl
  | @tail m l' before tick ih =>
    have first := ih fun running interrupted => told running (tick.moves.halt_eq interrupted)
    have reason : m.execution.halt = none → l'.execution.halt = some .interrupted →
        (w.interruptionAfter start m.execution.aggregator.events).isStop = true := by
      intro running interrupted
      refine (grows_of_ticks start before).isStop (told ?_ interrupted)
      by_contra halted
      exact (Loop.Ticks.moves before).halted halted running
    exact (first.tail (.tick tick reason)).trans ((grows_of_ticks start (.single tick)).happen l')

/-- The loop prepares its wait so. -/
theorem happen_prepare (start : Interruption) (l : Loop) :
    Happen a w (ofLoop w start l) (ofLoop w start ⟨Loop.prepare a w start l, l.clock⟩) := by
  refine happen_ofLoop start (Loop.ticks_prepare start l) fun running interrupted => ?_
  simp only [Loop.prepare, halt_dispatch, interrupt, running] at interrupted
  split at interrupted
  · rename_i stops
    exact stops
  · rw [running] at interrupted
    cases interrupted

/-- It looks at its units so. -/
theorem happen_collect (start : Interruption) (l : Loop) {later : Instant} (le : l.clock.nanos ≤ later.nanos) :
    Happen a w (ofLoop w start l) (ofLoop w start
      ⟨l.execution.collect a (Loop.controlAt a w later) (Loop.lookAt later w.now) w.now, later⟩) := by
  refine happen_ofLoop start (.head (.wait later le) (Loop.ticks_collect l.execution later)) ?_
  intro running interrupted
  rw [interrupted_of_collect interrupted] at running
  cases running

/-- **A run of the event loop is such a run.** -/
theorem happens_run (a : Assignment β) (w : World β) (before : Interruption) :
    ∃ s, Happen a w (start a w before) s ∧ s.interruption = (a.run w before).interruption ∧
      s.loop.execution.aggregator.tree = (a.run w before).tree := by
  obtain ⟨clock, happen⟩ := Loop.drive_induction (a := a) (w := w)
    (P := fun l => Happen a w (ofLoop w (w.interruptionAtStart before) ⟨.new a, w.clock⟩)
      (ofLoop w (w.interruptionAtStart before) l))
    (fun l happen => happen.trans (happen_prepare _ l)) (fun l later happen le => happen.trans (happen_collect _ l le))
    .refl (Loop.rounds a w)
  have fresh : ofLoop w (w.interruptionAtStart before) ⟨.new a, w.clock⟩ = start a w before := by
    simp [ofLoop, start, World.interruptionAfter, Execution.new, Aggregator.new, Aggregator.events]
  rw [fresh] at happen
  exact ⟨_, happen, rfl, rfl⟩

end Watched

/-! ## Runs that find a signal on record -/

namespace Loop

open Execution

variable {β : Type} {a : Assignment β} {w : World β}

/-- A run goes round at least once. -/
theorem rounds_pos (a : Assignment β) (w : World β) : 0 < rounds a w := by
  have grows (weight : Step → Nat) (steps : List Step) (n : Nat) :
      n ≤ steps.foldl (fun n step => n + weight step) n := by
    induction steps generalizing n with
    | nil => exact Nat.le_refl n
    | cons step steps ih => exact Nat.le_trans (Nat.le_add_right ..) (ih _)
  exact grows _ _ 1

/-- **A run that is told to stop when it starts is over at once**, and starts nothing. -/
theorem drive_of_isStop {start : Interruption} (stop : start.isStop = true) {fuel : Nat} (goes : 0 < fuel) :
    let r := drive a w start ⟨.new a, w.clock⟩ fuel
    r.2 = .ok () ∧ r.1.isOver = true ∧ r.1.halt = some .interrupted ∧ r.1.started = [] := by
  obtain ⟨fuel, rfl⟩ := Nat.exists_eq_succ_of_ne_zero (Nat.ne_of_gt goes)
  let z : Execution Running := (Execution.new a).haltFor (controlAt a w w.clock) .interrupted
  have prepared : prepare a w start ⟨.new a, w.clock⟩ = z.dispatch a (controlAt a w w.clock) w.now := by
    have told : (w.interruptionAfter start (Execution.new (υ := Running) a).aggregator.events).isStop = true := by
      simpa [World.interruptionAfter, Execution.new, Aggregator.new, Aggregator.events] using stop
    simp only [prepare, interrupt, told]
    rfl
  have tick : Tick a w ⟨.new a, w.clock⟩ ⟨z, w.clock⟩ := .interrupt rfl
  have ticks : Ticks a w ⟨z, w.clock⟩ ⟨z.dispatch a (controlAt a w w.clock) w.now, w.clock⟩ :=
    ticks_dispatchAll _ w.clock rfl
  have atEnd : (z.dispatch a (controlAt a w w.clock) w.now).isOver = true :=
    isOver_dispatch_of_halted (l := ⟨z, w.clock⟩) (.single tick) (Option.some_ne_none _) rfl
  have started := Ticks.started_of_halted ticks (Option.some_ne_none _)
  have driven : drive a w start ⟨.new a, w.clock⟩ (fuel + 1) =
      (z.dispatch a (controlAt a w w.clock) w.now, .ok ()) := by
    rw [drive, prepared, if_pos atEnd]
  intro r
  have same : r = (z.dispatch a (controlAt a w w.clock) w.now, .ok ()) := driven
  rw [same]
  exact ⟨rfl, atEnd, halt_dispatch, started⟩

end Loop

/-! ## The runs of one process -/

/-- A run of a process: what it is about, what is on record when it starts, and how far it came. -/
structure Turn (β : Type) where
  assignment : Assignment β
  world : World β
  before : Interruption
  after : Watched

/-- Whether a signal is on record for the process after some runs, newest first. -/
def onRecord {β : Type} : List (Turn β) → Bool
  | [] => false
  | turn :: _ => turn.after.interruption.signaled

/-- The runs of a process so far, newest first. Each starts with its own token and with what is on record for the
process. -/
inductive History {β : Type} : List (Turn β) → Prop where
  | nil : History []
  | cons {turn : Turn β} {turns : List (Turn β)} (earlier : History turns)
      (record : turn.before.signaled = onRecord turns)
      (happen : Watched.Happen turn.assignment turn.world (.start turn.assignment turn.world turn.before) turn.after) :
      History (turn :: turns)

/-- A run was the last to catch signals, and it caught one. -/
def Leftover {β : Type} (turns : List (Turn β)) : Prop :=
  ∃ between turn earlier, turns = between ++ turn :: earlier ∧ (∀ t ∈ between, t.world.catchesSignals = false) ∧
    turn.world.catchesSignals = true ∧ turn.after.interruption.signaled = true

section Turns

variable {β : Type} {turn : Turn β} {turns : List (Turn β)}

/-- A run that catches no signals is the same for what is left over, -/
theorem leftover_cons_of_bare (bare : turn.world.catchesSignals = false) :
    Leftover (turn :: turns) ↔ Leftover turns := by
  constructor
  · rintro ⟨between, last, earlier, cut, quiet, caught, signaled⟩
    cases between with
    | nil =>
      obtain ⟨rfl, -⟩ := List.cons.inj cut
      rw [bare] at caught
      cases caught
    | cons t between =>
      obtain ⟨rfl, rfl⟩ := List.cons.inj cut
      exact ⟨between, last, earlier, rfl, fun t mem => quiet t (List.mem_cons_of_mem _ mem), caught, signaled⟩
  · rintro ⟨between, last, earlier, rfl, quiet, caught, signaled⟩
    exact ⟨turn :: between, last, earlier, rfl, List.forall_mem_cons.2 ⟨bare, quiet⟩, caught, signaled⟩

/-- and after one that does it is what that one caught. -/
theorem leftover_cons_of_catches (catches : turn.world.catchesSignals = true) :
    Leftover (turn :: turns) ↔ turn.after.interruption.signaled = true := by
  constructor
  · rintro ⟨between, last, earlier, cut, quiet, caught, signaled⟩
    cases between with
    | nil =>
      obtain ⟨rfl, -⟩ := List.cons.inj cut
      exact signaled
    | cons t between =>
      obtain ⟨rfl, -⟩ := List.cons.inj cut
      rw [quiet turn List.mem_cons_self] at catches
      cases catches
  · exact fun signaled => ⟨[], turn, turns, rfl, fun _ mem => absurd mem List.not_mem_nil, catches, signaled⟩

/-- **What is on record was caught in the last run that catches signals**, and is not taken off by later ones. -/
theorem History.onRecord_iff (history : History turns) : onRecord turns = true ↔ Leftover turns := by
  induction history with
  | nil =>
    constructor
    · exact fun signaled => absurd signaled Bool.false_ne_true
    · rintro ⟨between, _, _, cut, _⟩
      simp at cut
  | @cons turn turns earlier record happen ih =>
    cases caught : turn.world.catchesSignals with
    | true => exact (leftover_cons_of_catches caught).symm
    | false =>
      rw [leftover_cons_of_bare caught, ← ih, ← record, onRecord, happen.signaled_eq caught, Watched.start,
        World.interruptionAtStart, caught]
      rfl

end Turns

open Loop in
/-- **A run that catches no signals is stopped by its token or by a signal left over.** Let a process make runs one
after the other, each with a token of its own, and let each be told to stop only because its token was cancelled or a
signal was caught, which can happen at any time in a run that catches them. If a run that catches none was told to
stop, its token was cancelled, or a signal was caught in the last run before it that catches signals. And then the
event loop has it stop at once: the run is over, given up for an interruption, and has started nothing. The event loop
makes such runs (`Watched.happens_run`). -/
theorem interrupted_by_token_or_leftover {β : Type} {turn : Turn β} {turns : List (Turn β)}
    (history : History (turn :: turns)) (bare : turn.world.catchesSignals = false) :
    (turn.after.loop.execution.halt = some .interrupted →
        turn.after.interruption.cancelled = true ∨ Leftover turns) ∧
      (Leftover turns →
        let a := turn.assignment
        let w := turn.world
        let r := drive a w (w.interruptionAtStart turn.before) ⟨.new a, w.clock⟩ (rounds a w)
        r.2 = .ok () ∧ r.1.isOver = true ∧ r.1.halt = some .interrupted ∧ r.1.started = []) := by
  cases history with
  | cons earlier record happen =>
    have same : turn.world.interruptionAtStart turn.before = turn.before := by
      rw [World.interruptionAtStart, bare]
      rfl
    constructor
    · intro interrupted
      have stop := happen.isStop rfl interrupted
      rw [Interruption.isStop, Bool.or_eq_true, happen.signaled_eq bare] at stop
      refine stop.imp_right fun signaled => earlier.onRecord_iff.1 ?_
      rw [← record, ← same]
      exact signaled
    · intro leftover
      refine drive_of_isStop ?_ (rounds_pos _ _)
      rw [same, Interruption.isStop, record, earlier.onRecord_iff.2 leftover, Bool.or_true]

open Execution Loop in
/-- A signal is caught in one run, and the next one, which catches none and has its token not cancelled, is told to
stop. -/
theorem interrupted_by_token_or_leftover_signal :
    let t : SuiteTree Script := .suite { name := "s" } [.test { name := "t" } []]
    let a : Assignment Script := ⟨t.outline, {}⟩
    let w : World Script := { process := fun plan => .run plan (.start none), now := 5 }
    let first : Turn Script := ⟨a, { w with catchesSignals := true }, {}, ⟨.new a, w.clock⟩, { signaled := true }⟩
    let second : Turn Script := ⟨a, w, { signaled := true },
      ⟨(Execution.new a).haltFor (controlAt a w w.clock) .interrupted, w.clock⟩, { signaled := true }⟩
    let x := (drive a w (w.interruptionAtStart second.before) ⟨.new a, w.clock⟩ (rounds a w)).1
    History [second, first] ∧ w.catchesSignals = false ∧ second.after.loop.execution.halt = some .interrupted ∧
      (second.after.interruption.cancelled = true ∨ Leftover [first]) ∧
      x.halt = some .interrupted ∧ x.started = [] := by
  intro t a w first second x
  -- Whatever the tree is, it must not be unfolded, or the run is computed to compare it with itself.
  clear_value t
  have caught : History [first] := .cons .nil rfl (.single (.signal rfl))
  have history : History [second, first] :=
    .cons caught rfl (.single (.tick (.interrupt rfl) fun _ _ => rfl))
  have leftover : Leftover [first] := caught.onRecord_iff.1 rfl
  obtain ⟨reason, stops⟩ := interrupted_by_token_or_leftover history rfl
  obtain ⟨_, _, halted, started⟩ := stops leftover
  exact ⟨history, rfl, rfl, reason rfl, halted, started⟩

/-- A signal that is caught when the last suite of a run is done comes too late for that run, and stops the next one.
That one catches no signals, and its token is not cancelled. -/
theorem stopped_by_leftover_signal :
    let t : SuiteTree Script := .suite { name := "s" } [.test { name := "t" } []]
    let a : Assignment Script := ⟨t.outline, {}⟩
    let w : World Script := { process := fun plan => .run plan (.start none), now := 5 }
    let first := a.run { w with
      catchesSignals := true
      reaction := fun e => if e.kind = .suiteFinished then some .signal else none } {}
    let second := a.run w { signaled := first.interruption.signaled }
    first.tree.leaves.map (fun r => (r.status, r.reason)) = [(.passed, none)] ∧
      second.interruption.cancelled = false ∧
      (Loop.drive a w { signaled := first.interruption.signaled } ⟨.new a, w.clock⟩ (Loop.rounds a w)).1.halt =
        some .interrupted ∧
      second.tree.leaves.map (fun r => (r.status, r.reason)) = [(.terminated, some "run interrupted")] := by
  decide +kernel

end TestIsolation
