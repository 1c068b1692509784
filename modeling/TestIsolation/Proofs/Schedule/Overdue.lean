import TestIsolation.Proofs.Schedule.Condemned

/-!
# Units that outlive their limit

A unit that a look finds past its deadline and not at its end is killed, and from then on nothing else counts: it is
judged to have timed out, or for an earlier reason to kill it (`overdue_judged`). The deadline itself decides nothing.
A look asks for the end of a unit first, so one that outlived its limit and ended before it was looked at passes
(`overdue_unnoticed`).
-/

namespace TestIsolation

set_option autoImplicit false

namespace Loop

open Execution

variable {β : Type} {a : Assignment β} {w : World β} {l l' : Loop}

/-- The look that condemns a unit. -/
theorem condemned_of_overdue {f : InFlight Running} {d : Deadline} {g : Glance} (reached : Reached a w l)
    (flying : f ∈ l.execution.inFlight) (armed : f.unit.supervision.deadline = some d) (inTurn : g.InTurn l.clock)
    (overdue : d.instant.nanos ≤ g.begun.nanos)
    (unended : f.unit.supervision.kill = none →
      (f.unit.pump g.pumped).process.endedBy (f.unit.age g.reaped) = none) :
    Condemned ⟨l.execution.inspect a (controlAt a w g.struck) (glanceAt g w.now) w.now f.seq, g.struck⟩ f.seq
      (((f.unit.supervision.kill).map KillCause.status).getD .timedOut) := by
  have steady := reached.steady f flying
  cases killed : f.unit.supervision.kill with
  | some cause => exact Condemned.tick (.inl ⟨f, flying, rfl, cause, killed, rfl⟩) reached (.look g inTurn f.seq)
  | none =>
    obtain ⟨goes, watched⟩ := Running.glance_of_overdue steady armed overdue killed (unended killed) w.now
    have found := reached.reachable.sound.find?_flying flying
    rcases looked : f.unit.glance g w.now with ⟨unit, _ | c⟩
    · rw [looked] at watched
      refine .inl ⟨{ f with unit }, ?_, rfl, _, watched, rfl⟩
      simp only [inspect, found, glanceAt, looked, replace]
      exact List.mem_map.2 ⟨f, flying, by rw [if_pos rfl]⟩
    · rw [looked] at goes
      cases goes

end Loop

open Execution Loop in
/-- **A unit found overdue is never judged by its own end.** In a run on a clock, however late its looks come, let a
look begin at or after the deadline of a unit in flight and not find the unit at its end, unless the unit had been
killed before. Then in every later state the unit's completion was handed in with the status timed out, or with that
of the first reason it had been killed for, or else the unit is in flight and any look at it gives such a completion.
The states of the event loop are such states. -/
theorem overdue_judged {β : Type} {a : Assignment β} {w : World β} {l l' : Loop} {f : InFlight Running} {d : Deadline}
    {g : Glance} (reached : Reached a w l) (flying : f ∈ l.execution.inFlight)
    (armed : f.unit.supervision.deadline = some d) (inTurn : g.InTurn l.clock)
    (overdue : d.instant.nanos ≤ g.begun.nanos)
    (unended : f.unit.supervision.kill = none →
      (f.unit.pump g.pumped).process.endedBy (f.unit.age g.reaped) = none)
    (later : Ticks a w ⟨l.execution.inspect a (controlAt a w g.struck) (glanceAt g w.now) w.now f.seq, g.struck⟩ l') :
    let status := ((f.unit.supervision.kill).map KillCause.status).getD .timedOut
    ((∃ f' ∈ l'.execution.inFlight, f'.seq = f.seq ∧
        ∀ g' : Glance, g'.InTurn l'.clock → ∃ c, (f'.unit.glance g' w.now).2 = some c ∧ c.status = status) ∨
      ∃ c, l'.execution.aggregator.delivered[f.seq]? = some (some (some c)) ∧ c.status = status) ∧
    ∀ start fuel, ∃ clock, Ticks a w l' ⟨(drive a w start l' fuel).1, clock⟩ := by
  have condemned := condemned_of_overdue reached flying armed inTurn overdue unended
  have looked : Reached a w
      ⟨l.execution.inspect a (controlAt a w g.struck) (glanceAt g w.now) w.now f.seq, g.struck⟩ :=
    reached.tail (.look g inTurn f.seq)
  exact ⟨(condemned.ticks looked later).judged (looked.trans later), fun start fuel => ticks_drive start fuel l'⟩

open Execution Loop in
/-- A test that sleeps for longer than its limit and is looked at in between. The next look gives its completion. -/
theorem overdue_judged_slow :
    let t : SuiteTree Script := .test { name := "t" } [.sleep 300]
    let a : Assignment Script := ⟨t.outline, { defaultTimeout := .ofMillis 100 }⟩
    let w : World Script := { process := fun plan => .run plan (.start none), now := 5 }
    let l : Loop := ⟨prepare a w {} ⟨.new a, w.clock⟩, w.clock⟩
    let g := Glance.at ⟨200000000⟩
    let l' : Loop := ⟨l.execution.inspect a (controlAt a w g.struck) (glanceAt g w.now) w.now 0, g.struck⟩
    (∃ f ∈ l.execution.inFlight, f.seq = 0 ∧ f.unit.supervision.deadline = some ⟨⟨100000000⟩, .ofMillis 100⟩ ∧
        (f.unit.pump g.pumped).process.endedBy (f.unit.age g.reaped) = none) ∧
      ∃ f ∈ l'.execution.inFlight, f.seq = 0 ∧
        ∀ g : Glance, g.InTurn l'.clock → ∃ c, (f.unit.glance g w.now).2 = some c ∧ c.status = .timedOut := by
  intro t a w l g l'
  have reached : Reached a w l := ticks_prepare {} ⟨.new a, w.clock⟩
  have inTurn : g.InTurn l.clock := ⟨by decide, by decide, by decide, by decide⟩
  have alone : l.execution.inFlight.map (fun f => (f.seq, f.unit.supervision.deadline, f.unit.supervision.kill,
      (f.unit.pump g.pumped).process.endedBy (f.unit.age g.reaped))) =
      [(0, some ⟨⟨100000000⟩, .ofMillis 100⟩, none, none)] := by decide +kernel
  obtain ⟨f, flying, facts⟩ := List.mem_map.1 (alone ▸ List.mem_singleton_self _)
  obtain ⟨own, armed, running, unended⟩ : f.seq = 0 ∧ f.unit.supervision.deadline = some ⟨⟨100000000⟩, .ofMillis 100⟩ ∧
      f.unit.supervision.kill = none ∧ (f.unit.pump g.pumped).process.endedBy (f.unit.age g.reaped) = none := by
    simpa using facts
  have looked : Ticks a w
      ⟨l.execution.inspect a (controlAt a w g.struck) (glanceAt g w.now) w.now f.seq, g.struck⟩ l' := by
    rw [own]
  have judged := (overdue_judged reached flying armed inTurn (by decide) (fun _ => unended) looked).1
  rw [running, own] at judged
  have undelivered : l'.execution.aggregator.delivered = [none] := by decide +kernel
  refine ⟨⟨f, flying, own, armed, unended⟩, judged.resolve_right ?_⟩
  rintro ⟨c, delivered, _⟩
  rw [undelivered] at delivered
  cases delivered

open Execution Loop in
/-- **A unit may outlive its limit unnoticed.** A test that sleeps for longer than its limit is first looked at when it
has ended. It passes. -/
theorem overdue_unnoticed :
    let t : SuiteTree Script := .test { name := "t" } [.sleep 300]
    let a : Assignment Script := ⟨t.outline, { defaultTimeout := .ofMillis 100 }⟩
    let w : World Script := { process := fun plan => .run plan (.start none), now := 5 }
    ∃ l l', Reached a w l ∧ Ticks a w l l' ∧ ∃ f ∈ l.execution.inFlight, ∃ d : Deadline,
      f.unit.supervision.deadline = some d ∧ f.unit.supervision.kill = none ∧
      f.unit.process.endedBy (f.unit.age d.instant) = none ∧
      ∃ c, l'.execution.aggregator.delivered[f.seq]? = some (some (some c)) ∧ c.status = .passed := by
  intro t a w
  let l : Loop := ⟨prepare a w {} ⟨.new a, w.clock⟩, w.clock⟩
  let g := Glance.at ⟨1000000000⟩
  let l' : Loop := ⟨l.execution.inspect a (controlAt a w g.struck) (glanceAt g w.now) w.now 0, g.struck⟩
  have inTurn : g.InTurn l.clock := ⟨by decide, by decide, by decide, by decide⟩
  have alone : l.execution.inFlight.map (fun f => (f.seq, f.unit.supervision.deadline, f.unit.supervision.kill,
      f.unit.process.endedBy (f.unit.age ⟨100000000⟩))) =
      [(0, some ⟨⟨100000000⟩, .ofMillis 100⟩, none, none)] := by decide +kernel
  obtain ⟨f, flying, facts⟩ := List.mem_map.1 (alone ▸ List.mem_singleton_self _)
  obtain ⟨own, armed, running, unended⟩ : f.seq = 0 ∧ f.unit.supervision.deadline = some ⟨⟨100000000⟩, .ofMillis 100⟩ ∧
      f.unit.supervision.kill = none ∧ f.unit.process.endedBy (f.unit.age ⟨100000000⟩) = none := by
    simpa using facts
  have delivered : l'.execution.aggregator.delivered[0]?.map
      (fun given => given.map fun c => c.map (·.status)) = some (some (some .passed)) := by decide +kernel
  refine ⟨l, l', ticks_prepare {} ⟨.new a, w.clock⟩, .single (.look g inTurn 0), f, flying, _, armed, running, unended,
    ?_⟩
  rw [own]
  simpa [Option.map_eq_some_iff] using delivered

end TestIsolation
