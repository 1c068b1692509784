import TestIsolation.Proofs.Schedule.Bookkeeping
import TestIsolation.Proofs.Schedule.Round
import TestIsolation.Schedule.EventLoop

/-!
# Courses of a run

A `Course` is what a run meets in all its rounds, where every unit in flight is reaped at some time. Each unit that is
reaped reports a step, and steps can only be reported once, so every course of a suite tree comes to an end
(`Course.exists_over`). The event loop goes round in the same way, and what its rounds keep is kept however often it
does (`Loop.drive_induction`).
-/

namespace TestIsolation

set_option autoImplicit false

namespace Execution

variable {β υ : Type}

/-- The state of a run after some rounds. -/
def after (a : Assignment β) (rounds : Nat → Round β υ) : Nat → Execution υ
  | 0 => .new a
  | n + 1 => (after a rounds n).round a (rounds n)

/-- The state of a run when it waits in a round. -/
def waiting (a : Assignment β) (rounds : Nat → Round β υ) (n : Nat) : Execution υ :=
  (after a rounds n).prepared a (rounds n)

end Execution

/-- What a run meets. -/
structure Course {β : Type} (υ : Type) (a : Assignment β) (rules : Conduct υ) where
  rounds : Nat → Round β υ
  follows : ∀ n, (rounds n).Follows rules
  /-- Every unit in flight is reaped in this round or in a later one. -/
  reaped : ∀ n, ∀ f ∈ (Execution.waiting a rounds n).inFlight,
    ∃ m, n ≤ m ∧ ∀ g ∈ (Execution.after a rounds (m + 1)).inFlight, g.seq ≠ f.seq

namespace Course

open Execution

variable {β υ : Type} {a : Assignment β} {rules : Conduct υ}

/-- The state in which the run waits in a round. It ends with the first of these that is over. -/
def state (course : Course υ a rules) (n : Nat) : Execution υ := waiting a course.rounds n

theorem reachable_after (course : Course υ a rules) (n : Nat) : Reachable a rules (after a course.rounds n) := by
  induction n with
  | zero => exact .refl
  | succ n ih =>
    exact ih.trans ((moves_prepared (course.follows n) _).trans (moves_collected (course.follows n) _))

theorem reachable (course : Course υ a rules) (n : Nat) : Reachable a rules (course.state n) :=
  (course.reachable_after n).trans (moves_prepared (course.follows n) _)

/-- The state in a round leads to those after it. -/
theorem moves_after (course : Course υ a rules) {n m : Nat} (le : n ≤ m) :
    Moves a rules (course.state n) (after a course.rounds (m + 1)) := by
  induction le with
  | refl => exact moves_collected (course.follows n) _
  | @step m le ih =>
    exact ih.trans ((moves_prepared (course.follows (m + 1)) _).trans (moves_collected (course.follows (m + 1)) _))

end Course

namespace Execution

variable {β υ : Type} {a : Assignment β} {rules : Conduct υ} {x y : Execution υ}

theorem Move.cursor_le (move : Move a rules x y) : x.cursor ≤ y.cursor := by
  cases move with
  | interrupt control running told => exact Nat.le_refl _
  | update seq unit => exact Nat.le_refl _
  | giveUp due free halted now => exact Nat.le_succ _
  | pass due free running found decided now => exact Nat.le_succ _
  | launch due free running found decided alone room start now => exact Nat.le_succ _
  | finish flying control ends now => exact Nat.le_of_eq (cursor_retire _ _ now).symm

theorem Moves.cursor_le (moves : Moves a rules x y) : x.cursor ≤ y.cursor := by
  induction moves with
  | refl => exact Nat.le_refl _
  | tail _ move ih => exact Nat.le_trans ih move.cursor_le

/-- A step that was in flight and no longer is has been reported. -/
theorem Moves.reported_of_reaped (moves : Moves a rules x y) (before : Sound a x) (after : Sound a y) {f : InFlight υ}
    (flying : f ∈ x.inFlight) (reaped : ∀ g ∈ y.inFlight, g.seq ≠ f.seq) : f.seq ∈ y.reported := by
  rw [after.reported]
  constructor
  · exact Nat.lt_of_lt_of_le (before.flying_lt_cursor flying) moves.cursor_le
  · intro listed
    obtain ⟨flight, mem, same⟩ := List.mem_map.1 listed
    obtain ⟨g, still, rfl⟩ := List.mem_map.1 mem
    exact reaped g still same

/-- There is room in the log for every step that is in flight. -/
theorem Sound.length_reported_lt (sound : Sound a x) {f : InFlight υ} (flying : f ∈ x.inFlight) :
    x.reported.length < a.outline.steps.length := by
  have inside : f.seq :: x.reported ⊆ List.range a.outline.steps.length := by
    intro seq mem
    have bound := sound.cursor
    rw [List.mem_range]
    rcases List.mem_cons.1 mem with rfl | mem
    · have below := sound.flying_lt_cursor flying
      omega
    · have below := ((sound.reported seq).1 mem).1
      omega
  have once : (f.seq :: x.reported).Nodup := List.nodup_cons.2 ⟨sound.flying_not_reported flying, sound.once⟩
  have shorter := once.length_le_of_subset inside
  rw [List.length_cons, List.length_range] at shorter
  exact shorter

end Execution

namespace Course

open Execution

variable {β υ : Type} {a : Assignment β} {rules : Conduct υ}

/-- **Something is reported** as long as something is in flight. -/
theorem exists_reported (course : Course υ a rules) {n : Nat} {f : InFlight υ}
    (flying : f ∈ (course.state n).inFlight) :
    ∃ m, (course.state n).reported.length < (course.state m).reported.length := by
  obtain ⟨m, le, reaped⟩ := course.reaped n f flying
  have before := (course.reachable n).sound
  have moves := course.moves_after le
  have now := moves.reported_of_reaped before (course.reachable_after (m + 1)).sound flying reaped
  have more : f.seq :: (course.state n).reported ⊆ (after a course.rounds (m + 1)).reported :=
    List.cons_subset.2 ⟨now, moves.reported_subset⟩
  have once : (f.seq :: (course.state n).reported).Nodup :=
    List.nodup_cons.2 ⟨before.flying_not_reported flying, before.once⟩
  have longer := once.length_le_of_subset more
  have last : Moves a rules (after a course.rounds (m + 1)) (course.state (m + 1)) :=
    moves_prepared (course.follows (m + 1)) _
  have later := (course.reachable_after (m + 1)).sound.once.length_le_of_subset last.reported_subset
  exact ⟨m + 1, Nat.lt_of_lt_of_le longer later⟩

/-- A run that is not over has something in flight when it waits. -/
theorem flying_of_not_over (course : Course υ a rules)
    (nodes : ∀ step ∈ a.outline.steps, ∃ n, a.outline.node? step.node = some n) {n : Nat}
    (more : (course.state n).isOver = false) : (course.state n).inFlight ≠ [] := by
  intro nothing
  have steps := (course.reachable n).sound.steps
  have waits := flying_of_prepared (course.follows n) (x := after a course.rounds n)
    (by rw [show (prepared a (course.rounds n) (after a course.rounds n)).aggregator.steps = a.outline.steps from steps]
        exact nodes)
  apply waits _ nothing
  simp only [isOver, nothing, List.isEmpty_nil, Bool.true_and, decide_eq_false_iff_not, Nat.not_le] at more
  exact more

/-- **Every course comes to an end.** -/
theorem exists_over (course : Course υ a rules)
    (nodes : ∀ step ∈ a.outline.steps, ∃ n, a.outline.node? step.node = some n) :
    ∃ n, (course.state n).isOver = true := by
  by_contra endless
  have more : ∀ n, (course.state n).isOver = false := by
    intro n
    exact Bool.not_eq_true _ ▸ fun atEnd => endless ⟨n, atEnd⟩
  -- Then any number of steps would be reported in turn, which is more than there are.
  have growing : ∀ k, ∃ n, k ≤ (course.state n).reported.length := by
    intro k
    induction k with
    | zero => exact ⟨0, Nat.zero_le _⟩
    | succ k ih =>
      obtain ⟨n, enough⟩ := ih
      obtain ⟨f, flying⟩ := List.exists_mem_of_ne_nil _ (course.flying_of_not_over nodes (more n))
      obtain ⟨m, longer⟩ := course.exists_reported flying
      exact ⟨m, by omega⟩
  obtain ⟨n, enough⟩ := growing a.outline.steps.length
  obtain ⟨f, flying⟩ := List.exists_mem_of_ne_nil _ (course.flying_of_not_over nodes (more n))
  have room := (course.reachable n).sound.length_reported_lt flying
  omega

end Course

/-! ## Rounds in which every unit ends at the first look -/

namespace Execution

variable {β υ : Type} {a : Assignment β} {control : UnitControl β υ} {look : InFlight υ → υ × Option Completion}
  {now : Timestamp} {x : Execution υ}

/-- A unit that has ended when it is looked at is no longer in flight. -/
theorem flights_inspect (prompt : ∀ f ∈ x.inFlight, (look f).2.isSome) (seq : Nat) :
    (x.inspect a control look now seq).flights = x.flights.filter (·.seq ≠ seq) := by
  unfold inspect
  cases found : x.inFlight.find? (·.seq = seq) with
  | none =>
    symm
    rw [List.filter_eq_self]
    intro flight mem
    obtain ⟨f, flying, rfl⟩ := List.mem_map.1 mem
    have other : f.seq ≠ seq := by simpa using List.find?_eq_none.1 found f flying
    exact decide_eq_true other
  | some f =>
    have own : f.seq = seq := by simpa using List.find?_some found
    have ended := prompt f (List.mem_of_find?_eq_some found)
    rcases looked : look f with ⟨unit, _ | c⟩
    · rw [looked] at ended
      cases ended
    · simp only [looked]
      rw [retire_eq, flights_settle, ← own]
      exact flights_filter x f.seq

theorem flights_foldl_inspect (prompt : ∀ f, (look f).2.isSome) (seqs : List Nat) :
    ∀ flight ∈ (seqs.foldl (inspect a control look now) x).flights, flight ∈ x.flights ∧ flight.seq ∉ seqs := by
  induction seqs generalizing x with
  | nil => exact fun flight mem => ⟨mem, List.not_mem_nil⟩
  | cons seq seqs ih =>
    intro flight mem
    obtain ⟨still, apart⟩ := ih flight mem
    rw [flights_inspect fun f _ => prompt f, List.mem_filter, decide_eq_true_eq] at still
    exact ⟨still.1, fun listed => (List.mem_cons.1 listed).elim still.2 apart⟩

/-- After such looks nothing is in flight that was before. -/
theorem reaped_of_prompt (prompt : ∀ f, (look f).2.isSome) {f : InFlight υ} (flying : f ∈ x.inFlight) :
    ∀ g ∈ (x.collect a control look now).inFlight, g.seq ≠ f.seq := by
  intro g mem same
  obtain ⟨_, apart⟩ := flights_foldl_inspect prompt _ _ (mem_flights _ mem)
  exact apart (List.mem_map.2 ⟨f, flying, same.symm⟩)

end Execution

/-- A round in which units start as is given, and have ended as is given when they are looked at. -/
def Round.prompt {β : Type} (starts : Nat → Except StartError Unit) (ends : Nat → Completion) (stop : Bool) :
    Round β Unit where
  stop := stop
  control := { start := fun seq _ _ => starts seq, kill := fun _ => id }
  now := 0
  controlLater := { start := fun seq _ _ => starts seq, kill := fun _ => id }
  look f := ((), some (ends f.seq))
  later := 0

/-- The course of such rounds, in some of which the run is told to stop. -/
def Course.prompt {β : Type} {a : Assignment β} {rules : Conduct Unit} (starts : Nat → Except StartError Unit)
    (ends : Nat → Completion) (stops : Nat → Bool) (mayStart : ∀ seq, rules.mayStart seq (starts seq))
    (mayEnd : ∀ f, rules.mayEnd f (ends f.seq)) (mayStop : ∀ n, stops n = true → rules.mayStop) :
    Course Unit a rules where
  rounds := fun n => .prompt starts ends (stops n)
  follows := by
    intro n
    refine ⟨fun seq _ _ => mayStart seq, ?_, mayStop n⟩
    intro f after c looked
    simp only [Round.prompt, Prod.mk.injEq, Option.some.injEq] at looked
    rw [← looked.2]
    exact mayEnd f
  reaped := by
    intro n f flying
    exact ⟨n, Nat.le_refl n, Execution.reaped_of_prompt (fun _ => rfl) flying⟩

/-! ## Rounds of the event loop -/

theorem Instant.le_later (s t : Instant) : s.nanos ≤ (s.later t).nanos := by
  unfold later
  split
  · assumption
  · exact Nat.le_refl _

namespace Loop

variable {β : Type} {a : Assignment β} {w : World β} {start : Interruption} {P : Loop → Prop}

/-- After a wait everything is as before it, or every unit was looked at, at some later time. -/
theorem await_eq_ok {clock : Instant} {x : Execution Running} {next : Loop} (awaited : await a w clock x = .ok next) :
    next = ⟨x, clock⟩ ∨ ∃ later : Instant, clock.nanos ≤ later.nanos ∧
      next = ⟨x.collect a (controlAt a w later) (lookAt later w.now) w.now, later⟩ := by
  unfold await at awaited
  split at awaited
  · cases awaited
  · split at awaited
    · cases awaited
      exact .inl rfl
    · split at awaited
      · cases awaited
      · cases awaited
        exact .inr ⟨_, clock.le_later _, rfl⟩

/-- **What a round of the event loop keeps, the loop keeps.** A round prepares its wait, and looks at every unit at some
later time. -/
theorem drive_induction (prepared : ∀ l, P l → P ⟨prepare a w start l, l.clock⟩)
    (looked : ∀ l later, P l → l.clock.nanos ≤ later.nanos →
      P ⟨l.execution.collect a (controlAt a w later) (lookAt later w.now) w.now, later⟩)
    {l : Loop} (holds : P l) (fuel : Nat) : ∃ clock, P ⟨(drive a w start l fuel).1, clock⟩ := by
  induction fuel generalizing l with
  | zero => exact ⟨l.clock, holds⟩
  | succ fuel ih =>
    have waits := prepared l holds
    simp only [drive]
    split
    · exact ⟨_, waits⟩
    · cases awaited : await a w l.clock (prepare a w start l) with
      | error e => exact ⟨_, waits⟩
      | ok next =>
        refine ih ?_
        obtain rfl | ⟨later, le, rfl⟩ := await_eq_ok awaited
        · exact waits
        · exact looked ⟨_, l.clock⟩ later waits le

/-- Where the loop ends without an error, the run is over. -/
theorem isOver_of_drive {l : Loop} (fuel : Nat) (ended : (drive a w start l fuel).2 = .ok ()) :
    (drive a w start l fuel).1.isOver = true := by
  induction fuel generalizing l with
  | zero => cases ended
  | succ fuel ih =>
    simp only [drive] at ended ⊢
    split
    · assumption
    · rename_i unfinished
      rw [if_neg unfinished] at ended
      cases awaited : await a w l.clock (prepare a w start l) with
      | error e =>
        rw [awaited] at ended
        cases ended
      | ok next =>
        rw [awaited] at ended
        exact ih ended

end Loop

end TestIsolation
