import TestIsolation.Proofs.Run.Untimed
import TestIsolation.Proofs.Schedule.Bookkeeping

/-!
# What a run has to come to

Where it is given what every unit comes to, the steps of a run can be decided one after the other: which suites are
blocked, which units are started and what each step is settled with (`Assignment.blockedAt`, `startedAt`, `dueAt`). A
run that is not given up follows this ledger, whatever is in flight at a time (`Tracks.move`).
-/

namespace TestIsolation

set_option autoImplicit false

/-- Every unit comes to what is given for its step, times aside, and the run is not told to stop. -/
def Conduct.giving {υ : Type} (o : Nat → Except StartError Completion) : Conduct υ where
  mayStart seq result :=
    match o seq with
    | .ok _ => ∃ unit, result = .ok unit
    | .error e => result = .error e
  mayEnd f c := ∀ given, o f.seq = .ok given → c.untimed = given.untimed
  mayStop := False

/-- What the unit of a step comes to, times aside. -/
def outcomeOf (o : Nat → Except StartError Completion) (seq : Nat) : Completion :=
  match o seq with
  | .ok c => c.untimed
  | .error e => e.completion 0

namespace Assignment

open Execution

variable {β : Type} (a : Assignment β) (o : Nat → Except StartError Completion)

/-- What becomes of the step with a number. -/
def decisionFor (blocked : List (Option Blockage)) (seq : Nat) : Option (Decision β) :=
  (a.outline.steps[seq]?).bind fun step => (a.outline.node? step.node).map (a.decision blocked step)

/-- The suites that are blocked once some steps were settled. -/
def blockedAt : Nat → List (Option Blockage)
  | 0 => a.outline.nodes.map fun _ => none
  | k + 1 =>
    match a.decisionFor (blockedAt k) k with
    | some (.launch n _ barrier) =>
      blockedAfter (blockedAt k) a.outline.steps[k]? n.index barrier (outcomeOf o k).status
    | _ => blockedAt k

/-- The steps whose units are started among the first ones, newest first. -/
def startedAt : Nat → List Nat
  | 0 => []
  | k + 1 =>
    match a.decisionFor (a.blockedAt o k) k with
    | some (.launch _ _ _) => k :: startedAt k
    | _ => startedAt k

/-- What a step is settled with, times aside. -/
def dueAt (seq : Nat) : Option Completion :=
  match a.decisionFor (a.blockedAt o seq) seq with
  | some (.launch _ _ _) => some (outcomeOf o seq)
  | some (.pass reason) => skipped reason 0
  | none => none

variable {a o}

theorem ledger_of_pass {k : Nat} {reason : Option String}
    (decided : a.decisionFor (a.blockedAt o k) k = some (.pass reason)) :
    a.blockedAt o (k + 1) = a.blockedAt o k ∧ a.startedAt o (k + 1) = a.startedAt o k ∧
      a.dueAt o k = skipped reason 0 := by
  simp [blockedAt, startedAt, dueAt, decided]

theorem ledger_of_launch {k : Nat} {n : Node β} {plan : UnitPlan β} {barrier : Bool}
    (decided : a.decisionFor (a.blockedAt o k) k = some (.launch n plan barrier)) :
    a.blockedAt o (k + 1) =
        blockedAfter (a.blockedAt o k) a.outline.steps[k]? n.index barrier (outcomeOf o k).status ∧
      a.startedAt o (k + 1) = k :: a.startedAt o k ∧ a.dueAt o k = some (outcomeOf o k) := by
  simp [blockedAt, startedAt, dueAt, decided]

theorem startedAt_subset {k l : Nat} (le : k ≤ l) : a.startedAt o k ⊆ a.startedAt o l := by
  induction le with
  | refl => exact List.Subset.refl _
  | @step l le ih =>
    refine List.Subset.trans ih ?_
    rw [startedAt]
    split
    · exact List.subset_cons_self _ _
    · exact List.Subset.refl _

end Assignment

theorem untimed_skipped (reason : Option String) (now : Timestamp) :
    (skipped reason now).map Completion.untimed = skipped reason 0 := by
  cases reason <;> rfl

namespace Execution

variable {β υ : Type} {a : Assignment β} {o : Nat → Except StartError Completion} {x y : Execution υ}

/-- The suites that will be blocked once what is in flight has come to what it has to. -/
def blockedBy (a : Assignment β) (o : Nat → Except StartError Completion) (flights : List Flight)
    (blocked : List (Option Blockage)) : List (Option Blockage) :=
  flights.foldl
    (fun blocked f => blockedAfter blocked a.outline.steps[f.seq]? f.node f.barrier (outcomeOf o f.seq).status) blocked

/-- The aggregator has what is due for the steps that were reported, and nothing for the others. -/
structure Handed (a : Assignment β) (o : Nat → Except StartError Completion) (x : Execution υ) : Prop where
  due : ∀ seq ∈ x.reported, ∃ c, x.aggregator.delivered[seq]? = some (some c) ∧
    c.map Completion.untimed = a.dueAt o seq
  open_ : ∀ seq < a.outline.steps.length, seq ∉ x.reported → x.aggregator.delivered[seq]? = some none

/-- A run follows the ledger. -/
structure Tracks (a : Assignment β) (o : Nat → Except StartError Completion) (x : Execution υ) : Prop where
  running : x.halt = none
  started : x.started = a.startedAt o x.cursor
  blocked : blockedBy a o x.flights x.blocked = a.blockedAt o x.cursor
  flying : ∀ f ∈ x.flights, f.seq ∈ x.started ∧ ∃ c, o f.seq = .ok c ∧ a.dueAt o f.seq = some c.untimed
  handed : Handed a o x

/-- No unit among some is a reason to give the run up. -/
def Calm (a : Assignment β) (o : Nat → Except StartError Completion) (started : List Nat) : Prop :=
  a.settings.stopOnTerminated = false ∨ ∀ seq ∈ started, ∀ c, o seq = .ok c → c.status ≠ .terminated

theorem Calm.mono {many few : List Nat} (calm : Calm a o many) (subset : few ⊆ many) : Calm a o few := by
  rcases calm with off | calm
  · exact .inl off
  · exact .inr fun seq mem => calm seq (subset mem)

theorem Handed.submit (handed : Handed a o x) {seq : Nat} (c : Option Completion) (now : Timestamp)
    (inside : seq < a.outline.steps.length) (apart : seq ∉ x.reported)
    (due : c.map Completion.untimed = a.dueAt o seq) (submitted : y.aggregator = x.aggregator.submit seq c now)
    (reported : y.reported = seq :: x.reported) : Handed a o y := by
  have first := handed.open_ seq inside apart
  have bound := (List.getElem?_eq_some_iff.1 first).1
  have delivered : y.aggregator.delivered = x.aggregator.delivered.set seq (some c) := by
    rw [submitted, Aggregator.delivered_submit first]
  refine ⟨?_, ?_⟩
  · intro s mem
    rw [reported, List.mem_cons] at mem
    by_cases own : seq = s
    · subst own
      exact ⟨c, by rw [delivered, List.getElem?_set_self bound], due⟩
    · rw [delivered, List.getElem?_set_ne own]
      rcases mem with rfl | mem
      · exact absurd rfl own
      · exact handed.due s mem
  · intro s small others
    rw [reported, List.mem_cons, not_or] at others
    rw [delivered, List.getElem?_set_ne (Ne.symm others.1)]
    exact handed.open_ s small others.2

theorem Handed.congr (handed : Handed a o x) (aggregator : y.aggregator = x.aggregator)
    (reported : y.reported = x.reported) : Handed a o y := by
  refine ⟨?_, ?_⟩
  · rw [reported, aggregator]
    exact handed.due
  · rw [reported, aggregator]
    exact handed.open_

/-- Only fixtures block suites. -/
theorem blockedBy_of_free {flights : List Flight} (free : ∀ f ∈ flights, f.barrier = false)
    (blocked : List (Option Blockage)) : blockedBy a o flights blocked = blocked := by
  induction flights generalizing blocked with
  | nil => rfl
  | cons f flights ih =>
    rw [List.forall_mem_cons] at free
    rw [blockedBy, List.foldl_cons, free.1]
    exact ih free.2 blocked

namespace Tracks

theorem new (a : Assignment β) (o : Nat → Except StartError Completion) : Tracks a o (new a : Execution υ) where
  running := rfl
  started := rfl
  blocked := rfl
  flying := by simp [Execution.new, flights]
  handed := by
    refine ⟨by simp [Execution.new, Execution.reported, reportedIn], ?_⟩
    intro seq inside _
    simp [Execution.new, Aggregator.new, inside]

/-- A step is decided as the ledger says. -/
theorem decisionFor_eq (tracks : Tracks a o x) (sound : Sound a x) {step : Step} {n : Node β}
    (due : x.aggregator.steps[x.cursor]? = some step) (free : ∀ f ∈ x.flights, f.barrier = false)
    (found : a.outline.node? step.node = some n) :
    a.decisionFor (a.blockedAt o x.cursor) x.cursor = some (a.decision x.blocked step n) := by
  rw [sound.steps] at due
  rw [← tracks.blocked, blockedBy_of_free free]
  simp [Assignment.decisionFor, due, found]

/-- The next step is settled without a unit. -/
theorem pass (tracks : Tracks a o x) (sound : Sound a x) {step : Step} {n : Node β} {reason : Option String}
    (due : x.aggregator.steps[x.cursor]? = some step) (free : ∀ f ∈ x.flights, f.barrier = false)
    (found : a.outline.node? step.node = some n) (decided : a.decision x.blocked step n = .pass reason)
    (now : Timestamp) :
    Tracks a o { x.report x.cursor (skipped reason now) now with cursor := x.cursor + 1 } := by
  have next := tracks.decisionFor_eq sound due free found
  rw [decided] at next
  obtain ⟨blocked, started, owed⟩ := Assignment.ledger_of_pass next
  refine ⟨tracks.running, ?_, ?_, ?_, ?_⟩
  · rw [started, ← tracks.started]
    simp [Execution.started]
  · rw [blocked, ← tracks.blocked]
    rfl
  · intro f mem
    obtain ⟨known, ends⟩ := tracks.flying f mem
    exact ⟨by simpa [Execution.started] using known, ends⟩
  · exact tracks.handed.submit _ now (sound.more_of_due due) sound.cursor_not_reported
      ((untimed_skipped reason now).trans owed.symm) rfl (by simp [Execution.reported, reportedIn])

/-- The unit of the next step is put in flight. -/
theorem launch_ok (tracks : Tracks a o x) {n : Node β} {plan : UnitPlan β} {barrier : Bool}
    (next : a.decisionFor (a.blockedAt o x.cursor) x.cursor = some (.launch n plan barrier))
    {control : UnitControl β υ} {unit : υ} (ok : control.start x.cursor plan (a.limit? n) = .ok unit) {c : Completion}
    (comes : o x.cursor = .ok c) (now : Timestamp) :
    Tracks a o { x.launch a control x.cursor n plan barrier now with cursor := x.cursor + 1 } := by
  obtain ⟨blocked, started, owed⟩ := Assignment.ledger_of_launch next
  rw [launch_of_ok ok]
  have log : Execution.started { x with
      states := x.states.set x.cursor .awaitingCompletion
      inFlight := x.inFlight ++ [⟨x.cursor, n.index, barrier, unit⟩]
      changes := ⟨x.cursor, ((x.states.set x.cursor .spawning)[x.cursor]?).getD .idle, .awaitingCompletion⟩ ::
        ⟨x.cursor, (x.states[x.cursor]?).getD .idle, .spawning⟩ :: x.changes
      cursor := x.cursor + 1 } = x.cursor :: x.started := by simp [Execution.started]
  refine ⟨tracks.running, ?_, ?_, ?_, ?_⟩
  · rw [log, started, tracks.started]
  · rw [blocked, ← tracks.blocked]
    simp [blockedBy, flights, InFlight.flight]
  · intro f mem
    rw [log]
    simp only [flights, List.map_append, List.map_singleton, List.mem_append, List.mem_singleton] at mem
    rcases mem with mem | rfl
    · obtain ⟨known, ends⟩ := tracks.flying f mem
      exact ⟨List.mem_cons_of_mem _ known, ends⟩
    · refine ⟨List.mem_cons_self, c, comes, ?_⟩
      rw [InFlight.flight, owed]
      simp [outcomeOf, comes]
  · exact tracks.handed.congr rfl (by simp [Execution.reported, reportedIn])

/-- The unit of the next step cannot be started. -/
theorem launch_error (tracks : Tracks a o x) (sound : Sound a x) (more : x.cursor < a.outline.steps.length)
    (free : ∀ f ∈ x.flights, f.barrier = false) {n : Node β} {plan : UnitPlan β} {barrier : Bool}
    (next : a.decisionFor (a.blockedAt o x.cursor) x.cursor = some (.launch n plan barrier))
    {control : UnitControl β υ} {e : StartError} (failed : control.start x.cursor plan (a.limit? n) = .error e)
    (comes : o x.cursor = .error e) (now : Timestamp) :
    Tracks a o { x.launch a control x.cursor n plan barrier now with cursor := x.cursor + 1 } := by
  obtain ⟨blocked, started, owed⟩ := Assignment.ledger_of_launch next
  have before : x.blocked = a.blockedAt o x.cursor := by
    rw [← tracks.blocked, blockedBy_of_free free]
  rw [launch_of_error failed, settle_of_calm _ _ _ _ _ _ _ (by simp [StartError.completion, Completion.notRun])]
  refine ⟨tracks.running, ?_, ?_, ?_, ?_⟩
  · rw [started, ← tracks.started]
    simp [Execution.started]
  · refine (blockedBy_of_free free _).trans ?_
    rw [blocked, ← before, ← sound.steps, outcomeOf, comes]
    rfl
  · intro f mem
    obtain ⟨known, ends⟩ := tracks.flying f mem
    refine ⟨?_, ends⟩
    have log : f.seq ∈ x.cursor :: x.started := List.mem_cons_of_mem _ known
    simpa [Execution.started] using log
  · refine tracks.handed.submit (some (e.completion now)) now more sound.cursor_not_reported ?_ rfl
      (by simp [Execution.reported, reportedIn])
    rw [owed, outcomeOf, comes]
    rfl

/-- The unit of the next step is started, or cannot be. -/
theorem launch (tracks : Tracks a o x) (sound : Sound a x) {step : Step} {n n' : Node β} {plan : UnitPlan β}
    {barrier : Bool} {control : UnitControl β υ} (due : x.aggregator.steps[x.cursor]? = some step)
    (free : ∀ f ∈ x.flights, f.barrier = false) (found : a.outline.node? step.node = some n)
    (decided : a.decision x.blocked step n = .launch n' plan barrier)
    (start : (Conduct.giving o).mayStart x.cursor (control.start x.cursor plan (a.limit? n'))) (now : Timestamp) :
    Tracks a o { x.launch a control x.cursor n' plan barrier now with cursor := x.cursor + 1 } := by
  have next := tracks.decisionFor_eq sound due free found
  rw [decided] at next
  cases comes : o x.cursor with
  | ok c =>
    simp only [Conduct.giving, comes] at start
    obtain ⟨unit, ok⟩ := start
    exact tracks.launch_ok next ok comes now
  | error e =>
    simp only [Conduct.giving, comes] at start
    exact tracks.launch_error sound (sound.more_of_due due) free next start comes now

/-- The suites that will be blocked are the same once a unit that was in flight has ended as it had to. -/
theorem blockedBy_finish (sound : Sound a x) {f : InFlight υ} (flying : f ∈ x.inFlight) {s : Status}
    (status : s = (outcomeOf o f.seq).status) :
    blockedBy a o (x.flights.filter (·.seq ≠ f.seq))
        (blockedAfter x.blocked x.aggregator.steps[f.seq]? f.node f.barrier s) =
      blockedBy a o x.flights x.blocked := by
  cases alone : f.barrier with
  | true =>
    -- The unit of a fixture was alone, so that nothing is left in flight.
    obtain ⟨only, _⟩ := sound.alone _ (mem_flights x flying) alone
    rw [only, sound.steps, status]
    simp [blockedBy, InFlight.flight, alone]
  | false =>
    have free : ∀ g ∈ x.flights, g.barrier = false := by
      intro g mem
      by_contra barrier
      obtain ⟨only, _⟩ := sound.alone g mem (Bool.not_eq_false _ ▸ barrier)
      have own := mem_flights x flying
      rw [only, List.mem_singleton] at own
      exact barrier (own ▸ alone)
    rw [blockedBy_of_free free, blockedBy_of_free fun g mem => free g (List.mem_of_mem_filter mem)]
    rfl

/-- A unit in flight ends as is given for its step, times aside. -/
theorem given_of_ends (tracks : Tracks a o x) {f : InFlight υ} (flying : f ∈ x.inFlight) {c : Completion}
    (ends : (Conduct.giving o).mayEnd f c) :
    ∃ given, o f.seq = .ok given ∧ f.seq ∈ x.started ∧ a.dueAt o f.seq = some given.untimed ∧
      c.untimed = given.untimed ∧ c.status = given.status := by
  obtain ⟨known, given, comes, owed⟩ := tracks.flying _ (mem_flights x flying)
  have same : c.untimed = given.untimed := ends given comes
  have status : c.untimed.status = given.untimed.status := by rw [same]
  exact ⟨given, comes, known, owed, same, status⟩

/-- A unit that was in flight has ended as it had to, and the run goes on. -/
theorem finish (tracks : Tracks a o x) (sound : Sound a x) {f : InFlight υ} (flying : f ∈ x.inFlight)
    {control : UnitControl β υ} {c : Completion} (ends : (Conduct.giving o).mayEnd f c) {now : Timestamp}
    (going : (x.retire a control f c now).halt = none) : Tracks a o (x.retire a control f c now) := by
  obtain ⟨given, comes, _, owed, same, status⟩ := tracks.given_of_ends flying ends
  have quiet : ¬(c.status = .terminated ∧ x.halt.isNone ∧ a.settings.stopOnTerminated) := by
    intro abandons
    rw [retire_eq, halt_settle, if_pos abandons] at going
    cases going
  have inside : f.seq < a.outline.steps.length := Nat.lt_of_lt_of_le (sound.flying_lt_cursor flying) sound.cursor
  rw [retire_eq, settle_of_calm _ _ _ _ _ _ _ (by exact quiet)]
  refine ⟨tracks.running, ?_, ?_, ?_, ?_⟩
  · refine Eq.trans ?_ tracks.started
    simp [Execution.started]
  · refine Eq.trans ?_ tracks.blocked
    refine Eq.trans ?_ (blockedBy_finish sound flying (s := c.status) ?_)
    · rw [← flights_filter]
      rfl
    · rw [outcomeOf, comes, status]
      rfl
  · intro g mem
    have still : g ∈ x.flights.filter (·.seq ≠ f.seq) := by
      rw [← flights_filter]
      exact mem
    obtain ⟨known, ends⟩ := tracks.flying g (List.mem_of_mem_filter still)
    exact ⟨by simpa [Execution.started] using known, ends⟩
  · refine tracks.handed.submit (some c) now inside (sound.flying_not_reported flying) ?_ rfl
      (by simp [Execution.reported, reportedIn])
    rw [Option.map_some, same]
    exact owed.symm

/-- **Every move follows the ledger**, as long as the run goes on. -/
theorem move (tracks : Tracks a o x) (sound : Sound a x) (move : Move a (.giving o) x y) (going : y.halt = none) :
    Tracks a o y := by
  cases move with
  | interrupt control running told => exact told.elim
  | giveUp due free halted now =>
    rw [tracks.running] at halted
    cases halted
  | pass due free running found decided now => exact tracks.pass sound due (Sound.free_of_any free) found decided now
  | launch due free running found decided alone room start now =>
    exact tracks.launch sound due (Sound.free_of_any free) found decided start now
  | finish flying control ends now => exact tracks.finish sound flying ends going
  | update seq unit =>
    have same := flights_replace x seq unit
    exact ⟨tracks.running, tracks.started, by rw [same]; exact tracks.blocked, by rw [same]; exact tracks.flying,
      tracks.handed.congr rfl rfl⟩

/-- A run goes on if no unit is a reason to give it up. -/
theorem going_of_calm (tracks : Tracks a o x) (calm : Calm a o x.started) (move : Move a (.giving o) x y) :
    y.halt = none := by
  cases move with
  | interrupt control running told => exact told.elim
  | giveUp due free halted now => exact tracks.running
  | pass due free running found decided now => exact running
  | update seq unit => exact tracks.running
  | @launch step n n' plan barrier control due free running found decided alone room start now =>
    cases started : control.start x.cursor plan (a.limit? n') with
    | ok unit =>
      rw [launch_of_ok started]
      exact running
    | error e =>
      rw [launch_of_error started]
      simp only [halt_settle]
      rw [if_neg (by simp [StartError.completion, Completion.notRun])]
      exact running
  | @finish f c flying control ends now =>
    obtain ⟨given, comes, known, _, _, status⟩ := tracks.given_of_ends flying ends
    have quiet : ¬(c.status = .terminated ∧ x.halt.isNone ∧ a.settings.stopOnTerminated) := by
      rintro ⟨terminated, _, stops⟩
      rcases calm with off | calm
      · rw [off] at stops
        cases stops
      · exact calm f.seq known given comes (status ▸ terminated)
    rw [retire_eq, halt_settle, if_neg quiet]
    exact tracks.running

end Tracks

end Execution

end TestIsolation
