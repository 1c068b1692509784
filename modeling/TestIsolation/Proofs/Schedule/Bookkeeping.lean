import Mathlib.Data.List.Nodup
import TestIsolation.Proofs.Schedule.Move

/-!
# The books of a run

A run keeps a cursor, a table of states, a list of what is in flight and a log of changes. They always agree (`Sound`):
steps from the cursor on are idle, those before it are in flight or reported, and each was reported once and by changes
that are allowed. Whatever was reported was also handed to the aggregator, in the same order (`Accounted`).
-/

namespace TestIsolation

set_option autoImplicit false

namespace Execution

variable {β υ : Type} {a : Assignment β} {rules : Conduct υ} {x y : Execution υ}

/-- Where the unit of a step should stand. -/
def place (x : Execution υ) (seq : Nat) : UnitState :=
  if x.cursor ≤ seq then .idle else if seq ∈ x.flights.map (·.seq) then .awaitingCompletion else .reported

/-- The steps that some changes report, newest first. -/
def reportedIn (changes : List Change) : List Nat := (changes.filter (·.after = .reported)).map (·.seq)

/-- The steps that were reported, newest first. -/
def reported (x : Execution υ) : List Nat := reportedIn x.changes

theorem reportedIn_append (first rest : List Change) :
    reportedIn (first ++ rest) = reportedIn first ++ reportedIn rest := by
  simp [reportedIn]

/-- A run logs some changes, which are allowed and report some steps. -/
structure Logs (x y : Execution υ) (path : List Change) (seqs : List Nat) : Prop where
  changes : y.changes = path ++ x.changes
  legal : ∀ change ∈ path, change.before.canAdvanceTo change.after = true
  reports : reportedIn path = seqs

theorem Logs.reported {path : List Change} {seqs : List Nat} (logs : Logs x y path seqs) :
    y.reported = seqs ++ x.reported := by
  rw [Execution.reported, logs.changes, reportedIn_append, logs.reports]
  rfl

/-- The books of a run agree. -/
structure Sound (a : Assignment β) (x : Execution υ) : Prop where
  steps : x.aggregator.steps = a.outline.steps
  cursor : x.cursor ≤ a.outline.steps.length
  length : x.states.length = a.outline.steps.length
  states : ∀ seq < a.outline.steps.length, x.states[seq]? = some (x.place seq)
  nodup : (x.flights.map (·.seq)).Nodup
  below : ∀ f ∈ x.flights, f.seq < x.cursor
  /-- The unit of a fixture is alone, and nothing was dispatched after it. -/
  alone : ∀ f ∈ x.flights, f.barrier = true → x.flights = [f] ∧ f.seq + 1 = x.cursor
  once : x.reported.Nodup
  reported : ∀ seq, seq ∈ x.reported ↔ seq < x.cursor ∧ seq ∉ x.flights.map (·.seq)
  legal : ∀ change ∈ x.changes, change.before.canAdvanceTo change.after = true

namespace Sound

theorem new (a : Assignment β) : Sound a (new a : Execution υ) where
  steps := rfl
  cursor := Nat.zero_le _
  length := by simp [Execution.new]
  states := by
    intro seq inside
    simp [Execution.new, place, inside]
  nodup := List.nodup_nil
  below := by simp [Execution.new, flights]
  alone := by simp [Execution.new, flights]
  once := List.nodup_nil
  reported := by simp [Execution.new, Execution.reported, reportedIn]
  legal := by simp [Execution.new]

/-- What became of the units has no part in the books. -/
theorem congr (sound : Sound a x) (steps : y.aggregator.steps = x.aggregator.steps) (cursor : y.cursor = x.cursor)
    (flights : y.flights = x.flights) (states : y.states = x.states) (changes : y.changes = x.changes) :
    Sound a y := by
  have place : y.place = x.place := by
    funext seq
    simp only [Execution.place, cursor, flights]
  have reported : y.reported = x.reported := congrArg reportedIn changes
  exact {
    steps := steps.trans sound.steps
    cursor := cursor ▸ sound.cursor
    length := states ▸ sound.length
    states := by rw [states, place]; exact sound.states
    nodup := flights ▸ sound.nodup
    below := by rw [flights, cursor]; exact sound.below
    alone := by rw [flights, cursor]; exact sound.alone
    once := reported ▸ sound.once
    reported := by rw [reported, flights, cursor]; exact sound.reported
    legal := changes ▸ sound.legal }

/-! ## Three ways to change the books -/

/-- The next step is not in flight. -/
theorem cursor_apart (sound : Sound a x) : x.cursor ∉ x.flights.map (·.seq) := by
  intro flying
  obtain ⟨f, mem, eq⟩ := List.mem_map.1 flying
  have below := sound.below f mem
  omega

/-- The next step has not been reported. -/
theorem cursor_not_reported (sound : Sound a x) : x.cursor ∉ x.reported := by
  rw [sound.reported]
  omega

theorem seq_mem_flights {f : InFlight υ} (flying : f ∈ x.inFlight) : f.seq ∈ x.flights.map (·.seq) :=
  List.mem_map.2 ⟨_, mem_flights x flying, rfl⟩

theorem flying_lt_cursor (sound : Sound a x) {f : InFlight υ} (flying : f ∈ x.inFlight) : f.seq < x.cursor :=
  sound.below _ (mem_flights x flying)

/-- A step that is in flight has not been reported. -/
theorem flying_not_reported (sound : Sound a x) {f : InFlight υ} (flying : f ∈ x.inFlight) : f.seq ∉ x.reported := by
  rw [sound.reported]
  exact fun settled => settled.2 (seq_mem_flights flying)

/-- The table of states is right if the one state that was set is where its unit stands, and no other unit moved. -/
theorem states_of_set (sound : Sound a x) {s : Nat} {u : UnitState} (states : y.states = x.states.set s u)
    (own : y.place s = u) (others : ∀ seq, seq ≠ s → y.place seq = x.place seq) :
    ∀ seq < a.outline.steps.length, y.states[seq]? = some (y.place seq) := by
  intro seq inside
  rw [states, List.getElem?_set, sound.length]
  by_cases same : s = seq
  · subst same
    rw [if_pos rfl, if_pos inside, own]
  · rw [if_neg same, others seq (Ne.symm same), sound.states seq inside]

/-- When the cursor passes the next step, the others stay where they are. -/
theorem place_of_advance (cursor : y.cursor = x.cursor + 1) {seq : Nat} (other : seq ≠ x.cursor)
    (flights : seq ∈ y.flights.map (·.seq) ↔ seq ∈ x.flights.map (·.seq)) : y.place seq = x.place seq := by
  have idle : y.cursor ≤ seq ↔ x.cursor ≤ seq := by omega
  simp only [place, idle, flights]

theorem legal_of_logs (sound : Sound a x) {path : List Change} {seqs : List Nat} (logs : Logs x y path seqs) :
    ∀ change ∈ y.changes, change.before.canAdvanceTo change.after = true := by
  rw [logs.changes]
  exact List.forall_mem_append.2 ⟨logs.legal, sound.legal⟩

/-- The next step is reported. -/
theorem reportNext (sound : Sound a x) (more : x.cursor < a.outline.steps.length)
    (free : ∀ f ∈ x.flights, f.barrier = false) (steps : y.aggregator.steps = x.aggregator.steps)
    (cursor : y.cursor = x.cursor + 1) (flights : y.flights = x.flights)
    (states : y.states = x.states.set x.cursor .reported) (path : List Change)
    (logs : Logs x y path [x.cursor]) : Sound a y := by
  have reported : y.reported = x.cursor :: x.reported := logs.reported
  have apart := sound.cursor_apart
  exact {
    steps := steps.trans sound.steps
    cursor := by omega
    length := by rw [states, List.length_set, sound.length]
    states := by
      apply sound.states_of_set states
      · rw [place, if_neg (by omega), flights, if_neg apart]
      · intro seq other
        exact place_of_advance cursor other (by rw [flights])
    nodup := flights ▸ sound.nodup
    below := by
      intro f mem
      have below := sound.below f (flights ▸ mem)
      omega
    alone := by
      intro f mem barrier
      have free := free f (flights ▸ mem)
      rw [free] at barrier
      cases barrier
    once := by
      rw [reported]
      exact List.nodup_cons.2 ⟨sound.cursor_not_reported, sound.once⟩
    reported := by
      intro seq
      rw [reported, List.mem_cons, sound.reported, flights, cursor]
      constructor
      · rintro (rfl | ⟨below, apart⟩)
        · exact ⟨by omega, apart⟩
        · exact ⟨by omega, apart⟩
      · rintro ⟨below, apart⟩
        by_cases own : seq = x.cursor
        · exact .inl own
        · exact .inr ⟨by omega, apart⟩
    legal := sound.legal_of_logs logs }

/-- A unit that was in flight is reported. -/
theorem reportFlying (sound : Sound a x) {s : Nat} (flying : s ∈ x.flights.map (·.seq))
    (steps : y.aggregator.steps = x.aggregator.steps) (cursor : y.cursor = x.cursor)
    (flights : y.flights = x.flights.filter (·.seq ≠ s)) (states : y.states = x.states.set s .reported)
    (path : List Change) (logs : Logs x y path [s]) : Sound a y := by
  have reported : y.reported = s :: x.reported := logs.reported
  have early : s < x.cursor := by
    obtain ⟨f, mem, rfl⟩ := List.mem_map.1 flying
    exact sound.below f mem
  have still (seq : Nat) : seq ∈ y.flights.map (·.seq) ↔ seq ∈ x.flights.map (·.seq) ∧ seq ≠ s := by
    rw [flights]
    simp only [List.mem_map, List.mem_filter, decide_eq_true_eq]
    constructor
    · rintro ⟨f, ⟨mem, other⟩, rfl⟩
      exact ⟨⟨f, mem, rfl⟩, other⟩
    · rintro ⟨⟨f, mem, rfl⟩, other⟩
      exact ⟨f, ⟨mem, other⟩, rfl⟩
  exact {
    steps := steps.trans sound.steps
    cursor := cursor ▸ sound.cursor
    length := by rw [states, List.length_set, sound.length]
    states := by
      apply sound.states_of_set states
      · rw [place, if_neg (by omega), if_neg (by simp [still])]
      · intro seq other
        simp only [place, cursor, still, ne_eq, other, not_false_eq_true, and_true]
    nodup := by
      rw [flights]
      exact sound.nodup.sublist (List.filter_sublist.map _)
    below := by
      intro f mem
      rw [flights] at mem
      rw [cursor]
      exact sound.below f (List.mem_of_mem_filter mem)
    alone := by
      intro f mem barrier
      rw [flights] at mem
      obtain ⟨only, _⟩ := sound.alone f (List.mem_of_mem_filter mem) barrier
      rw [only, List.map_singleton, List.mem_singleton] at flying
      simp [flying] at mem
    once := by
      rw [reported, List.nodup_cons]
      refine ⟨?_, sound.once⟩
      rw [sound.reported]
      exact fun before => before.2 flying
    reported := by
      intro seq
      rw [reported, List.mem_cons, sound.reported, still, cursor]
      constructor
      · rintro (rfl | ⟨below, apart⟩)
        · exact ⟨early, fun kept => kept.2 rfl⟩
        · exact ⟨below, fun kept => apart kept.1⟩
      · rintro ⟨below, apart⟩
        by_cases own : seq = s
        · exact .inl own
        · exact .inr ⟨below, fun kept => apart ⟨kept, own⟩⟩
    legal := sound.legal_of_logs logs }

/-- The unit of the next step is put in flight. -/
theorem putInFlight (sound : Sound a x) (more : x.cursor < a.outline.steps.length)
    (free : ∀ f ∈ x.flights, f.barrier = false) {f : Flight} (seq : f.seq = x.cursor)
    (only : f.barrier = true → x.flights = []) (steps : y.aggregator.steps = x.aggregator.steps)
    (cursor : y.cursor = x.cursor + 1) (flights : y.flights = x.flights ++ [f])
    (states : y.states = x.states.set x.cursor .awaitingCompletion) (path : List Change)
    (logs : Logs x y path []) : Sound a y := by
  have reported : y.reported = x.reported := logs.reported
  have apart := sound.cursor_apart
  have now : y.flights.map (·.seq) = x.flights.map (·.seq) ++ [x.cursor] := by
    rw [flights, List.map_append, List.map_singleton, seq]
  exact {
    steps := steps.trans sound.steps
    cursor := by omega
    length := by rw [states, List.length_set, sound.length]
    states := by
      apply sound.states_of_set states
      · rw [place, if_neg (by omega), now, if_pos (by simp)]
      · intro seq other
        exact place_of_advance cursor other (by simp [now, other])
    nodup := by
      rw [now]
      exact List.nodup_append.2 ⟨sound.nodup, List.nodup_singleton _, by
        intro s mem t mem'
        rw [List.mem_singleton] at mem'
        rintro rfl
        exact apart (mem' ▸ mem)⟩
    below := by
      intro g mem
      rw [flights, List.mem_append, List.mem_singleton] at mem
      rcases mem with mem | rfl
      · have below := sound.below g mem
        omega
      · omega
    alone := by
      intro g mem barrier
      rw [flights, List.mem_append, List.mem_singleton] at mem
      rcases mem with mem | rfl
      · rw [free g mem] at barrier
        cases barrier
      · rw [flights, only barrier]
        exact ⟨rfl, by omega⟩
    once := reported ▸ sound.once
    reported := by
      intro s
      rw [reported, sound.reported, now, cursor]
      simp only [List.mem_append, List.mem_singleton]
      constructor
      · rintro ⟨below, apart⟩
        exact ⟨by omega, by rintro (flying | rfl); exacts [apart flying, by omega]⟩
      · rintro ⟨below, apart⟩
        exact ⟨by omega, fun flying => apart (.inl flying)⟩
    legal := sound.legal_of_logs logs }

theorem state_next (sound : Sound a x) (more : x.cursor < a.outline.steps.length) :
    x.states[x.cursor]? = some .idle := by
  rw [sound.states _ more, place, if_pos (Nat.le_refl _)]

theorem state_flying (sound : Sound a x) {f : InFlight υ} (flying : f ∈ x.inFlight) :
    x.states[f.seq]? = some .awaitingCompletion := by
  have below := sound.flying_lt_cursor flying
  have bound := sound.cursor
  rw [sound.states _ (by omega), place, if_neg (by omega), if_pos (seq_mem_flights flying)]

theorem more_of_due (sound : Sound a x) {step : Step} (due : x.aggregator.steps[x.cursor]? = some step) :
    x.cursor < a.outline.steps.length := by
  rw [sound.steps] at due
  exact (List.getElem?_eq_some_iff.1 due).1

theorem free_of_any (free : x.inFlight.any (·.barrier) = false) : ∀ f ∈ x.flights, f.barrier = false := by
  intro f mem
  obtain ⟨flying, listed, rfl⟩ := List.mem_map.1 mem
  exact Bool.not_eq_true _ ▸ List.any_eq_false.1 free flying listed

/-- A state that was just set is the one that is found. -/
theorem getD_set_self {states : List UnitState} {seq : Nat} {before : UnitState}
    (found : states[seq]? = some before) (next : UnitState) : ((states.set seq next)[seq]?).getD .idle = next := by
  rw [List.getElem?_set_self (List.getElem?_eq_some_iff.1 found).1]
  rfl

/-- **Every move keeps the books.** -/
theorem move (sound : Sound a x) (move : Move a rules x y) : Sound a y := by
  cases move with
  | interrupt control running told => exact sound.congr rfl rfl (flights_haltFor x control _) rfl rfl
  | update seq unit => exact sound.congr rfl rfl (flights_replace x seq unit) rfl rfl
  | giveUp due free halted now =>
    have more := sound.more_of_due due
    have idle := sound.state_next more
    refine sound.reportNext more (free_of_any free) (Aggregator.steps_submit _ _ _ _) rfl rfl rfl
      [⟨x.cursor, .idle, .reported⟩] ⟨?_, ?_, ?_⟩
    · simp [idle]
    · simp [UnitState.canAdvanceTo]
    · simp [reportedIn]
  | pass due free running found decided now =>
    have more := sound.more_of_due due
    have idle := sound.state_next more
    refine sound.reportNext more (free_of_any free) (Aggregator.steps_submit _ _ _ _) rfl rfl rfl
      [⟨x.cursor, .idle, .reported⟩] ⟨?_, ?_, ?_⟩
    · simp [idle]
    · simp [UnitState.canAdvanceTo]
    · simp [reportedIn]
  | @launch step n n' plan barrier control due free running found decided alone room start now =>
    have more := sound.more_of_due due
    have idle := sound.state_next more
    cases started : control.start x.cursor plan (a.limit? n') with
    | ok unit =>
      rw [launch_of_ok started]
      refine sound.putInFlight more (free_of_any free) (f := ⟨x.cursor, n'.index, barrier⟩) rfl ?_ rfl rfl ?_ rfl
        [⟨x.cursor, .spawning, .awaitingCompletion⟩, ⟨x.cursor, .idle, .spawning⟩] ⟨?_, ?_, ?_⟩
      · intro isBarrier
        exact (flights_eq_nil x).2 (alone isBarrier)
      · simp [flights, InFlight.flight]
      · simp only [idle, getD_set_self idle, Option.getD_some, List.cons_append, List.nil_append]
      · simp [UnitState.canAdvanceTo]
      · simp [reportedIn]
    | error e =>
      rw [launch_of_error started]
      refine sound.reportNext more (free_of_any free) (by simp) (by simp) (flights_settle _ _ _ _ _ _ _) (by simp)
        [⟨x.cursor, .classifying, .reported⟩, ⟨x.cursor, .spawning, .classifying⟩, ⟨x.cursor, .idle, .spawning⟩]
        ⟨?_, ?_, ?_⟩
      · simp only [changes_settle, idle, getD_set_self idle, Option.getD_some, List.cons_append, List.nil_append]
      · simp [UnitState.canAdvanceTo]
      · simp [reportedIn]
  | @finish f c flying control ends now =>
    have awaiting := sound.state_flying flying
    rw [retire_eq]
    refine sound.reportFlying (s := f.seq) (seq_mem_flights flying) (by simp) (by simp) ?_
      (by simp) [⟨f.seq, .classifying, .reported⟩, ⟨f.seq, .awaitingCompletion, .classifying⟩] ⟨?_, ?_, ?_⟩
    · rw [flights_settle]
      exact flights_filter x f.seq
    · simp only [changes_settle, awaiting, getD_set_self awaiting, Option.getD_some, List.cons_append, List.nil_append]
    · simp [UnitState.canAdvanceTo]
    · simp [reportedIn]

end Sound

/-! ## What is handed in -/

/-- **A move hands in the completion of the step that it reports**, or neither reports a step nor hands anything in.
Where no unit ran, there is a reason for it. -/
theorem Move.reports (move : Move a rules x y) :
    (y.aggregator = x.aggregator ∧ y.reported = x.reported) ∨
      ∃ seq c now, y.aggregator = x.aggregator.submit seq c now ∧ y.reported = seq :: x.reported ∧
        ∀ done ∈ c, (∃ status reason, done = .notRun status reason now ∧ status.isTerminal = true) ∨
          ∃ f ∈ x.inFlight, rules.mayEnd f done := by
  cases move with
  | interrupt control running told => exact .inl ⟨rfl, rfl⟩
  | update seq unit => exact .inl ⟨rfl, rfl⟩
  | @giveUp step halt due free halted now =>
    refine .inr ⟨x.cursor, halt.completion step now, now, rfl, by simp [reported, reportedIn], ?_⟩
    intro done mem
    cases step with
    | leaf node =>
      cases mem
      exact .inl ⟨_, _, rfl, rfl⟩
    | enter node | exit node => cases mem
  | @pass step n reason due free running found decided now =>
    refine .inr ⟨x.cursor, skipped reason now, now, rfl, by simp [reported, reportedIn], ?_⟩
    intro done mem
    cases reason with
    | none => cases mem
    | some reason =>
      cases mem
      exact .inl ⟨_, _, rfl, rfl⟩
  | @launch step n n' plan barrier control due free running found decided alone room start now =>
    cases started : control.start x.cursor plan (a.limit? n') with
    | ok unit =>
      rw [launch_of_ok started]
      exact .inl ⟨rfl, by simp [reported, reportedIn]⟩
    | error e =>
      rw [launch_of_error started]
      refine .inr ⟨x.cursor, some (e.completion now), now, by simp, by simp [reported, reportedIn], ?_⟩
      intro done mem
      cases mem
      exact .inl ⟨_, _, rfl, rfl⟩
  | @finish f c flying control ends now =>
    rw [retire_eq]
    refine .inr ⟨f.seq, some c, now, by simp, by simp [reported, reportedIn], ?_⟩
    intro done mem
    cases mem
    exact .inr ⟨f, flying, ends⟩

/-- What the aggregator was given: one delivery for each step that was reported. -/
structure Accounted (a : Assignment β) (x : Execution υ) (ds : List Delivery) : Prop where
  aggregator : x.aggregator = (Aggregator.new a.outline).submitAll ds
  seqs : ds.map (·.seq) = x.reported.reverse
  ends : ∀ d ∈ ds, ∀ done ∈ d.completion, done.status.isTerminal = true

theorem Accounted.move {ds : List Delivery} (accounted : Accounted a x ds) (move : Move a rules x y)
    (terminal : ∀ f c, rules.mayEnd f c → c.status.isTerminal = true) : ∃ ds, Accounted a y ds := by
  rcases move.reports with ⟨same, none_⟩ | ⟨seq, c, now, submitted, reported, ends⟩
  · exact ⟨ds, same.trans accounted.aggregator, none_ ▸ accounted.seqs, accounted.ends⟩
  · refine ⟨ds ++ [⟨seq, c, now⟩], ?_, ?_, ?_⟩
    · rw [submitted, accounted.aggregator, Aggregator.submitAll_concat]
    · rw [reported, List.map_append, accounted.seqs, List.reverse_cons]
      rfl
    · intro d mem
      rw [List.mem_append, List.mem_singleton] at mem
      rcases mem with mem | rfl
      · exact accounted.ends d mem
      · intro done given
        rcases ends done given with ⟨_, _, rfl, atEnd⟩ | ⟨f, _, ended⟩
        · exact atEnd
        · exact terminal f done ended

/-! ## Reachable states -/

theorem Reachable.sound (reachable : Reachable a rules x) : Sound a x := by
  induction reachable with
  | refl => exact .new a
  | tail _ move ih => exact ih.move move

theorem Reachable.accounted (reachable : Reachable a rules x)
    (terminal : ∀ f c, rules.mayEnd f c → c.status.isTerminal = true) : ∃ ds, Accounted a x ds := by
  induction reachable with
  | refl => exact ⟨[], rfl, rfl, by simp⟩
  | tail _ move ih =>
    obtain ⟨ds, accounted⟩ := ih
    exact accounted.move move terminal

/-- **What holds of all that units may come to, and of units that never ran, holds of all that was handed in.** -/
theorem Reachable.forall_delivered (reachable : Reachable a rules x) {P : Completion → Prop}
    (notRun : ∀ status reason now, P (.notRun status reason now)) (ends : ∀ f c, rules.mayEnd f c → P c) {seq : Nat}
    {c : Completion} (given : x.aggregator.delivered[seq]? = some (some (some c))) : P c := by
  induction reachable with
  | refl =>
    simp only [new, Aggregator.new, List.getElem?_map, Option.map_eq_some_iff] at given
    obtain ⟨_, _, ⟨⟩⟩ := given
  | @tail y z before move ih =>
    rcases move.reports with ⟨same, _⟩ | ⟨own, c', now, submitted, _, origin⟩
    · exact ih (same ▸ given)
    · rw [submitted] at given
      by_cases due : y.aggregator.delivered[own]? = some none
      · rw [Aggregator.delivered_submit due, List.getElem?_set] at given
        split at given
        · split at given
          · obtain rfl : c' = some c := by simpa using given
            rcases origin c rfl with ⟨status, reason, rfl, _⟩ | ⟨f, _, ended⟩
            · exact notRun status reason now
            · exact ends f c ended
          · cases given
        · exact ih given
      · rw [Aggregator.submit_of_not_due due] at given
        exact ih given

/-- The aggregator has applied all the steps it can. -/
theorem Reachable.kept (reachable : Reachable a rules x) : ∃ entries, x.aggregator.Kept a.outline entries := by
  induction reachable with
  | refl => exact ⟨[], Aggregator.kept_new a.outline⟩
  | tail _ move ih =>
    obtain ⟨entries, kept⟩ := ih
    rcases move.reports with ⟨same, _⟩ | ⟨seq, c, now, submitted, _, _⟩
    · exact ⟨entries, same ▸ kept⟩
    · obtain ⟨more, _, kept⟩ := kept.submit seq c now
      exact ⟨entries ++ more, submitted ▸ kept⟩

/-- Nothing that was reported is forgotten. -/
theorem Move.reported_subset (move : Move a rules x y) : x.reported ⊆ y.reported := by
  rcases move.reports with ⟨_, same⟩ | ⟨seq, c, now, _, reported, _⟩
  · rw [same]
    exact List.Subset.refl _
  · rw [reported]
    exact List.subset_cons_self _ _

theorem Moves.reported_subset (moves : Moves a rules x y) : x.reported ⊆ y.reported := by
  induction moves with
  | refl => exact List.Subset.refl _
  | tail _ move ih => exact List.Subset.trans ih move.reported_subset

end Execution

end TestIsolation
