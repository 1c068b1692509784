import Mathlib.Data.List.Induction
import Mathlib.Tactic.Common
import TestIsolation.Run.Aggregator

/-!
# What an aggregator holds

An aggregator is the replay of the steps it has applied (`Aggregator.Kept`): they are the first ones, each with the
completion that was delivered for it, and the next step has none yet. So once every step has a completion, every step
has been applied (`Kept.isComplete_of_delivered`).
-/

namespace TestIsolation

set_option autoImplicit false

/-- What is handed to an aggregator. -/
structure Delivery where
  seq : Nat
  completion : Option Completion
  time : Timestamp
  deriving DecidableEq, Repr

/-- A step that was applied, with what was delivered for it. -/
structure Applied where
  step : Step
  completion : Option Completion
  time : Timestamp
  deriving DecidableEq, Repr

namespace Aggregator

variable {β : Type}

/-- An aggregator with more deliveries, in turn. -/
def submitAll (g : Aggregator) (ds : List Delivery) : Aggregator :=
  ds.foldl (fun g d => g.submit d.seq d.completion d.time) g

/-- The tree and the events after more steps. -/
def replay (g : Aggregator) (entries : List Applied) : Aggregator :=
  entries.foldl (fun g e => g.apply e.step e.completion e.time) g

theorem submitAll_append (g : Aggregator) (a b : List Delivery) :
    g.submitAll (a ++ b) = (g.submitAll a).submitAll b := List.foldl_append

theorem submitAll_concat (g : Aggregator) (ds : List Delivery) (d : Delivery) :
    g.submitAll (ds ++ [d]) = (g.submitAll ds).submit d.seq d.completion d.time := by
  rw [submitAll_append]
  rfl

theorem replay_append (g : Aggregator) (a b : List Applied) : g.replay (a ++ b) = (g.replay a).replay b :=
  List.foldl_append

theorem replay_concat (g : Aggregator) (entries : List Applied) (e : Applied) :
    g.replay (entries ++ [e]) = (g.replay entries).apply e.step e.completion e.time := by
  rw [replay_append]
  rfl

/-- A replay around one of its steps. -/
theorem replay_append_cons (g : Aggregator) (before : List Applied) (e : Applied) (after : List Applied) :
    g.replay (before ++ e :: after) = ((g.replay before).apply e.step e.completion e.time).replay after :=
  replay_append g before (e :: after)

/-! ## What a step leaves alone -/

@[simp] theorem steps_apply (g : Aggregator) (step : Step) (c : Option Completion) (now : Timestamp) :
    (g.apply step c now).steps = g.steps := by
  cases step <;> rfl

@[simp] theorem delivered_apply (g : Aggregator) (step : Step) (c : Option Completion) (now : Timestamp) :
    (g.apply step c now).delivered = g.delivered := by
  cases step <;> rfl

/-- The queue has no part in what a step does. -/
theorem apply_queue (g : Aggregator) (delivered : List (Option (Option Completion))) (applied : Nat) (step : Step)
    (c : Option Completion) (now : Timestamp) :
    ({ g with delivered, applied } : Aggregator).apply step c now =
      { g.apply step c now with delivered, applied } := by
  cases step with
  | enter node => cases c <;> rfl
  | leaf node => rfl
  | exit node => rfl

@[simp] theorem steps_drain (g : Aggregator) (now : Timestamp) (fuel : Nat) : (g.drain now fuel).steps = g.steps := by
  induction fuel generalizing g with
  | zero => rfl
  | succ fuel ih =>
    simp only [drain]
    split
    · rw [ih, steps_apply]
    · rfl

@[simp] theorem delivered_drain (g : Aggregator) (now : Timestamp) (fuel : Nat) :
    (g.drain now fuel).delivered = g.delivered := by
  induction fuel generalizing g with
  | zero => rfl
  | succ fuel ih =>
    simp only [drain]
    split
    · rw [ih, delivered_apply]
    · rfl

@[simp] theorem steps_submit (g : Aggregator) (seq : Nat) (c : Option Completion) (now : Timestamp) :
    (g.submit seq c now).steps = g.steps := by
  simp only [submit]
  split
  · rw [steps_drain]
  · rfl

/-- Any other delivery is without effect. -/
theorem submit_of_not_due {g : Aggregator} {seq : Nat} (settled : g.delivered[seq]? ≠ some none)
    (c : Option Completion) (now : Timestamp) : g.submit seq c now = g := by
  unfold submit
  split
  · rename_i due
    exact absurd due settled
  · rfl

/-- The first delivery of a step is kept. -/
theorem delivered_submit {g : Aggregator} {seq : Nat} (due : g.delivered[seq]? = some none) (c : Option Completion)
    (now : Timestamp) : (g.submit seq c now).delivered = g.delivered.set seq (some c) := by
  simp only [submit, due, delivered_drain]

/-- **The first delivery of a step counts.** -/
theorem delivered_submitAll (o : Outline β) (ds : List Delivery) (seq : Nat) :
    ((new o).submitAll ds).delivered[seq]? =
      if seq < o.steps.length then some ((ds.find? (·.seq = seq)).map (·.completion)) else none := by
  induction ds using List.reverseRecOn with
  | nil =>
    simp only [submitAll, List.foldl_nil, new, List.getElem?_map, List.find?_nil, Option.map_none]
    split
    · rename_i inside
      rw [List.getElem?_eq_getElem inside]
      rfl
    · rename_i outside
      rw [List.getElem?_eq_none (by omega)]
      rfl
  | append_singleton ds d ih =>
    rw [submitAll_concat, List.find?_append, List.find?_singleton]
    generalize (new o).submitAll ds = g at ih
    by_cases own : d.seq = seq
    · subst own
      by_cases inside : d.seq < o.steps.length
      · rw [if_pos inside] at ih ⊢
        cases before : ds.find? (·.seq = d.seq) with
        | none =>
          simp only [before, Option.map_none] at ih
          have bound := (List.getElem?_eq_some_iff.1 ih).1
          rw [delivered_submit ih, List.getElem?_set_self bound]
          simp
        | some first =>
          simp only [before, Option.map_some] at ih
          simp [submit, ih]
      · rw [if_neg inside] at ih ⊢
        simp [submit, ih]
    · have others : (g.submit d.seq d.completion d.time).delivered[seq]? = g.delivered[seq]? := by
        by_cases due : g.delivered[d.seq]? = some none
        · rw [delivered_submit due, List.getElem?_set_ne own]
        · rw [submit_of_not_due due]
      rw [others, ih]
      simp [own]

/-! ## The replay of the applied steps -/

/-- An aggregator that has applied the first steps, each with what was delivered for it. -/
structure Replays (o : Outline β) (g : Aggregator) (entries : List Applied) : Prop where
  steps : g.steps = o.steps
  length : g.delivered.length = o.steps.length
  own : entries.map (·.step) = o.steps.take g.applied
  given : entries.map (fun e => some e.completion) = g.delivered.take g.applied
  count : entries.length = g.applied
  replay : g = { (new o).replay entries with delivered := g.delivered, applied := g.applied }

/-- An aggregator that has applied all the steps it can. -/
structure Kept (o : Outline β) (g : Aggregator) (entries : List Applied) : Prop extends Replays o g entries where
  next : ∀ c, g.delivered[g.applied]? ≠ some (some c)

theorem Replays.tree_eq {o : Outline β} {g : Aggregator} {entries : List Applied} (replays : Replays o g entries) :
    g.tree = ((new o).replay entries).tree := by
  conv_lhs => rw [replays.replay]

theorem Replays.told_eq {o : Outline β} {g : Aggregator} {entries : List Applied} (replays : Replays o g entries) :
    g.told = ((new o).replay entries).told := by
  conv_lhs => rw [replays.replay]

theorem kept_new (o : Outline β) : Kept o (new o) [] where
  steps := rfl
  length := by simp [new]
  own := rfl
  given := rfl
  count := rfl
  replay := rfl
  next := by
    intro c
    simp only [new, List.getElem?_map]
    cases o.steps[0]? <;> simp

/-- One more step. -/
theorem Replays.apply {o : Outline β} {g : Aggregator} {entries : List Applied} (replays : Replays o g entries)
    {step : Step} {c : Option Completion} (due : g.steps[g.applied]? = some step)
    (given : g.delivered[g.applied]? = some (some c)) (now : Timestamp) :
    Replays o { g.apply step c now with applied := g.applied + 1 } (entries ++ [⟨step, c, now⟩]) where
  steps := by simpa using replays.steps
  length := by simpa using replays.length
  own := by
    rw [replays.steps] at due
    simp only [List.map_append, replays.own, List.take_add_one, due]
    rfl
  given := by
    simp only [delivered_apply, List.map_append, replays.given, List.take_add_one, given]
    rfl
  count := by simp [replays.count]
  replay := by
    rw [replay_concat]
    conv_lhs => rw [replays.replay, apply_queue]
    simp

/-- Draining applies steps as long as the next one has a completion, all at the time of the drain. -/
theorem Replays.drain {o : Outline β} (now : Timestamp) (fuel : Nat) {g : Aggregator} {entries : List Applied}
    (replays : Replays o g entries) (enough : o.steps.length ≤ g.applied + fuel) :
    ∃ more, (∀ e ∈ more, e.time = now) ∧ Kept o (g.drain now fuel) (entries ++ more) := by
  induction fuel generalizing g entries with
  | zero =>
    refine ⟨[], by simp, ?_⟩
    rw [List.append_nil]
    refine { replays with next := ?_ }
    intro c given
    obtain ⟨bound, _⟩ := List.getElem?_eq_some_iff.1 given
    rw [Aggregator.drain, replays.length] at bound
    omega
  | succ fuel ih =>
    simp only [Aggregator.drain]
    split
    · rename_i step c due given
      obtain ⟨more, times, kept⟩ := ih (replays.apply due given now) (by simp only; omega)
      exact ⟨⟨step, c, now⟩ :: more, by simpa using times, by simpa using kept⟩
    · rename_i stuck
      refine ⟨[], by simp, ?_⟩
      rw [List.append_nil]
      refine { replays with next := ?_ }
      intro c given
      obtain ⟨bound, _⟩ := List.getElem?_eq_some_iff.1 given
      rw [replays.length, ← replays.steps] at bound
      exact stuck _ c (List.getElem?_eq_getElem bound) given

/-- A delivery for a step that has none changes nothing about the applied ones. -/
theorem Replays.deliver {o : Outline β} {g : Aggregator} {entries : List Applied} (replays : Replays o g entries)
    {seq : Nat} (due : g.delivered[seq]? = some none) (c : Option Completion) :
    Replays o { g with delivered := g.delivered.set seq (some c) } entries := by
  have waiting : g.applied ≤ seq := by
    by_contra early
    have taken : (g.delivered.take g.applied)[seq]? = some none := by
      rw [List.getElem?_take_of_lt (by omega), due]
    rw [← replays.given] at taken
    simp at taken
  exact {
    steps := replays.steps
    length := by simpa using replays.length
    own := replays.own
    given := by rw [replays.given, List.take_set_of_le waiting]
    count := replays.count
    replay := by
      conv_lhs => rw [replays.replay] }

/-- **A delivery keeps the steps in turn.** -/
theorem Kept.submit {o : Outline β} {g : Aggregator} {entries : List Applied} (kept : Kept o g entries) (seq : Nat)
    (c : Option Completion) (now : Timestamp) :
    ∃ more, (∀ e ∈ more, e.time = now) ∧ Kept o (g.submit seq c now) (entries ++ more) := by
  simp only [Aggregator.submit]
  split
  · rename_i due
    refine Replays.drain now _ (kept.deliver due c) ?_
    have steps := congrArg List.length kept.steps
    simp only
    omega
  · exact ⟨[], by simp, by simpa using kept⟩

/-- What was applied had been delivered. -/
theorem Replays.exists_delivered {o : Outline β} {g : Aggregator} {entries : List Applied}
    (replays : Replays o g entries) {e : Applied} (mem : e ∈ entries) :
    ∃ seq : Nat, g.delivered[seq]? = some (some e.completion) := by
  have given : some e.completion ∈ g.delivered.take g.applied := by
    rw [← replays.given]
    exact List.mem_map_of_mem (f := fun e : Applied => some e.completion) mem
  exact List.mem_iff_getElem?.1 (List.mem_of_mem_take given)

/-- **Nothing is left behind.** An aggregator that was given a completion for every step has applied every step. -/
theorem Kept.isComplete_of_delivered {o : Outline β} {g : Aggregator} {entries : List Applied}
    (kept : Kept o g entries) (all : ∀ seq < o.steps.length, g.delivered[seq]? ≠ some none) : g.isComplete = true := by
  have bound : g.applied ≤ o.steps.length := by
    have own := congrArg List.length kept.own
    rw [List.length_map, kept.count, List.length_take] at own
    omega
  rw [isComplete, kept.steps, decide_eq_true_iff]
  by_contra incomplete
  have due : g.applied < g.delivered.length := by
    rw [kept.length]
    omega
  cases given : g.delivered[g.applied] with
  | none => exact all g.applied (by omega) (by rw [List.getElem?_eq_getElem due, given])
  | some c => exact kept.next c (by rw [List.getElem?_eq_getElem due, given])

end Aggregator

end TestIsolation
