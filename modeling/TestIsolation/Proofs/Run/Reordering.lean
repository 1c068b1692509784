import Mathlib.Data.List.Basic
import TestIsolation.Proofs.Run.Replay

/-!
# Completions in any order

An aggregator may be given completions in any order, some twice and some for steps that do not exist. It has applied the
longest prefix of steps that all have a completion, and it is where it would be had it been given these steps in turn,
once each and with the first completion of each (`submitAll_in_any_order`).
-/

namespace TestIsolation

set_option autoImplicit false

/-! ## Steps in turn -/

/-- The first `n` steps in turn, each with the first completion that was delivered for it. -/
def inTurn (ds : List Delivery) (n : Nat) : List Delivery := (List.range n).filterMap fun seq => ds.find? (·.seq = seq)

section InTurn

variable {ds : List Delivery} {n seq : Nat}

theorem mem_map_seq_iff : seq ∈ ds.map (·.seq) ↔ ∃ d, ds.find? (·.seq = seq) = some d := by
  rw [← Option.isSome_iff_exists, List.find?_isSome, List.mem_map]
  simp

/-- What is delivered in turn for a step is what was delivered first. -/
theorem find?_inTurn (early : seq < n) : (inTurn ds n).find? (·.seq = seq) = ds.find? (·.seq = seq) := by
  rw [inTurn, List.find?_filterMap]
  cases found : ds.find? (·.seq = seq) with
  | none =>
    have nowhere : (List.range n).find? (fun k => (ds.find? (·.seq = k)).any (·.seq = seq)) = none := by
      rw [List.find?_eq_none]
      intro other _
      cases first : ds.find? (·.seq = other) with
      | none => simp
      | some e => exact List.find?_eq_none.1 found e (List.mem_of_find?_eq_some first)
    rw [nowhere, Option.bind_none]
  | some d =>
    have own : d.seq = seq := by simpa using List.find?_some found
    have here : (List.range n).find? (fun k => (ds.find? (·.seq = k)).any (·.seq = seq)) = some seq := by
      rw [List.find?_range_eq_some]
      refine ⟨by simp [found, own], List.mem_range.2 early, ?_⟩
      intro other less
      cases first : ds.find? (·.seq = other) with
      | none => rfl
      | some e =>
        have e_seq : e.seq = other := by simpa using List.find?_some first
        simp [e_seq, Nat.ne_of_lt less]
    rw [here, Option.bind_some, found]

theorem mem_of_mem_inTurn {d : Delivery} (mem : d ∈ inTurn ds n) : d ∈ ds := by
  obtain ⟨k, _, found⟩ := List.mem_filterMap.1 mem
  exact List.mem_of_find?_eq_some found

/-- Each of the steps comes once, and in order. -/
theorem map_seq_inTurn (all : ∀ k < n, k ∈ ds.map (·.seq)) : (inTurn ds n).map (·.seq) = List.range n := by
  rw [inTurn, List.map_filterMap]
  have own : ∀ k ∈ List.range n, (ds.find? (·.seq = k)).map (·.seq) = some k := by
    intro k mem
    obtain ⟨d, found⟩ := mem_map_seq_iff.1 (all k (List.mem_range.1 mem))
    rw [found, Option.map_some, Option.some.injEq]
    simpa using List.find?_some found
  rw [List.filterMap_congr own, List.filterMap_some]

end InTurn

/-- Where a prefix of the numbers that have a property ends. -/
theorem length_takeWhile_range {p : Nat → Bool} {k n : Nat} (le : k ≤ n) (all : ∀ i < k, p i = true)
    (stop : k < n → p k = false) : ((List.range n).takeWhile p).length = k := by
  obtain ⟨m, rfl⟩ := Nat.exists_eq_add_of_le le
  rw [List.range_add, List.takeWhile_append_of_pos fun i mem => all i (List.mem_range.1 mem)]
  cases m with
  | zero => simp
  | succ m =>
    have last := stop (by omega)
    rw [List.range_succ_eq_map, List.map_cons, Nat.add_zero, List.takeWhile_cons_of_neg (by simp [last])]
    simp

namespace Aggregator

variable {β : Type} {o : Outline β}

/-! ## What is applied -/

/-- An aggregator has applied what it can, each step at the time of a delivery. -/
theorem exists_kept_submitAll (o : Outline β) (ds : List Delivery) :
    ∃ entries, (∀ e ∈ entries, ∃ d ∈ ds, e.time = d.time) ∧ Kept o ((new o).submitAll ds) entries := by
  induction ds using List.reverseRecOn with
  | nil => exact ⟨[], by simp, kept_new o⟩
  | append_singleton ds d ih =>
    obtain ⟨entries, times, kept⟩ := ih
    obtain ⟨more, later, kept⟩ := kept.submit d.seq d.completion d.time
    rw [submitAll_concat]
    refine ⟨entries ++ more, List.forall_mem_append.2 ⟨?_, ?_⟩, kept⟩
    · intro e mem
      obtain ⟨d', given, same⟩ := times e mem
      exact ⟨d', List.mem_append_left _ given, same⟩
    · intro e mem
      exact ⟨d, by simp, later e mem⟩

/-- The applied steps are steps. -/
theorem Replays.applied_le {g : Aggregator} {entries : List Applied} (replays : Replays o g entries) :
    g.applied ≤ o.steps.length := by
  have own := congrArg List.length replays.own
  rw [List.length_map, replays.count, List.length_take] at own
  omega

/-- The applied steps had a completion. -/
theorem Replays.exists_of_lt_applied {g : Aggregator} {entries : List Applied} (replays : Replays o g entries)
    {seq : Nat} (early : seq < g.applied) : ∃ c, g.delivered[seq]? = some (some c) := by
  have taken : (g.delivered.take g.applied)[seq]? = g.delivered[seq]? := List.getElem?_take_of_lt early
  have bound := replays.count
  rw [← replays.given, List.getElem?_map, List.getElem?_eq_getElem (by omega), Option.map_some] at taken
  exact ⟨_, taken.symm⟩

/-- A step has a completion if one was delivered for it. -/
theorem exists_delivered_iff (o : Outline β) (ds : List Delivery) {seq : Nat} (inside : seq < o.steps.length) :
    (∃ c, ((new o).submitAll ds).delivered[seq]? = some (some c)) ↔ seq ∈ ds.map (·.seq) := by
  rw [delivered_submitAll, if_pos inside, mem_map_seq_iff]
  cases ds.find? (·.seq = seq) <;> simp

/-- **The longest prefix of steps that were delivered has been applied.** -/
theorem applied_submitAll (o : Outline β) (ds : List Delivery) :
    ((new o).submitAll ds).applied =
      ((List.range o.steps.length).takeWhile fun seq => decide (seq ∈ ds.map (·.seq))).length := by
  obtain ⟨entries, _, kept⟩ := exists_kept_submitAll o ds
  have bound := kept.applied_le
  symm
  apply length_takeWhile_range bound
  · intro seq early
    exact decide_eq_true ((exists_delivered_iff o ds (by omega)).1 (kept.exists_of_lt_applied early))
  · intro more
    rw [decide_eq_false_iff_not]
    intro listed
    obtain ⟨c, given⟩ := (exists_delivered_iff o ds more).2 listed
    exact kept.next c given

/-- Steps that were applied at the same time are known from the steps and their completions. -/
theorem entries_ext {entries others : List Applied} {now : Timestamp} (times : ∀ e ∈ entries, e.time = now)
    (times' : ∀ e ∈ others, e.time = now) (own : entries.map (·.step) = others.map (·.step))
    (given : entries.map (fun e => some e.completion) = others.map fun e => some e.completion) : entries = others := by
  induction entries generalizing others with
  | nil => exact (List.map_eq_nil_iff.1 own.symm).symm
  | cons e entries ih =>
    obtain ⟨e', others, rfl, step, steps⟩ := List.map_eq_cons_iff.1 own.symm
    rw [List.map_cons, List.map_cons, List.cons.injEq, Option.some.injEq] at given
    rw [List.forall_mem_cons] at times times'
    have same : e = e' := by
      cases e
      cases e'
      simp_all
    rw [same, ih times.2 times'.2 steps.symm given.2]

/-- Aggregators that have applied the same steps, with the same completions and at the same time, agree. -/
theorem Kept.agree {g h : Aggregator} {entries others : List Applied} (kept : Kept o g entries)
    (kept' : Kept o h others) (now : Timestamp) (times : ∀ e ∈ entries, e.time = now)
    (times' : ∀ e ∈ others, e.time = now) (applied : g.applied = h.applied)
    (given : ∀ seq < g.applied, g.delivered[seq]? = h.delivered[seq]?) : g.tree = h.tree ∧ g.events = h.events := by
  have taken : g.delivered.take g.applied = h.delivered.take h.applied := by
    apply List.ext_getElem?
    intro seq
    rw [List.getElem?_take, List.getElem?_take, ← applied]
    by_cases early : seq < g.applied
    · rw [if_pos early, if_pos early, given seq early]
    · rw [if_neg early, if_neg early]
  have same : entries = others := by
    apply entries_ext times times'
    · rw [kept.own, kept'.own, applied]
    · rw [kept.given, kept'.given, taken]
  refine ⟨?_, ?_⟩
  · rw [kept.tree_eq, kept'.tree_eq, same]
  · rw [events, events, kept.told_eq, kept'.told_eq, same]

/-- Every step has been applied if every step has a completion. -/
theorem isComplete_submitAll_iff (o : Outline β) (ds : List Delivery) :
    ((new o).submitAll ds).isComplete = true ↔ ∀ seq < o.steps.length, seq ∈ ds.map (·.seq) := by
  obtain ⟨entries, _, kept⟩ := exists_kept_submitAll o ds
  constructor
  · intro complete seq inside
    rw [isComplete, decide_eq_true_iff, kept.steps] at complete
    exact (exists_delivered_iff o ds inside).1 (kept.exists_of_lt_applied (by omega))
  · intro all
    refine kept.isComplete_of_delivered fun seq inside missing => ?_
    obtain ⟨c, given⟩ := (exists_delivered_iff o ds inside).2 (all seq inside)
    rw [given] at missing
    cases missing

/-- **Order does not matter.** On a clock that stands still, the steps that were applied are as if they had been
delivered in turn. -/
theorem submitAll_inTurn (o : Outline β) {ds : List Delivery} {now : Timestamp} (clock : ∀ d ∈ ds, d.time = now) :
    let ordered := inTurn ds ((new o).submitAll ds).applied
    ordered.map (·.seq) = List.range ((new o).submitAll ds).applied ∧
      ((new o).submitAll ds).tree = ((new o).submitAll ordered).tree ∧
      ((new o).submitAll ds).events = ((new o).submitAll ordered).events := by
  intro ordered
  obtain ⟨entries, times, kept⟩ := exists_kept_submitAll o ds
  obtain ⟨others, times', kept'⟩ := exists_kept_submitAll o ordered
  have bound := kept.applied_le
  have seqs : ordered.map (·.seq) = List.range ((new o).submitAll ds).applied := by
    apply map_seq_inTurn
    intro seq early
    exact (exists_delivered_iff o ds (by omega)).1 (kept.exists_of_lt_applied early)
  have applied : ((new o).submitAll ordered).applied = ((new o).submitAll ds).applied := by
    rw [applied_submitAll o ordered, seqs]
    apply length_takeWhile_range bound <;> simp
  refine ⟨seqs, kept.agree kept' now ?_ ?_ applied.symm ?_⟩
  · intro e mem
    obtain ⟨d, given, same⟩ := times e mem
    rw [same, clock d given]
  · intro e mem
    obtain ⟨d, given, same⟩ := times' e mem
    rw [same, clock d (mem_of_mem_inTurn given)]
  · intro seq early
    rw [delivered_submitAll, delivered_submitAll, find?_inTurn early]

end Aggregator

open Aggregator in
/-- **Nothing is lost and nothing counts twice.** An aggregator may be given completions in any order, for the same step
more than once and for steps that do not exist. On a clock that stands still, it has applied the longest prefix of steps
that all have a completion; its tree and its events are those that come of these steps in turn, once each and with the
first completion that was delivered for each; and it is complete exactly if every step has a completion. -/
theorem submitAll_in_any_order {β : Type} (t : SuiteTree β) (given : List (Nat × Option Completion)) (now : Timestamp) :
    let ds : List Delivery := given.map fun (seq, completion) => ⟨seq, completion, now⟩
    let g := (new t.outline).submitAll ds
    let ordered := inTurn ds g.applied
    g.applied = ((List.range t.plan.length).takeWhile fun seq => decide (seq ∈ given.map (·.1))).length ∧
      ordered.map (·.seq) = List.range g.applied ∧
      (∀ d ∈ ordered, given.find? (·.1 = d.seq) = some (d.seq, d.completion) ∧ d.time = now) ∧
      g.tree = ((new t.outline).submitAll ordered).tree ∧ g.events = ((new t.outline).submitAll ordered).events ∧
      (g.isComplete = true ↔ ∀ seq < t.plan.length, seq ∈ given.map (·.1)) := by
  intro ds g ordered
  have clock : ∀ d ∈ ds, d.time = now := by
    intro d mem
    obtain ⟨pair, _, rfl⟩ := List.mem_map.1 mem
    rfl
  have seqs : ds.map (·.seq) = given.map (·.1) := by simp [ds]
  have first (seq : Nat) : ds.find? (·.seq = seq) = (given.find? (·.1 = seq)).map fun (seq, c) => ⟨seq, c, now⟩ := by
    rw [List.find?_map]
    rfl
  obtain ⟨turn, tree, events⟩ := submitAll_inTurn t.outline clock
  refine ⟨?_, turn, ?_, tree, events, ?_⟩
  · rw [← seqs]
    exact applied_submitAll t.outline ds
  · intro d mem
    obtain ⟨seq, _, found⟩ := List.mem_filterMap.1 mem
    rw [first, Option.map_eq_some_iff] at found
    obtain ⟨⟨seq', completion⟩, found, rfl⟩ := found
    obtain rfl : seq' = seq := by simpa using List.find?_some found
    exact ⟨found, rfl⟩
  · rw [← seqs]
    exact isComplete_submitAll_iff t.outline ds

end TestIsolation
