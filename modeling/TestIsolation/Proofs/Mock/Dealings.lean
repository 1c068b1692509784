import Mathlib.Data.List.Nodup
import TestIsolation.Proofs.Mock.Matching
import TestIsolation.Unit.MockCall

/-!
# What was done with the calls of a unit

The history of a unit's mock calls is a list of `Deed`s: calls are opened, query parameters, are completed, and are
lost when their frame unwinds. Calls are told apart by the numbers of their expectations. While a unit stands well, its
history tells where each call is (`Tracked`): a call that is still open has queried what its history says and broken no
rule, and every other call was the one that was expected, unless a panic lost it. One lemma a deed shows that this is
kept.
-/

namespace TestIsolation

set_option autoImplicit false

/-- Something done with a mock call, which is named by the number of its expectation. -/
inductive Deed where
  /-- A call took the head of the queue. -/
  | opened (e : Expectation)
  | queried (call : Nat) (q : Query)
  /-- A call was completed, whether it was let or not. -/
  | completed (call : Nat) (ending : Completing)
  /-- The frame of a call unwound past it. -/
  | lost (call : Nat) (cause : Unwinding)
  deriving DecidableEq, Repr

namespace Deed

/-- The expectation of a call that was opened. -/
def opened? : Deed → Option Expectation
  | opened e => some e
  | _ => none

/-- The query of a call. -/
def query? (number : Nat) : Deed → Option Query
  | queried call q => if call = number then some q else none
  | _ => none

/-- The number of the call that a deed is about. -/
def call : Deed → Nat
  | opened e => e.seq
  | queried call _ | completed call _ | lost call _ => call

/-- The expectations of the calls that were opened, in order. -/
def openings (deeds : List Deed) : List Expectation := deeds.filterMap opened?

/-- What a call queried, in order. -/
def queries (number : Nat) (deeds : List Deed) : List Query := deeds.filterMap (query? number)

theorem openings_append (deeds more : List Deed) : openings (deeds ++ more) = openings deeds ++ openings more :=
  List.filterMap_append

theorem queries_append (number : Nat) (deeds more : List Deed) :
    queries number (deeds ++ more) = queries number deeds ++ queries number more := List.filterMap_append

/-- Deeds about other calls do not touch what a call queried. -/
theorem queries_eq_nil {number : Nat} {deeds : List Deed} (others : ∀ d ∈ deeds, d.call ≠ number) :
    queries number deeds = [] := by
  rw [queries, List.filterMap_eq_nil_iff]
  intro d mem
  have differs := others d mem
  cases d with
  | queried call q => exact if_neg differs
  | opened | completed | lost => rfl

end Deed

open Deed

namespace Expectation

/-- A call was completed and was the one that was expected. -/
def Verified (deeds : List Deed) (e : Expectation) : Prop :=
  ∃ ending, .completed e.seq ending ∈ deeds ∧ e.Met (queries e.seq deeds) ending

/-- A call was the one that was expected, or a panic lost it. -/
def Accounted (deeds : List Deed) (e : Expectation) : Prop :=
  e.Verified deeds ∨ ∃ message, .lost e.seq (.panicked message) ∈ deeds

theorem Accounted.append {deeds more : List Deed} {e : Expectation} (accounted : e.Accounted deeds)
    (others : ∀ d ∈ more, d.call ≠ e.seq) : e.Accounted (deeds ++ more) := by
  obtain ⟨ending, completed, met⟩ | ⟨message, lost⟩ := accounted
  · refine .inl ⟨ending, List.mem_append_left _ completed, ?_⟩
    rwa [queries_append, queries_eq_nil others, List.append_nil]
  · exact .inr ⟨message, List.mem_append_left _ lost⟩

end Expectation

/-- The history of a unit that stands well, with its queue and its open calls. -/
structure Tracked (deeds : List Deed) (queue : ExpectQueue) (calls : List MockCall) : Prop where
  /-- Expectations are taken in the order they were pushed in. -/
  numbered : ((openings deeds ++ queue.entries).map (·.seq)).Pairwise (· < ·)
  pushed : ∀ e ∈ openings deeds ++ queue.entries, e.seq ≤ queue.pushed
  /-- Deeds are about calls that were opened. -/
  known : ∀ d ∈ deeds, ∃ e ∈ openings deeds, e.seq = d.call
  /-- An open call broke no rule so far. -/
  current : ∀ call ∈ calls, call.deferred = false ∧
    ∃ e ∈ openings deeds, e.queried? (queries e.seq deeds) = some call.entry
  distinct : (calls.map (·.entry.seq)).Nodup
  /-- Every other call was the one that was expected, or a panic lost it. -/
  accounted : ∀ e ∈ openings deeds, e.seq ∉ calls.map (·.entry.seq) → e.Accounted deeds

namespace Tracked

variable {deeds : List Deed} {queue : ExpectQueue} {call : MockCall} {calls others : List MockCall}

theorem start : Tracked [] {} [] where
  numbered := .nil
  pushed := nofun
  known := nofun
  current := nofun
  distinct := .nil
  accounted := nofun

/-- The order of the open calls does not matter. -/
theorem perm (tracked : Tracked deeds queue calls) (same : calls.Perm others) : Tracked deeds queue others where
  numbered := tracked.numbered
  pushed := tracked.pushed
  known := tracked.known
  current := fun call mem => tracked.current call (same.mem_iff.2 mem)
  distinct := (same.map _).nodup_iff.1 tracked.distinct
  accounted := fun e mem settled => tracked.accounted e mem fun isOpen => settled ((same.map _).mem_iff.1 isOpen)

/-- Two opened calls with one number are one call. -/
theorem opening_unique (tracked : Tracked deeds queue calls) {e e' : Expectation} (mem : e ∈ openings deeds)
    (mem' : e' ∈ openings deeds) (same : e.seq = e'.seq) : e = e' := by
  have ascending := tracked.numbered
  rw [List.map_append, List.pairwise_append] at ascending
  have nodup : ((openings deeds).map (·.seq)).Nodup := ascending.1.imp Nat.ne_of_lt
  exact List.inj_on_of_nodup_map nodup mem mem' same

/-- The expectation of an open call. -/
theorem opening_of_call (tracked : Tracked deeds queue calls) (mem : call ∈ calls) :
    ∃ e ∈ openings deeds, e.seq = call.entry.seq ∧ e.queried? (queries e.seq deeds) = some call.entry := by
  obtain ⟨_, e, opened, queried⟩ := tracked.current call mem
  obtain ⟨rest, same⟩ := Expectation.queried?_eq_some queried
  exact ⟨e, opened, by rw [same], queried⟩

/-- A call is expected. -/
theorem push (tracked : Tracked deeds queue calls) (e : Expectation) (site : Site) :
    Tracked deeds (queue.push e site).1 calls where
  numbered := by
    simp only [ExpectQueue.push, ← List.append_assoc]
    rw [List.map_append, List.pairwise_append]
    refine ⟨tracked.numbered, List.pairwise_singleton _ _, ?_⟩
    intro number mem last isLast
    obtain ⟨before, isBefore, rfl⟩ := List.mem_map.1 mem
    have bound := tracked.pushed before isBefore
    simp only [List.map_cons, List.map_nil, List.mem_singleton] at isLast
    omega
  pushed := by
    simp only [ExpectQueue.push, ← List.append_assoc]
    intro before mem
    rcases List.mem_append.1 mem with mem | mem
    · exact Nat.le_succ_of_le (tracked.pushed before mem)
    · obtain rfl := List.mem_singleton.1 mem
      exact Nat.le_refl _
  known := tracked.known
  current := tracked.current
  distinct := tracked.distinct
  accounted := tracked.accounted

/-- The head of the queue is a call that was never opened. -/
theorem head_new {head : Expectation} {rest : List Expectation} (tracked : Tracked deeds queue calls)
    (entries : queue.entries = head :: rest) : ∀ e ∈ openings deeds, e.seq ≠ head.seq := by
  intro e mem
  have ascending := tracked.numbered
  rw [entries, List.map_append, List.pairwise_append] at ascending
  exact Nat.ne_of_lt (ascending.2.2 _ (List.mem_map_of_mem mem) _ (List.mem_cons_self ..))

/-- A call takes the head of the queue. -/
theorem opened {head : Expectation} {rest : List Expectation} (tracked : Tracked deeds queue calls)
    (entries : queue.entries = head :: rest) (site : Site) :
    Tracked (deeds ++ [.opened head]) { queue with entries := rest } ({ entry := head, site } :: calls) := by
  have new := tracked.head_new entries
  have openings_ : openings (deeds ++ [.opened head]) = openings deeds ++ [head] := openings_append _ _
  have together : openings deeds ++ [head] ++ rest = openings deeds ++ queue.entries := by
    rw [entries, List.append_assoc]
    rfl
  have queries_ (number : Nat) : queries number (deeds ++ [.opened head]) = queries number deeds := by
    rw [queries_append]
    exact List.append_nil _
  refine ⟨?_, ?_, ?_, ?_, ?_, ?_⟩
  · rw [openings_, together]
    exact tracked.numbered
  · rw [openings_, together]
    exact tracked.pushed
  · intro d mem
    rw [openings_]
    rcases List.mem_append.1 mem with mem | mem
    · obtain ⟨e, opened, same⟩ := tracked.known d mem
      exact ⟨e, List.mem_append_left _ opened, same⟩
    · rw [List.mem_singleton.1 mem]
      exact ⟨head, List.mem_append_right _ (List.mem_singleton_self _), rfl⟩
  · intro call mem
    rw [openings_]
    rcases List.mem_cons.1 mem with rfl | mem
    · have nothing : queries head.seq deeds = [] := by
        refine queries_eq_nil fun d mem => ?_
        obtain ⟨e, opened, same⟩ := tracked.known d mem
        rw [← same]
        exact new e opened
      refine ⟨rfl, head, List.mem_append_right _ (List.mem_singleton_self _), ?_⟩
      rw [queries_, nothing]
      rfl
    · obtain ⟨intact, e, opened, queried⟩ := tracked.current call mem
      exact ⟨intact, e, List.mem_append_left _ opened, by rwa [queries_]⟩
  · rw [List.map_cons, List.nodup_cons]
    refine ⟨fun mem => ?_, tracked.distinct⟩
    obtain ⟨call, mem, same⟩ := List.mem_map.1 mem
    obtain ⟨e, opened, number, _⟩ := tracked.opening_of_call mem
    exact new e opened (number.trans same)
  · intro e mem settled
    rw [openings_] at mem
    rw [List.map_cons, List.mem_cons, not_or] at settled
    rcases List.mem_append.1 mem with mem | mem
    · refine (tracked.accounted e mem settled.2).append fun d other => ?_
      rw [List.mem_singleton.1 other]
      exact (new e mem).symm
    · rw [List.mem_singleton.1 mem] at settled
      exact absurd rfl settled.1

/-- What is known after one more deed about an open call. -/
theorem known_append (tracked : Tracked deeds queue (call :: others)) {d : Deed} (about : d.call = call.entry.seq) :
    ∀ d' ∈ deeds ++ [d], ∃ e ∈ openings deeds, e.seq = d'.call := by
  intro d' mem
  rcases List.mem_append.1 mem with mem | mem
  · exact tracked.known d' mem
  · obtain ⟨e, opened, same, _⟩ := tracked.opening_of_call (List.mem_cons_self ..)
    rw [List.mem_singleton.1 mem, about]
    exact ⟨e, opened, same⟩

/-- A deed about one open call does not touch the others. -/
theorem current_append (tracked : Tracked deeds queue (call :: others)) {d : Deed} (about : d.call = call.entry.seq) :
    ∀ other ∈ others, other.deferred = false ∧
      ∃ e ∈ openings deeds, e.queried? (queries e.seq (deeds ++ [d])) = some other.entry := by
  intro other mem
  have mem' := List.mem_cons_of_mem call mem
  obtain ⟨e, opened, number, queried⟩ := tracked.opening_of_call mem'
  refine ⟨(tracked.current other mem').1, e, opened, ?_⟩
  have untouched : ∀ d' ∈ [d], d'.call ≠ e.seq := by
    intro d' same
    rw [List.mem_singleton.1 same, about, number]
    intro equal
    have distinct := tracked.distinct
    rw [List.map_cons, equal, List.nodup_cons] at distinct
    exact distinct.1 (List.mem_map_of_mem mem)
  rwa [queries_append, queries_eq_nil untouched, List.append_nil]

/-- A deed about an open call does not touch the calls that are accounted for. -/
theorem accounted_append (tracked : Tracked deeds queue (call :: others)) {d : Deed}
    (about : d.call = call.entry.seq) {e : Expectation} (mem : e ∈ openings deeds)
    (settled : e.seq ∉ (call :: others).map (·.entry.seq)) : e.Accounted (deeds ++ [d]) := by
  refine (tracked.accounted e mem settled).append fun d' same => ?_
  rw [List.map_cons, List.mem_cons, not_or] at settled
  rw [List.mem_singleton.1 same, about]
  exact Ne.symm settled.1

/-- An open call queries a parameter and breaks no rule. -/
theorem queried (tracked : Tracked deeds queue (call :: others)) {q : Query} {next : Expectation}
    (held : call.entry.query? q = some next) :
    Tracked (deeds ++ [.queried call.entry.seq q]) queue ({ call with entry := next } :: others) := by
  have about : (Deed.queried call.entry.seq q).call = call.entry.seq := rfl
  have openings_ : openings (deeds ++ [.queried call.entry.seq q]) = openings deeds :=
    (openings_append _ _).trans (List.append_nil _)
  obtain ⟨_, rest, _, _, rfl⟩ := Expectation.query?_eq_some_iff.1 held
  refine ⟨openings_ ▸ tracked.numbered, openings_ ▸ tracked.pushed, openings_ ▸ tracked.known_append about, ?_,
    tracked.distinct, fun e mem settled => tracked.accounted_append about (openings_ ▸ mem) settled⟩
  rw [openings_]
  intro other mem
  rcases List.mem_cons.1 mem with rfl | mem
  · obtain ⟨intact, e, opened, queried⟩ := tracked.current call (List.mem_cons_self ..)
    obtain ⟨_, same⟩ := Expectation.queried?_eq_some queried
    have own : queries e.seq [.queried call.entry.seq q] = [q] := by simp [queries, Deed.query?, same]
    refine ⟨intact, e, opened, ?_⟩
    rw [queries_append, own, Expectation.queried?_append, queried, Option.bind_some, Expectation.queried?, held]
    rfl
  · exact tracked.current_append about other mem

/-- An open call is closed by a deed that accounts for it. -/
theorem settled (tracked : Tracked deeds queue (call :: others)) {d : Deed} (about : d.call = call.entry.seq)
    (noOpening : d.opened? = none)
    (accounts : ∀ e ∈ openings deeds, e.seq = call.entry.seq → e.Accounted (deeds ++ [d])) :
    Tracked (deeds ++ [d]) queue others := by
  have openings_ : openings (deeds ++ [d]) = openings deeds := by
    rw [openings_append, openings, openings, List.filterMap_cons, noOpening]
    exact List.append_nil _
  refine ⟨openings_ ▸ tracked.numbered, openings_ ▸ tracked.pushed, openings_ ▸ tracked.known_append about,
    openings_ ▸ tracked.current_append about, (List.nodup_cons.1 tracked.distinct).2, ?_⟩
  rw [openings_]
  intro e mem closed
  by_cases own : e.seq = call.entry.seq
  · exact accounts e mem own
  · refine tracked.accounted_append about mem ?_
    rw [List.map_cons, List.mem_cons, not_or]
    exact ⟨own, closed⟩

/-- An open call is completed, and nothing is left of it. -/
theorem completed (tracked : Tracked deeds queue (call :: others)) {ending : Completing}
    (completes : call.entry.completes ending = true) :
    Tracked (deeds ++ [.completed call.entry.seq ending]) queue others := by
  refine tracked.settled rfl rfl fun e mem same => .inl ⟨ending, ?_, ?_⟩
  · rw [same]
    exact List.mem_append_right _ (List.mem_singleton_self _)
  · obtain ⟨e', opened, number, queried⟩ := tracked.opening_of_call (List.mem_cons_self ..)
    obtain rfl := tracked.opening_unique mem opened (same.trans number.symm)
    have untouched : queries e.seq [.completed call.entry.seq ending] = [] := rfl
    rw [queries_append, untouched, List.append_nil]
    exact (e.met_iff _ _).2 ⟨call.entry, queried, completes⟩

/-- A panic loses open calls. -/
theorem lost (message : Option String) (calls : List MockCall) :
    ∀ {deeds : List Deed}, Tracked deeds queue (calls ++ others) →
      Tracked (deeds ++ calls.map fun call => .lost call.entry.seq (.panicked message)) queue others := by
  induction calls with
  | nil => exact fun tracked => by rwa [List.map_nil, List.append_nil]
  | cons call calls ih =>
    intro deeds tracked
    rw [List.map_cons, ← List.singleton_append, ← List.append_assoc]
    refine ih (tracked.settled rfl rfl fun e _ same => .inr ⟨message, ?_⟩)
    rw [same]
    exact List.mem_append_right _ (List.mem_singleton_self _)

end Tracked

end TestIsolation
