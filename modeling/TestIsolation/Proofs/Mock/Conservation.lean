import Mathlib.Data.List.Forall2
import TestIsolation.Mock.Queue

/-!
# No expected call is lost

`ExpectQueue.run` does operations on a queue, one by one, and records each with its answer as a `QueueEvent`. What an
event tells is enough to say which calls it took from the queue (`QueueEvent.Takes`): one that was handed out, one that
was discarded as another was made, or all that were left at the end. The calls that were taken, followed by the ones
that are still queued, are the calls that were pushed, in order, each stamped with its number and its site.
-/

namespace TestIsolation

set_option autoImplicit false

/-- Something done with a queue. -/
inductive QueueOp where
  | push (e : Expectation) (site : Site)
  | intercept (symbol : String)
  | endOfTest
  deriving DecidableEq, Repr

/-- Something that was done with a queue, with the answer. -/
inductive QueueEvent where
  | pushed (e : Expectation) (site : Site) (number : Nat)
  | intercepted (symbol : String) (answer : Except MockViolation Expectation)
  | ended (answer : Except MockViolation Unit)

/-- An expected call with its position in the order of pushes and its site. -/
def Expectation.stamp (e : Expectation) (site : Site) (number : Nat) : Expectation :=
  { e with seq := number, pushedAt := some site }

namespace QueueOp

/-- The call that an operation pushes. -/
def push? : QueueOp → Option (Expectation × Site)
  | push e site => some (e, site)
  | intercept _ | endOfTest => none

/-- The calls that operations push, stamped with the numbers from `first` on. -/
def stamped (first : Nat) (ops : List QueueOp) : List Expectation :=
  ((ops.filterMap push?).zipIdx first).map fun ((e, site), number) => e.stamp site number

theorem length_stamped (first : Nat) (ops : List QueueOp) :
    (stamped first ops).length = (ops.filterMap push?).length := by
  rw [stamped, List.length_map, List.length_zipIdx]

theorem stamped_cons (first : Nat) (op : QueueOp) (ops : List QueueOp) :
    stamped first (op :: ops) = stamped first [op] ++ stamped (first + op.push?.toList.length) ops := by
  cases op <;> rfl

end QueueOp

namespace QueueEvent

/-- The number that a push answered with. -/
def number? : QueueEvent → Option Nat
  | pushed _ _ number => some number
  | intercepted .. | ended _ => none

/-- The calls that an event took from the queue. -/
inductive Takes : QueueEvent → List Expectation → Prop where
  | pushed (e : Expectation) (site : Site) (number : Nat) : Takes (pushed e site number) []
  /-- A call is handed out if it was made. -/
  | handed {e : Expectation} {symbol : String} (made : e.symbol = symbol) : Takes (intercepted symbol (.ok e)) [e]
  /-- A call is discarded if another was made in its place. -/
  | discarded {e : Expectation} {symbol : String} (other : e.symbol ≠ symbol) :
    Takes (intercepted symbol (.error (.wrongCall e.pending symbol))) [e]
  | missing (symbol : String) : Takes (intercepted symbol (.error (.missing symbol))) []
  | drained : Takes (ended (.ok ())) []
  /-- All the calls that are left are listed at once. -/
  | listed {left : List Expectation} (some_ : left ≠ []) :
    Takes (ended (.error (.notConsumed (left.map (·.pending))))) left

end QueueEvent

namespace ExpectQueue

/-- Does one operation. -/
def step (q : ExpectQueue) : QueueOp → ExpectQueue × QueueEvent
  | .push e site =>
    let (q, number) := q.push e site
    (q, .pushed e site number)
  | .intercept symbol =>
    let (q, answer) := q.intercept symbol
    (q, .intercepted symbol answer)
  | .endOfTest =>
    let (q, answer) := q.endOfTest
    (q, .ended answer)

/-- Does operations, one by one. -/
def run (q : ExpectQueue) : List QueueOp → ExpectQueue × List QueueEvent
  | [] => (q, [])
  | op :: ops =>
    let (q, event) := q.step op
    let (q, events) := q.run ops
    (q, event :: events)

/-! ## One operation -/

theorem pushed_step (q : ExpectQueue) (op : QueueOp) : (q.step op).1.pushed = q.pushed + op.push?.toList.length := by
  cases op with
  | push e site => rfl
  | intercept symbol =>
    simp only [step, intercept]
    split
    · rfl
    · split <;> rfl
  | endOfTest =>
    simp only [step, endOfTest]
    split <;> rfl

/-- An operation takes calls from the head of the queue, after it appended the one it pushes. -/
theorem step_takes (q : ExpectQueue) (op : QueueOp) : ∃ taken, (q.step op).2.Takes taken ∧
    q.entries ++ QueueOp.stamped (q.pushed + 1) [op] = taken ++ (q.step op).1.entries := by
  cases op with
  | push e site => exact ⟨[], .pushed .., rfl⟩
  | intercept symbol =>
    have none_ : QueueOp.stamped (q.pushed + 1) [.intercept symbol] = [] := rfl
    rw [none_, List.append_nil]
    simp only [step, intercept]
    cases entries : q.entries with
    | nil => exact ⟨[], .missing symbol, entries.symm⟩
    | cons head rest =>
      by_cases made : head.symbol = symbol
      · simp only [if_pos made]
        exact ⟨[head], .handed made, rfl⟩
      · simp only [if_neg made]
        exact ⟨[head], .discarded made, rfl⟩
  | endOfTest =>
    have none_ : QueueOp.stamped (q.pushed + 1) [.endOfTest] = [] := rfl
    rw [none_, List.append_nil]
    simp only [step, endOfTest]
    cases entries : q.entries with
    | nil => exact ⟨[], .drained, entries.symm⟩
    | cons head rest => exact ⟨head :: rest, .listed (List.cons_ne_nil head rest), (List.append_nil _).symm⟩

/-- No call is expected exactly when the queue is empty, which it then stays. -/
theorem intercept_missing_iff (q : ExpectQueue) (symbol missed : String) :
    (q.intercept symbol).2 = .error (.missing missed) ↔ q.isEmpty ∧ missed = symbol ∧ (q.intercept symbol).1 = q := by
  unfold intercept isEmpty
  cases entries : q.entries with
  | nil => simp [eq_comm]
  | cons head rest =>
    by_cases made : head.symbol = symbol <;> simp [made]

/-- The end of a test empties the queue, and lets pass only one that was empty. -/
theorem endOfTest_empties (q : ExpectQueue) : q.endOfTest.1.isEmpty ∧ (q.endOfTest.2 = .ok () ↔ q.isEmpty) := by
  unfold endOfTest isEmpty
  cases entries : q.entries with
  | nil => simp [entries]
  | cons head rest => simp

/-! ## A run -/

/-- The number of the last push is that of all pushes. -/
theorem pushed_run (q : ExpectQueue) (ops : List QueueOp) :
    (q.run ops).1.pushed = q.pushed + (ops.filterMap QueueOp.push?).length := by
  induction ops generalizing q with
  | nil => rfl
  | cons op ops ih =>
    have later := ih (q.step op).1
    rw [pushed_step, Nat.add_assoc] at later
    cases op with
    | push e site => exact later.trans (congrArg (q.pushed + ·) (Nat.add_comm 1 _))
    | intercept symbol | endOfTest => exact later.trans (congrArg (q.pushed + ·) (Nat.zero_add _))

theorem number?_run (q : ExpectQueue) (ops : List QueueOp) :
    (q.run ops).2.filterMap QueueEvent.number? = List.range' (q.pushed + 1) (ops.filterMap QueueOp.push?).length := by
  induction ops generalizing q with
  | nil => rfl
  | cons op ops ih =>
    have later := ih (q.step op).1
    rw [pushed_step] at later
    cases op with
    | push e site => exact congrArg (List.cons (q.pushed + 1)) later
    | intercept symbol => exact later
    | endOfTest => exact later

/-- The calls that a run takes and the ones it leaves are the ones that were queued and the ones that it pushed. -/
theorem run_takes (q : ExpectQueue) (ops : List QueueOp) :
    ∃ taken, List.Forall₂ QueueEvent.Takes (q.run ops).2 taken ∧
      q.entries ++ QueueOp.stamped (q.pushed + 1) ops = taken.flatten ++ (q.run ops).1.entries := by
  induction ops generalizing q with
  | nil => exact ⟨[], .nil, List.append_nil _⟩
  | cons op ops ih =>
    obtain ⟨first, takes, same⟩ := step_takes q op
    obtain ⟨later, takesLater, sameLater⟩ := ih (q.step op).1
    refine ⟨first :: later, .cons takes takesLater, ?_⟩
    calc q.entries ++ QueueOp.stamped (q.pushed + 1) (op :: ops)
        = q.entries ++ QueueOp.stamped (q.pushed + 1) [op] ++ QueueOp.stamped ((q.step op).1.pushed + 1) ops := by
          rw [QueueOp.stamped_cons, pushed_step, List.append_assoc, Nat.add_right_comm]
      _ = first ++ ((q.step op).1.entries ++ QueueOp.stamped ((q.step op).1.pushed + 1) ops) := by
          rw [same, List.append_assoc]
      _ = (first :: later).flatten ++ (q.run (op :: ops)).1.entries := by
          rw [sameLater, List.flatten_cons, List.append_assoc]
          rfl

end ExpectQueue

/-- **The queue of expected calls loses none and keeps their order.** After any operations on a new queue the pushes
answered with 1, 2, … in order. What the events took, followed by what is still queued, is what was pushed, in order,
each call with its number and its site: so each call left exactly once or is still queued. A call finds nothing
expected exactly when the queue is empty, which it then stays, and the end of a test leaves nothing queued. -/
theorem expected_calls_conserved (ops : List QueueOp) :
    let q := (ExpectQueue.run {} ops).1
    let events := (ExpectQueue.run {} ops).2
    let pushes := ops.filterMap QueueOp.push?
    events.filterMap QueueEvent.number? = List.range' 1 pushes.length ∧
      (∃ taken, List.Forall₂ QueueEvent.Takes events taken ∧
        taken.flatten ++ q.entries = QueueOp.stamped 1 ops ∧ q.length = pushes.length - taken.flatten.length) ∧
      (∀ symbol missed, (q.intercept symbol).2 = .error (.missing missed) ↔
        q.isEmpty ∧ missed = symbol ∧ (q.intercept symbol).1 = q) ∧
      q.endOfTest.1.isEmpty ∧ (q.endOfTest.2 = .ok () ↔ q.isEmpty) := by
  intro q events pushes
  refine ⟨ExpectQueue.number?_run {} ops, ?_, q.intercept_missing_iff, q.endOfTest_empties⟩
  obtain ⟨taken, takes, same⟩ := ExpectQueue.run_takes {} ops
  have conserved : taken.flatten ++ q.entries = QueueOp.stamped 1 ops := same.symm
  refine ⟨taken, takes, conserved, ?_⟩
  have count := congrArg List.length conserved
  rw [List.length_append, QueueOp.length_stamped] at count
  exact Nat.eq_sub_of_add_eq' count

/-- A call that is skipped is discarded by the next one, whose own expectation stays queued. -/
example (site : Site) :
    let calls := ["a", "b", "c"].map fun symbol => QueueOp.push { symbol } site
    let (q, events) := ExpectQueue.run {} (calls ++ [.intercept "a", .intercept "c"])
    q.entries.map (·.symbol) = ["c"] ∧
      events.getLast? = some (.intercepted "c" (.error (.wrongCall ⟨"b", site.file, site.line⟩ "c"))) :=
  ⟨rfl, rfl⟩

end TestIsolation
