import Mathlib.Data.List.Basic
import TestIsolation.Proofs.Run.Replay

/-!
# Results without times

Times go into a run and come out of it, but decide nothing. So an aggregator comes to the same tree and the same events,
times aside, whenever it was given the same completions, times aside (`Replays.untimed_eq`).
-/

namespace TestIsolation

set_option autoImplicit false

/-- A completion without its times. -/
def Completion.untimed (c : Completion) : Completion := { c with startedAt := 0, endedAt := 0 }

/-- A run that only tells whether it has started and ended. -/
def Run.untimed (r : Run) : Run :=
  { r with startedAt := r.startedAt.map fun _ => 0, endedAt := r.endedAt.map fun _ => 0 }

/-- A tree without its times. -/
def RunTree.untimed (t : RunTree) : RunTree := { t with runs := t.runs.map Run.untimed }

/-- An event without its times. -/
def Event.untimed (e : Event) : Event := ⟨e.kind, e.run.untimed, 0⟩

/-- A step that was applied, without the times. -/
def Applied.untimed (e : Applied) : Applied := ⟨e.step, e.completion.map Completion.untimed, 0⟩

namespace Run

@[simp] theorem untimed_untimed (r : Run) : r.untimed.untimed = r.untimed := by
  simp [untimed, Function.comp_def]

theorem untimed_entered (r : Run) (setup : Option Completion) (now : Timestamp) :
    (r.entered setup now).untimed = (r.untimed.entered (setup.map Completion.untimed) 0).untimed := by
  cases setup with
  | none => simp [entered, untimed, Function.comp_def]
  | some c => simp [entered, untimed, Completion.untimed, extend, fixtureNote, Function.comp_def]

theorem untimed_settled (r : Run) (c : Completion) :
    (r.settled c).untimed = (r.untimed.settled c.untimed).untimed := rfl

/-- A suite's run when its teardown, if it has one, is done, before it is given a reason. -/
def leave (r : Run) (teardown : Option Completion) (children setup : Status) (now : Timestamp) : Run :=
  match teardown with
  | none => { r with status := children.worst setup, endedAt := some now }
  | some c =>
    { r.extend c with
      status := children.worst (setup.worst c.status.fixtureContribution), endedAt := some c.endedAt,
      reason := teardownReason r.reason c, phase := c.phase <|> r.phase, exit := c.exit <|> r.exit }

/-- A suite's run with a reason, if something went wrong below it. -/
def explain (r : Run) (children : Status) : Run :=
  if r.reason.isNone && !children.isSuccess then { r with reason := some ("descendants " ++ children.name) } else r

theorem left_eq (r : Run) (teardown : Option Completion) (children setup : Status) (now : Timestamp) :
    r.left teardown children setup now = (r.leave teardown children setup now).explain children := by
  cases teardown <;> rfl

theorem untimed_explain (r : Run) (children : Status) : (r.explain children).untimed = r.untimed.explain children := by
  unfold explain
  rw [apply_ite untimed]
  rfl

theorem untimed_leave (r : Run) (teardown : Option Completion) (children setup : Status) (now : Timestamp) :
    (r.leave teardown children setup now).untimed =
      (r.untimed.leave (teardown.map Completion.untimed) children setup 0).untimed := by
  cases teardown with
  | none => simp [leave, untimed, Function.comp_def]
  | some c => simp [leave, untimed, Completion.untimed, extend, teardownReason, fixtureNote, Function.comp_def]

theorem untimed_left (r : Run) (teardown : Option Completion) (children setup : Status) (now : Timestamp) :
    (r.left teardown children setup now).untimed =
      (r.untimed.left (teardown.map Completion.untimed) children setup 0).untimed := by
  rw [left_eq, left_eq, untimed_explain, untimed_explain, untimed_leave]

end Run

namespace RunTree

theorem run?_untimed (t : RunTree) (node : Nat) : t.untimed.run? node = (t.run? node).map Run.untimed :=
  List.getElem?_map

/-- What changes a run the same way, times aside, changes the tree the same way. -/
theorem untimed_modify (t : RunTree) (node : Nat) {f g : Run → Run}
    (same : ∀ r : Run, (f r).untimed = (g r.untimed).untimed) :
    (t.modify node f).untimed = (t.untimed.modify node g).untimed := by
  simp only [untimed, modify, mk.injEq, and_true]
  apply List.ext_getElem?
  intro i
  simp only [List.getElem?_map, List.getElem?_modify]
  cases t.runs[i]? with
  | none => rfl
  | some r =>
    simp only [Option.map_some, Option.map_eq_map]
    split
    · rw [same]
    · rw [Run.untimed_untimed]

@[simp] theorem untimed_untimed (t : RunTree) : t.untimed.untimed = t.untimed := by
  simp [untimed, Function.comp_def]

end RunTree

namespace Aggregator

variable {β : Type}

/-- An aggregator's results, without the times. -/
def untimed (g : Aggregator) : Aggregator := { g with tree := g.tree.untimed, told := g.told.map Event.untimed }

@[simp] theorem untimed_untimed (g : Aggregator) : g.untimed.untimed = g.untimed := by
  simp [untimed, Event.untimed, Function.comp_def]

theorem untimed_tell (g : Aggregator) (kind : EventKind) (node : Nat) (now : Timestamp) :
    (g.tell kind node now).untimed = (g.untimed.tell kind node 0).untimed := by
  simp only [tell, untimed, RunTree.run?_untimed, RunTree.untimed_untimed]
  cases g.tree.run? node <;> simp [Event.untimed, Function.comp_def]

/-- Observers are told the same, times aside, if the results so far are the same. -/
theorem untimed_tell_congr {g h : Aggregator} (same : g.untimed = h.untimed) (kind : EventKind) (node : Nat)
    (now later : Timestamp) : (g.tell kind node now).untimed = (h.tell kind node later).untimed := by
  rw [untimed_tell, same, ← untimed_tell]

theorem told_untimed (g : Aggregator) : g.untimed.told.map Event.untimed = g.told.map Event.untimed :=
  congrArg told g.untimed_untimed

/-- **Times decide nothing.** -/
theorem untimed_apply (g : Aggregator) (step : Step) (c : Option Completion) (now : Timestamp) :
    (g.apply step c now).untimed = (g.untimed.apply step (c.map Completion.untimed) 0).untimed := by
  cases step with
  | enter node =>
    refine untimed_tell_congr ?_ _ _ _ _
    have tree : (g.tree.modify node (·.entered c now)).untimed =
        (g.tree.untimed.modify node (·.entered (c.map Completion.untimed) 0)).untimed :=
      g.tree.untimed_modify node fun r => r.untimed_entered c now
    refine mk.injEq .. ▸ ⟨rfl, tree, ?_, rfl, rfl, (told_untimed g).symm⟩
    cases c <;> rfl
  | leaf node =>
    refine untimed_tell_congr ?_ _ _ _ _
    have tree (done : Completion) : (g.tree.modify node (·.settled done)).untimed =
        (g.tree.untimed.modify node (·.settled done.untimed)).untimed :=
      g.tree.untimed_modify node fun r => r.untimed_settled done
    refine mk.injEq .. ▸ ⟨rfl, ?_, rfl, rfl, rfl, (told_untimed g).symm⟩
    cases c <;> exact tree _
  | exit node =>
    refine untimed_tell_congr ?_ _ _ _ _
    have statuses : (fun child => (g.untimed.tree.run? child).map (·.status)) =
        fun child => (g.tree.run? child).map (·.status) := by
      funext child
      rw [show g.untimed.tree.run? child = (g.tree.run? child).map Run.untimed from g.tree.run?_untimed child]
      cases g.tree.run? child <;> rfl
    have tree (children setup : Status) : (g.tree.modify node (·.left c children setup now)).untimed =
        (g.tree.untimed.modify node (·.left (c.map Completion.untimed) children setup 0)).untimed :=
      g.tree.untimed_modify node fun r => r.untimed_left c children setup now
    rw [statuses]
    exact mk.injEq .. ▸ ⟨rfl, tree _ _, rfl, rfl, rfl, (told_untimed g).symm⟩

theorem untimed_apply_congr {g h : Aggregator} (same : g.untimed = h.untimed) (step : Step)
    {c d : Option Completion} (given : c.map Completion.untimed = d.map Completion.untimed) (now later : Timestamp) :
    (g.apply step c now).untimed = (h.apply step d later).untimed := by
  rw [untimed_apply, same, given, ← untimed_apply]

theorem untimed_replay_congr {g h : Aggregator} (same : g.untimed = h.untimed) {entries others : List Applied}
    (given : entries.map Applied.untimed = others.map Applied.untimed) :
    (g.replay entries).untimed = (h.replay others).untimed := by
  induction entries generalizing g h others with
  | nil =>
    obtain rfl := List.map_eq_nil_iff.1 given.symm
    exact same
  | cons e entries ih =>
    obtain ⟨e', others, rfl, first, rest⟩ := List.map_eq_cons_iff.1 given.symm
    simp only [Applied.untimed, Applied.mk.injEq, and_true] at first
    show ((g.apply e.step e.completion e.time).replay entries).untimed =
      ((h.apply e'.step e'.completion e'.time).replay others).untimed
    rw [first.1]
    exact ih (untimed_apply_congr same e.step first.2.symm e.time e'.time) rest.symm

/-- A list is known from the two things that make up each entry. -/
theorem untimed_entries {entries others : List Applied} (own : entries.map (·.step) = others.map (·.step))
    (given : entries.map (fun e => e.completion.map Completion.untimed) =
      others.map fun e => e.completion.map Completion.untimed) :
    entries.map Applied.untimed = others.map Applied.untimed := by
  induction entries generalizing others with
  | nil =>
    obtain rfl := List.map_eq_nil_iff.1 own.symm
    rfl
  | cons e entries ih =>
    obtain ⟨e', others, rfl, step, steps⟩ := List.map_eq_cons_iff.1 own.symm
    rw [List.map_cons, List.map_cons, List.cons.injEq] at given
    rw [List.map_cons, List.map_cons, ih steps.symm given.2]
    simp only [Applied.untimed, step, given.1]

/-- **The same completions, times aside, make the same results, times aside.** -/
theorem Kept.untimed_eq {o : Outline β} {g h : Aggregator} {entries others : List Applied} (kept : Kept o g entries)
    (kept' : Kept o h others) (applied : g.applied = h.applied)
    (given : ∀ seq < g.applied, (g.delivered[seq]?).map (Option.map (Option.map Completion.untimed)) =
      (h.delivered[seq]?).map (Option.map (Option.map Completion.untimed))) :
    g.tree.untimed = h.tree.untimed ∧ g.events.map Event.untimed = h.events.map Event.untimed := by
  have own : entries.map (·.step) = others.map (·.step) := by
    rw [kept.own, kept'.own, applied]
  have taken : (g.delivered.take g.applied).map (Option.map (Option.map Completion.untimed)) =
      (h.delivered.take h.applied).map (Option.map (Option.map Completion.untimed)) := by
    apply List.ext_getElem?
    intro seq
    rw [List.getElem?_map, List.getElem?_map, List.getElem?_take, List.getElem?_take, ← applied]
    by_cases early : seq < g.applied
    · rw [if_pos early, if_pos early, given seq early]
    · rw [if_neg early, if_neg early]
  have completions : entries.map (fun e => e.completion.map Completion.untimed) =
      others.map fun e => e.completion.map Completion.untimed := by
    rw [← kept.given, ← kept'.given, List.map_map, List.map_map] at taken
    refine List.map_injective_iff.2 (fun _ _ => Option.some.inj) ?_
    rw [List.map_map, List.map_map]
    exact taken
  have same := untimed_replay_congr (g := new o) rfl (untimed_entries own completions)
  have told : g.told.map Event.untimed = h.told.map Event.untimed := by
    rw [kept.told_eq, kept'.told_eq]
    exact congrArg Aggregator.told same
  refine ⟨?_, ?_⟩
  · rw [kept.tree_eq, kept'.tree_eq]
    exact congrArg Aggregator.tree same
  · rw [events, events, List.map_reverse, List.map_reverse, told]

end Aggregator

end TestIsolation
