import Mathlib.Tactic.SplitIfs
import TestIsolation.Schedule.EventLoop

/-!
# The end of a process

A process that has ended stays ended, whenever it is looked at later and whether or not its pipes are read in between
(`endedBy_mono`, `endedBy_read`), and one that is killed has ended (`endedBy_killed`). So a unit in flight that was
killed is taken out of flight when it is next looked at, and it is judged by the reason it was killed for
(`Running.glance_of_killed`). A unit that is found overdue and not at its end is killed (`Running.glance_of_overdue`).
-/

namespace TestIsolation

set_option autoImplicit false

/-- Something that may have to wait for room in a pipe. -/
def Emission.isWrite : Emission → Bool
  | outcome 0 _ | console _ => true
  | _ => false

namespace ProcessState

variable {p : ProcessState} {age later : Duration} {exit : ExitCondition}

/-- A process waits only to write. -/
def WaitsToWrite (waiting : Bool) (todo : List Emission) : Prop :=
  waiting = true → todo.head?.any Emission.isWrite = true

/-- A process that has put everything out by a time has done so in the same way by any later time. -/
theorem putOut_later (le : age.nanos ≤ later.nanos) (todo : List Emission) (p : ProcessState)
    (through : (putOut age todo p).todo = []) (reached : (putOut age todo p).time.nanos ≤ age.nanos) :
    putOut later todo p = putOut age todo p := by
  revert through reached
  fun_induction putOut age todo p with
  | case1 p =>
    intro _ reached
    have own : p.time.nanos ≤ age.nanos := by
      simp only [finished] at reached
      split at reached <;> exact reached
    have own' : p.time.nanos ≤ later.nanos := by omega
    simp only [putOut, finished, own, own']
  | case2 e rest p early => exact fun stopped => absurd stopped (List.cons_ne_nil _ _)
  | case3 rest p due millis ih =>
    have due' : ¬ later.nanos < p.time.nanos := by omega
    simpa only [putOut, due', if_false] using ih
  | case4 rest p due bytes outcome wrote ih | case6 rest p due bytes console wrote ih =>
    have due' : ¬ later.nanos < p.time.nanos := by omega
    simpa only [putOut, due', if_false, wrote] using ih
  | case5 rest p due bytes outcome left more wrote | case7 rest p due bytes console left more wrote =>
    exact fun stopped => absurd stopped (List.cons_ne_nil _ _)
  | case8 rest p due ih | case9 rest p due unit bytes ih | case10 rest p due unit ih =>
    have due' : ¬ later.nanos < p.time.nanos := by omega
    simpa only [putOut, due', if_false] using ih

theorem endedBy_eq_some_iff : p.endedBy age = some exit ↔
    (p.advance age).todo = [] ∧ (p.advance age).time.nanos ≤ age.nanos ∧ (p.advance age).ending = some exit := by
  simp only [endedBy, Bool.and_eq_true, decide_eq_true_eq]
  split
  · simp_all
  · rename_i early
    simp only [reduceCtorEq, false_iff]
    exact fun ⟨through, reached, _⟩ => early ⟨through, reached⟩

/-- **A process that has ended stays ended.** -/
theorem endedBy_mono (ended : p.endedBy age = some exit) (le : age.nanos ≤ later.nanos) :
    p.endedBy later = some exit := by
  obtain ⟨through, reached, ending⟩ := endedBy_eq_some_iff.1 ended
  have same : p.advance later = p.advance age := putOut_later le _ _ through reached
  exact endedBy_eq_some_iff.2 ⟨by rw [same, through], by rw [same]; omega, by rw [same, ending]⟩

/-- A process that goes on waits only to write. -/
theorem waitsToWrite_putOut (age : Duration) (todo : List Emission) (p : ProcessState)
    (waits : WaitsToWrite p.waiting todo) :
    WaitsToWrite (putOut age todo p).waiting (putOut age todo p).todo := by
  have calm {p : ProcessState} {e : Emission} {rest : List Emission} (waits : WaitsToWrite p.waiting (e :: rest))
      (other : e.isWrite = false) : WaitsToWrite p.waiting rest := by
    intro waiting
    have first := waits waiting
    simp [other] at first
  fun_induction putOut age todo p with
  | case1 p =>
    have still : p.waiting = false := by simpa [WaitsToWrite] using waits
    simp only [finished, WaitsToWrite]
    split <;> simp [still]
  | case2 e rest p early => exact waits
  | case3 rest p due millis ih => exact ih (calm waits rfl)
  | case4 rest p due bytes outcome wrote ih | case6 rest p due bytes console wrote ih => exact ih nofun
  | case5 rest p due bytes outcome left more wrote | case7 rest p due bytes console left more wrote =>
    exact fun _ => rfl
  | case8 rest p due ih | case9 rest p due unit bytes ih | case10 rest p due unit ih => exact ih (calm waits rfl)

/-- Reading what a process wrote leaves it waiting only to write. -/
theorem waitsToWrite_read (waits : WaitsToWrite p.waiting p.todo) (age : Duration) :
    WaitsToWrite (p.read age).2.waiting (p.read age).2.todo := waitsToWrite_putOut age _ _ waits

/-- **A process that has ended stays ended when its pipes are read.** -/
theorem endedBy_read (waits : WaitsToWrite p.waiting p.todo) (ended : p.endedBy age = some exit)
    (le : age.nanos ≤ later.nanos) : (p.read age).2.endedBy later = some exit := by
  obtain ⟨through, reached, ending⟩ := endedBy_eq_some_iff.1 ended
  have calm := waitsToWrite_putOut age _ _ waits
  have shape : (p.read age).2 = { p.advance age with
      outcome := (p.advance age).outcome.emptied, console := (p.advance age).console.emptied
      time := if (p.advance age).waiting then ⟨age.nanos + delay⟩ else (p.advance age).time } := rfl
  have same : putOut age p.todo p = p.advance age := rfl
  rw [same] at calm
  rw [shape, endedBy_eq_some_iff]
  generalize p.advance age = q at *
  have still : q.waiting = false := by simpa [WaitsToWrite, through] using calm
  have bound : q.time.nanos ≤ later.nanos := by omega
  simp only [advance, through, putOut, finished, still, Bool.false_eq_true, if_false]
  split <;> exact ⟨rfl, bound, ending⟩

/-- A process that is killed has ended. -/
theorem endedBy_killed (p : ProcessState) (age : Duration) : ((p.killed age).endedBy age).isSome = true := by
  unfold killed
  cases ended : p.endedBy age with
  | some exit => simp only [ended, Option.isSome_some]
  | none =>
    simp only [endedBy, advance, putOut, finished]
    split <;> simp

theorem waitsToWrite_killed (waits : WaitsToWrite p.waiting p.todo) (age : Duration) :
    WaitsToWrite (p.killed age).waiting (p.killed age).todo := by
  unfold killed
  split
  · exact waits
  · exact nofun

end ProcessState

/-! ## Units in flight -/

/-- The status of a unit that was killed for a reason. -/
def KillCause.status : KillCause → Status
  | watchdog _ => .timedOut
  | interrupt | abandon => .terminated

/-- A completion is that of a unit that was killed for a reason. -/
structure KillCause.Judges (cause : KillCause) (c : Completion) : Prop where
  status : c.status = cause.status
  /-- A unit that was killed because the run is given up says so. -/
  reason : ∀ halt : Halt, cause = halt.killCause → c.reason = some halt.reason

namespace Supervision

variable {s : Supervision}

@[simp] theorem exit_pump (s : Supervision) (reads : PipeReads) : (s.pump reads).exit = s.exit := by
  unfold pump pumpConsole pumpOutcome
  split_ifs <;> rfl

@[simp] theorem kill_pump (s : Supervision) (reads : PipeReads) : (s.pump reads).kill = s.kill := by
  unfold pump pumpConsole pumpOutcome
  split_ifs <;> rfl

@[simp] theorem deadline_pump (s : Supervision) (reads : PipeReads) : (s.pump reads).deadline = s.deadline := by
  unfold pump pumpConsole pumpOutcome
  split_ifs <;> rfl

/-- A unit that was killed is judged by the reason it was killed for. -/
theorem judges_completion {cause : KillCause} (killed : s.kill = some cause) (now : Timestamp) :
    cause.Judges (s.completion now) := by
  constructor
  · simp only [completion, killed, Summary.classify]
    cases cause <;> rfl
  · rintro halt rfl
    simp only [completion, killed, Summary.classify]
    cases halt <;> rfl

/-- The first reason to kill a process counts. -/
theorem killFor_of_killed (killed : s.kill.isSome = true) (cause : KillCause) : s.killFor cause = s := by
  simp only [killFor, killed, Bool.or_true, if_true]

theorem killFor_of_running (unseen : s.exit = none) (running : s.kill = none) (cause : KillCause) :
    s.killFor cause = { s with kill := some cause } := by
  simp only [killFor, unseen, running, Option.isSome_none, Bool.or_self, Bool.false_eq_true, if_false]

/-- A unit is killed for its deadline, or nothing happens to it. -/
theorem enforceDeadline_cases (s : Supervision) (now : Instant) :
    s.enforceDeadline now = s ∨ ∃ limit, s.enforceDeadline now = s.killFor (.watchdog limit) := by
  unfold enforceDeadline
  split
  · split
    · exact .inr ⟨_, rfl⟩
    · exact .inl rfl
  · exact .inl rfl

end Supervision

/-- When the parts of one look at a unit happen: the look at all units begins, the unit's pipes are read, it is asked
for its end, and it is killed if it is overdue. -/
structure Glance where
  /-- The deadline is held against this time. -/
  begun : Instant
  pumped : Instant
  reaped : Instant
  struck : Instant
  deriving DecidableEq, Repr

/-- A look that happens all at once. -/
def Glance.at (clock : Instant) : Glance := ⟨clock, clock, clock, clock⟩

/-- The parts of a look come in turn, from a time on. -/
structure Glance.InTurn (g : Glance) (clock : Instant) : Prop where
  begun : g.begun.nanos ≤ g.pumped.nanos
  pumped : clock.nanos ≤ g.pumped.nanos
  reaped : g.pumped.nanos ≤ g.reaped.nanos
  struck : g.reaped.nanos ≤ g.struck.nanos

namespace Running

/-- A look at a unit: what it becomes, and its completion if its end was seen. -/
def glance (g : Glance) (now : Timestamp) (u : Running) : Running × Option Completion :=
  let u := (u.pump g.pumped).reap g.reaped
  if u.isOver then (u, some (u.supervision.completion now))
  else (u.struck (u.supervision.enforceDeadline g.begun) g.struck, none)

/-- A unit in flight at a time: its end was not seen, and if it was killed it has ended. -/
structure Steady (u : Running) (clock : Instant) : Prop where
  unseen : u.supervision.exit = none
  waits : ProcessState.WaitsToWrite u.process.waiting u.process.todo
  dying : u.supervision.kill.isSome = true → (u.process.endedBy (u.age clock)).isSome = true

variable {u : Running} {clock later : Instant} {g : Glance} {exit : ExitCondition} {cause : KillCause}

theorem age_mono (u : Running) (le : clock.nanos ≤ later.nanos) : (u.age clock).nanos ≤ (u.age later).nanos :=
  Nat.sub_le_sub_right le _

theorem steady_start (life : ProcessLife) (limit : Option Duration) (consoleLimit : Nat) (clock : Instant)
    (now : Timestamp) : (start life limit consoleLimit clock now).Steady clock := ⟨rfl, nofun, nofun⟩

theorem Steady.mono (steady : u.Steady clock) (le : clock.nanos ≤ later.nanos) : u.Steady later := by
  refine ⟨steady.unseen, steady.waits, fun killed => ?_⟩
  obtain ⟨exit, ended⟩ := Option.isSome_iff_exists.1 (steady.dying killed)
  rw [ProcessState.endedBy_mono ended (u.age_mono le)]
  rfl

/-- A unit that was killed has ended, also once its pipes were read. -/
theorem Steady.pump (steady : u.Steady clock) (le : clock.nanos ≤ later.nanos) : (u.pump later).Steady later := by
  refine ⟨(Supervision.exit_pump _ _).trans steady.unseen, ProcessState.waitsToWrite_read steady.waits _, ?_⟩
  intro killed
  have before : u.supervision.kill.isSome = true := by
    have same := Supervision.kill_pump u.supervision (u.process.read (u.age later)).1
    exact same ▸ killed
  obtain ⟨exit, ended⟩ := Option.isSome_iff_exists.1 ((steady.mono le).dying before)
  have still : (u.process.read (u.age later)).2.endedBy (u.age later) = some exit :=
    ProcessState.endedBy_read steady.waits ended (Nat.le_refl _)
  have own : ((u.pump later).process.endedBy ((u.pump later).age later)) = some exit := still
  rw [own]
  rfl

/-- A unit that is not killed anew stays as it is. -/
theorem struck_self (u : Running) (clock : Instant) : u.struck u.supervision clock = u := by
  unfold struck
  cases u.supervision.kill <;> rfl

/-- **A unit that was killed keeps its first reason.** -/
theorem killFor_of_killed (killed : u.supervision.kill.isSome = true) (cause : KillCause) (clock : Instant) :
    u.killFor cause clock = u := by
  rw [killFor, Supervision.killFor_of_killed killed, struck_self]

theorem Steady.killFor_of_running (steady : u.Steady clock) (running : u.supervision.kill = none) (cause : KillCause)
    (later : Instant) :
    u.killFor cause later =
      { u with
        supervision := { u.supervision with kill := some cause }
        process := u.process.killed (u.age later) } := by
  simp only [Running.killFor, Supervision.killFor_of_running steady.unseen running, struck, running, Option.isNone_none,
    Option.isSome_some, Bool.and_self, if_true]

/-- A unit in flight that is to be killed has been killed after that. -/
theorem Steady.isSome_kill_killFor (steady : u.Steady clock) (cause : KillCause) (later : Instant) :
    (u.killFor cause later).supervision.kill.isSome = true := by
  cases running : u.supervision.kill with
  | some first => rw [killFor_of_killed (by rw [running]; rfl), running, Option.isSome_some]
  | none =>
    rw [steady.killFor_of_running running]
    rfl

theorem Steady.killFor (steady : u.Steady clock) (le : clock.nanos ≤ later.nanos) (cause : KillCause) :
    (u.killFor cause later).Steady later := by
  cases running : u.supervision.kill with
  | some first =>
    rw [killFor_of_killed (by rw [running]; rfl)]
    exact steady.mono le
  | none =>
    rw [steady.killFor_of_running running]
    exact ⟨steady.unseen, ProcessState.waitsToWrite_killed steady.waits _, fun _ => ProcessState.endedBy_killed _ _⟩

/-! ### Looks -/

/-- The end of a unit is seen. -/
theorem glance_of_ended (unseen : u.supervision.exit = none)
    (ended : (u.pump g.pumped).process.endedBy (u.age g.reaped) = some exit) (now : Timestamp) :
    ∃ c, (u.glance g now).2 = some c ∧ ∀ cause, u.supervision.kill = some cause → cause.Judges c := by
  have seen : ((u.pump g.pumped).reap g.reaped).supervision.exit = some exit ∧
      ((u.pump g.pumped).reap g.reaped).supervision.kill = u.supervision.kill := by
    have own : (u.pump g.pumped).process.endedBy ((u.pump g.pumped).age g.reaped) = some exit := ended
    have still : (u.pump g.pumped).supervision.exit = none := (Supervision.exit_pump _ _).trans unseen
    simp only [reap, own, Supervision.reap, still, Supervision.exit_pump, Supervision.kill_pump, true_and]
    exact Supervision.kill_pump _ _
  refine ⟨((u.pump g.pumped).reap g.reaped).supervision.completion now, ?_, fun cause killed => ?_⟩
  · simp only [glance, isOver, seen.1, Option.isSome_some, if_true]
  · exact Supervision.judges_completion (seen.2.trans killed) now

/-- The end of a unit is not seen. -/
theorem glance_of_unended (unseen : u.supervision.exit = none)
    (unended : (u.pump g.pumped).process.endedBy (u.age g.reaped) = none) (now : Timestamp) :
    u.glance g now =
      ((u.pump g.pumped).struck ((u.pump g.pumped).supervision.enforceDeadline g.begun) g.struck, none) := by
  have own : (u.pump g.pumped).process.endedBy ((u.pump g.pumped).age g.reaped) = none := unended
  have still : (u.pump g.pumped).supervision.exit = none := (Supervision.exit_pump _ _).trans unseen
  simp only [glance, reap, own, isOver, still, Option.isSome_none, Bool.false_eq_true, if_false]

/-- **A unit that was killed is judged by the reason** when it is next looked at. -/
theorem glance_of_killed (steady : u.Steady clock) (killed : u.supervision.kill = some cause) (inTurn : g.InTurn clock)
    (now : Timestamp) : ∃ c, (u.glance g now).2 = some c ∧ cause.Judges c := by
  have pumped := (steady.pump inTurn.pumped).mono inTurn.reaped
  have kept : (u.pump g.pumped).supervision.kill = u.supervision.kill := Supervision.kill_pump _ _
  obtain ⟨exit, ended⟩ := Option.isSome_iff_exists.1 (pumped.dying (by rw [kept, killed]; rfl))
  obtain ⟨c, completed, judged⟩ := glance_of_ended steady.unseen ended now
  exact ⟨c, completed, judged cause killed⟩

/-- A unit whose end was not seen stays in flight. -/
theorem Steady.glance (steady : u.Steady clock) (inTurn : g.InTurn clock) {now : Timestamp}
    (goes : (u.glance g now).2 = none) : (u.glance g now).1.Steady g.struck := by
  have pumped := (steady.pump inTurn.pumped).mono inTurn.reaped
  cases ended : (u.pump g.pumped).process.endedBy (u.age g.reaped) with
  | some exit =>
    obtain ⟨c, completed, _⟩ := glance_of_ended steady.unseen ended now
    rw [completed] at goes
    cases goes
  | none =>
    rw [glance_of_unended steady.unseen ended]
    obtain same | ⟨limit, killed⟩ := (u.pump g.pumped).supervision.enforceDeadline_cases g.begun
    · rw [same, struck_self]
      exact pumped.mono inTurn.struck
    · rw [killed]
      exact pumped.killFor inTurn.struck (.watchdog limit)

/-- **A unit that is found overdue and not at its end is killed.** -/
theorem glance_of_overdue (steady : u.Steady clock) {d : Deadline} (armed : u.supervision.deadline = some d)
    (overdue : d.instant.nanos ≤ g.begun.nanos) (running : u.supervision.kill = none)
    (unended : (u.pump g.pumped).process.endedBy (u.age g.reaped) = none) (now : Timestamp) :
    (u.glance g now).2 = none ∧ (u.glance g now).1.supervision.kill = some (.watchdog d.limit) := by
  rw [glance_of_unended steady.unseen unended]
  refine ⟨rfl, ?_⟩
  have still : (u.pump g.pumped).supervision.exit = none := (Supervision.exit_pump _ _).trans steady.unseen
  have kept : (u.pump g.pumped).supervision.kill = none := (Supervision.kill_pump _ _).trans running
  have deadline : (u.pump g.pumped).supervision.deadline = some d := (Supervision.deadline_pump _ _).trans armed
  simp only [struck, Supervision.enforceDeadline, deadline, Supervision.isOverdue, still, Option.isNone_none,
    Option.any_some, overdue, decide_true, Bool.and_self, if_true, Supervision.killFor_of_running still kept]

end Running

end TestIsolation
