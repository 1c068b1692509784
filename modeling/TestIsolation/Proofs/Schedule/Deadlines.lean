import TestIsolation.Proofs.Run.Flags
import TestIsolation.Proofs.Schedule.Watchdog

/-!
# Deadlines beyond the clock

The deadline of a unit is its start and its limit, and the clock counts seconds up to some bound. A run breaks off as
soon as a unit in flight has a deadline beyond that, and only then (`Loop.overflows_drive_iff`). The flag for the limit
counts milliseconds, and a machine word of those does no harm until shortly before the bound. What remains are declared
limits, and the variable for the limit where it is spelled in seconds (`runs_broken_off_by_deadlines`).
-/

namespace TestIsolation

set_option autoImplicit false

/-! ## What looks keep of the units in flight -/

namespace Execution

variable {β υ : Type} {a : Assignment β} {x : Execution υ} {control : UnitControl β υ}
  {look : InFlight υ → υ × Option Completion} {P : υ → Prop}

/-- What kills and looks keep of a unit, a look at one unit keeps of all. -/
theorem forall_inspect (kill : ∀ cause u, P u → P (control.kill cause u)) (glance : ∀ f, P f.unit → P (look f).1)
    (now : Timestamp) (seq : Nat) (all : ∀ f ∈ x.inFlight, P f.unit) :
    ∀ f ∈ (x.inspect a control look now seq).inFlight, P f.unit := by
  obtain same | ⟨f, flying, -, -, same⟩ | ⟨f, flying, -, c, -, same⟩ := inspect_cases a control look now x seq
  · rw [same]
    exact all
  · rw [same]
    intro g mem
    obtain ⟨h, there, rfl⟩ := List.mem_map.1 mem
    split
    · exact glance f (all f flying)
    · exact all h there
  · rw [same]
    have rest : ∀ g ∈ x.inFlight.filter (·.seq ≠ f.seq), P g.unit := fun g mem => all g (List.mem_of_mem_filter mem)
    obtain ⟨left, -⟩ | ⟨killed, -⟩ := retire_cases a control x f c now
    · rwa [left]
    · rw [killed]
      intro g mem
      obtain ⟨h, there, rfl⟩ := List.mem_map.1 mem
      exact kill .abandon h.unit (rest h there)

theorem forall_collect (kill : ∀ cause u, P u → P (control.kill cause u)) (glance : ∀ f, P f.unit → P (look f).1)
    (now : Timestamp) (all : ∀ f ∈ x.inFlight, P f.unit) :
    ∀ f ∈ (x.collect a control look now).inFlight, P f.unit := by
  unfold collect
  generalize x.inFlight.map (·.seq) = seqs
  induction seqs generalizing x with
  | nil => exact all
  | cons seq seqs ih => exact ih (forall_inspect kill glance now seq all)

theorem forall_interrupt (kill : ∀ cause u, P u → P (control.kill cause u)) (stop : Bool)
    (all : ∀ f ∈ x.inFlight, P f.unit) : ∀ f ∈ (x.interrupt control stop).inFlight, P f.unit := by
  unfold interrupt
  split
  · intro g mem
    obtain ⟨f, there, rfl⟩ := List.mem_map.1 mem
    exact kill .interrupt f.unit (all f there)
  · exact all

/-- What is in flight after steps were dispatched was in flight before, or was just started. -/
theorem mem_dispatchAll {now : Timestamp} (steps : List Step) {f : InFlight υ}
    (flying : f ∈ (x.dispatchAll a control now steps).inFlight) :
    f ∈ x.inFlight ∨ ∃ seq plan limit, control.start seq plan limit = .ok f.unit := by
  induction steps generalizing x with
  | nil => exact .inl flying
  | cons step steps ih =>
    rw [dispatchAll] at flying
    split at flying
    · rename_i y dispatched
      obtain before | started := ih flying
      · obtain same | ⟨n, barrier, unit, plan, -, -, started, more⟩ := inFlight_dispatchStep dispatched
        · exact .inl (same ▸ before)
        · simp only [more, List.mem_append, List.mem_singleton] at before
          obtain before | rfl := before
          · exact .inl before
          · exact .inr ⟨x.cursor, plan, a.limit? n, started⟩
      · exact .inr started
    · exact .inl flying

end Execution

theorem Running.Operated.deadline {u v : Running} (operated : u.Operated v) :
    v.supervision.deadline = u.supervision.deadline := by
  obtain ⟨ops, came⟩ := operated.supervision
  rw [came, Supervision.deadline_performAll]

/-! ## The loop -/

namespace Loop

open Execution

variable {β : Type} {a : Assignment β} {w : World β} {start : Interruption} {x : Execution Running} {l next : Loop}

/-- The clock can tell the deadline of a unit, if it has one. -/
def Told (u : Running) : Prop := ∀ d ∈ u.supervision.deadline, d.instant.representable = true

theorem Told.operated {u v : Running} (told : Told u) (operated : u.Operated v) : Told v := by
  unfold Told
  rwa [operated.deadline]

theorem overflows_eq_false_iff : overflows x = false ↔ ∀ f ∈ x.inFlight, Told f.unit := by
  simp [overflows, Told, List.any_eq_false, Option.any_eq_false]

/-- The wait for something to see ends with all deadlines told by the clock, or is not begun for one that is not. -/
theorem await_cases (clock : Instant) :
    (∃ next, await a w clock x = .ok next ∧ overflows x = false ∧ overflows next.execution = false) ∨
      ∃ e, await a w clock x = .error e ∧ (e = .deadlineOverflow ↔ overflows x = true) := by
  unfold await
  cases beyond : overflows x with
  | true => exact .inr ⟨.deadlineOverflow, rfl, by simp⟩
  | false =>
    simp only [Bool.false_eq_true, if_false]
    split
    · exact .inl ⟨_, rfl, trivial, beyond⟩
    · split
      · exact .inr ⟨.endless, rfl, by simp⟩
      · rename_i later _
        refine .inl ⟨_, rfl, trivial, ?_⟩
        rw [overflows_eq_false_iff] at beyond ⊢
        apply forall_collect
        · exact fun cause u told => told.operated ⟨rfl, [.kill cause], rfl⟩
        · exact fun f told => told.operated (f.unit.operated_glance (.at _) w.now)
        · exact beyond

/-- **The loop breaks off for a deadline exactly if it leaves one that the clock cannot tell.** -/
theorem overflows_drive_iff (told : overflows l.execution = false) (fuel : Nat) :
    (drive a w start l fuel).2 = .error .deadlineOverflow ↔ overflows (drive a w start l fuel).1 = true := by
  induction fuel generalizing l with
  | zero => simp [drive, told]
  | succ fuel ih =>
    simp only [drive]
    split
    · rename_i ended
      have nothing : (prepare a w start l).inFlight = [] := by
        rw [isOver, Bool.and_eq_true, List.isEmpty_iff] at ended
        exact ended.1
      simp [overflows, nothing]
    · obtain ⟨next, awaited, -, later⟩ | ⟨e, awaited, cause⟩ :=
        await_cases (a := a) (w := w) (x := prepare a w start l) l.clock
      · rw [awaited]
        exact ih later
      · rw [awaited]
        simpa using cause

/-- A unit was just started, and nothing was done to it. -/
def Fresh (a : Assignment β) (w : World β) (u : Running) : Prop :=
  ∃ life limit, u = .start life limit a.settings.consoleLimit u.startedAt w.now

/-- Where all deadlines are told, one that the clock cannot tell comes with a unit that was just started. -/
theorem fresh_of_prepare (told : ∀ f ∈ l.execution.inFlight, Told f.unit) {f : InFlight Running}
    (flying : f ∈ (prepare a w start l).inFlight) (beyond : ¬Told f.unit) : Fresh a w f.unit := by
  have killed : ∀ cause u, Told u → Told ((controlAt a w l.clock).kill cause u) :=
    fun cause u told => told.operated ⟨rfl, [.kill cause], rfl⟩
  have kept := forall_interrupt killed (w.interruptionAfter start l.execution.aggregator.events).isStop told
  obtain before | ⟨seq, plan, limit, started⟩ := mem_dispatchAll _ flying
  · exact absurd (kept f before) beyond
  · simp only [controlAt] at started
    split at started
    · cases started
    · have same := Except.ok.inj started
      exact ⟨w.process plan, limit, by rw [← same]; rfl⟩

/-- **A run that breaks off leaves the process just started.** -/
theorem fresh_of_drive (told : overflows l.execution = false) (fuel : Nat)
    (broken : (drive a w start l fuel).2 = .error .deadlineOverflow) {f : InFlight Running}
    (flying : f ∈ (drive a w start l fuel).1.inFlight) (beyond : ¬Told f.unit) : Fresh a w f.unit := by
  induction fuel generalizing l with
  | zero => cases broken
  | succ fuel ih =>
    simp only [drive] at broken flying
    split at broken
    · cases broken
    · rename_i unfinished
      rw [if_neg unfinished] at flying
      obtain ⟨next, awaited, -, later⟩ | ⟨e, awaited, -⟩ :=
        await_cases (a := a) (w := w) (x := prepare a w start l) l.clock
      · rw [awaited] at broken flying
        exact ih later broken flying
      · rw [awaited] at flying
        exact fresh_of_prepare (overflows_eq_false_iff.1 told) flying beyond

/-- What a run leaves when it ends or breaks off. -/
def last (a : Assignment β) (w : World β) (before : Interruption) : Execution Running :=
  (drive a w (w.interruptionAtStart before) ⟨.new a, w.clock⟩ (rounds a w)).1

/-- A run breaks off for a deadline exactly if it leaves one in flight that the clock cannot tell. -/
theorem error_run_iff (before : Interruption) :
    (a.run w before).error = some .deadlineOverflow ↔
      ∃ f ∈ (last a w before).inFlight, ∃ d ∈ f.unit.supervision.deadline, Instant.bound ≤ d.instant.nanos := by
  have fresh : overflows (⟨.new a, w.clock⟩ : Loop).execution = false := rfl
  have left : (a.run w before).error = some .deadlineOverflow ↔ overflows (last a w before) = true := by
    rw [last, ← overflows_drive_iff fresh]
    simp only [Assignment.run]
    cases (drive a w (w.interruptionAtStart before) ⟨.new a, w.clock⟩ (rounds a w)).2 <;> simp
  rw [left]
  simp [overflows, Instant.representable, Option.any_eq_true]

theorem fresh_of_run {before : Interruption} (broken : (a.run w before).error = some .deadlineOverflow)
    {f : InFlight Running} (flying : f ∈ (last a w before).inFlight) (beyond : ¬Told f.unit) : Fresh a w f.unit := by
  refine fresh_of_drive (l := ⟨.new a, w.clock⟩) rfl (rounds a w) ?_ flying beyond
  simp only [Assignment.run] at broken
  cases result : (drive a w (w.interruptionAtStart before) ⟨.new a, w.clock⟩ (rounds a w)).2 with
  | ok _ =>
    rw [result] at broken
    cases broken
  | error e =>
    rw [result] at broken
    rw [Option.some.inj broken]

/-- What a run leaves in flight is armed with the limits of the nodes. -/
theorem armed_last (before : Interruption) :
    ∀ f ∈ (last a w before).inFlight, ∃ n ∈ a.outline.nodes, f.node = n.index ∧
      f.unit.supervision.deadline = (a.limit? n).map fun limit => ⟨f.unit.startedAt.after limit, limit⟩ := by
  obtain ⟨clock, reached⟩ := ticks_drive (a := a) (w := w) (w.interruptionAtStart before) (rounds a w) ⟨.new a, w.clock⟩
  exact Reached.armed reached

end Loop

/-! ## Which limits reach beyond the clock -/

theorem Duration.ofMillis_le {m n : Nat} (le : m ≤ n) : (ofMillis m).nanos ≤ (ofMillis n).nanos :=
  Nat.mul_le_mul_right _ le

/-- A default limit that reaches beyond the clock is spelled in seconds, some time before the end of the clock. -/
theorem Settings.seconds_of_beyond {flags : RunFlags} (inRange : flags.InRange) {processors : Nat}
    {lookup : String → Option String} {limit : Duration} {start : Instant}
    (default : (flags.overlay (ofVariables processors lookup)).defaultTimeout = limit)
    (early : start.nanos + (Duration.ofMillis maxWord).nanos < Instant.bound)
    (beyond : Instant.bound ≤ start.nanos + limit.nanos) :
    flags.timeoutMillis = none ∧ ∃ raw seconds, lookup timeoutVariable = some raw ∧ Spelled raw limit ∧
      limit = .ofSeconds seconds := by
  have small {n : Nat} (le : n ≤ maxWord) : limit ≠ .ofMillis n := by
    rintro rfl
    have bounded := Duration.ofMillis_le le
    omega
  cases flag : flags.timeoutMillis with
  | some n =>
    simp only [RunFlags.overlay, flag, Option.map_some, Option.getD_some] at default
    exact absurd default.symm (small (inRange n flag))
  | none =>
    simp only [RunFlags.overlay, flag, Option.map_none, Option.getD_none] at default
    obtain ⟨raw, found, spelled⟩ | ⟨-, three⟩ := (defaultTimeout_iff _ _ _).1 default
    · refine ⟨rfl, raw, ?_⟩
      obtain ⟨n, le, inMillis | inSeconds⟩ := spelled.amount
      · exact absurd inMillis (small le)
      · exact ⟨n, found, spelled, inSeconds⟩
    · exact absurd three (small (n := 3000) (by decide))

open Loop in
/-- **A run breaks off for a deadline exactly if the start and the limit of a unit that was just started come to more
than the clock counts.** Up to the last machine word of milliseconds of the clock, this is the fault of a declared limit
or, where nothing governs and no flag is given, of a variable that is spelled in seconds. -/
theorem runs_broken_off_by_deadlines {β : Type} {arguments : List String} {flags : RunFlags}
    (given : Command.ofArguments arguments = .ok (.run flags)) (t : SuiteTree β) (processors : Nat)
    (lookup : String → Option String) (w : World β) (before : Interruption) :
    let a : Assignment β := ⟨t.outline, flags.overlay (.ofVariables processors lookup)⟩
    ((a.run w before).error = some .deadlineOverflow ↔
      ∃ f ∈ (last a w before).inFlight, Fresh a w f.unit ∧ ∃ n ∈ t.nodes, f.node = n.index ∧
        ∃ limit, a.limit? n = some limit ∧ Instant.bound ≤ f.unit.startedAt.nanos + limit.nanos) ∧
    ∀ n ∈ t.nodes, ∀ limit, a.limit? n = some limit → ∀ start : Instant,
      start.nanos + (Duration.ofMillis maxWord).nanos < Instant.bound →
      Instant.bound ≤ start.nanos + limit.nanos →
        t.outline.resolveTimeout n = some (.after limit) ∨
        t.outline.resolveTimeout n = none ∧ flags.timeoutMillis = none ∧ ∃ raw seconds,
          lookup Settings.timeoutVariable = some raw ∧ Spelled raw limit ∧ limit = .ofSeconds seconds := by
  intro a
  constructor
  · constructor
    · intro broken
      obtain ⟨f, flying, d, has, beyond⟩ := (error_run_iff before).1 broken
      obtain ⟨n, inside, own, armed⟩ := armed_last before f flying
      have fresh : Fresh a w f.unit := by
        refine fresh_of_run broken flying fun told => ?_
        have early := told d has
        simp only [Instant.representable, decide_eq_true_eq] at early
        omega
      rw [armed] at has
      obtain ⟨limit, limited, rfl⟩ := Option.map_eq_some_iff.1 has
      exact ⟨f, flying, fresh, n, inside, own, limit, limited, beyond⟩
    · rintro ⟨f, flying, -, n, inside, own, limit, limited, beyond⟩
      obtain ⟨m, inside', own', armed⟩ := armed_last before f flying
      obtain rfl := SuiteTree.eq_of_index inside inside' (own.symm.trans own')
      rw [limited] at armed
      exact (error_run_iff before).2 ⟨f, flying, _, armed, beyond⟩
  · intro n inside limit limited start early beyond
    unfold Assignment.limit? at limited
    split at limited
    · rename_i ungoverned
      exact .inr ⟨ungoverned, Settings.seconds_of_beyond (Command.inRange given) (Option.some.inj limited) early beyond⟩
    · rename_i declared
      cases limited
      exact .inl declared
    · cases limited

open Loop in
/-- A limit of some seconds too many in the environment. -/
theorem runs_broken_off_by_deadlines_seconds :
    let t : SuiteTree Script := .suite { name := "all" } [.test { name := "p" } []]
    let lookup : String → Option String :=
      fun name => if name = Settings.timeoutVariable then some "9223372036854775808 S" else none
    let a : Assignment Script := ⟨t.outline, ({} : RunFlags).overlay (.ofVariables 1 lookup)⟩
    let w : World Script := { process := fun plan => .run plan (.start none), now := 5 }
    Command.ofArguments ["run"] = .ok (.run {}) ∧
      ∃ f ∈ (last a w {}).inFlight, Fresh a w f.unit ∧ ∃ n ∈ t.nodes, f.node = n.index ∧
        ∃ limit, a.limit? n = some limit ∧ Instant.bound ≤ f.unit.startedAt.nanos + limit.nanos := by
  intro t lookup a w
  have given : Command.ofArguments ["run"] = .ok (.run {}) := by decide +kernel
  obtain ⟨broken, -⟩ := runs_broken_off_by_deadlines given t 1 lookup w {}
  exact ⟨given, broken.1 (by decide +kernel)⟩

open Loop in
/-- **A default in seconds breaks a run off.** With the largest machine word of seconds in the environment the run
comes to no end, and leaves its test in flight, whose process has not ended and was not killed. -/
theorem seconds_beyond_clock :
    let t : SuiteTree Script := .suite { name := "all" } [.test { name := "p" } []]
    let lookup : String → Option String :=
      fun name => if name = Settings.timeoutVariable then some "18446744073709551615s" else none
    let a : Assignment Script := ⟨t.outline, ({} : RunFlags).overlay (.ofVariables 1 lookup)⟩
    let w : World Script := { process := fun plan => .run plan (.start none), now := 5 }
    readDuration? "18446744073709551615s" = some (.ofSeconds maxWord) ∧
      (a.run w {}).error = some .deadlineOverflow ∧
      (last a w {}).inFlight.map (fun f => (f.node, f.unit.supervision.exit, f.unit.supervision.kill)) =
        [(1, none, none)] := by
  intro t lookup a w
  exact ⟨by decide +kernel, by decide +kernel, by decide +kernel⟩

end TestIsolation
