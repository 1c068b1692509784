import TestIsolation.Proofs.Unit.Routine

/-!
# What becomes of intercepted calls

In a unit that passes, every call that was opened was the one that was expected, or was lost to a panic
(`opened_accounted`). The second can happen: a panic that a function catches itself takes with it, unnoticed, the calls
that were open (`opened_lost_unnoticed`). Scripts are routines (`Action.act_routineAll`), so this holds for them.
-/

namespace TestIsolation

set_option autoImplicit false

/-! ## Phases -/

/-- If a unit stands well after a part of it, then it did before, and the history of its calls goes on with the deeds
and with no call left open. -/
def Carried (t : Thread) (deeds : List Deed) (u : Thread) : Prop :=
  ∀ queue', u.standing? = some (.good queue') → ∃ queue, t.standing? = some (.good queue) ∧
    ∀ before, Tracked before queue [] → Tracked (before ++ deeds) queue' []

section Phases

open Thread

variable {t u v : Thread} {deeds more : List Deed}

theorem Carried.of_tainted (tainted : u.Tainted) : Carried t deeds u := fun queue good => absurd good (tainted queue)

theorem Carried.refl (t : Thread) : Carried t [] t := fun queue good =>
  ⟨queue, good, fun before tracked => by rwa [List.append_nil]⟩

theorem Carried.trans (first : Carried t deeds u) (second : Carried u more v) : Carried t (deeds ++ more) v := by
  intro queue'' good
  obtain ⟨queue', good', kept'⟩ := second queue'' good
  obtain ⟨queue, good, kept⟩ := first queue' good'
  refine ⟨queue, good, fun before tracked => ?_⟩
  rw [← List.append_assoc]
  exact kept' _ (kept before tracked)

/-- A failure that is recorded if there is a unit. -/
theorem carried_fail (f : Failure) : Carried t deeds (if u.isActive then u.fail f else u) := by
  refine .of_tainted ?_
  split
  · exact (hasFailed_fail u f).tainted
  · rename_i inactive
    have none_ : u.standing? = none := by simpa [isActive_eq] using inactive
    exact (hasFailed_of_none none_).tainted

theorem carried_checkQueue (t : Thread) : Carried t [] (checkQueue t) := by
  cases stands : t.standing? with
  | none =>
    have run : checkQueue t = t := by simp only [checkQueue, t.context_eq_none_iff.2 stands]
    rw [run]
    exact .refl t
  | some s =>
    have checked := checkQueue_of_standing stands
    split at checked
    · intro queue good
      exact ⟨queue, (stands.trans checked.symm).trans good, fun before tracked => by rwa [List.append_nil]⟩
    · exact .of_tainted checked.tainted

theorem carried_runPhase (p : Phase) (r : Routine) (t : Thread)
    (comes : ∀ ending, (runPhase p r.act t).2 ≠ .ended ending) :
    Carried t (r.framedDeeds (t.emit (.phase p))) (runPhase p r.act t).1 := by
  unfold runPhase at comes ⊢
  have tracks := r.framed_tracks (t.emit (.phase p))
  rcases ran : Act.framed r.act (t.emit (.phase p)) with ⟨u, flow⟩
  rw [ran] at comes tracks
  have carried (goes : ∀ ending, flow ≠ .ended ending) : Carried t (r.framedDeeds (t.emit (.phase p))) u := by
    intro queue' good
    obtain ⟨queue, stands, kept⟩ := tracks goes queue' good
    rw [standing?_emit] at stands
    exact ⟨queue, stands, kept⟩
  cases flow with
  | normal => exact carried (by simp)
  | ended ending => exact absurd rfl (comes ending)
  | unwinding cause =>
    cases cause with
    | failed | skipped => exact carried (by simp)
    | panicked message => exact carried_fail _

end Phases

namespace UnitPlan

/-- The functions of a unit as what they do. -/
def routines (plan : UnitPlan Routine) : UnitPlan Act :=
  ⟨plan.setup.map Routine.act, plan.body.map Routine.act, plan.teardown.map Routine.act⟩

/-- What a phase does with mock calls, if it has a function. -/
def phaseDeeds (p : Phase) (r : Option Routine) (t : Thread) : List Deed :=
  match r with
  | none => []
  | some r => r.framedDeeds (t.emit (.phase p))

/-- What the body of a unit and what follows it do with mock calls. -/
def bodyDeeds (plan : UnitPlan Routine) (t : Thread) : List Deed :=
  match plan.body with
  | none => phaseDeeds .teardown plan.teardown t
  | some r => r.framedDeeds (t.emit (.phase .exec)) ++
      match runPhase .exec r.act t with
      | (_, .ended _) => []
      | (u, .completed) => phaseDeeds .teardown plan.teardown (checkQueue u)
      | (u, _) => phaseDeeds .teardown plan.teardown u

/-- What a unit does with mock calls. -/
def deeds (plan : UnitPlan Routine) (t : Thread) : List Deed :=
  match plan.setup with
  | none => plan.bodyDeeds t
  | some r => r.framedDeeds (t.emit (.phase .setup)) ++
      match runPhase .setup r.act t with
      | (u, .completed) => plan.bodyDeeds u
      | _ => []

variable {plan : UnitPlan Routine} {t u : Thread}

theorem carried_runTeardown (r : Option Routine) (ran : runTeardown (r.map Routine.act) t = (u, none)) :
    Carried t (phaseDeeds .teardown r t) u := by
  cases r with
  | none =>
    cases ran
    exact .refl t
  | some r =>
    have carried := carried_runPhase .teardown r t
    simp only [Option.map_some, runTeardown] at ran
    rcases phase : runPhase .teardown r.act t with ⟨v, how⟩
    rw [phase] at ran carried
    cases how with
    | ended ending => cases ran
    | completed | failed =>
      cases ran
      exact carried (by simp)
    | skipped =>
      cases ran
      exact carried_fail _

theorem carried_runBody (ran : runBody plan.routines t = (u, none)) : Carried t (plan.bodyDeeds t) u := by
  unfold bodyDeeds
  simp only [runBody, routines] at ran
  cases body : plan.body with
  | none =>
    rw [body] at ran
    exact carried_runTeardown plan.teardown ran
  | some r =>
    rw [body, Option.map_some] at ran
    have carried := carried_runPhase .exec r t
    simp only at ran ⊢
    rcases phase : runPhase .exec r.act t with ⟨v, how⟩
    rw [phase] at ran carried
    cases how with
    | ended ending => cases ran
    | completed =>
      have checked := (carried_checkQueue v).trans (carried_runTeardown plan.teardown ran)
      exact (carried (by simp)).trans checked
    | failed | skipped => exact (carried (by simp)).trans (carried_runTeardown plan.teardown ran)

theorem carried_runPhases (ran : runPhases plan.routines t = (u, none)) : Carried t (plan.deeds t) u := by
  unfold deeds
  simp only [runPhases, routines] at ran
  cases setup : plan.setup with
  | none =>
    rw [setup] at ran
    exact carried_runBody ran
  | some r =>
    rw [setup, Option.map_some] at ran
    have carried := carried_runPhase .setup r t
    simp only at ran ⊢
    rcases phase : runPhase .setup r.act t with ⟨v, how⟩
    rw [phase] at ran carried
    cases how with
    | ended ending => cases ran
    | completed => exact (carried (by simp)).trans (carried_runBody ran)
    | failed | skipped =>
      cases ran
      rw [List.append_nil]
      exact carried (by simp)

end UnitPlan

/-! ## Scripts -/

namespace Act

open Thread

variable {first second : Act}

/-- A change that leaves the calls and the standing alone. -/
theorem apart_change {f : Thread → Thread} (calls : ∀ t, (f t).calls = t.calls)
    (standing : ∀ t, (f t).standing? = t.standing?) : Apart (change f) where
  calls := calls
  standing := fun t _ _ good => ⟨(standing t).symm.trans good, by simp [change, Flow.OnRecord]⟩

theorem apart_done : Apart done := apart_change (f := id) (fun _ => rfl) fun _ => rfl

theorem apart_note (item : TraceItem) : Apart (note item) := apart_change (fun _ => rfl) fun _ => rfl

/-- An act that taints the unit. -/
theorem apart_of_tainted {act : Act} (calls : ∀ t, (act t).1.calls = t.calls)
    (tainted : ∀ t, (∀ ending, (act t).2 ≠ .ended ending) → (act t).1.Tainted) : Apart act where
  calls := calls
  standing := fun t queue comes good => absurd good (tainted t comes queue)

theorem apart_report (f : Failure) : Apart (report f) :=
  apart_of_tainted (calls_report f) fun t _ => (hasFailed_report f t).tainted

theorem apart_fatal (expression message : String) (site : Site) : Apart (fatal expression message site) :=
  apart_of_tainted (calls_fatal _ _ _) fun t _ => (hasFailed_fatal _ _ _ t).tainted

theorem apart_panic (message : Option String) : Apart (unwind (.panicked message)) where
  calls := fun _ => rfl
  standing := fun _ _ _ good => ⟨good, by simp [unwind, Flow.OnRecord]⟩

theorem apart_stop (ending : Ending) : Apart (stop ending) :=
  apart_of_tainted (fun _ => rfl) fun _ comes => absurd rfl (comes ending)

theorem apart_skipWith (reason : Option String) (site : Site) : Apart (skipWith reason site) := by
  refine apart_of_tainted (fun t => ?_) fun t _ => ?_
  · unfold skipWith
    split
    · exact t.calls_skip _
    · rfl
  · unfold skipWith
    split
    · exact t.tainted_skip _
    · rename_i inactive
      have none_ : t.standing? = none := by simpa [isActive_eq] using inactive
      exact (hasFailed_of_none none_).tainted

theorem Apart.andThen (left : Apart first) (right : Apart second) : Apart (first.andThen second) where
  calls := by
    intro t
    have same := left.calls t
    unfold Act.andThen
    rcases ran : first t with ⟨u, flow⟩
    rw [ran] at same
    cases flow with
    | normal => exact (right.calls u).trans same
    | unwinding cause => exact same
    | ended ending => exact same
  standing := by
    intro t queue
    have before := left.standing t queue
    unfold Act.andThen
    rcases ran : first t with ⟨u, flow⟩
    rw [ran] at before
    cases flow with
    | normal =>
      intro comes good
      obtain ⟨good, unrecorded⟩ := right.standing u queue comes good
      exact ⟨(before nofun good).1, unrecorded⟩
    | unwinding cause => exact before
    | ended ending => exact before

theorem apart_compare (actual : Value) (expr : String) (c : Constraint) (site : Site) (fatalIfUnmet : Bool)
    {next : Bool → Act} (each : ∀ held, Apart (next held)) :
    Apart (compare actual expr c site fatalIfUnmet next) := by
  unfold compare
  cases c.evaluate actual with
  | error e => exact apart_fatal _ _ _
  | ok held =>
    cases held with
    | true => exact each true
    | false =>
      simp only
      split
      · exact apart_fatal _ _ _
      · exact (apart_report _).andThen (each false)

theorem apart_check (cond : Bool) (expr : String) (site : Site) : Apart (check cond expr site) := by
  unfold check
  split
  · exact apart_done
  · exact apart_report _

theorem apart_ensure (cond : Bool) (expr : String) (site : Site) : Apart (ensure cond expr site) := by
  unfold ensure
  split
  · exact apart_done
  · exact apart_fatal _ _ _

theorem apart_sendRaw (bytes : Bytes) : Apart (change (·.sendRaw bytes)) := by
  refine apart_change (fun t => ?_) fun t => ?_
  · unfold sendRaw
    split <;> rfl
  · unfold sendRaw
    split <;> rfl

theorem apart_receive (number : Int) : Apart (receive number) := by
  unfold receive
  split
  · exact apart_done
  · split
    · exact apart_stop _
    · exact apart_stop _

/-! ### Nested units -/

theorem calls_runPhase (p : Phase) (act : Act) (t : Thread) : (runPhase p act t).1.calls = t.calls := by
  have restored : (framed act (t.emit (.phase p))).1.calls = (t.emit (.phase p)).calls := rfl
  rw [calls_emit] at restored
  unfold runPhase
  rcases ran : framed act (t.emit (.phase p)) with ⟨u, flow⟩
  rw [ran] at restored
  cases flow with
  | normal | ended ending => exact restored
  | unwinding cause =>
    cases cause with
    | failed | skipped => exact restored
    | panicked message =>
      simp only
      split
      · exact (u.calls_fail _).trans restored
      · exact restored

theorem calls_checkQueue (t : Thread) : (checkQueue t).calls = t.calls := by
  unfold checkQueue
  cases t.context with
  | none => rfl
  | some c =>
    simp only
    split
    · exact calls_fail _ _
    · rfl

theorem calls_runTeardown (teardown : Option Act) (t : Thread) : (runTeardown teardown t).1.calls = t.calls := by
  cases teardown with
  | none => rfl
  | some act =>
    have kept := calls_runPhase .teardown act t
    simp only [runTeardown]
    rcases ran : runPhase .teardown act t with ⟨u, how⟩
    rw [ran] at kept
    cases how with
    | completed | failed | ended => exact kept
    | skipped =>
      simp only
      split
      · exact (u.calls_fail _).trans kept
      · exact kept

theorem calls_runBody (plan : UnitPlan Act) (t : Thread) : (runBody plan t).1.calls = t.calls := by
  unfold runBody
  cases plan.body with
  | none => exact calls_runTeardown _ t
  | some act =>
    have kept := calls_runPhase .exec act t
    simp only
    rcases ran : runPhase .exec act t with ⟨u, how⟩
    rw [ran] at kept
    cases how with
    | ended ending => exact kept
    | completed => exact ((calls_runTeardown _ _).trans (calls_checkQueue u)).trans kept
    | failed | skipped => exact (calls_runTeardown _ u).trans kept

theorem calls_runPhases (plan : UnitPlan Act) (t : Thread) : (runPhases plan t).1.calls = t.calls := by
  unfold runPhases
  cases plan.setup with
  | none => exact calls_runBody plan t
  | some act =>
    have kept := calls_runPhase .setup act t
    simp only
    rcases ran : runPhase .setup act t with ⟨u, how⟩
    rw [ran] at kept
    cases how with
    | ended ending => exact kept
    | completed => exact (calls_runBody plan u).trans kept
    | failed | skipped => exact kept

/-- A nested unit has mock calls of its own, and after it no unit is active. -/
theorem apart_nested (plan : UnitPlan Act) : Apart (nested plan) := by
  have kept (t : Thread) := calls_runPhases plan (t.install .never)
  refine apart_of_tainted (fun t => ?_) fun t comes => ?_
  · have kept := kept t
    unfold nested runUnit
    rcases ran : runPhases plan (t.install .never) with ⟨u, how⟩
    rw [ran, calls_install] at kept
    cases how with
    | some ending => exact kept
    | none =>
      simp only [finishUnit, calls_note, calls_uninstall, calls_emit]
      exact kept
  · unfold nested runUnit at comes ⊢
    rcases ran : runPhases plan (t.install .never) with ⟨u, how⟩
    rw [ran] at comes
    cases how with
    | some ending => exact absurd rfl (comes ending)
    | none =>
      refine (hasFailed_of_none ?_).tainted
      simp only [finishUnit, standing?_note, standing?_uninstall]

end Act

namespace Action

open Act

mutual

/-- An action as a routine. -/
def routine : Action → Routine
  | note text => .other (Act.note (.note text)) (apart_note _)
  | noteActive => .other (change fun t => t.note (.active t.isActive)) (apart_change (fun _ => rfl) fun _ => rfl)
  | check cond expr site => .other _ ((apart_check cond expr site).andThen (apart_note (.checked cond)))
  | ensure cond expr site => .other _ (apart_ensure cond expr site)
  | checkThat actual expr constraint site =>
    .other _ (apart_compare actual expr constraint site false fun held => apart_note (.compared held))
  | ensureThat actual expr constraint site =>
    .other _ (apart_compare actual expr constraint site true fun _ => apart_done)
  | fail reason site => .other (.failWith reason site) (apart_fatal _ _ _)
  | skip reason site => .other _ (apart_skipWith reason site)
  | panic message => .other _ (apart_panic message)
  | expect expectation site => .expect expectation site
  | intercept symbol call site =>
    .seq (.intercept symbol call site) (.other _ (apart_note (.intercepted symbol)))
  | parameter call name actual site => .query call ⟨name, actual⟩ site
  | finish call site => .complete call site .finish
  | returnValue call target site =>
    .depend fun t => .seq (.complete call site (.returning target)) <|
      match returned? t call target with
      | some converted => .other _ (apart_note (.returned converted))
      | none => .other _ apart_done
  | drop call => .drop call
  | catching actions => .caught .none (routineAll actions)
  | nested setup body teardown =>
    .other _ (apart_nested ⟨actOption setup, actOption body, actOption teardown⟩)
  | print bytes => .other (.put (.console bytes)) (apart_change (fun _ => rfl) fun _ => rfl)
  | sleep millis => .other (.put (.pause millis)) (apart_change (fun _ => rfl) fun _ => rfl)
  | hang => .other _ (apart_stop .hangs)
  | exit code => .other _ (apart_stop (.exited (code % 256)))
  | signal number => .other _ (apart_receive number)
  | sendRaw bytes => .other _ (apart_sendRaw bytes)

/-- A script as a routine. -/
def routineAll : List Action → Routine
  | [] => .other _ apart_done
  | action :: rest => .seq (routine action) (routineAll rest)

end

mutual

theorem act_routine (action : Action) : (routine action).act = action.act := by
  match action with
  | catching actions =>
    rw [routine, Routine.act, act_routineAll actions, Act.sharing_none, Act.noted_framed, Action.act]
  | returnValue call target site =>
    funext t
    simp only [Action.act, returnValue_eq_andThen, routine, Routine.act]
    cases returned? t call target <;> rfl
  | note _ | noteActive | check .. | ensure .. | checkThat .. | ensureThat .. | fail .. | skip .. | panic _ | expect ..
  | intercept .. | parameter .. | finish .. | drop _ | nested .. | print _ | sleep _ | hang | exit _ | signal _
  | sendRaw _ => rfl

/-- **Scripts are routines.** -/
theorem act_routineAll (actions : List Action) : (routineAll actions).act = actAll actions := by
  match actions with
  | [] => rfl
  | action :: rest =>
    have head := act_routine action
    have tail := act_routineAll rest
    simp only [routineAll, Routine.act, actAll, head, tail]

end

end Action

/-- The functions of a unit as routines. -/
def UnitPlan.ofScripts (plan : UnitPlan Script) : UnitPlan Routine :=
  ⟨plan.setup.map Action.routineAll, plan.body.map Action.routineAll, plan.teardown.map Action.routineAll⟩

theorem UnitPlan.routines_ofScripts (plan : UnitPlan Script) : plan.ofScripts.routines = plan.acts := by
  obtain ⟨setup, body, teardown⟩ := plan
  simp only [ofScripts, routines, acts, Option.map_map, Function.comp_def, Action.act_routineAll]

/-! ## Units that pass -/

/-- **Intercepted calls of a unit that passes are accounted for.** On every channel, if a unit passes, then every call
that was opened in one of its phases was completed by `finish` or by a returned value, under each name its queries met
the constraints one by one, and its value to return, if any, was taken; or else a panic unwound past the call. -/
theorem opened_accounted {plan : UnitPlan Routine} {fault : SinkFault} {t after : Thread} {report : UnitReport}
    (ran : runUnit plan.routines fault t = (after, .ok report)) (passed : report.verdict = .pass) :
    ∀ e, .opened e ∈ plan.deeds (t.install fault) → e.Accounted (plan.deeds (t.install fault)) := by
  unfold runUnit at ran
  rcases phases : runPhases plan.routines (t.install fault) with ⟨u, how⟩
  rw [phases] at ran
  cases how with
  | some ending => cases ran
  | none =>
    obtain rfl : (finishUnit t.installed u).2 = report := by
      simp only [Prod.mk.injEq, Except.ok.injEq] at ran
      exact ran.2
    obtain ⟨queue', good⟩ := (Thread.finishUnit_verdict_eq_pass_iff _ u).1 passed
    obtain ⟨queue, start, kept⟩ := UnitPlan.carried_runPhases phases queue' good
    rw [Thread.standing?_install] at start
    obtain rfl : {} = queue := congrArg Standing.queue (Option.some.inj start)
    have tracked := kept [] .start
    intro e opened
    have mem : e ∈ Deed.openings (plan.deeds (t.install fault)) := List.mem_filterMap.2 ⟨_, opened, rfl⟩
    exact tracked.accounted e mem nofun

/-- A call whose parameter is as expected returns its value. -/
theorem opened_accounted_returned :
    let site : Site := ⟨"t.rs", 7, "f"⟩
    let e : Expectation :=
      { symbol := "f", params := [⟨"x", ⟨.order .equal (.signed 3), none⟩, false⟩], returns := some (.signed 5) }
    let plan : UnitPlan Script :=
      { body := some [.expect e site, .intercept "f" "c" site, .parameter "c" "x" (.signed 3) site,
          .returnValue "c" .value site] }
    ∃ report, (runUnit plan.ofScripts.routines .never (.start none)).2 = .ok report ∧ report.verdict = .pass ∧
      ∃ opened : Expectation, opened.symbol = "f" ∧
        opened.Accounted (plan.ofScripts.deeds ((Thread.start none).install .never)) := by
  intro site e plan
  have verdict : (runUnit plan.ofScripts.routines .never (.start none)).2.toOption.map (·.verdict) = some .pass := by
    decide +kernel
  have opened : .opened { e with seq := 1, pushedAt := some site } ∈
      plan.ofScripts.deeds ((Thread.start none).install .never) := by decide +kernel
  rcases ran : runUnit plan.ofScripts.routines .never (.start none) with ⟨after, result⟩
  rw [ran] at verdict
  cases result with
  | error ending => cases verdict
  | ok report =>
    have passed : report.verdict = .pass := Option.some.inj verdict
    exact ⟨report, rfl, passed, _, rfl, opened_accounted ran passed _ opened⟩

/-- A panic that the function catches itself loses a call, and the unit passes. -/
theorem opened_lost_unnoticed :
    let site : Site := ⟨"t.rs", 7, "f"⟩
    let plan : UnitPlan Script :=
      { body := some [.expect { symbol := "f" } site, .catching [.intercept "f" "c" site, .panic (some "boom")]] }
    let deeds := plan.ofScripts.deeds ((Thread.start none).install .never)
    (runUnit plan.acts .never (.start none)).2.toOption.map (·.verdict) = some .pass ∧
      ∃ e, .opened e ∈ deeds ∧ ∀ ending, .completed e.seq ending ∉ deeds := by
  intro site plan deeds
  have history : deeds = [.opened { symbol := "f", seq := 1, pushedAt := some site },
      .lost 1 (.panicked (some "boom"))] := by decide +kernel
  refine ⟨by decide +kernel, _, history ▸ List.mem_cons_self .., fun ending completed => ?_⟩
  rw [history] at completed
  simp at completed

end TestIsolation
