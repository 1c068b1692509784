import TestIsolation.Proofs.Unit.Twins

/-!
# Broken channels go unnoticed

Whatever goes through a unit, and looks at no more of its thread than can be seen from inside, is `Unseeing` for the
unit's channel. It takes twins to twins in the same way (`Unseeing.blind`). So a unit ends as it does on a channel that
never breaks, and its channel has taken what comes before the break (`breaking_unnoticed`).
-/

namespace TestIsolation

set_option autoImplicit false

namespace Act

open Thread

/-- What functions do without looking at the channel of a unit, or writing to it past the unit. They may also run units
of their own, which take the place of the active one, and end the process. -/
inductive Unseeing (unit : Nat) : Act → Prop where
  | done : Unseeing unit done
  | note (item : TraceItem) : Unseeing unit (note item)
  | print (bytes : Bytes) : Unseeing unit (put (.console bytes))
  | sleep (millis : Nat) : Unseeing unit (put (.pause millis))
  | check (cond : Bool) (expr : String) (site : Site) : Unseeing unit (check cond expr site)
  | ensure (cond : Bool) (expr : String) (site : Site) : Unseeing unit (ensure cond expr site)
  | compare (actual : Value) (expr : String) (c : Constraint) (site : Site) (fatalIfUnmet : Bool) {next : Bool → Act}
      (goesOn : ∀ held, Unseeing unit (next held)) : Unseeing unit (compare actual expr c site fatalIfUnmet next)
  | fail (reason : Option String) (site : Site) : Unseeing unit (failWith reason site)
  | skip (reason : Option String) (site : Site) : Unseeing unit (skipWith reason site)
  | unwind (cause : Unwinding) : Unseeing unit (unwind cause)
  | stop (ending : Ending) : Unseeing unit (stop ending)
  | expect (e : Expectation) (site : Site) : Unseeing unit (expectCall e site)
  | intercept (symbol name : String) (site : Site) : Unseeing unit (intercept symbol name site)
  | parameter (name parameter : String) (actual : Value) (site : Site) :
      Unseeing unit (checkParameter name parameter actual site)
  | finish (name : String) (site : Site) : Unseeing unit (finish name site)
  | returnValue (name : String) (target : Target) (site : Site) {next : Converted → Act}
      (goesOn : ∀ value, Unseeing unit (next value)) : Unseeing unit (returnValue name target site next)
  | drop (name : String) : Unseeing unit (drop name)
  | move (f : List (String × MockCall) → List (String × MockCall)) :
      Unseeing unit (change fun t => { t with calls := f t.calls })
  | andThen {first second : Act} (left : Unseeing unit first) (right : Unseeing unit second) :
      Unseeing unit (first.andThen second)
  /-- What is done depends on anything that can be seen from inside. -/
  | depend {choose : Thread → Act} (each : ∀ t, Unseeing unit (choose t)) :
      Unseeing unit fun t => choose (t.seen unit) t
  | caught {inner : Act} (inside : Unseeing unit inner) : Unseeing unit (caught inner)
  | nested {plan : UnitPlan Act} (functions : ∀ p act, plan.function? p = some act → Unseeing unit act) :
      Unseeing unit (nested plan)

/-- Twins come to the same result, and are twins again. -/
structure Meets {β : Type} (unit : Nat) (s : ChannelState) (past : Prop) (p q : Thread × β) : Prop where
  alike : Alike unit s past p.1 q.1
  same : q.2 = p.2

theorem Meets.split {β : Type} {unit : Nat} {s : ChannelState} {past : Prop} {p q : Thread × β}
    (meets : Meets unit s past p q) : ∃ x y result, p = (x, result) ∧ q = (y, result) ∧ Alike unit s past x y :=
  ⟨p.1, q.1, p.2, rfl, by rw [← meets.same], meets.alike⟩

/-- An act does the same on twins. -/
def Blind (unit : Nat) (act : Act) : Prop :=
  ∀ ⦃s : ChannelState⦄ ⦃past : Prop⦄ ⦃x y : Thread⦄, Alike unit s past x y → Meets unit s past (act x) (act y)

section Acts

variable {unit : Nat} {s : ChannelState} {past : Prop} {x y : Thread}

/-! ## Assertions -/

theorem blind_done : Blind unit done := fun _ _ _ _ alike => ⟨alike, rfl⟩

theorem blind_unwind (cause : Unwinding) : Blind unit (unwind cause) := fun _ _ _ _ alike => ⟨alike, rfl⟩

theorem blind_stop (ending : Ending) : Blind unit (stop ending) := fun _ _ _ _ alike => ⟨alike, rfl⟩

/-- A change that leaves twins. -/
theorem blind_change {f : Thread → Thread}
    (keeps : ∀ ⦃s past x y⦄, Alike unit s past x y → Alike unit s past (f x) (f y)) : Blind unit (change f) :=
  fun _ _ _ _ alike => ⟨keeps alike, rfl⟩

theorem Blind.andThen {first second : Act} (left : Blind unit first) (right : Blind unit second) :
    Blind unit (first.andThen second) := by
  intro s past x y alike
  obtain ⟨x', y', flow, ran, ran', met⟩ := (left alike).split
  simp only [Act.andThen, ran, ran']
  cases flow with
  | normal => exact right met
  | unwinding cause | ended ending => exact ⟨met, rfl⟩

theorem blind_report (f : Failure) : Blind unit (report f) := by
  intro s past x y alike
  unfold report
  rw [alike.isActive]
  split
  · exact ⟨alike.fail f, rfl⟩
  · exact ⟨alike, rfl⟩

theorem blind_fatal (expression message : String) (site : Site) : Blind unit (fatal expression message site) :=
  (blind_report _).andThen (blind_unwind .failed)

theorem blind_check (cond : Bool) (expr : String) (site : Site) : Blind unit (check cond expr site) := by
  unfold check
  split
  · exact blind_done
  · exact blind_report _

theorem blind_ensure (cond : Bool) (expr : String) (site : Site) : Blind unit (ensure cond expr site) := by
  unfold ensure
  split
  · exact blind_done
  · exact blind_fatal _ _ _

theorem blind_compare (actual : Value) (expr : String) (c : Constraint) (site : Site) (fatalIfUnmet : Bool)
    {next : Bool → Act} (goesOn : ∀ held, Blind unit (next held)) :
    Blind unit (compare actual expr c site fatalIfUnmet next) := by
  unfold compare
  cases c.evaluate actual with
  | error e => exact blind_fatal _ _ _
  | ok held =>
    cases held with
    | true => exact goesOn true
    | false =>
      simp only
      split
      · exact blind_fatal _ _ _
      · exact (blind_report _).andThen (goesOn false)

theorem blind_skipWith (reason : Option String) (site : Site) : Blind unit (skipWith reason site) := by
  intro s past x y alike
  unfold skipWith
  rw [alike.isActive]
  split
  · exact ⟨alike.skip _, rfl⟩
  · exact ⟨alike, rfl⟩

/-! ## Mock calls -/

theorem blind_expectCall (e : Expectation) (site : Site) : Blind unit (expectCall e site) := by
  intro s past x y alike
  obtain ⟨s', other⟩ := alike.context
  unfold expectCall
  cases active : x.context with
  | none =>
    rw [other, active]
    exact ⟨alike, rfl⟩
  | some c =>
    rw [active] at other
    simp only [other, Option.map_some, UnitContext.queue_onChannel]
    exact ⟨alike.setQueue active other _, rfl⟩

theorem blind_intercept (symbol name : String) (site : Site) : Blind unit (intercept symbol name site) := by
  intro s past x y alike
  obtain ⟨s', other⟩ := alike.context
  unfold intercept
  cases active : x.context with
  | none =>
    rw [other, active]
    exact ⟨alike, rfl⟩
  | some c =>
    rw [active] at other
    simp only [other, Option.map_some, UnitContext.queue_onChannel]
    have taken := alike.setQueue active other (c.queue.intercept symbol).1
    cases (c.queue.intercept symbol).2 with
    | ok entry => exact ⟨taken.change fun calls => calls ++ [(name, ⟨entry, site, false⟩)], rfl⟩
    | error violation => exact blind_fatal _ _ _ taken

theorem blind_checkParameter (name parameter : String) (actual : Value) (site : Site) :
    Blind unit (checkParameter name parameter actual site) := by
  intro s past x y alike
  unfold checkParameter openCall?
  rw [alike.calls]
  cases x.calls.lookup name with
  | none => exact ⟨alike, rfl⟩
  | some call =>
    simp only
    split
    · exact ⟨alike.change (replaceCall name _), rfl⟩
    · exact blind_report _ (alike.change (replaceCall name _))

theorem blind_complete (call : MockCall) (site : Site) : Blind unit (complete call site) := by
  unfold complete
  split
  · exact blind_unwind _
  · split
    · exact blind_done
    · exact blind_fatal _ _ _

/-- Twins close the same call. -/
theorem alike_close (alike : Alike unit s past x y) (name : String) : Alike unit s past (close x name) (close y name) :=
  alike.change (·.eraseP (·.1 = name))

theorem blind_finish (name : String) (site : Site) : Blind unit (finish name site) := by
  intro s past x y alike
  unfold finish openCall?
  rw [alike.calls]
  cases x.calls.lookup name with
  | none => exact ⟨alike, rfl⟩
  | some call => exact blind_complete call site (alike_close alike name)

theorem blind_returnValue (name : String) (target : Target) (site : Site) {next : Converted → Act}
    (goesOn : ∀ value, Blind unit (next value)) : Blind unit (returnValue name target site next) := by
  intro s past x y alike
  unfold returnValue openCall?
  rw [alike.calls]
  cases x.calls.lookup name with
  | none => exact ⟨alike, rfl⟩
  | some call =>
    have closed := alike_close alike name
    simp only
    split
    · exact blind_unwind _ closed
    · split
      · exact blind_fatal _ _ _ closed
      · split
        · exact blind_fatal _ _ _ closed
        · exact (blind_complete _ _).andThen (goesOn _) closed

theorem blind_dropped (call : MockCall) : Blind unit (dropped call) := by
  unfold dropped
  split
  · exact blind_done
  · exact blind_report _

theorem blind_drop (name : String) : Blind unit (drop name) := by
  intro s past x y alike
  unfold drop openCall?
  rw [alike.calls]
  cases x.calls.lookup name with
  | none => exact ⟨alike, rfl⟩
  | some call => exact blind_dropped call (alike_close alike name)

theorem blind_dropAll (calls : List (String × MockCall)) : Blind unit (dropAll calls) := by
  induction calls with
  | nil => exact blind_done
  | cons call calls ih => exact (blind_dropped call.2).andThen ih

/-! ## Frames -/

theorem Blind.framed {inner : Act} (blind : Blind unit inner) : Blind unit (framed inner) := by
  intro s past x y alike
  have dropping : Blind unit fun t => dropAll t.calls t := by
    intro s past x y alike
    simp only [alike.calls]
    exact blind_dropAll x.calls alike
  obtain ⟨met, same⟩ := blind.andThen dropping (alike.change fun _ => [])
  refine ⟨?_, same⟩
  simp only [Act.framed, alike.calls]
  exact met.change fun _ => x.calls

theorem Blind.caught {inner : Act} (blind : Blind unit inner) : Blind unit (caught inner) := by
  intro s past x y alike
  obtain ⟨x', y', flow, ran, ran', met⟩ := (blind.framed alike).split
  simp only [Act.caught, ran, ran']
  cases flow.caughtEnd? with
  | some ending => exact ⟨met.note _, rfl⟩
  | none => exact ⟨met, rfl⟩

end Acts

end Act

/-! ## Phases -/

section Phases

open Act Thread

variable {unit : Nat} {s : ChannelState} {past : Prop} {x y : Thread} {plan : UnitPlan Act}

theorem meets_runPhase (p : Phase) {act : Act} (blind : Blind unit act) (alike : Alike unit s past x y) :
    Meets unit s past (runPhase p act x) (runPhase p act y) := by
  obtain ⟨x', y', flow, ran, ran', met⟩ := (blind.framed (alike.emit (r := .phase p) rfl)).split
  simp only [runPhase, ran, ran']
  rcases flow with _ | (_ | _ | message) | ending
  case unwinding.panicked =>
    refine ⟨?_, rfl⟩
    simp only [met.panicSite]
    exact met.fail_of_isActive _
  all_goals exact ⟨met, rfl⟩

theorem alike_checkQueue (alike : Alike unit s past x y) : Alike unit s past (checkQueue x) (checkQueue y) := by
  obtain ⟨s', other⟩ := alike.context
  unfold checkQueue
  cases active : x.context with
  | none =>
    rw [other, active]
    exact alike
  | some c =>
    rw [active] at other
    simp only [other, Option.map_some, UnitContext.queue_onChannel]
    have checked := alike.setQueue active other c.queue.endOfTest.1
    split
    · exact checked.fail _
    · exact checked

theorem meets_runTeardown {teardown : Option Act} (blind : ∀ act ∈ teardown, Blind unit act)
    (alike : Alike unit s past x y) : Meets unit s past (runTeardown teardown x) (runTeardown teardown y) := by
  cases teardown with
  | none => exact ⟨alike, rfl⟩
  | some act =>
    obtain ⟨x', y', how, ran, ran', met⟩ := (meets_runPhase .teardown (blind act rfl) alike).split
    simp only [runTeardown, ran, ran']
    cases how with
    | completed | failed | ended ending => exact ⟨met, rfl⟩
    | skipped => exact ⟨met.fail_of_isActive _, rfl⟩

theorem meets_runBody (blind : ∀ p, ∀ act ∈ plan.function? p, Blind unit act) (alike : Alike unit s past x y) :
    Meets unit s past (runBody plan x) (runBody plan y) := by
  cases body : plan.body with
  | none =>
    simp only [runBody, body]
    exact meets_runTeardown (blind .teardown) alike
  | some act =>
    obtain ⟨x', y', how, ran, ran', met⟩ := (meets_runPhase .exec (blind .exec act body) alike).split
    simp only [runBody, body, ran, ran']
    cases how with
    | ended ending => exact ⟨met, rfl⟩
    | failed | skipped => exact meets_runTeardown (blind .teardown) met
    | completed => exact meets_runTeardown (blind .teardown) (alike_checkQueue met)

/-- **The phases of a unit do not depend on its channel.** -/
theorem meets_runPhases (blind : ∀ p, ∀ act ∈ plan.function? p, Blind unit act) (alike : Alike unit s past x y) :
    Meets unit s past (runPhases plan x) (runPhases plan y) := by
  cases setup : plan.setup with
  | none =>
    simp only [runPhases, setup]
    exact meets_runBody blind alike
  | some act =>
    obtain ⟨x', y', how, ran, ran', met⟩ := (meets_runPhase .setup (blind .setup act setup) alike).split
    simp only [runPhases, setup, ran, ran']
    cases how with
    | ended ending | failed | skipped => exact ⟨met, rfl⟩
    | completed => exact meets_runBody blind met

/-- The end of a unit that is not the one whose channel is apart. -/
theorem meets_finishUnit (alike : Alike unit s True x y) {other : Nat} (apart : other ≠ unit) :
    Meets unit s True (finishUnit other x) (finishUnit other y) := by
  obtain ⟨log, twins, plain⟩ := alike
  have ended (v : Verdict) := (twins.emit_apart (twins.away trivial) (.terminal v)).uninstall
  simp only [finishUnit, twins.verdict]
  refine ⟨⟨log, ended _, plain⟩, ?_⟩
  simp only [(ended _).bytesOf apart, (ended _).isActive]

/-- A unit in place of the active one. -/
theorem blind_nested (blind : ∀ p, ∀ act ∈ plan.function? p, Blind unit act) : Blind unit (nested plan) := by
  intro s past x y alike
  obtain ⟨log, twins, plain⟩ := alike
  have installed : Alike unit s True (x.install .never) (y.install .never) := ⟨log, twins.install, plain⟩
  obtain ⟨x', y', ending, ran, ran', met⟩ := (meets_runPhases blind installed).split
  simp only [nested, runUnit, ran, ran']
  cases ending with
  | some ending => exact ⟨met.weaken, rfl⟩
  | none =>
    rw [twins.installed]
    obtain ⟨x', y', report, ran, ran', met⟩ := (meets_finishUnit met twins.known.ne').split
    simp only [ran, ran']
    exact ⟨met.weaken.note _, rfl⟩

/-- **What does not look at a channel does the same, whatever the channel does.** -/
theorem Act.Unseeing.blind {act : Act} (unseeing : Unseeing unit act) : Blind unit act := by
  induction unseeing with
  | done => exact blind_done
  | note item => exact blind_change fun _ _ _ _ alike => alike.note item
  | print bytes => exact blind_change fun _ _ _ _ alike => alike.put (by simp)
  | sleep millis => exact blind_change fun _ _ _ _ alike => alike.put (by simp)
  | check cond expr site => exact blind_check cond expr site
  | ensure cond expr site => exact blind_ensure cond expr site
  | compare actual expr c site fatalIfUnmet _ ih => exact blind_compare actual expr c site fatalIfUnmet ih
  | fail reason site => exact blind_fatal _ _ site
  | skip reason site => exact blind_skipWith reason site
  | unwind cause => exact blind_unwind cause
  | stop ending => exact blind_stop ending
  | expect e site => exact blind_expectCall e site
  | intercept symbol name site => exact blind_intercept symbol name site
  | parameter name parameter actual site => exact blind_checkParameter name parameter actual site
  | finish name site => exact blind_finish name site
  | returnValue name target site _ ih => exact blind_returnValue name target site ih
  | drop name => exact blind_drop name
  | move f => exact blind_change fun _ _ _ _ alike => alike.change f
  | andThen _ _ left right => exact left.andThen right
  | @depend choose _ ih =>
    intro s past x y alike
    simp only [alike.seen]
    exact ih (x.seen unit) alike
  | caught _ ih => exact ih.caught
  | nested _ ih => exact blind_nested ih

end Phases

/-! ## Scripts -/

namespace Action

open Act

mutual

/-- Whether an action writes nothing to a channel past its unit. -/
def isBound : Action → Bool
  | sendRaw _ => false
  | catching actions => allBound actions
  | nested setup body teardown => optionBound setup && optionBound body && optionBound teardown
  | _ => true

/-- Whether all actions write nothing to a channel past their unit. -/
def allBound : List Action → Bool
  | [] => true
  | action :: rest => isBound action && allBound rest

/-- Whether a function that may be missing writes nothing to a channel past its unit. -/
def optionBound : Option (List Action) → Bool
  | none => true
  | some actions => allBound actions

end

mutual

theorem unseeing_act (unit : Nat) (action : Action) (bound : action.isBound = true) : action.act.Unseeing unit := by
  match action with
  | note text => exact .note _
  | noteActive =>
    have told (t : Thread) : Unseeing unit (Act.note (.active t.isActive)) := .note _
    have same : act noteActive = fun t => Act.note (.active (t.seen unit).isActive) t := by
      funext t
      rw [Thread.isActive, Thread.seen, Option.isSome_map]
      rfl
    rw [same]
    exact .depend told
  | check cond expr site => exact (Unseeing.check cond expr site).andThen (.note _)
  | ensure cond expr site => exact .ensure cond expr site
  | checkThat actual expr constraint site => exact .compare actual expr constraint site false fun _ => .note _
  | ensureThat actual expr constraint site => exact .compare actual expr constraint site true fun _ => .done
  | fail reason site => exact .fail reason site
  | skip reason site => exact .skip reason site
  | panic message => exact .unwind _
  | expect expectation site => exact .expect expectation site
  | intercept symbol call site => exact (Unseeing.intercept symbol call site).andThen (.note _)
  | parameter call name actual site => exact .parameter call name actual site
  | finish call site => exact .finish call site
  | returnValue call target site => exact .returnValue call target site fun _ => .note _
  | drop call => exact .drop call
  | catching actions => exact .caught (unseeing_actAll unit actions (by simpa [isBound] using bound))
  | nested setup body teardown =>
    obtain ⟨⟨first, second⟩, third⟩ : (optionBound setup ∧ optionBound body) ∧ optionBound teardown := by
      simpa [isBound] using bound
    refine .nested fun p act mem => ?_
    cases p with
    | setup => exact unseeing_actOption unit setup first act mem
    | exec => exact unseeing_actOption unit body second act mem
    | teardown => exact unseeing_actOption unit teardown third act mem
  | print bytes => exact .print bytes
  | sleep millis => exact .sleep millis
  | hang => exact .stop _
  | exit code => exact .stop _
  | signal number =>
    rw [act, receive]
    split
    · exact .done
    · split <;> exact .stop _
  | sendRaw bytes => simp [isBound] at bound

/-- **Scripts that write nothing past their unit do not see its channel.** -/
theorem unseeing_actAll (unit : Nat) (actions : List Action) (bound : allBound actions = true) :
    (actAll actions).Unseeing unit := by
  match actions with
  | [] => exact .done
  | action :: rest =>
    rw [allBound, Bool.and_eq_true] at bound
    exact (unseeing_act unit action bound.1).andThen (unseeing_actAll unit rest bound.2)

theorem unseeing_actOption (unit : Nat) (actions : Option (List Action)) (bound : optionBound actions = true) :
    ∀ act ∈ actOption actions, act.Unseeing unit := by
  match actions with
  | none => simp [actOption]
  | some actions =>
    rintro _ ⟨⟩
    exact unseeing_actAll unit actions (by simpa [optionBound] using bound)

end

end Action

/-! ## The whole unit -/

open Thread

/-- What is told of a unit but for the bytes. -/
def UnitReport.outside (report : UnitReport) : Verdict × Bool := (report.verdict, report.activeAfter)

/-- The end of the unit whose channel is apart: a verdict comes last. -/
theorem exists_finishUnit {unit : Nat} {s : ChannelState} {x y : Thread} (alike : Alike unit s False x y) :
    ∃ log, Twins unit s True log (finishUnit unit x).1 (finishUnit unit y).1 ∧
      (∀ r ∈ log.dropLast, r.isTerminal = false) ∧
      (finishUnit unit y).2.outside = (finishUnit unit x).2.outside := by
  obtain ⟨log, twins, plain⟩ := alike
  simp only [finishUnit, twins.verdict, UnitReport.outside]
  generalize (x.context.map (·.verdict)).getD .fail = v
  by_cases own : ∃ c ∈ x.context, c.unit = unit
  · obtain ⟨c, active, own⟩ := own
    have ended := (twins.emit_own active own (.terminal v)).uninstall
    exact ⟨_, ended, by rwa [List.dropLast_concat], by rw [ended.isActive]⟩
  · push Not at own
    have ended := (twins.emit_apart own (.terminal v)).uninstall
    exact ⟨log, ended, fun r mem => plain r (List.dropLast_subset log mem), by rw [ended.isActive]⟩

/-- **A unit on two channels**: it ends in the same way, and the threads it leaves are twins. -/
theorem exists_runUnit {plan : UnitPlan Act} {t : Thread} (fault : SinkFault)
    (functions : ∀ p, ∀ act ∈ plan.function? p, act.Unseeing t.installed) (new : t.bytesOf t.installed = []) :
    ∃ past log, Twins t.installed { fault } past log (runUnit plan .never t).1 (runUnit plan fault t).1 ∧
      (∀ r ∈ log.dropLast, r.isTerminal = false) ∧
      (runUnit plan fault t).2.map UnitReport.outside = (runUnit plan .never t).2.map UnitReport.outside := by
  have installed : Alike t.installed { fault } False (t.install .never) (t.install fault) :=
    ⟨[], twins_install new fault, by simp⟩
  obtain ⟨x, y, ending, ran, ran', met⟩ :=
    (meets_runPhases (fun p act mem => (functions p act mem).blind) installed).split
  simp only [runUnit, ran, ran']
  cases ending with
  | some ending =>
    obtain ⟨log, twins, plain⟩ := met
    exact ⟨False, log, twins, fun r mem => plain r (List.dropLast_subset log mem), rfl⟩
  | none =>
    obtain ⟨log, twins, plain, same⟩ := exists_finishUnit met
    exact ⟨True, log, twins, plain, congrArg Except.ok same⟩

/-- **A broken channel goes unnoticed.** A unit runs on a new channel that breaks at any write or flush, and for
comparison on one that never breaks. Its functions are any that do not see the channel. In both cases the unit ends in
the same way, with the same verdict, and all that can be seen of its thread is the same: what was noted, printed and
sent on other channels, and the open calls. There are records such that the one channel took the frames of all of them,
and the other took of these what such a channel takes: the beginning, and nothing after the write or flush that failed.
The reader of the broken channel gets the first of the records, and no verdict unless all bytes were taken. -/
theorem breaking_unnoticed {plan : UnitPlan Act} {t : Thread} (fault : SinkFault)
    (functions : ∀ p, ∀ act ∈ plan.function? p, act.Unseeing t.installed) (new : t.bytesOf t.installed = []) :
    let whole := runUnit plan .never t
    let broken := runUnit plan fault t
    let unit := t.installed
    broken.2.map UnitReport.outside = whole.2.map UnitReport.outside ∧
      broken.1.seen unit = whole.1.seen unit ∧
      ∃ log : List Record,
        whole.1.bytesOf unit = (log.map Record.sentFrame).flatten ∧
        broken.1.bytesOf unit = ChannelState.takes { fault } (log.map Record.sentFrame) ∧
        broken.1.bytesOf unit <+: whole.1.bytesOf unit ∧
        (∀ before rest, log = before ++ rest →
          (ChannelState.after { fault } (before.map Record.sentFrame)).broken = true →
          broken.1.bytesOf unit = ChannelState.takes { fault } (before.map Record.sentFrame)) ∧
        ∃ k d, Decoder.new.feed (broken.1.bytesOf unit) = (d, .ok ((log.take k).map Record.sent)) ∧
          ((∃ r ∈ (log.take k).map Record.sent, r.isTerminal = true) →
            broken.1.bytesOf unit = whole.1.bytesOf unit) := by
  intro whole broken unit
  obtain ⟨past, log, twins, plain, same⟩ := exists_runUnit fault functions new
  refine ⟨same, twins.seen, log, twins.sent, twins.taken, ?_, ?_, ?_⟩
  · rw [twins.taken, twins.sent]
    refine ChannelState.takes_prefix _ _ fun bytes mem => ?_
    obtain ⟨r, _, rfl⟩ := List.mem_map.1 mem
    exact r.sentFrame_ne_nil
  · rintro before rest rfl broke
    rw [twins.taken, List.map_append, ChannelState.takes_append, ChannelState.takes_of_broken broke, List.append_nil]
  · obtain ⟨k, torn, d, taken, part, read⟩ := ChannelState.exists_read { fault } log
    rw [← twins.taken] at taken read
    refine ⟨k, d, by rw [Decoder.feed_of_isReading Decoder.isReading_new, read], ?_⟩
    rintro ⟨_, mem, verdict⟩
    obtain ⟨r, early, rfl⟩ := List.mem_map.1 mem
    rw [r.kind_sent.2.2.2] at verdict
    -- A verdict is the last record, so that all frames were taken before the channel broke.
    have all : log.length ≤ k := by
      by_contra few
      have within : log.take k = log.dropLast.take k := by
        rw [List.dropLast_eq_take, List.take_take, Nat.min_eq_left (by omega)]
      rw [within] at early
      rw [plain r (List.mem_of_mem_take early)] at verdict
      cases verdict
    rw [List.getElem?_eq_none all] at part
    obtain rfl : torn = [] := by simpa [ChannelState.Torn] using part
    rw [taken, List.take_of_length_le all, List.append_nil, twins.sent]

/-- A channel that breaks in the frame of a failed check, of which it takes nine bytes. The body and the teardown go on,
and the verdict is the same. -/
theorem breaking_unnoticed_torn :
    let site : Site := ⟨"t.rs", 7, "f"⟩
    let plan : UnitPlan Script := ⟨none, some [.check false "x" site, .note "body"], some [.note "teardown"]⟩
    let failed : Record := .failure ⟨"x", site, "check failed", false⟩
    let whole := runUnit plan.acts .never (.start none)
    let broken := runUnit plan.acts (.tear 1 9) (.start none)
    broken.2.map UnitReport.outside = .ok (.fail, false) ∧ whole.2.map UnitReport.outside = .ok (.fail, false) ∧
      broken.1.trace = [.checked false, .note "body", .note "teardown"] ∧ broken.1.trace = whole.1.trace ∧
      broken.1.bytesOf 0 = (Record.phase .exec).sentFrame ++ failed.sentFrame.take 9 ∧
      broken.1.bytesOf 0 <+: whole.1.bytesOf 0 ∧ broken.1.bytesOf 0 ≠ whole.1.bytesOf 0 ∧
      ∃ d records, Decoder.new.feed (broken.1.bytesOf 0) = (d, .ok records) ∧
        ∀ r ∈ records, r.isTerminal = false := by
  intro site plan failed whole broken
  have functions : ∀ p, ∀ act ∈ plan.acts.function? p, act.Unseeing 0 := by
    intro p act mem
    cases p <;> cases mem <;> exact Action.unseeing_actAll 0 _ rfl
  obtain ⟨same, (seen : broken.1.seen 0 = whole.1.seen 0), log, _, _, within, _, k, d, read, verdict⟩ :=
    breaking_unnoticed (t := .start none) (.tear 1 9) functions rfl
  have ended : whole.2.map UnitReport.outside = .ok (.fail, false) := by decide +kernel
  have noted : whole.1.trace = [.checked false, .note "body", .note "teardown"] := by decide +kernel
  have hidden (t : Thread) : (t.seen 0).trace = t.trace := rfl
  have notes : broken.1.trace = whole.1.trace := by rw [← hidden, ← hidden whole.1, seen]
  have bytes : broken.1.bytesOf 0 = (Record.phase .exec).sentFrame ++ failed.sentFrame.take 9 := by decide +kernel
  have short : broken.1.bytesOf 0 ≠ whole.1.bytesOf 0 := by decide +kernel
  refine ⟨same.trans ended, ended, notes.trans noted, notes, bytes, within, short, d, _, read, ?_⟩
  intro r mem
  by_contra terminal
  exact short (verdict ⟨r, mem, by simpa using terminal⟩)

end TestIsolation
