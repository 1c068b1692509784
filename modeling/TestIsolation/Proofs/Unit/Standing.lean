import Mathlib.Tactic.SplitIfs
import TestIsolation.Proofs.Mock.Matching
import TestIsolation.Unit.Script

/-!
# Where a unit stands

Whatever its channel does, a unit has a queue of expected calls, a number of failures and perhaps a request to be
skipped: its `Standing`. Each change of a thread is described by what it does to the standing and to the open calls,
so that what is shown of these holds for every channel, also for one that breaks.
-/

namespace TestIsolation

set_option autoImplicit false

/-- What the verdict of a unit depends on. -/
structure Standing where
  queue : ExpectQueue := {}
  failures : Nat := 0
  skipped : Bool := false
  deriving DecidableEq, Repr

/-- A unit that stands well and expects some calls. -/
abbrev Standing.good (queue : ExpectQueue) : Standing := { queue }

theorem Standing.eq_good_of_queue {s : Standing} {queue queue' : ExpectQueue}
    (same : { s with queue } = Standing.good queue') : s = .good s.queue ∧ queue = queue' := by
  cases s
  simpa [Standing.good, and_comm] using same

/-- Where a unit stands. -/
def UnitContext.standing (c : UnitContext) : Standing := ⟨c.queue, c.failures, c.skipped⟩

namespace Thread

/-- Where the active unit stands, if there is one. -/
def standing? (t : Thread) : Option Standing := t.context.map (·.standing)

/-- The active unit, if there is one, has failed. -/
def HasFailed (t : Thread) : Prop := ∀ s, t.standing? = some s → 0 < s.failures

/-- The active unit, if there is one, has failed or is skipped. -/
def Tainted (t : Thread) : Prop := ∀ queue, t.standing? ≠ some (.good queue)

/-- No call is open, and the active unit stands well and expects some calls. -/
structure Clean (t : Thread) (queue : ExpectQueue) : Prop where
  calls : t.calls = []
  standing : t.standing? = some (.good queue)

variable (t : Thread)

theorem isActive_eq : t.isActive = t.standing?.isSome := by rw [isActive, standing?, Option.isSome_map]

theorem context_eq_none_iff : t.context = none ↔ t.standing? = none := by rw [standing?, Option.map_eq_none_iff]

theorem standing?_eq_some_iff {t : Thread} {s : Standing} :
    t.standing? = some s ↔ ∃ c, t.context = some c ∧ c.standing = s := Option.map_eq_some_iff

/-! ## Changes without a say -/

@[simp] theorem calls_note (item : TraceItem) : (t.note item).calls = t.calls := rfl

@[simp] theorem standing?_note (item : TraceItem) : (t.note item).standing? = t.standing? := rfl

@[simp] theorem calls_put (e : Emission) : (t.put e).calls = t.calls := rfl

@[simp] theorem standing?_put (e : Emission) : (t.put e).standing? = t.standing? := rfl

theorem calls_foldl_put (unit : Nat) (accepted : List Bytes) :
    (accepted.foldl (fun (t : Thread) bytes => t.put (.outcome unit bytes)) t).calls = t.calls := by
  induction accepted generalizing t with
  | nil => rfl
  | cons bytes accepted ih => rw [List.foldl_cons, ih, calls_put]

theorem calls_write (c : UnitContext) (r : Record) : (t.write c r).1.calls = t.calls := calls_foldl_put _ _ _

theorem standing?_write (c : UnitContext) (r : Record) : (t.write c r).1.standing? = some c.standing := rfl

/-- Sending a record, with whatever success, changes only the channel. -/
theorem emit_unfelt (r : Record) : (t.emit r).calls = t.calls ∧ (t.emit r).standing? = t.standing? := by
  cases context : t.context with
  | none => simp only [emit, context, and_self]
  | some c =>
    have here : t.standing? = some c.standing := by rw [standing?, context, Option.map_some]
    have calls := calls_write t c r
    have standing := standing?_write t c r
    simp only [emit, context]
    split
    · exact ⟨rfl, rfl⟩
    · split
      · rename_i next length written
        rw [written] at calls standing
        split
        · rename_i next short again _
          rw [standing?, again] at standing
          exact ⟨(calls_write _ _ _).trans calls, (standing?_write _ _ _).trans (standing.trans here.symm)⟩
        · exact ⟨calls, standing.trans here.symm⟩
      · rename_i next result _ written
        rw [written] at calls standing
        exact ⟨calls, standing.trans here.symm⟩

@[simp] theorem calls_emit (r : Record) : (t.emit r).calls = t.calls := (t.emit_unfelt r).1

@[simp] theorem standing?_emit (r : Record) : (t.emit r).standing? = t.standing? := (t.emit_unfelt r).2

/-! ## Failures, skips and units -/

@[simp] theorem calls_fail (f : Failure) : (t.fail f).calls = t.calls := by rw [fail, calls_emit, modifyContext]

@[simp] theorem standing?_fail (f : Failure) :
    (t.fail f).standing? = t.standing?.map fun s => { s with failures := s.failures + 1 } := by
  rw [fail, standing?_emit]
  simp only [standing?, modifyContext, Option.map_map]
  rfl

@[simp] theorem calls_skip (notice : SkipNotice) : (t.skip notice).calls = t.calls := by
  rw [skip, calls_emit, modifyContext]

@[simp] theorem standing?_skip (notice : SkipNotice) :
    (t.skip notice).standing? = t.standing?.map fun s => { s with skipped := true } := by
  rw [skip, standing?_emit]
  simp only [standing?, modifyContext, Option.map_map]
  rfl

@[simp] theorem calls_uninstall : t.uninstall.calls = t.calls := by unfold uninstall; split <;> rfl

@[simp] theorem standing?_uninstall : t.uninstall.standing? = none := by
  unfold uninstall
  split
  · rfl
  · rename_i none_
    exact (context_eq_none_iff t).1 none_

@[simp] theorem calls_install (fault : SinkFault) : (t.install fault).calls = t.calls := calls_uninstall t

@[simp] theorem standing?_install (fault : SinkFault) : (t.install fault).standing? = some (.good {}) := rfl

theorem hasFailed_fail (f : Failure) : (t.fail f).HasFailed := by
  intro s failed
  rw [standing?_fail, Option.map_eq_some_iff] at failed
  obtain ⟨before, _, rfl⟩ := failed
  exact Nat.succ_pos _

theorem HasFailed.tainted {t : Thread} (failed : t.HasFailed) : t.Tainted :=
  fun _ good => absurd (failed _ good) (Nat.lt_irrefl 0)

theorem hasFailed_of_none {t : Thread} (none_ : t.standing? = none) : t.HasFailed := by
  intro s some_
  rw [none_] at some_
  exact absurd some_ nofun

theorem tainted_skip (notice : SkipNotice) : (t.skip notice).Tainted := by
  intro queue good
  rw [standing?_skip, Option.map_eq_some_iff] at good
  obtain ⟨s, _, same⟩ := good
  exact absurd (congrArg Standing.skipped same) nofun

end Thread

/-- A unit passes exactly if it stands well. -/
theorem UnitContext.verdict_eq_pass_iff (c : UnitContext) :
    c.verdict = .pass ↔ c.standing = .good c.queue := by
  unfold UnitContext.verdict standing
  simp only [Standing.good, Standing.mk.injEq, true_and]
  split_ifs with failed skipped <;> simp_all
  omega

namespace Thread

/-- A unit is given a pass exactly if it stands well at its end. -/
theorem finishUnit_verdict_eq_pass_iff (unit : Nat) (t : Thread) :
    (finishUnit unit t).2.verdict = .pass ↔ ∃ queue, t.standing? = some (.good queue) := by
  simp only [finishUnit, standing?]
  cases t.context with
  | none => simp
  | some c =>
    simp only [Option.map_some, Option.getD_some, c.verdict_eq_pass_iff, Option.some.injEq]
    constructor
    · exact fun good => ⟨_, good⟩
    · rintro ⟨queue, good⟩
      have same : c.queue = queue := congrArg Standing.queue good
      rw [good, same]

/-- A unit that has failed is told so at its end. -/
theorem HasFailed.finishUnit_verdict {t : Thread} (failed : t.HasFailed) (unit : Nat) :
    (finishUnit unit t).2.verdict = .fail := by
  unfold finishUnit
  cases context : t.context with
  | none => rfl
  | some c =>
    have counted : 0 < c.failures := failed c.standing (by rw [standing?, context, Option.map_some])
    simp only [Option.map_some, Option.getD_some, UnitContext.verdict, gt_iff_lt, counted, if_true]

/-- The check at the end of a unit fails if calls are still expected. -/
theorem checkQueue_of_standing {t : Thread} {s : Standing} (stands : t.standing? = some s) :
    if s.queue.entries = [] then (checkQueue t).standing? = some s else (checkQueue t).HasFailed := by
  obtain ⟨c, context, rfl⟩ := standing?_eq_some_iff.1 stands
  have same : c.standing.queue = c.queue := rfl
  unfold checkQueue
  rw [same, context]
  simp only [ExpectQueue.endOfTest]
  split
  · rename_i empty
    simp only [empty]
    rfl
  · rename_i left
    cases entries : c.queue.entries with
    | nil => exact absurd entries left
    | cons entry rest => exact hasFailed_fail _ _

end Thread

/-! ## What acts do -/

namespace Act

variable {t : Thread} {s : Standing}

theorem report_of_standing (stands : t.standing? = some s) (f : Failure) : report f t = (t.fail f, .normal) := by
  have active : t.isActive = true := by rw [Thread.isActive_eq, stands]; rfl
  simp only [report, active, if_true]

theorem fatal_of_standing (stands : t.standing? = some s) (expression message : String) (site : Site) :
    fatal expression message site t = (t.fail ⟨expression, site, message, true⟩, .unwinding .failed) := by
  simp only [fatal, andThen, recordFatal, report_of_standing stands, unwind]

@[simp] theorem calls_report (f : Failure) (t : Thread) : (report f t).1.calls = t.calls := by
  unfold report
  split
  · exact t.calls_fail f
  · rfl

theorem hasFailed_report (f : Failure) (t : Thread) : (report f t).1.HasFailed := by
  unfold report
  split
  · exact t.hasFailed_fail f
  · rename_i inactive
    have none_ : t.standing? = none := by simpa [Thread.isActive_eq] using inactive
    exact Thread.hasFailed_of_none none_

theorem fatal_fst (expression message : String) (site : Site) (t : Thread) :
    (fatal expression message site t).1 = (recordFatal expression message site t).1 := by
  unfold fatal andThen
  rcases recordFatal expression message site t with ⟨u, flow⟩
  cases flow <;> rfl

@[simp] theorem calls_fatal (expression message : String) (site : Site) (t : Thread) :
    (fatal expression message site t).1.calls = t.calls := by rw [fatal_fst, recordFatal, calls_report]

theorem hasFailed_fatal (expression message : String) (site : Site) (t : Thread) :
    (fatal expression message site t).1.HasFailed := by
  rw [fatal_fst]
  exact hasFailed_report _ t

/-- An expected call joins the end of the queue. -/
theorem expectCall_of_standing (stands : t.standing? = some s) (e : Expectation) (site : Site) :
    ∃ u : Thread, expectCall e site t = (u, .normal) ∧ u.calls = t.calls ∧
      u.standing? = some { s with queue := (s.queue.push e site).1 } := by
  obtain ⟨c, context, rfl⟩ := Thread.standing?_eq_some_iff.1 stands
  refine ⟨{ t with context := some { c with queue := (c.queue.push e site).1 } }, ?_, rfl, rfl⟩
  simp only [expectCall, context]

/-- A call takes the head of the queue, and is open if it is of the head's symbol. -/
theorem intercept_of_standing (stands : t.standing? = some s) (symbol name : String) (site : Site) :
    ∃ u : Thread, u.calls = t.calls ∧ u.standing? = some { s with queue := (s.queue.intercept symbol).1 } ∧
      match (s.queue.intercept symbol).2 with
      | .ok entry =>
        intercept symbol name site t = ({ u with calls := t.calls ++ [(name, { entry, site })] }, .normal)
      | .error violation =>
        intercept symbol name site t = fatal (callExpression symbol) violation.message site u := by
  obtain ⟨c, context, rfl⟩ := Thread.standing?_eq_some_iff.1 stands
  refine ⟨{ t with context := some { c with queue := (c.queue.intercept symbol).1 } }, rfl, rfl, ?_⟩
  simp only [intercept, context, UnitContext.standing]
  rcases c.queue.intercept symbol with ⟨queue, taken⟩
  cases taken <;> rfl

/-- A query changes the open call; if it breaks a rule, that is recorded and the call is deferred. -/
theorem checkParameter_of_openCall {name : String} {call : MockCall} (isOpen : openCall? t name = some call)
    (q : Query) (site : Site) :
    match call.entry.query? q with
    | some entry => checkParameter name q.name q.actual site t = (update t name { call with entry }, .normal)
    | none => ∃ entry expression message, checkParameter name q.name q.actual site t =
        recordFatal expression message site (update t name { call with entry, deferred := true }) := by
  unfold Expectation.query? checkParameter
  rw [isOpen]
  simp only
  rcases call.entry.checkParameter q.name q.actual with ⟨entry, _ | violation⟩
  · exact ⟨entry, _, _, rfl⟩
  · rfl

/-- Completes an open call. -/
def completing (name : String) (site : Site) : Completing → Act
  | .finish => finish name site
  | .returning target => returnValue name target site fun _ => done

theorem fatal_andThen (expression message : String) (site : Site) (next : Act) :
    (fatal expression message site).andThen next = fatal expression message site := by
  funext t
  unfold fatal andThen
  rcases recordFatal expression message site t with ⟨u, flow⟩
  cases flow <;> rfl

/-- A call that is not deferred is completed if nothing is left of it. -/
theorem complete_of_intact (call : MockCall) (intact : call.deferred = false) (site : Site) :
    ∃ expression message,
      complete call site = if call.entry.leftovers.isOk then done else fatal expression message site := by
  unfold complete
  rw [intact]
  cases call.entry.leftovers with
  | ok _ => exact ⟨"", "", rfl⟩
  | error violation => exact ⟨_, _, rfl⟩

/-- A value is returned if there is one of the type and nothing else is left. -/
theorem returnValue_of_openCall {name : String} {call : MockCall} (isOpen : openCall? t name = some call)
    (intact : call.deferred = false) (target : Target) (site : Site) (next : Converted → Act) :
    (∃ v ∈ call.entry.returns, ∃ converted, v.convert target = .ok converted ∧ call.entry.unqueried = [] ∧
      returnValue name target site next t = next converted (close t name)) ∨
    call.entry.completes (.returning target) = false ∧ ∃ expression message,
      returnValue name target site next t = fatal expression message site (close t name) := by
  simp only [returnValue, isOpen, intact, Expectation.completes, Expectation.takeReturn, Bool.false_eq_true, if_false]
  cases returns : call.entry.returns with
  | none => exact .inr ⟨rfl, _, _, rfl⟩
  | some v =>
    simp only
    cases converted : v.convert target with
    | error error => exact .inr ⟨by simp [Except.isOk, Except.toBool], _, _, rfl⟩
    | ok value =>
      have whole := Expectation.isOk_leftovers { call.entry with returns := none }
      obtain ⟨expression, message, completed⟩ :=
        complete_of_intact { call with entry := { call.entry with returns := none } } intact site
      simp only [intact] at completed
      rw [completed]
      cases nothing : ({ call.entry with returns := none } : Expectation).leftovers.isOk with
      | true => exact .inl ⟨v, rfl, value, converted, (whole.1 nothing).1, rfl⟩
      | false =>
        refine .inr ⟨by simp [Except.isOk, Except.toBool], expression, message, ?_⟩
        simp only [Bool.false_eq_true, if_false, fatal_andThen]

/-- The value that an open call returns as one of a type, if it has one. -/
def returned? (t : Thread) (name : String) (target : Target) : Option Converted := do
  let call ← openCall? t name
  let v ← call.entry.returns
  (v.convert target).toOption

/-- What follows a returned value follows the completion of the call. -/
theorem returnValue_eq_andThen (name : String) (target : Target) (site : Site) (next : Converted → Act) (t : Thread) :
    returnValue name target site next t =
      ((completing name site (.returning target)).andThen ((returned? t name target).elim done next)) t := by
  unfold completing andThen
  cases isOpen : openCall? t name with
  | none => simp only [returnValue, returned?, isOpen]; rfl
  | some call =>
    cases deferred : call.deferred with
    | true => simp only [returnValue, isOpen, deferred, if_true, unwind]
    | false =>
      have failing (expression message : String) (next : Act) :=
        congrFun (fatal_andThen expression message site next) (close t name)
      simp only [returnValue, returned?, isOpen, deferred, Bool.false_eq_true, if_false, Expectation.takeReturn]
      cases returns : call.entry.returns with
      | none => exact (failing _ _ _).symm
      | some v =>
        cases converted : v.convert target with
        | error error => simp only [converted]; exact (failing _ _ _).symm
        | ok value =>
          simp only [converted, returns, andThen, Option.bind_eq_bind, Option.bind_some, Except.toOption,
            Option.elim_some]
          rcases complete _ site (close t name) with ⟨u, flow⟩
          cases flow <;> rfl

/-- An open call is closed when it is completed, and it fails unless nothing is left of it. -/
theorem completing_of_openCall {name : String} {call : MockCall} (isOpen : openCall? t name = some call)
    (ending : Completing) (site : Site) :
    ∃ expression message, completing name site ending t =
      if call.deferred then (close t name, .unwinding .failed)
      else if call.entry.completes ending then (close t name, .normal)
      else fatal expression message site (close t name) := by
  cases deferred : call.deferred with
  | true =>
    refine ⟨"", "", ?_⟩
    cases ending <;> simp only [completing, finish, returnValue, complete, isOpen, deferred, if_true, unwind]
  | false =>
    simp only [Bool.false_eq_true, if_false]
    cases ending with
    | finish =>
      obtain ⟨expression, message, completed⟩ := complete_of_intact call deferred site
      refine ⟨expression, message, ?_⟩
      have same : call.entry.completes .finish = call.entry.leftovers.isOk := rfl
      rw [same, completing, finish, isOpen]
      simp only [completed]
      split <;> rfl
    | returning target =>
      obtain ⟨v, mem, converted, ok, nothing, run⟩ | ⟨refused, expression, message, run⟩ :=
        returnValue_of_openCall isOpen deferred target site fun _ => done
      · have completes := (call.entry.completes_iff (.returning target)).2 ⟨nothing, v, mem, converted, ok⟩
        exact ⟨"", "", by rw [completing, run, if_pos completes]; rfl⟩
      · exact ⟨expression, message, by rw [completing, run, refused, if_neg Bool.false_ne_true]⟩

/-- A frame with no call left open ends as what is in it. -/
theorem framed_of_normal {inner : Act} {t u : Thread} (ran : inner { t with calls := [] } = (u, .normal))
    (closed : u.calls = []) : framed inner t = ({ u with calls := t.calls }, .normal) := by
  simp only [framed, andThen, ran, closed, dropAll, done]

/-- A frame unwinds as what is in it. -/
theorem framed_of_unwinding {inner : Act} {t u : Thread} {cause : Unwinding}
    (ran : inner { t with calls := [] } = (u, .unwinding cause)) :
    framed inner t = ({ u with calls := t.calls }, .unwinding cause) := by
  simp only [framed, andThen, ran]

end Act

end TestIsolation
