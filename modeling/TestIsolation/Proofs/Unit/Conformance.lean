import TestIsolation.Proofs.Unit.Standing

/-!
# Which calls conform to what was declared

The body of a unit declares calls and makes calls, in any order (`MockStep`). The calls conform to what was declared if
there are as many of them, and each comes after the declaration at its place in the order and answers it
(`Conforms`). The unit passes exactly then, and otherwise it has failed (`mock_verdict`).
-/

namespace TestIsolation

set_option autoImplicit false

/-- A call as a test declares it. -/
structure Declared where
  symbol : String
  /-- Constraints under the names of parameters, in the order they were registered. -/
  params : List (String × Constraint) := []
  returns : Option Value := none
  deriving DecidableEq, Repr

/-- A call as it is made: it is opened under a handle, queries parameters and is completed. -/
structure CallScript where
  symbol : String
  handle : String
  site : Site
  queries : List (Query × Site) := []
  ending : Completing
  endSite : Site
  deriving DecidableEq, Repr

/-- A part of a body that declares calls and makes calls. -/
inductive MockStep where
  | push (declared : Declared) (site : Site)
  | call (made : CallScript)
  deriving DecidableEq, Repr

namespace Declared

/-- The constraints registered under a name, in order. -/
def registered (d : Declared) (name : String) : List Constraint :=
  (d.params.filter (·.1 = name)).map (·.2)

/-- What the engine is told to expect. -/
def expectation (d : Declared) : Expectation where
  symbol := d.symbol
  params := d.params.map fun (name, constraint) => { name, constraint }
  returns := d.returns

/-- A call answers a declared one: it is of the same symbol, under each name its values meet the registered constraints
one by one, and it is completed in a way that suits the value to return. -/
structure AnsweredBy (d : Declared) (c : CallScript) : Prop where
  symbol : c.symbol = d.symbol
  params : ∀ name, List.Forall₂ (fun constraint actual => constraint.evaluate actual = .ok true) (d.registered name)
    (Query.values name (c.queries.map (·.1)))
  returns : c.ending.Suits d.returns

end Declared

namespace CallScript

/-- The queries of a call. -/
def asking (handle : String) (queries : List (Query × Site)) : Script :=
  queries.map fun (q, site) => .parameter handle q.name q.actual site

/-- The completion of a call. -/
def completion (c : CallScript) : Action :=
  match c.ending with
  | .finish => .finish c.handle c.endSite
  | .returning target => .returnValue c.handle target c.endSite

/-- A call as actions. -/
def script (c : CallScript) : Script :=
  .intercept c.symbol c.handle c.site :: (asking c.handle c.queries ++ [c.completion])

end CallScript

namespace MockStep

/-- A part of a body as actions. -/
def script : MockStep → Script
  | push declared site => [.expect declared.expectation site]
  | call made => made.script

/-- The declarations among steps, numbered with their positions from a start on. -/
def pushesFrom (start : Nat) (steps : List MockStep) : List (Declared × Nat) :=
  (steps.zipIdx start).filterMap fun
    | (push declared _, position) => some (declared, position)
    | (call _, _) => none

/-- The calls among steps, numbered with their positions from a start on. -/
def callsFrom (start : Nat) (steps : List MockStep) : List (CallScript × Nat) :=
  (steps.zipIdx start).filterMap fun
    | (call made, position) => some (made, position)
    | (push .., _) => none

/-- There are as many calls as declarations, and each call comes after the declaration at its place in the order and
answers it. -/
def Conforms (steps : List MockStep) : Prop :=
  List.Forall₂ (fun push call => push.2 < call.2 ∧ push.1.AnsweredBy call.1) (pushesFrom 0 steps) (callsFrom 0 steps)

/-- The calls of a body answer in turn what was declared before and what the body declares, with nothing left. -/
def Settles : List Declared → List MockStep → Prop
  | pending, [] => pending = []
  | pending, push declared _ :: steps => Settles (pending ++ [declared]) steps
  | [], call _ :: _ => False
  | declared :: pending, call made :: steps => declared.AnsweredBy made ∧ Settles pending steps

/-! ## The order of declarations and calls -/

theorem le_of_mem_pushesFrom {start : Nat} {steps : List MockStep} :
    ∀ declared ∈ pushesFrom start steps, start ≤ declared.2 := by
  intro declared mem
  obtain ⟨⟨step, position⟩, at_, eq⟩ := List.mem_filterMap.1 mem
  have bound := (List.mem_zipIdx at_).1
  cases step with
  | push _ _ => cases eq; exact bound
  | call _ => cases eq

/-- What is pending was declared earlier, so the calls settle everything exactly if they answer the pending
declarations and those to come, each after its declaration. -/
theorem settles_iff (pending : List (Declared × Nat)) (start : Nat) (steps : List MockStep)
    (earlier : ∀ declared ∈ pending, declared.2 < start) :
    Settles (pending.map (·.1)) steps ↔
      List.Forall₂ (fun push call => push.2 < call.2 ∧ push.1.AnsweredBy call.1)
        (pending ++ pushesFrom start steps) (callsFrom start steps) := by
  induction steps generalizing pending start with
  | nil => simp [Settles, pushesFrom, callsFrom]
  | cons step steps ih =>
    have later : ∀ declared ∈ pending, declared.2 < start + 1 := fun declared mem => by
      have := earlier declared mem
      omega
    cases step with
    | push declared site =>
      have grown := ih (pending ++ [(declared, start)]) (start + 1) (by simpa [or_imp, forall_and] using later)
      rw [List.map_append, List.append_assoc] at grown
      exact grown
    | call made =>
      have pushes : pushesFrom start (call made :: steps) = pushesFrom (start + 1) steps := rfl
      have calls : callsFrom start (call made :: steps) = (made, start) :: callsFrom (start + 1) steps := rfl
      rw [pushes, calls]
      cases pending with
      | nil =>
        simp only [List.map_nil, Settles, List.nil_append, false_iff]
        intro answered
        obtain ⟨declared, rest, ⟨before, _⟩, _, split⟩ := List.forall₂_cons_right_iff.1 answered
        have bound := le_of_mem_pushesFrom declared (split ▸ List.mem_cons_self ..)
        omega
      | cons declared pending =>
        have inTime := earlier declared (List.mem_cons_self ..)
        rw [List.map_cons, Settles, List.cons_append, List.forall₂_cons,
          ih pending (start + 1) fun other mem => later other (List.mem_cons_of_mem _ mem)]
        simp only [inTime, true_and]

/-- The calls of a body conform exactly if they settle what it declares. -/
theorem conforms_iff (steps : List MockStep) : Conforms steps ↔ Settles [] steps :=
  (settles_iff [] 0 steps nofun).symm

end MockStep

/-! ## One call -/

/-- An expected call is the one that was declared. -/
structure Expectation.Declares (e : Expectation) (d : Declared) : Prop where
  symbol : e.symbol = d.symbol
  params : e.params = d.expectation.params
  returns : e.returns = d.returns

/-- All constraints of a fresh declaration are owed. -/
theorem Declared.owed_expectation (d : Declared) (name : String) :
    Parameter.owed name d.expectation.params = d.registered name := by
  unfold Parameter.owed expectation registered
  rw [List.filter_map, List.map_map]
  simp [Function.comp_def]

theorem Expectation.Declares.answeredBy_iff {e : Expectation} {d : Declared} (declares : e.Declares d)
    (c : CallScript) :
    d.AnsweredBy c ↔ e.symbol = c.symbol ∧ e.Met (c.queries.map (·.1)) c.ending := by
  have owed (name : String) : Parameter.owed name e.params = d.registered name := by
    rw [declares.params, d.owed_expectation]
  constructor
  · rintro ⟨symbol, params, returns⟩
    refine ⟨declares.symbol.trans symbol.symm, fun name => ?_, declares.returns.symm ▸ returns⟩
    rw [owed]
    exact params name
  · rintro ⟨symbol, params, returns⟩
    refine ⟨symbol.symm.trans declares.symbol, fun name => ?_, declares.returns ▸ returns⟩
    rw [← owed]
    exact params name

theorem Action.actAll_append (first second : Script) :
    actAll (first ++ second) = (actAll first).andThen (actAll second) := by
  induction first with
  | nil => rfl
  | cons action first ih =>
    funext t
    rw [List.cons_append, actAll, actAll, ih]
    simp only [Act.andThen]
    rcases act action t with ⟨u, flow⟩
    cases flow <;> rfl

namespace CallScript

open Act Thread

variable {t : Thread} {c : CallScript} {queue : ExpectQueue} {handle : String} {site : Site}

/-- The only open call is deferred, and the unit has failed. -/
structure Spoiled (handle : String) (t : Thread) : Prop where
  call : ∃ call, t.calls = [(handle, call)] ∧ call.deferred = true
  failed : ∃ s, t.standing? = some s ∧ 0 < s.failures

theorem openCall?_of_calls {call : MockCall} (calls : t.calls = [(handle, call)]) :
    openCall? t handle = some call := by simp [openCall?, calls]

theorem calls_update {call next : MockCall} (calls : t.calls = [(handle, call)]) :
    (update t handle next).calls = [(handle, next)] := by simp [update, replaceCall, calls]

theorem calls_close {call : MockCall} (calls : t.calls = [(handle, call)]) : (close t handle).calls = [] := by
  simp [close, calls]

/-- A query that breaks a rule spoils the call. -/
theorem spoiled_recordFatal {call : MockCall} {s : Standing} (calls : t.calls = [(handle, call)])
    (deferred : call.deferred = true) (stands : t.standing? = some s) (expression message : String) (site : Site) :
    ∃ u, recordFatal expression message site t = (u, .normal) ∧ Spoiled handle u := by
  refine ⟨t.fail ⟨expression, site, message, true⟩, report_of_standing stands _, ⟨call, ?_, deferred⟩, ?_⟩
  · rw [calls_fail, calls]
  · exact ⟨_, by rw [standing?_fail, stands, Option.map_some], Nat.succ_pos _⟩

/-- A spoiled call stays spoiled. -/
theorem Spoiled.asking (spoiled : Spoiled handle t) (queries : List (Query × Site)) :
    ∃ u, Action.actAll (asking handle queries) t = (u, .normal) ∧ Spoiled handle u := by
  induction queries generalizing t with
  | nil => exact ⟨t, rfl, spoiled⟩
  | cons query queries ih =>
    obtain ⟨⟨call, calls, deferred⟩, s, stands, failed⟩ := spoiled
    have step : ∃ u, checkParameter handle query.1.name query.1.actual query.2 t = (u, .normal) ∧
        Spoiled handle u := by
      have answer := checkParameter_of_openCall (openCall?_of_calls calls) query.1 query.2
      cases queried : call.entry.query? query.1 with
      | some entry =>
        rw [queried] at answer
        exact ⟨_, answer, ⟨_, calls_update calls, deferred⟩, s, stands, failed⟩
      | none =>
        rw [queried] at answer
        obtain ⟨entry, expression, message, run⟩ := answer
        rw [run]
        exact spoiled_recordFatal (calls_update calls) rfl stands _ _ _
    obtain ⟨u, run, spoiled⟩ := step
    obtain ⟨v, further, spoiled⟩ := ih spoiled
    refine ⟨v, ?_, spoiled⟩
    have head : Action.actAll (CallScript.asking handle (query :: queries)) =
        (checkParameter handle query.1.name query.1.actual query.2).andThen
          (Action.actAll (CallScript.asking handle queries)) := rfl
    rw [head, andThen, run]
    exact further

/-- The queries of an open call break no rule, or spoil it. -/
theorem asking_of_calls {entry : Expectation} (calls : t.calls = [(handle, { entry, site })])
    (stands : t.standing? = some (.good queue)) (queries : List (Query × Site)) :
    ∃ u, Action.actAll (asking handle queries) t = (u, .normal) ∧
      match entry.queried? (queries.map (·.1)) with
      | some next => u.calls = [(handle, { entry := next, site })] ∧ u.standing? = some (.good queue)
      | none => Spoiled handle u := by
  induction queries generalizing t entry with
  | nil => exact ⟨t, rfl, calls, stands⟩
  | cons query queries ih =>
    have head : Action.actAll (asking handle (query :: queries)) =
        (checkParameter handle query.1.name query.1.actual query.2).andThen
          (Action.actAll (asking handle queries)) := rfl
    have answer := checkParameter_of_openCall (openCall?_of_calls calls) query.1 query.2
    rw [head, andThen, List.map_cons, Expectation.queried?]
    simp only at answer
    cases queried : entry.query? query.1 with
    | some next =>
      rw [queried] at answer
      rw [answer]
      exact ih (calls_update calls) stands
    | none =>
      rw [queried] at answer
      obtain ⟨broken, expression, message, run⟩ := answer
      have calls' : (update t handle { entry := broken, site, deferred := true }).calls =
          [(handle, { entry := broken, site, deferred := true })] := calls_update calls
      obtain ⟨u, recorded, spoiled⟩ := spoiled_recordFatal calls' rfl stands expression message query.2
      rw [run, recorded]
      exact spoiled.asking queries

/-- What follows the completion of a call at most notes the returned value. -/
theorem completion_act (c : CallScript) (t : Thread) :
    ∃ follow : Act, c.completion.act t = ((completing c.handle c.endSite c.ending).andThen follow) t ∧
      ∀ u, ∃ v : Thread, follow u = (v, .normal) ∧ v.calls = u.calls ∧ v.standing? = u.standing? := by
  unfold completion
  cases c.ending with
  | finish =>
    refine ⟨done, ?_, fun u => ⟨u, rfl, rfl, rfl⟩⟩
    simp only [andThen, completing, Action.act]
    rcases finish c.handle c.endSite t with ⟨u, flow⟩
    cases flow <;> rfl
  | returning target =>
    refine ⟨_, returnValue_eq_andThen _ _ _ _ _, fun u => ?_⟩
    cases returned? t c.handle target with
    | none => exact ⟨u, rfl, rfl, rfl⟩
    | some converted => exact ⟨u.note (.returned converted), rfl, rfl, rfl⟩

/-- A spoiled call fails when it is completed. -/
theorem Spoiled.completion (spoiled : Spoiled c.handle t) :
    ∃ u, c.completion.act t = (u, .unwinding .failed) ∧ u.HasFailed := by
  obtain ⟨⟨call, calls, deferred⟩, s, stands, failed⟩ := spoiled
  obtain ⟨follow, run, _⟩ := c.completion_act t
  obtain ⟨_, _, completed⟩ := completing_of_openCall (openCall?_of_calls calls) c.ending c.endSite
  rw [deferred, if_pos rfl] at completed
  refine ⟨close t c.handle, by rw [run, andThen, completed], fun s' stands' => ?_⟩
  obtain rfl : s = s' := Option.some.inj (stands.symm.trans stands')
  exact failed

/-- An open call whose queries broke no rule is completed or fails. -/
theorem completion_of_calls {entry : Expectation} (calls : t.calls = [(c.handle, { entry, site })])
    (stands : t.standing? = some (.good queue)) :
    if entry.completes c.ending then ∃ u, c.completion.act t = (u, .normal) ∧ u.Clean queue
    else ∃ u, c.completion.act t = (u, .unwinding .failed) ∧ u.HasFailed := by
  obtain ⟨follow, run, unfelt⟩ := c.completion_act t
  obtain ⟨expression, message, completed⟩ := completing_of_openCall (openCall?_of_calls calls) c.ending c.endSite
  rw [if_neg Bool.false_ne_true] at completed
  rw [run, andThen, completed]
  split
  · obtain ⟨v, followed, same, still⟩ := unfelt (close t c.handle)
    exact ⟨v, followed, same.trans (calls_close calls), still.trans stands⟩
  · have closed : (close t c.handle).standing? = some (.good queue) := stands
    rw [fatal_of_standing closed]
    exact ⟨_, rfl, hasFailed_fail _ _⟩

/-- An open call is the one that was expected, or it fails. -/
theorem rest_of_calls {entry : Expectation} (calls : t.calls = [(c.handle, { entry, site })])
    (stands : t.standing? = some (.good queue)) :
    (entry.Met (c.queries.map (·.1)) c.ending ∧ ∃ u,
      Action.actAll (asking c.handle c.queries ++ [c.completion]) t = (u, .normal) ∧ u.Clean queue) ∨
    ¬ entry.Met (c.queries.map (·.1)) c.ending ∧ ∃ u,
      Action.actAll (asking c.handle c.queries ++ [c.completion]) t = (u, .unwinding .failed) ∧ u.HasFailed := by
  obtain ⟨u, asked, state⟩ := asking_of_calls calls stands c.queries
  have last : Action.actAll [c.completion] u = (c.completion.act.andThen done) u := rfl
  rw [Action.actAll_append, andThen, asked, entry.met_iff]
  simp only [last, andThen]
  cases queried : entry.queried? (c.queries.map (·.1)) with
  | none =>
    rw [queried] at state
    obtain ⟨v, completed, failed⟩ := state.completion
    exact .inr ⟨by simp, v, by rw [completed], failed⟩
  | some next =>
    rw [queried] at state
    have completed := completion_of_calls state.1 state.2
    split at completed
    · rename_i completes
      obtain ⟨v, completed, clean⟩ := completed
      exact .inl ⟨⟨next, rfl, completes⟩, v, by rw [completed]; rfl, clean⟩
    · rename_i refused
      obtain ⟨v, completed, failed⟩ := completed
      exact .inr ⟨by simpa using refused, v, by rw [completed], failed⟩

/-- A call of a unit that stands well takes the head of the queue and is the one that was expected, or fails. -/
theorem script_of_clean (clean : t.Clean queue) (c : CallScript) :
    (∃ entry rest u, queue.entries = entry :: rest ∧
      (entry.symbol = c.symbol ∧ entry.Met (c.queries.map (·.1)) c.ending) ∧
      Action.actAll c.script t = (u, .normal) ∧ u.Clean { queue with entries := rest }) ∨
    (∀ entry rest, queue.entries = entry :: rest →
      ¬ (entry.symbol = c.symbol ∧ entry.Met (c.queries.map (·.1)) c.ending)) ∧
      ∃ u, Action.actAll c.script t = (u, .unwinding .failed) ∧ u.HasFailed := by
  obtain ⟨calls, stands⟩ := clean
  obtain ⟨u, _, stands, taken⟩ := intercept_of_standing stands c.symbol c.handle c.site
  have whole : Action.actAll c.script t = (((intercept c.symbol c.handle c.site).andThen
    (note (.intercepted c.symbol))).andThen (Action.actAll (asking c.handle c.queries ++ [c.completion]))) t := rfl
  rw [whole]
  simp only [andThen]
  cases entries : queue.entries with
  | nil =>
    simp only [ExpectQueue.intercept, entries] at taken stands
    rw [taken, fatal_of_standing stands]
    exact .inr ⟨by simp, _, rfl, hasFailed_fail _ _⟩
  | cons entry rest =>
    by_cases symbol : entry.symbol = c.symbol
    · simp only [ExpectQueue.intercept, entries, symbol, if_true, calls] at taken stands
      rw [taken]
      have outcome := rest_of_calls (c := c) (t := note (.intercepted c.symbol)
        { u with calls := [(c.handle, { entry, site := c.site })] } |>.1) rfl stands
      obtain ⟨met, v, run, clean⟩ | ⟨unmet, v, run, failed⟩ := outcome
      · exact .inl ⟨entry, rest, v, rfl, ⟨symbol, met⟩, run, clean⟩
      · refine .inr ⟨?_, v, run, failed⟩
        rintro _ _ ⟨⟩ ⟨_, met⟩
        exact unmet met
    · simp only [ExpectQueue.intercept, entries, symbol, if_false] at taken stands
      rw [taken, fatal_of_standing stands]
      refine .inr ⟨?_, _, rfl, hasFailed_fail _ _⟩
      rintro _ _ ⟨⟩ ⟨same, _⟩
      exact symbol same

end CallScript

/-! ## All calls -/

namespace MockStep

open Act Thread

/-- A body has gone through its steps and settles everything exactly if no expected call is left, or it has failed and
cannot settle everything. -/
def Judged (pending : List Declared) (steps : List MockStep) (result : Thread × Flow) : Prop :=
  (∃ queue, result.2 = .normal ∧ result.1.Clean queue ∧ (Settles pending steps ↔ queue.entries = [])) ∨
    result.2 = .unwinding .failed ∧ result.1.HasFailed ∧ ¬ Settles pending steps

/-- A body is judged by the calls that are still expected and the steps that it goes through. -/
theorem judged_actAll {t : Thread} {queue : ExpectQueue} {pending : List Declared} (clean : t.Clean queue)
    (holds : List.Forall₂ Expectation.Declares queue.entries pending) (steps : List MockStep) :
    Judged pending steps (Action.actAll (steps.flatMap script) t) := by
  induction steps generalizing t queue pending with
  | nil =>
    refine .inl ⟨queue, rfl, clean, ?_⟩
    cases entries : queue.entries with
    | nil =>
      rw [entries, List.forall₂_nil_left_iff] at holds
      simp [Settles, holds]
    | cons entry rest =>
      rw [entries, List.forall₂_cons_left_iff] at holds
      obtain ⟨declared, others, _, _, rfl⟩ := holds
      simp [Settles]
  | cons step steps ih =>
    rw [List.flatMap_cons, Action.actAll_append]
    cases step with
    | push declared site =>
      obtain ⟨u, pushed, calls, stands⟩ := expectCall_of_standing clean.standing declared.expectation site
      have head : Action.actAll (push declared site).script t = (u, .normal) := by
        have same : Action.actAll (push declared site).script t =
          ((expectCall declared.expectation site).andThen done) t := rfl
        rw [same, andThen, pushed]
        rfl
      rw [andThen, head]
      exact ih ⟨calls.trans clean.calls, stands⟩ (List.rel_append holds (.cons ⟨rfl, rfl, rfl⟩ .nil))
    | call made =>
      rw [andThen]
      obtain ⟨entry, rest, u, entries, answers, run, clean⟩ | ⟨unanswered, u, run, failed⟩ :=
        CallScript.script_of_clean clean made
      · rw [entries, List.forall₂_cons_left_iff] at holds
        obtain ⟨declared, others, declares, others_hold, rfl⟩ := holds
        have head : Action.actAll (call made).script t = (u, .normal) := run
        have answered := (declares.answeredBy_iff made).2 answers
        rw [head, Judged, Settles]
        simp only [answered, true_and]
        exact ih clean others_hold
      · have head : Action.actAll (call made).script t = (u, .unwinding .failed) := run
        rw [head]
        refine .inr ⟨rfl, failed, ?_⟩
        cases entries : queue.entries with
        | nil =>
          rw [entries, List.forall₂_nil_left_iff] at holds
          rw [holds, Settles]
          exact id
        | cons entry rest =>
          rw [entries, List.forall₂_cons_left_iff] at holds
          obtain ⟨declared, others, declares, _, rfl⟩ := holds
          rintro ⟨answered, _⟩
          exact unanswered entry rest entries ((declares.answeredBy_iff made).1 answered)

end MockStep

/-- **The mock engine accepts exactly the declared calls.** A unit whose body declares calls and makes calls, in any
order, comes to its end on every channel. It passes if the calls conform to what was declared, and otherwise it has
failed. -/
theorem mock_verdict (steps : List MockStep) (fault : SinkFault) (t : Thread) :
    ∃ after report, runUnit (UnitPlan.acts { body := some (steps.flatMap MockStep.script) }) fault t =
        (after, .ok report) ∧
      (report.verdict = .pass ↔ MockStep.Conforms steps) ∧
      (¬ MockStep.Conforms steps → report.verdict = .fail) := by
  let entered := (t.install fault).emit (.phase .exec)
  have stands : entered.standing? = some (.good {}) := ((t.install fault).standing?_emit _).trans rfl
  have judged := MockStep.judged_actAll (t := { entered with calls := [] }) ⟨rfl, stands⟩ .nil steps
  rw [MockStep.conforms_iff]
  simp only [runUnit, runPhases, runBody, runPhase, UnitPlan.acts, Option.map_none, Option.map_some, runTeardown]
  rcases ran : Action.actAll (steps.flatMap MockStep.script) { entered with calls := [] } with ⟨u, flow⟩
  rw [ran] at judged
  obtain ⟨queue, rfl, clean, settles⟩ | ⟨rfl, failed, unsettled⟩ := judged
  · rw [Act.framed_of_normal ran clean.calls]
    have checked := Thread.checkQueue_of_standing (t := { u with calls := entered.calls }) clean.standing
    refine ⟨_, _, rfl, ?_⟩
    rw [Thread.finishUnit_verdict_eq_pass_iff, settles]
    split at checked
    · rename_i empty
      exact ⟨⟨fun _ => empty, fun _ => ⟨queue, checked⟩⟩, fun left => absurd empty left⟩
    · rename_i left
      refine ⟨⟨?_, fun empty => absurd empty left⟩, fun _ => checked.finishUnit_verdict _⟩
      rintro ⟨queue, good⟩
      exact absurd good (checked.tainted queue)
  · rw [Act.framed_of_unwinding ran]
    have failed : Thread.HasFailed { u with calls := entered.calls } := failed
    refine ⟨_, _, rfl, ?_, fun _ => failed.finishUnit_verdict _⟩
    rw [Thread.finishUnit_verdict_eq_pass_iff]
    refine ⟨?_, fun settled => absurd settled unsettled⟩
    rintro ⟨queue, good⟩
    exact absurd good (failed.tainted queue)

end TestIsolation
