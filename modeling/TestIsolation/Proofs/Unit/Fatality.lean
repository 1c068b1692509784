import TestIsolation.Proofs.Unit.Channel
import TestIsolation.Proofs.Unit.Interception
import TestIsolation.Proofs.Unit.Verdict

/-!
# What fatal failures end

A fatal failure is recorded, and then unwinds out of the phase. Where it does not, a mock call has failed that is still
open and `owes` the end of the phase, or the routine `forgives` the failure: it drops a call, leaves one open at the end
of a frame, or catches what unwinds. A routine that forgives nothing does not complete a phase in which it records a
fatal failure (`fatal_failure_ends_phase`), and one that drops a call may (`fatal_failure_forgiven`).
-/

namespace TestIsolation

set_option autoImplicit false

/-- Whether a record is a fatal failure. -/
def Record.isFatal : Record → Bool
  | failure f => f.fatal
  | _ => false

theorem Record.isFatal_sent (r : Record) : r.sent.isFatal = r.isFatal := by
  unfold sent
  split
  · cases r <;> rfl
  · rfl

namespace Thread

/-- A fatal failure is written on the channel of the active unit: the frame of one is among the whole frames that the
new bytes begin with. -/
def WritesFatal (t u : Thread) : Prop :=
  ∃ c written rest records, t.context = some c ∧ u.bytesOf c.unit = t.bytesOf c.unit ++ (written ++ rest) ∧
    Spells written records ∧ ∃ r ∈ records, r.isFatal = true

variable {t u : Thread}

theorem WritesFatal.isActive (writes : t.WritesFatal u) : t.isActive = true := by
  obtain ⟨c, _, _, _, active, _⟩ := writes
  rw [Thread.isActive, active]
  rfl

/-- **What is written was recorded.** -/
theorem Recording.exists_fatal {log : List Record} (recording : Recording t log u) (writes : t.WritesFatal u) :
    ∃ r ∈ log, r.isFatal = true := by
  obtain ⟨c, written, rest, records, active, bytes, spells, r, mem, fatal⟩ := writes
  have takes := (recording.takes active).bytes
  rw [bytes, List.append_cancel_left_eq] at takes
  obtain ⟨k, _, d, _, _, read⟩ := c.channel.exists_read log
  rw [← takes, Decoder.feedFrom_append_eq_ok_iff] at read
  obtain ⟨_, first, second, fed, _, split⟩ := read
  -- The written frames are read first, so that their records are the first ones that were recorded.
  have own := spells.feedFrom [] []
  rw [List.append_nil, fed] at own
  simp only [Decoder.feedFrom, List.append_nil, List.reverse_reverse, Except.ok.injEq, Prod.mk.injEq] at own
  have sent : r ∈ (log.take k).map Record.sent := by
    rw [split, own.2]
    exact List.mem_append_left _ mem
  obtain ⟨r', recorded, rfl⟩ := List.mem_map.1 sent
  exact ⟨r', List.mem_of_mem_take recorded, r'.isFatal_sent ▸ fatal⟩

/-- A fatal failure is written if the new bytes are the frames of records, and it is among these. -/
theorem writesFatal_of_frames {c : UnitContext} (log : List Record) (active : t.context = some c)
    (bytes : u.bytesOf c.unit = t.bytesOf c.unit ++ (log.map Record.sentFrame).flatten)
    (fatal : log.any Record.isFatal = true) : t.WritesFatal u := by
  obtain ⟨r, mem, fatal⟩ := List.any_eq_true.1 fatal
  refine ⟨c, _, [], _, active, ?_, spells_sentFrames log, r.sent, List.mem_map_of_mem mem, r.isFatal_sent ▸ fatal⟩
  rw [List.append_nil, bytes]

/-- An open call has failed, and owes the end of the phase. -/
def owes (t : Thread) : Bool := t.calls.any (·.2.deferred)

theorem owes_congr (calls : u.calls = t.calls) : u.owes = t.owes := by rw [owes, owes, calls]

end Thread

/-! ## Forgiving -/

namespace Act

open Thread

/-- A fatal failure that the act records unwinds. -/
def Prompt (act : Act) : Prop :=
  ∀ t : Thread, t.isActive = true → (∀ ending, (act t).2 ≠ .ended ending) →
    ∃ log, Recording t log (act t).1 ∧ ((∃ r ∈ log, r.isFatal = true) → (act t).2 = .unwinding .failed)

end Act

namespace Routine

/-- A frame ends normally while calls of its own are open. -/
def leavesOpen (s : Sharing) : Thread × Flow → Bool
  | (u, .normal) => !(s.own u).isEmpty
  | _ => false

/-- A frame unwinds for a failure, or past a call of its own that owes one. -/
def unwindsFor (s : Sharing) : Thread × Flow → Bool
  | (u, .unwinding cause) => cause = .failed || (s.own u).any (·.2.deferred)
  | _ => false

/-- A routine lets a fatal failure pass, or may: it drops an open call, leaves one open at the end of a frame, or
catches a frame that unwinds for a failure. -/
def forgives : Routine → Thread → Bool
  | drop name, t => (Act.openCall? t name).isSome
  | seq first second, t =>
    first.forgives t ||
      match first.act t with
      | (u, .normal) => second.forgives u
      | _ => false
  | depend choose, t => (choose t).forgives t
  | caught s inner, t =>
    inner.forgives (s.entered t) || leavesOpen s (inner.act (s.entered t)) || unwindsFor s (inner.act (s.entered t))
  | _, _ => false

/-- The function of a phase lets a fatal failure pass, or may. -/
def forgivesIn (r : Routine) (p : Phase) (t : Thread) : Bool :=
  let entered := Sharing.none.entered (t.emit (.phase p))
  r.forgives entered || leavesOpen .none (r.act entered)

/-- What a routine does besides mock calls is prompt. -/
def Prompt : Routine → Prop
  | other act _ => act.Prompt
  | seq first second => first.Prompt ∧ second.Prompt
  | depend choose => ∀ t, (choose t).Prompt
  | caught _ inner => inner.Prompt
  | _ => True

end Routine

/-- An act answers for fatal failures: if it records one, or a call owed one before, then it unwinds for it, or a call
owes it after, or it is forgiven. -/
def Answers (t : Thread) (forgiven : Bool) (result : Thread × Flow) : Prop :=
  ∃ log, Thread.Recording t log result.1 ∧
    (t.owes = true ∨ (∃ r ∈ log, r.isFatal = true) →
      result.2 = .unwinding .failed ∨ result.1.owes = true ∨ forgiven = true)

section Answering

open Act Thread

variable {t u : Thread} {flow : Flow} {forgiven : Bool}

/-- Something is recorded, for which the act unwinds or a call owes the end of the phase. -/
theorem Answers.settled {log : List Record} (recording : Recording t log u)
    (charged : flow = .unwinding .failed ∨ u.owes = true) : Answers t forgiven (u, flow) :=
  ⟨log, recording, fun _ => charged.imp_right .inl⟩

/-- Nothing is recorded, and what was owed still is. -/
theorem Answers.quiet (recording : Recording t [] u) (kept : t.owes = true → u.owes = true) (flow : Flow) :
    Answers t forgiven (u, flow) := by
  refine ⟨[], recording, ?_⟩
  rintro (owed | ⟨r, mem, _⟩)
  · exact .inr (.inl (kept owed))
  · cases mem

theorem answers_done (t : Thread) : Answers t forgiven (done t) := .quiet .refl id .normal

theorem recordFatal_of_active (active : t.isActive = true) (expression message : String) (site : Site) :
    recordFatal expression message site t = (t.fail ⟨expression, site, message, true⟩, .normal) := if_pos active

/-- A failure that unwinds. -/
theorem answers_fatal (recording : Recording t [] u) (active : t.isActive = true) (expression message : String)
    (site : Site) : Answers t forgiven (fatal expression message site u) := by
  have run := recordFatal_of_active (recording.isActive.trans active) expression message site
  simp only [fatal, andThen, run, unwind]
  exact .settled (recording.fail _) (.inl rfl)

theorem answers_forgiven {act : Act} (records : Records act) (active : t.isActive = true) : Answers t true (act t) := by
  obtain ⟨log, recording, _⟩ := (records t active).recorded
  exact ⟨log, recording, fun _ => .inr (.inr rfl)⟩

theorem answers_andThen {first second : Act} {more : Thread → Bool} (active : t.isActive = true)
    (left : (∀ ending, (first t).2 ≠ .ended ending) → Answers t forgiven (first t))
    (right : ∀ u, u.isActive = true → (∀ ending, (second u).2 ≠ .ended ending) → Answers u (more u) (second u))
    (comes : ∀ ending, (first.andThen second t).2 ≠ .ended ending) :
    Answers t (forgiven || match first t with
      | (u, .normal) => more u
      | _ => false) (first.andThen second t) := by
  unfold andThen at comes ⊢
  rcases ran : first t with ⟨u, flow⟩
  rw [ran] at comes left
  cases flow with
  | ended ending => exact absurd rfl (comes ending)
  | unwinding cause => simpa using left nofun
  | normal =>
    obtain ⟨log, recording, answers⟩ := left nofun
    obtain ⟨log', recording', answers'⟩ := right u (recording.isActive.trans active) comes
    refine ⟨log ++ log', recording.trans recording', fun charged => ?_⟩
    have first : (t.owes = true ∨ ∃ r ∈ log, r.isFatal = true) ∨ ∃ r ∈ log', r.isFatal = true := by
      simpa [or_and_right, exists_or, or_assoc] using charged
    rw [Bool.or_eq_true]
    have later (charged : u.owes = true ∨ ∃ r ∈ log', r.isFatal = true) := answers' charged
    rcases first with before | after
    · rcases answers before with unwinds | owed | forgiven
      · cases unwinds
      · exact (later (.inl owed)).imp_right (Or.imp_right .inr)
      · exact .inr (.inr (.inl forgiven))
    · exact (later (.inr after)).imp_right (Or.imp_right .inr)

/-! ### Mock calls -/

theorem answers_expectCall (e : Expectation) (site : Site) (active : t.isActive = true) :
    Answers t forgiven (expectCall e site t) := by
  obtain ⟨c, context⟩ := exists_context active
  simp only [expectCall, context]
  exact .quiet (.aside .refl (.queue context _)) id .normal

theorem answers_intercept (symbol name : String) (site : Site) (active : t.isActive = true) :
    Answers t forgiven (Act.intercept symbol name site t) := by
  obtain ⟨c, context⟩ := exists_context active
  simp only [Act.intercept, context]
  have queued := Recording.refl.aside (Aside.queue context (c.queue.intercept symbol).1)
  split
  · refine .quiet (queued.aside (aside_calls _ _)) (fun owed => ?_) .normal
    rw [owes, List.any_append]
    exact Bool.or_eq_true_iff.2 (.inl owed)
  · exact answers_fatal queued active _ _ _

/-- What is owed of open calls when one of them is changed. -/
theorem owes_update {name : String} {call : MockCall} (isOpen : openCall? t name = some call) (next : MockCall)
    (owed : t.owes = true ∧ (call.deferred = true → next.deferred = true) ∨ next.deferred = true) :
    (update t name next).owes = true := by
  obtain ⟨first, last, split, others⟩ := Routine.calls_of_openCall? isOpen
  rw [owes, Routine.calls_update split others]
  rw [owes, split] at owed
  simp only [List.any_append, List.any_cons, Bool.or_eq_true] at owed ⊢
  rcases owed with ⟨before | own | after, kept⟩ | own
  · exact .inl before
  · exact .inr (.inl (kept own))
  · exact .inr (.inr after)
  · exact .inr (.inl own)

/-- What is owed of open calls when one that owes nothing is closed. -/
theorem owes_close {name : String} {call : MockCall} (isOpen : openCall? t name = some call)
    (intact : ¬call.deferred = true) (owed : t.owes = true) : (close t name).owes = true := by
  obtain ⟨first, last, split, others⟩ := Routine.calls_of_openCall? isOpen
  rw [owes, Routine.calls_close split others]
  rw [owes, split] at owed
  simpa [intact] using owed

theorem answers_query (name : String) (q : Query) (site : Site) (active : t.isActive = true) :
    Answers t forgiven (checkParameter name q.name q.actual site t) := by
  cases isOpen : openCall? t name with
  | none =>
    have run : checkParameter name q.name q.actual site t = done t := by simp only [checkParameter, isOpen]
    rw [run]
    exact answers_done t
  | some call =>
    have answer := checkParameter_of_openCall isOpen q site
    have changed (next : MockCall) : Recording t [] (update t name next) := .aside .refl (aside_calls t _)
    cases held : call.entry.query? q with
    | some entry =>
      rw [held] at answer
      rw [answer]
      exact .quiet (changed _) (fun owed => owes_update isOpen { call with entry } (.inl ⟨owed, id⟩)) .normal
    | none =>
      rw [held] at answer
      obtain ⟨entry, expression, message, run⟩ := answer
      have wrong := changed { call with entry, deferred := true }
      rw [run, recordFatal_of_active (wrong.isActive.trans active)]
      refine .settled (wrong.fail _) (.inr ?_)
      rw [owes_congr (calls_fail _ _)]
      exact owes_update isOpen _ (.inr rfl)

theorem answers_complete (name : String) (site : Site) (ending : Completing) (active : t.isActive = true) :
    Answers t forgiven (completing name site ending t) := by
  cases isOpen : openCall? t name with
  | none =>
    have run : completing name site ending t = done t := by
      cases ending <;> simp only [completing, finish, returnValue, isOpen]
    rw [run]
    exact answers_done t
  | some call =>
    obtain ⟨expression, message, run⟩ := completing_of_openCall isOpen ending site
    have closed : Recording t [] (close t name) := .aside .refl (aside_calls t _)
    rw [run]
    split
    · exact .settled closed (.inl rfl)
    · rename_i intact
      split
      · exact .quiet closed (owes_close isOpen intact) .normal
      · exact answers_fatal closed active _ _ _

theorem answers_drop (name : String) (active : t.isActive = true) :
    Answers t (openCall? t name).isSome (Act.drop name t) := by
  cases isOpen : openCall? t name with
  | none =>
    have run : Act.drop name t = done t := by simp only [Act.drop, isOpen]
    rw [run]
    exact answers_done t
  | some call => exact answers_forgiven (records_drop name) active

/-! ### Frames -/

/-- A frame answers for fatal failures, unless it leaves a call open or unwinds: otherwise the calls of it that outlive
it owe the end of the phase. -/
theorem answers_sharing (s : Sharing) {inner : Act} (active : t.isActive = true)
    (inside : (∀ ending, (inner (s.entered t)).2 ≠ .ended ending) →
      Answers (s.entered t) forgiven (inner (s.entered t)))
    (comes : ∀ ending, (sharing s inner t).2 ≠ .ended ending) :
    ∃ log, Recording t log (sharing s inner t).1 ∧
      ((s.entered t).owes = true ∨ (∃ r ∈ log, r.isFatal = true) →
        (s.left (inner (s.entered t)).1).any (·.2.deferred) = true ∨ forgiven = true ∨
          Routine.leavesOpen s (inner (s.entered t)) = true ∨ Routine.unwindsFor s (inner (s.entered t)) = true) := by
  have entered : Recording t [] (s.entered t) := .aside .refl (aside_calls t _)
  have restored (u : Thread) (log : List Record) (recording : Recording (s.entered t) log u)
      (calls : List (String × MockCall)) : Recording t log { u with calls } :=
    (entered.trans recording).aside (aside_calls u calls)
  have parts (u : Thread) : u.owes = true ↔
      (s.own u).any (·.2.deferred) = true ∨ (s.left u).any (·.2.deferred) = true := by
    rw [owes, ← (s.perm_own u).any_eq, List.any_append, Bool.or_eq_true]
  rcases ran : inner (s.entered t) with ⟨u, flow⟩
  rw [ran] at inside
  cases flow with
  | ended ending => exact absurd (by rw [sharing_of_ended ran]) (comes ending)
  | unwinding cause =>
    obtain ⟨log, recording, answers⟩ := inside (by simp)
    rw [sharing_of_unwinding ran]
    refine ⟨log, restored u log recording _, fun charged => ?_⟩
    simp only [Routine.unwindsFor, Bool.or_eq_true, decide_eq_true_eq]
    rcases answers charged with unwinds | owed | forgiven
    · exact .inr (.inr (.inr (.inl (Flow.unwinding.inj unwinds))))
    · rcases (parts u).1 owed with own | left
      · exact .inr (.inr (.inr (.inr own)))
      · exact .inl left
    · exact .inr (.inl forgiven)
  | normal =>
    obtain ⟨log, recording, answers⟩ := inside (by simp)
    rw [sharing_of_normal ran]
    cases own : s.own u with
    | nil =>
      refine ⟨log, restored u log recording _, fun charged => ?_⟩
      rcases answers charged with unwinds | owed | forgiven
      · cases unwinds
      · rcases (parts u).1 owed with owed | left
        · rw [own] at owed
          cases owed
        · exact .inl left
      · exact .inr (.inl forgiven)
    | cons call rest =>
      obtain ⟨more, dropping, _⟩ :=
        (records_dropAll (call :: rest) u (recording.isActive.trans active)).recorded
      refine ⟨log ++ more, restored _ _ (recording.trans dropping) _, fun _ => .inr (.inr (.inl ?_))⟩
      simp [Routine.leavesOpen, own]

theorem answers_caught (s : Sharing) {inner : Act} (active : t.isActive = true)
    (inside : (∀ ending, (inner (s.entered t)).2 ≠ .ended ending) →
      Answers (s.entered t) forgiven (inner (s.entered t)))
    (comes : ∀ ending, ((sharing s inner).noted t).2 ≠ .ended ending) :
    Answers t (forgiven || Routine.leavesOpen s (inner (s.entered t)) || Routine.unwindsFor s (inner (s.entered t)))
      ((sharing s inner).noted t) := by
  obtain ⟨returned, item, noted⟩ := noted_eq comes
  obtain ⟨log, recording, answers⟩ := answers_sharing s active inside returned
  have owed : ((sharing s inner t).1.note item).owes = true ↔
      (t.calls.filter fun call => !s.given call).any (·.2.deferred) = true ∨
        (s.left (inner (s.entered t)).1).any (·.2.deferred) = true := by
    rw [owes, calls_note, calls_sharing, Sharing.after, List.any_append, Bool.or_eq_true]
  have parts : t.owes = true ↔ (t.calls.filter fun call => !s.given call).any (·.2.deferred) = true ∨
      (s.entered t).owes = true := by
    rw [owes, owes, ← (s.perm_entered t).any_eq, List.any_append, Bool.or_eq_true, or_comm]
  rw [noted]
  refine ⟨log, recording.aside (.of_eq rfl rfl), fun charged => .inr ?_⟩
  rw [owed, Bool.or_eq_true, Bool.or_eq_true]
  rw [parts, or_assoc] at charged
  rcases charged with apart | inside
  · exact .inl (.inl apart)
  · rcases answers inside with left | forgives
    · exact .inl (.inr left)
    · exact .inr (or_assoc.2 forgives)

/-- **Routines answer for fatal failures**, but for those that they forgive. -/
theorem answers_act (r : Routine) (prompt : r.Prompt) (t : Thread) (active : t.isActive = true)
    (comes : ∀ ending, (r.act t).2 ≠ .ended ending) : Answers t (r.forgives t) (r.act t) := by
  induction r generalizing t with
  | other act apart =>
    obtain ⟨log, recording, unwinds⟩ := prompt t active comes
    refine ⟨log, recording, ?_⟩
    rintro (owed | fatal)
    · exact .inr (.inl ((owes_congr (apart.calls t)).trans owed))
    · exact .inl (unwinds fatal)
  | expect e site => exact answers_expectCall e site active
  | intercept symbol name site => exact answers_intercept symbol name site active
  | query name q site => exact answers_query name q site active
  | complete name site ending => exact answers_complete name site ending active
  | drop name => exact answers_drop name active
  | seq first second ihFirst ihSecond =>
    exact answers_andThen active (ihFirst prompt.1 t active) (ihSecond prompt.2) comes
  | depend choose ih => exact ih t (prompt t) t active comes
  | caught s inner ih => exact answers_caught s active (ih prompt (s.entered t) active) comes

end Answering

/-! ## Phases -/

section Phases

open Thread

variable {t : Thread}

/-- **A phase that records a fatal failure is not completed**, unless its function forgives the failure. -/
theorem Routine.forgivesIn_of_completed {r : Routine} (prompt : r.Prompt) (p : Phase)
    (completed : (runPhase p r.act t).2 = .completed) (writes : t.WritesFatal (runPhase p r.act t).1) :
    r.forgivesIn p t = true := by
  have active : (t.emit (.phase p)).isActive = true := (isActive_emit t _).trans writes.isActive
  have framing := answers_sharing .none active (answers_act r prompt (Sharing.none.entered (t.emit (.phase p))) active)
  unfold runPhase at completed writes
  rw [← Act.sharing_none] at completed writes
  rcases ran : Act.sharing .none r.act (t.emit (.phase p)) with ⟨u, flow⟩
  rw [ran] at completed writes framing
  cases flow with
  | ended ending => cases completed
  | unwinding cause => cases cause <;> cases completed
  | normal =>
    obtain ⟨log, recording, forgives⟩ := framing nofun
    obtain ⟨f, mem, fatal⟩ := ((Recording.refl.enter p).trans recording).exists_fatal writes
    have recorded : f ∈ log := by
      rcases List.mem_append.1 mem with marker | recorded
      · rw [List.mem_singleton.1 marker] at fatal
        cases fatal
      · exact recorded
    rw [Routine.forgivesIn, Bool.or_eq_true]
    rcases forgives (.inr ⟨f, recorded, fatal⟩) with left | forgiven | leaves | unwinds
    · rw [Sharing.left_none] at left
      cases left
    · exact .inl forgiven
    · exact .inr leaves
    · -- A frame that unwinds does not end normally.
      rcases inner : r.act (Sharing.none.entered (t.emit (.phase p))) with ⟨v, how⟩
      rw [inner] at unwinds
      cases how with
      | unwinding cause =>
        rw [Act.sharing_of_unwinding inner] at ran
        cases ran
      | normal | ended => cases unwinds

end Phases

/-! ## Scripts -/

namespace Act

open Thread

variable {first second : Act}

/-- A change that records nothing. -/
theorem prompt_change {f : Thread → Thread} (aside : ∀ t : Thread, t.Aside (f t)) : Prompt (change f) := by
  intro t _ _
  refine ⟨[], .aside .refl (aside t), ?_⟩
  rintro ⟨r, mem, _⟩
  cases mem

theorem prompt_done : Prompt done := prompt_change (f := id) fun _ => .of_eq rfl rfl

theorem prompt_note (item : TraceItem) : Prompt (note item) := prompt_change fun _ => .of_eq rfl rfl

/-- A failure that is not fatal. -/
theorem prompt_report {f : Failure} (mild : f.fatal = false) : Prompt (report f) := by
  intro t active _
  simp only [report, active, if_true]
  refine ⟨_, .fail .refl f, ?_⟩
  rintro ⟨r, mem, fatal⟩
  rw [List.nil_append, List.mem_singleton] at mem
  rw [mem, Record.isFatal, mild] at fatal
  cases fatal

theorem prompt_fatal (expression message : String) (site : Site) : Prompt (fatal expression message site) := by
  intro t active _
  simp only [fatal, andThen, recordFatal_of_active active, unwind]
  exact ⟨_, .fail .refl _, fun _ => trivial⟩

theorem prompt_panic (message : Option String) : Prompt (unwind (.panicked message)) := by
  intro t _ _
  refine ⟨[], .refl, ?_⟩
  rintro ⟨r, mem, _⟩
  cases mem

theorem prompt_skipWith (reason : Option String) (site : Site) : Prompt (skipWith reason site) := by
  intro t active _
  simp only [skipWith, active, if_true]
  refine ⟨_, .skip .refl _, ?_⟩
  rintro ⟨r, mem, fatal⟩
  rw [List.nil_append, List.mem_singleton] at mem
  rw [mem] at fatal
  cases fatal

theorem Prompt.andThen (left : Prompt first) (right : Prompt second) : Prompt (first.andThen second) := by
  intro t active comes
  have before := left t active
  unfold Act.andThen at comes ⊢
  rcases ran : first t with ⟨u, flow⟩
  rw [ran] at comes before
  cases flow with
  | ended ending => exact absurd rfl (comes ending)
  | unwinding cause => exact before comes
  | normal =>
    obtain ⟨log, recording, unwinds⟩ := before nofun
    obtain ⟨log', recording', unwinds'⟩ := right u (recording.isActive.trans active) comes
    refine ⟨log ++ log', recording.trans recording', ?_⟩
    rintro ⟨r, mem, fatal⟩
    rcases List.mem_append.1 mem with early | late
    · cases unwinds ⟨r, early, fatal⟩
    · exact unwinds' ⟨r, late, fatal⟩

theorem prompt_check (cond : Bool) (expr : String) (site : Site) : Prompt (check cond expr site) := by
  unfold check
  split
  · exact prompt_done
  · exact prompt_report rfl

theorem prompt_ensure (cond : Bool) (expr : String) (site : Site) : Prompt (ensure cond expr site) := by
  unfold ensure
  split
  · exact prompt_done
  · exact prompt_fatal _ _ _

theorem prompt_compare (actual : Value) (expr : String) (c : Constraint) (site : Site) (fatalIfUnmet : Bool)
    {next : Bool → Act} (each : ∀ held, Prompt (next held)) :
    Prompt (compare actual expr c site fatalIfUnmet next) := by
  unfold compare
  cases c.evaluate actual with
  | error e => exact prompt_fatal _ _ _
  | ok held =>
    cases held with
    | true => exact each true
    | false =>
      simp only
      split
      · exact prompt_fatal _ _ _
      · exact (prompt_report rfl).andThen (each false)

end Act

namespace Action

open Act

mutual

theorem prompt_routine (action : Action) (ordinary : action.isOrdinary = true) : (routine action).Prompt := by
  match action with
  | note text => exact prompt_note _
  | noteActive => exact prompt_change fun _ => .of_eq rfl rfl
  | check cond expr site => exact (prompt_check cond expr site).andThen (prompt_note _)
  | ensure cond expr site => exact prompt_ensure cond expr site
  | checkThat actual expr constraint site =>
    exact prompt_compare actual expr constraint site false fun _ => prompt_note _
  | ensureThat actual expr constraint site =>
    exact prompt_compare actual expr constraint site true fun _ => prompt_done
  | fail reason site => exact prompt_fatal _ _ site
  | skip reason site => exact prompt_skipWith reason site
  | panic message => exact prompt_panic message
  | expect .. | parameter .. | finish .. | drop _ => trivial
  | intercept symbol call site => exact ⟨trivial, prompt_note _⟩
  | returnValue call target site =>
    intro t
    refine ⟨trivial, ?_⟩
    split
    · exact prompt_note _
    · exact prompt_done
  | catching actions => exact prompt_routineAll actions (by simpa [isOrdinary] using ordinary)
  | print bytes => exact prompt_change fun _ => .put nofun
  | sleep millis => exact prompt_change fun _ => .put nofun
  | nested .. | hang | exit _ | signal _ | sendRaw _ => simp [isOrdinary] at ordinary

/-- **Ordinary scripts are prompt.** -/
theorem prompt_routineAll (actions : List Action) (ordinary : allOrdinary actions = true) :
    (routineAll actions).Prompt := by
  match actions with
  | [] => exact prompt_done
  | action :: rest =>
    rw [allOrdinary, Bool.and_eq_true] at ordinary
    exact ⟨prompt_routine action ordinary.1, prompt_routineAll rest ordinary.2⟩

end

end Action

/-! ## Units -/

/-- **A fatal failure ends its phase**, unless the phase's function forgives it. The functions of a unit are routines,
and its channel may break at any time. If a fatal failure is written while the setup runs, and the setup drops no mock
call, leaves none open and catches no unwinding of a failure, then the setup is the last phase. If one is written while
such a body runs, then calls that are still expected after it do not count. -/
theorem fatal_failure_ends_phase {plan : UnitPlan Routine} (prompt : ∀ p, ∀ r ∈ plan.function? p, r.Prompt) :
    (∀ r ∈ plan.setup, ∀ t : Thread, t.WritesFatal (runPhase .setup r.act t).1 → r.forgivesIn .setup t = false →
      ∃ ending, runPhases plan.routines t = ((runPhase .setup r.act t).1, ending)) ∧
    ∀ r ∈ plan.body, ∀ t : Thread, t.WritesFatal (runPhase .exec r.act t).1 → r.forgivesIn .exec t = false →
      runBody plan.routines t = runTeardown plan.routines.teardown (runPhase .exec r.act t).1 ∨
        ∃ ending, runBody plan.routines t = ((runPhase .exec r.act t).1, some ending) := by
  have fails (p : Phase) (r : Routine) (mem : r ∈ plan.function? p) (t : Thread)
      (writes : t.WritesFatal (runPhase p r.act t).1) (strict : r.forgivesIn p t = false) :
      (runPhase p r.act t).2 ≠ .completed := by
    intro completed
    rw [Routine.forgivesIn_of_completed (prompt p r mem) p completed writes] at strict
    cases strict
  constructor
  · intro r mem t writes strict
    have failed := fails .setup r mem t writes strict
    have setup : plan.routines.setup = some r.act := by
      rw [UnitPlan.routines, Option.mem_def.1 mem]
      rfl
    rcases ran : runPhase .setup r.act t with ⟨u, how⟩
    rw [ran] at failed
    simp only [runPhases, setup, ran]
    cases how with
    | completed => exact absurd rfl failed
    | failed | skipped => exact ⟨none, rfl⟩
    | ended e => exact ⟨some e, rfl⟩
  · intro r mem t writes strict
    have failed := fails .exec r mem t writes strict
    have body : plan.routines.body = some r.act := by
      rw [UnitPlan.routines, Option.mem_def.1 mem]
      rfl
    rcases ran : runPhase .exec r.act t with ⟨u, how⟩
    rw [ran] at failed
    simp only [runBody, body, ran]
    cases how with
    | completed => exact absurd rfl failed
    | failed | skipped => exact .inl rfl
    | ended e => exact .inr ⟨e, rfl⟩

/-- A parameter of a mock call is wrong, and the setup goes on until the call is completed. In the body a check fails
while a call is still expected. -/
theorem fatal_failure_ends_phase_deferred :
    let site : Site := ⟨"t.rs", 7, "f"⟩
    let e : Expectation := { symbol := "f", params := [⟨"x", ⟨.order .equal (.signed 3), none⟩, false⟩] }
    let setup := Action.routineAll [.expect e site, .intercept "f" "c" site, .parameter "c" "x" (.signed 4) site,
      .note "on", .finish "c" site]
    let body := Action.routineAll [.expect { symbol := "g" } site, .ensure false "a < b" site]
    let plan : UnitPlan Routine := { setup := some setup, body := some body }
    let t := (Thread.start none).install .never
    (∃ ending, runPhases plan.routines t = ((runPhase .setup setup.act t).1, ending)) ∧
      (runPhase .setup setup.act t).1.trace = [.intercepted "f", .note "on"] ∧
      (runBody plan.routines t = runTeardown plan.routines.teardown (runPhase .exec body.act t).1 ∨
        ∃ ending, runBody plan.routines t = ((runPhase .exec body.act t).1, some ending)) := by
  intro site e setup body plan t
  have prompt : ∀ p, ∀ r ∈ plan.function? p, r.Prompt := by
    intro p r mem
    cases p <;> cases mem <;> exact Action.prompt_routineAll _ rfl
  have parameter : t.WritesFatal (runPhase .setup setup.act t).1 :=
    Thread.writesFatal_of_frames
      [.phase .setup, .failure ⟨"mock f(x)", site, "parameter `x` of `f`: expected equal 3, found 4", true⟩] rfl
      (by decide +kernel) rfl
  have check : t.WritesFatal (runPhase .exec body.act t).1 :=
    Thread.writesFatal_of_frames [.phase .exec, .failure ⟨"a < b", site, "ensure failed", true⟩] rfl
      (by decide +kernel) rfl
  obtain ⟨first, second⟩ := fatal_failure_ends_phase prompt
  exact ⟨first setup rfl t parameter (by decide +kernel), by decide +kernel,
    second body rfl t check (by decide +kernel)⟩

/-- A function that drops a mock call records a fatal failure and completes its phase. After such a setup the body runs,
and after such a body a call that is still expected is a failure of its own. -/
theorem fatal_failure_forgiven :
    let site : Site := ⟨"t.rs", 7, "f"⟩
    let dropping : Script := [.expect { symbol := "f" } site, .intercept "f" "c" site, .drop "c"]
    let expecting : Script := .expect { symbol := "f" } site :: .expect { symbol := "g" } site :: dropping.tail
    let setup : UnitPlan Script := { setup := some dropping, body := some [.note "body"] }
    let body : UnitPlan Script := { body := some expecting }
    let t := (Thread.start none).install .never
    t.WritesFatal (runPhase .setup (Action.actAll dropping) t).1 ∧
      (runPhases setup.acts t).1.trace = [.intercepted "f", .note "body"] ∧
      t.WritesFatal (runPhase .exec (Action.actAll expecting) t).1 ∧
      (runPhases body.acts t).1.bytesOf 0 = (runPhase .exec (Action.actAll expecting) t).1.bytesOf 0 ++
        (Record.failure (leftoverFailure [⟨"g", "t.rs", 7⟩])).sentFrame := by
  intro site dropping expecting setup body t
  have first : t.WritesFatal (runPhase .setup (Action.actAll dropping) t).1 :=
    Thread.writesFatal_of_frames
      [.phase .setup, .failure ⟨"mock f", site, (MockViolation.unfinished "f").message, true⟩] rfl
      (by decide +kernel) rfl
  have second : t.WritesFatal (runPhase .exec (Action.actAll expecting) t).1 :=
    Thread.writesFatal_of_frames
      [.phase .exec, .failure ⟨"mock f", site, (MockViolation.unfinished "f").message, true⟩] rfl
      (by decide +kernel) rfl
  exact ⟨first, by decide +kernel, second, by decide +kernel⟩

end TestIsolation
