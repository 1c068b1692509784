import Mathlib.Data.List.Lemmas
import TestIsolation.Proofs.Mock.Dealings
import TestIsolation.Proofs.Unit.Standing

/-!
# Histories of mock calls

A `Routine` is what a phase's function does, as far as its mock calls go: it declares, opens, queries, completes and
drops calls, catches its own unwinding, goes on depending on whatever it sees, and does other things that leave the
calls alone (`Act.Apart`). A frame whose unwinding is caught may have calls in common with the one around it: calls are
moved or lent to it, and calls of it are given back or put away outside (`Sharing`). What no routine does is forget a
call that is open.

The `deeds` of a routine are the history of its calls. While its unit stands well, the history tells where each call is:
a call that is open has queried what its history says, and every other one was completed or lost (`dealt_act`).
-/

namespace TestIsolation

set_option autoImplicit false

/-- An unwinding whose failure or skip is on record. -/
def Flow.OnRecord (flow : Flow) : Prop := flow = .unwinding .failed ∨ flow = .unwinding .skipped

/-- An act that leaves the mock calls of its frame alone, and the unit's expectations unless it taints the unit. An
unwinding of it that is said to be on record is. -/
structure Act.Apart (act : Act) : Prop where
  calls : ∀ t, (act t).1.calls = t.calls
  standing : ∀ t queue, (∀ ending, (act t).2 ≠ .ended ending) → (act t).1.standing? = some (.good queue) →
    t.standing? = some (.good queue) ∧ ¬ (act t).2.OnRecord

/-! ## Frames that share calls -/

/-- Which calls a frame has in common with the one around it. -/
structure Sharing where
  /-- A call that is open outside is moved or lent to the frame. -/
  given : String × MockCall → Bool
  /-- A call of the frame outlives it: it was only lent, is given back, or was put away outside. -/
  kept : String × MockCall → Bool

namespace Sharing

/-- No call is shared. -/
def none : Sharing := ⟨fun _ => false, fun _ => false⟩

variable (s : Sharing) (t u : Thread)

/-- The thread as the frame finds it. -/
def entered : Thread := { t with calls := t.calls.filter s.given }

/-- The calls that end with the frame. -/
def own : List (String × MockCall) := u.calls.filter fun call => !s.kept call

/-- The calls of the frame that outlive it. -/
def left : List (String × MockCall) := u.calls.filter s.kept

/-- The calls that are open after the frame. -/
def after : List (String × MockCall) := (t.calls.filter fun call => !s.given call) ++ s.left u

/-- The frame has some of the calls, and the others are out of its reach. -/
theorem perm_entered : ((s.entered t).calls ++ t.calls.filter fun call => !s.given call).Perm t.calls :=
  List.filter_append_perm _ _

theorem perm_own : (s.own u ++ s.left u).Perm u.calls :=
  List.perm_append_comm.trans (List.filter_append_perm _ _)

@[simp] theorem entered_none : none.entered t = { t with calls := [] } := by simp [entered, none]

@[simp] theorem own_none : none.own u = u.calls := by simp [own, none]

@[simp] theorem left_none : none.left u = [] := by simp [left, none]

@[simp] theorem after_none : none.after t u = t.calls := by simp [after, none, left]

end Sharing

namespace Act

/-- A frame that shares calls with the one around it. What it has of its own when it ends normally is dropped. -/
def sharing (s : Sharing) (inner : Act) : Act := fun t =>
  match inner (s.entered t) with
  | (u, .normal) =>
    let (v, flow) := dropAll (s.own u) u
    ({ v with calls := s.after t u }, flow)
  | (u, flow) => ({ u with calls := s.after t u }, flow)

/-- An act whose unwinding goes no further and is noted. The end of the process goes on. -/
def noted (act : Act) : Act := fun t =>
  match act t with
  | (t, flow) =>
    match flow.caughtEnd? with
    | some ending => (t.note (.caught ending), .normal)
    | none => (t, flow)

/-- A frame that shares no calls is one with calls of its own. -/
theorem sharing_none (inner : Act) : sharing .none inner = framed inner := by
  funext t
  simp only [sharing, framed, andThen, Sharing.entered_none, Sharing.own_none, Sharing.after_none]
  rcases inner { t with calls := [] } with ⟨u, flow⟩
  cases flow <;> rfl

theorem noted_framed (inner : Act) : noted (framed inner) = caught inner := rfl

section

variable {s : Sharing} {inner : Act} {t u : Thread}

theorem sharing_of_normal (ran : inner (s.entered t) = (u, .normal)) : sharing s inner t =
    ({ (dropAll (s.own u) u).1 with calls := s.after t u }, (dropAll (s.own u) u).2) := by
  simp only [sharing, ran]

theorem sharing_of_unwinding {cause : Unwinding} (ran : inner (s.entered t) = (u, .unwinding cause)) :
    sharing s inner t = ({ u with calls := s.after t u }, .unwinding cause) := by
  simp only [sharing, ran]

theorem sharing_of_ended {ending : Ending} (ran : inner (s.entered t) = (u, .ended ending)) :
    sharing s inner t = ({ u with calls := s.after t u }, .ended ending) := by
  simp only [sharing, ran]

end

theorem calls_sharing (s : Sharing) (inner : Act) (t : Thread) :
    (sharing s inner t).1.calls = s.after t (inner (s.entered t)).1 := by
  unfold sharing
  rcases inner (s.entered t) with ⟨u, flow⟩
  cases flow <;> rfl

/-- An act comes back if it does so with its unwinding caught, and then only the note is added. -/
theorem noted_eq {act : Act} {t : Thread} (comes : ∀ ending, (noted act t).2 ≠ .ended ending) :
    (∀ ending, (act t).2 ≠ .ended ending) ∧ ∃ item, noted act t = ((act t).1.note item, .normal) := by
  unfold noted at comes ⊢
  rcases ran : act t with ⟨u, flow⟩
  rw [ran] at comes
  cases flow with
  | ended ending => exact absurd rfl (comes ending)
  | normal => exact ⟨nofun, _, rfl⟩
  | unwinding cause =>
    cases cause with
    | failed | skipped => exact ⟨nofun, _, rfl⟩
    | panicked message => cases message <;> exact ⟨nofun, _, rfl⟩

end Act

/-! ## Routines -/

/-- What functions do with mock calls. -/
inductive Routine where
  | other (act : Act) (apart : act.Apart)
  | expect (e : Expectation) (site : Site)
  | intercept (symbol name : String) (site : Site)
  | query (name : String) (q : Query) (site : Site)
  | complete (name : String) (site : Site) (ending : Completing)
  | drop (name : String)
  | seq (first second : Routine)
  /-- What is done depends on anything there is. -/
  | depend (choose : Thread → Routine)
  /-- A frame whose unwinding is caught. -/
  | caught (s : Sharing) (inner : Routine)

namespace Routine

/-- What a routine does. -/
def act : Routine → Act
  | other act _ => act
  | expect e site => Act.expectCall e site
  | intercept symbol name site => Act.intercept symbol name site
  | query name q site => Act.checkParameter name q.name q.actual site
  | complete name site ending => Act.completing name site ending
  | drop name => Act.drop name
  | seq first second => first.act.andThen second.act
  | depend choose => fun t => (choose t).act t
  | caught s inner => (Act.sharing s inner.act).noted

/-- The expectation that a call of a symbol takes from the queue, if it is of that symbol. -/
def taken? (symbol : String) (t : Thread) : Option Expectation :=
  t.context.bind fun c => (c.queue.intercept symbol).2.toOption

/-- What is lost of a frame when it unwinds. -/
def losses (s : Sharing) : Thread × Flow → List Deed
  | (u, .unwinding cause) => (s.own u).map fun call => .lost call.2.entry.seq cause
  | _ => []

/-- What a routine does with its mock calls. -/
def deeds : Routine → Thread → List Deed
  | other .., _ | expect .., _ | drop _, _ => []
  | intercept symbol _ _, t => (taken? symbol t).toList.map .opened
  | query name q _, t => (Act.openCall? t name).toList.map fun call => .queried call.entry.seq q
  | complete name _ ending, t => (Act.openCall? t name).toList.map fun call => .completed call.entry.seq ending
  | seq first second, t =>
    first.deeds t ++
      match first.act t with
      | (u, .normal) => second.deeds u
      | _ => []
  | depend choose, t => (choose t).deeds t
  | caught s inner, t => inner.deeds (s.entered t) ++ losses s (inner.act (s.entered t))

/-- What the function of a phase does with its mock calls. -/
def framedDeeds (r : Routine) (t : Thread) : List Deed :=
  r.deeds (Sharing.none.entered t) ++ losses .none (r.act (Sharing.none.entered t))

end Routine

/-! ## Deeds keep the history -/

/-- If the unit stands well after something was done, then it did before, the history of its calls goes on with the
deeds, and there is no unwinding that would be on record. -/
def Dealt (t : Thread) (deeds : List Deed) (result : Thread × Flow) : Prop :=
  ∀ queue', result.1.standing? = some (.good queue') → ∃ queue, t.standing? = some (.good queue) ∧
    ∀ before outer, Tracked before queue (t.calls.map (·.2) ++ outer) →
      Tracked (before ++ deeds) queue' (result.1.calls.map (·.2) ++ outer) ∧ ¬ result.2.OnRecord

/-- Nothing needs to be known of a unit that is tainted. -/
theorem Dealt.of_tainted {t : Thread} {deeds : List Deed} {result : Thread × Flow} (tainted : result.1.Tainted) :
    Dealt t deeds result := fun queue good => absurd good (tainted queue)

namespace Routine

open Act Thread

variable {t u : Thread} {flow : Flow} {deeds : List Deed} {name : String} {call : MockCall} {queue : ExpectQueue}

/-- Nothing is done. -/
theorem dealt_done (t : Thread) : Dealt t [] (t, .normal) := by
  intro queue good
  refine ⟨queue, good, fun before outer tracked => ⟨?_, by simp [Flow.OnRecord]⟩⟩
  rwa [List.append_nil]

theorem dealt_andThen {first second : Act} {more : Thread → List Deed}
    (left : (∀ ending, (first t).2 ≠ .ended ending) → Dealt t deeds (first t))
    (right : ∀ u, (∀ ending, (second u).2 ≠ .ended ending) → Dealt u (more u) (second u))
    (comes : ∀ ending, (first.andThen second t).2 ≠ .ended ending) :
    Dealt t (deeds ++ match first t with
      | (u, .normal) => more u
      | _ => []) (first.andThen second t) := by
  unfold andThen at comes ⊢
  rcases ran : first t with ⟨u, flow⟩
  rw [ran] at comes left
  cases flow with
  | ended ending => exact absurd rfl (comes ending)
  | unwinding cause =>
    simp only [List.append_nil]
    exact left nofun
  | normal =>
    intro queue'' good
    obtain ⟨queue', good', kept'⟩ := right u comes queue'' good
    obtain ⟨queue, good, kept⟩ := left nofun queue' good'
    refine ⟨queue, good, fun before outer tracked => ?_⟩
    rw [← List.append_assoc]
    exact kept' _ outer (kept before outer tracked).1

/-! ### Mock calls -/

theorem dealt_expectCall (e : Expectation) (site : Site) (t : Thread) : Dealt t [] (expectCall e site t) := by
  cases stands : t.standing? with
  | none =>
    have run : expectCall e site t = outsideUnit t := by simp only [expectCall, t.context_eq_none_iff.2 stands]
    rw [run]
    exact .of_tainted (hasFailed_of_none stands).tainted
  | some s =>
    obtain ⟨u, run, calls, stands'⟩ := expectCall_of_standing stands e site
    rw [run]
    intro queue' good
    obtain ⟨same, rfl⟩ := Standing.eq_good_of_queue (Option.some.inj (stands'.symm.trans good))
    refine ⟨s.queue, stands.trans (congrArg some same), fun before outer tracked =>
      ⟨?_, by simp [Flow.OnRecord]⟩⟩
    rw [calls, List.append_nil]
    exact tracked.push e site

theorem taken?_of_standing {s : Standing} (stands : t.standing? = some s) (symbol : String) :
    taken? symbol t = (s.queue.intercept symbol).2.toOption := by
  obtain ⟨c, context, rfl⟩ := standing?_eq_some_iff.1 stands
  rw [taken?, context]
  rfl

/-- What a call takes is the head of the queue. -/
theorem intercept_eq_ok {symbol : String} {e : Expectation} (taken : (queue.intercept symbol).2 = .ok e) :
    ∃ rest, queue.entries = e :: rest ∧ (queue.intercept symbol).1 = { queue with entries := rest } := by
  unfold ExpectQueue.intercept at taken ⊢
  split at taken
  · exact absurd taken nofun
  · rename_i head rest entries
    simp only at taken
    split at taken
    · cases taken
      rename_i symbol
      exact ⟨rest, entries, by simp only [symbol, if_true]⟩
    · exact absurd taken nofun

theorem dealt_intercept (symbol name : String) (site : Site) (t : Thread) :
    Dealt t ((taken? symbol t).toList.map .opened) (Act.intercept symbol name site t) := by
  cases stands : t.standing? with
  | none =>
    have run : Act.intercept symbol name site t = outsideUnit t := by
      simp only [Act.intercept, t.context_eq_none_iff.2 stands]
    rw [run]
    exact .of_tainted (hasFailed_of_none stands).tainted
  | some s =>
    obtain ⟨u, calls, stands', run⟩ := intercept_of_standing stands symbol name site
    rw [taken?_of_standing stands]
    cases taken : (s.queue.intercept symbol).2 with
    | error violation =>
      rw [taken] at run
      rw [run]
      exact .of_tainted (hasFailed_fatal _ _ _ _).tainted
    | ok e =>
      obtain ⟨rest, entries, left⟩ := intercept_eq_ok taken
      rw [taken] at run
      rw [run]
      intro queue' good
      obtain ⟨same, rfl⟩ := Standing.eq_good_of_queue (Option.some.inj (stands'.symm.trans good))
      refine ⟨s.queue, stands.trans (congrArg some same), fun before outer tracked =>
        ⟨?_, by simp [Flow.OnRecord]⟩⟩
      rw [left, List.map_append, List.append_assoc]
      exact (tracked.opened entries site).perm List.perm_middle.symm

/-- Where an open call is among the open ones. -/
theorem calls_of_openCall? (isOpen : openCall? t name = some call) :
    ∃ first last, t.calls = first ++ (name, call) :: last ∧ ∀ other ∈ first, other.1 ≠ name := by
  obtain ⟨first, last, split, before⟩ := List.lookup_eq_some_iff.1 isOpen
  exact ⟨first, last, split, fun other mem same => absurd (before other mem) (by simp [same])⟩

/-- No open call is deferred while the unit stands well. -/
theorem intact_of_openCall? {before : List Deed} {outer : List MockCall} (isOpen : openCall? t name = some call)
    (tracked : Tracked before queue (t.calls.map (·.2) ++ outer)) : call.deferred = false := by
  obtain ⟨first, last, split, _⟩ := calls_of_openCall? isOpen
  exact (tracked.current call (by simp [split])).1

theorem calls_close {first last : List (String × MockCall)} (split : t.calls = first ++ (name, call) :: last)
    (before : ∀ other ∈ first, other.1 ≠ name) : (close t name).calls = first ++ last := by
  simp only [close, split]
  rw [List.eraseP_append_right _ (by simpa using before), List.eraseP_cons_of_pos (by simp)]

theorem calls_update {first last : List (String × MockCall)} (split : t.calls = first ++ (name, call) :: last)
    (before : ∀ other ∈ first, other.1 ≠ name) (next : MockCall) :
    (update t name next).calls = first ++ (name, next) :: last := by
  simp only [update, split]
  clear split
  induction first with
  | nil => simp [replaceCall]
  | cons other first ih =>
    obtain ⟨differs, before⟩ := List.forall_mem_cons.1 before
    simp only [List.cons_append, replaceCall, if_neg differs, ih before]

/-- The open call comes first among all open calls, up to their order. -/
theorem perm_open (first last : List (String × MockCall)) (call : String × MockCall) (outer : List MockCall) :
    ((first ++ call :: last).map (·.2) ++ outer).Perm (call.2 :: ((first ++ last).map (·.2) ++ outer)) := by
  simp only [List.map_append, List.map_cons, List.append_assoc, List.cons_append]
  exact List.perm_middle

theorem dealt_query (name : String) (q : Query) (site : Site) (t : Thread) :
    Dealt t ((openCall? t name).toList.map fun call => .queried call.entry.seq q)
      (checkParameter name q.name q.actual site t) := by
  cases isOpen : openCall? t name with
  | none =>
    have run : checkParameter name q.name q.actual site t = done t := by simp only [checkParameter, isOpen]
    rw [run]
    exact dealt_done t
  | some call =>
    have answer := checkParameter_of_openCall isOpen q site
    cases held : call.entry.query? q with
    | none =>
      rw [held] at answer
      obtain ⟨entry, expression, message, run⟩ := answer
      rw [run]
      exact .of_tainted (hasFailed_report _ _).tainted
    | some next =>
      rw [held] at answer
      rw [answer]
      intro queue good
      refine ⟨queue, good, fun before outer tracked => ⟨?_, by simp [Flow.OnRecord]⟩⟩
      obtain ⟨first, last, split, first_others⟩ := calls_of_openCall? isOpen
      rw [split] at tracked
      have moved := tracked.perm (perm_open first last (name, call) outer)
      rw [calls_update split first_others]
      exact (moved.queried held).perm (perm_open first last (name, _) outer).symm

theorem dealt_complete (name : String) (site : Site) (ending : Completing) (t : Thread) :
    Dealt t ((openCall? t name).toList.map fun call => .completed call.entry.seq ending)
      (completing name site ending t) := by
  cases isOpen : openCall? t name with
  | none =>
    have run : completing name site ending t = done t := by
      cases ending <;> simp only [completing, finish, returnValue, isOpen]
    rw [run]
    exact dealt_done t
  | some call =>
    obtain ⟨expression, message, run⟩ := completing_of_openCall isOpen ending site
    obtain ⟨first, last, split, first_others⟩ := calls_of_openCall? isOpen
    have front := perm_open first last (name, call)
    rw [run]
    split
    · rename_i deferred
      intro queue good
      refine ⟨queue, good, fun before outer tracked => ?_⟩
      exact absurd ((intact_of_openCall? isOpen tracked).symm.trans deferred) Bool.false_ne_true
    · split
      · rename_i completes
        intro queue good
        refine ⟨queue, good, fun before outer tracked => ⟨?_, by simp [Flow.OnRecord]⟩⟩
        rw [split] at tracked
        rw [calls_close split first_others]
        exact (tracked.perm (front outer)).completed completes
      · exact .of_tainted (hasFailed_fatal _ _ _ _).tainted

theorem dealt_drop (name : String) (t : Thread) : Dealt t [] (Act.drop name t) := by
  unfold Act.drop
  cases isOpen : openCall? t name with
  | none => exact dealt_done t
  | some call =>
    simp only [dropped]
    split
    · rename_i deferred
      intro queue good
      refine ⟨queue, good, fun before outer tracked => ?_⟩
      exact absurd ((intact_of_openCall? isOpen tracked).symm.trans deferred) Bool.false_ne_true
    · exact .of_tainted (hasFailed_report _ _).tainted

/-! ### Frames -/

/-- A failure stays on record while calls are dropped. -/
theorem hasFailed_dropAll (calls : List (String × MockCall)) (failed : t.HasFailed) :
    (dropAll calls t).1.HasFailed := by
  induction calls generalizing t with
  | nil => exact failed
  | cons call calls ih =>
    have first : (dropped call.2 t).1.HasFailed := by
      unfold dropped
      split
      · exact failed
      · exact hasFailed_report _ _
    simp only [dropAll, andThen]
    rcases ran : dropped call.2 t with ⟨u, flow⟩
    rw [ran] at first
    cases flow with
    | normal => exact ih first
    | unwinding cause => exact first
    | ended ending => exact first

/-- Dropping calls goes unnoticed only if all of them are deferred. -/
theorem dropAll_cases (calls : List (String × MockCall)) (t : Thread) :
    (∀ call ∈ calls, call.2.deferred = true) ∧
      dropAll calls t = (t, .normal) ∨ (dropAll calls t).1.HasFailed := by
  induction calls with
  | nil => exact .inl ⟨by simp, rfl⟩
  | cons call calls ih =>
    cases deferred : call.2.deferred with
    | true =>
      have step : dropAll (call :: calls) t = dropAll calls t := by
        simp only [dropAll, andThen, dropped, deferred, if_true, done]
      rw [step]
      exact ih.imp_left fun quiet => ⟨List.forall_mem_cons.2 ⟨deferred, quiet.1⟩, quiet.2⟩
    | false =>
      right
      have failed : (dropped call.2 t).1.HasFailed := by
        simp only [dropped, deferred, Bool.false_eq_true, if_false]
        exact hasFailed_report _ _
      simp only [dropAll, andThen]
      rcases ran : dropped call.2 t with ⟨u, flow⟩
      rw [ran] at failed
      cases flow with
      | normal => exact hasFailed_dropAll calls failed
      | unwinding cause => exact failed
      | ended ending => exact failed

/-- What comes of a frame: if the unit still stands well, then of the frame's calls those that outlive it are open, and
the calls out of its reach stay as they are. -/
theorem sharing_tracks (s : Sharing) {inner : Act} {deeds : List Deed} (t : Thread)
    (inside : (∀ ending, (inner (s.entered t)).2 ≠ .ended ending) →
      Dealt (s.entered t) deeds (inner (s.entered t)))
    (comes : ∀ ending, (sharing s inner t).2 ≠ .ended ending) :
    ∀ queue', (sharing s inner t).1.standing? = some (.good queue') → ∃ queue, t.standing? = some (.good queue) ∧
      ∀ before outer, Tracked before queue ((s.entered t).calls.map (·.2) ++ outer) →
        Tracked (before ++ (deeds ++ losses s (inner (s.entered t)))) queue'
            ((s.left (inner (s.entered t)).1).map (·.2) ++ outer) ∧
          ¬ (sharing s inner t).2.OnRecord := by
  rcases ran : inner (s.entered t) with ⟨u, flow⟩
  rw [ran] at inside
  have split (outer : List MockCall) :
      (u.calls.map (·.2) ++ outer).Perm ((s.own u).map (·.2) ++ ((s.left u).map (·.2) ++ outer)) := by
    rw [← List.append_assoc, ← List.map_append]
    exact ((s.perm_own u).symm.map _).append_right outer
  cases flow with
  | ended ending => exact absurd (by rw [sharing_of_ended ran]) (comes ending)
  | unwinding cause =>
    rw [sharing_of_unwinding ran]
    intro queue' good
    obtain ⟨queue, stands, kept⟩ := inside (by simp) queue' good
    refine ⟨queue, stands, fun before outer tracked => ?_⟩
    obtain ⟨further, unrecorded⟩ := kept before outer tracked
    refine ⟨?_, unrecorded⟩
    cases cause with
    | failed => exact absurd (.inl rfl) unrecorded
    | skipped => exact absurd (.inr rfl) unrecorded
    | panicked message =>
      have lost := (further.perm (split outer)).lost message ((s.own u).map (·.2))
      rwa [List.map_map, List.append_assoc] at lost
  | normal =>
    rw [sharing_of_normal ran]
    intro queue' good
    obtain ⟨deferred, quiet⟩ | failed := dropAll_cases (s.own u) u
    · rw [quiet] at good ⊢
      obtain ⟨queue, stands, kept⟩ := inside (by simp) queue' good
      refine ⟨queue, stands, fun before outer tracked => ?_⟩
      obtain ⟨further, unrecorded⟩ := kept before outer tracked
      have parted := further.perm (split outer)
      have closed : s.own u = [] := by
        refine List.eq_nil_iff_forall_not_mem.2 fun call mem => ?_
        have intact := (parted.current call.2 (List.mem_append_left _ (List.mem_map_of_mem mem))).1
        exact absurd (intact.symm.trans (deferred call mem)) Bool.false_ne_true
      rw [closed] at parted
      exact ⟨by simpa [losses] using parted, unrecorded⟩
    · exact absurd good (failed.tainted queue')

theorem dealt_caught (s : Sharing) {inner : Act} {deeds : List Deed} (t : Thread)
    (inside : (∀ ending, (inner (s.entered t)).2 ≠ .ended ending) →
      Dealt (s.entered t) deeds (inner (s.entered t)))
    (comes : ∀ ending, ((sharing s inner).noted t).2 ≠ .ended ending) :
    Dealt t (deeds ++ losses s (inner (s.entered t))) ((sharing s inner).noted t) := by
  obtain ⟨returned, item, noted⟩ := noted_eq comes
  rw [noted]
  intro queue' good
  obtain ⟨queue, stands, kept⟩ := sharing_tracks s t inside returned queue' good
  refine ⟨queue, stands, fun before outer tracked => ⟨?_, by simp [Flow.OnRecord]⟩⟩
  -- The calls out of the frame's reach are outer ones for what is in it.
  let apart := (t.calls.filter fun call => !s.given call).map (·.2)
  have reach : (t.calls.map (·.2) ++ outer).Perm ((s.entered t).calls.map (·.2) ++ (apart ++ outer)) := by
    rw [← List.append_assoc, ← List.map_append]
    exact ((s.perm_entered t).symm.map _).append_right outer
  rw [calls_note, calls_sharing, Sharing.after, List.map_append, List.append_assoc]
  have tracks := (kept before (apart ++ outer) (tracked.perm reach)).1
  refine tracks.perm ?_
  rw [← List.append_assoc, ← List.append_assoc]
  exact List.perm_append_comm.append_right outer

/-- **The deeds of a routine keep the history of its unit's calls.** -/
theorem dealt_act (r : Routine) (t : Thread) (comes : ∀ ending, (r.act t).2 ≠ .ended ending) :
    Dealt t (r.deeds t) (r.act t) := by
  induction r generalizing t with
  | other act apart =>
    intro queue good
    obtain ⟨stands, unrecorded⟩ := apart.standing t queue comes good
    refine ⟨queue, stands, fun before outer tracked => ⟨?_, unrecorded⟩⟩
    have same : (act t).1.calls = t.calls := apart.calls t
    rw [Routine.act, same, deeds, List.append_nil]
    exact tracked
  | expect e site => exact dealt_expectCall e site t
  | intercept symbol name site => exact dealt_intercept symbol name site t
  | query name q site => exact dealt_query name q site t
  | complete name site ending => exact dealt_complete name site ending t
  | drop name => exact dealt_drop name t
  | seq first second ihFirst ihSecond => exact dealt_andThen (ihFirst t) ihSecond comes
  | depend choose ih => exact ih t t comes
  | caught s inner ih => exact dealt_caught s t (ih _) comes

/-- A phase's function keeps the history too, and of its own calls none is open after it. -/
theorem framed_tracks (r : Routine) (t : Thread) (comes : ∀ ending, (framed r.act t).2 ≠ .ended ending) :
    ∀ queue', (framed r.act t).1.standing? = some (.good queue') → ∃ queue, t.standing? = some (.good queue) ∧
      ∀ before, Tracked before queue [] → Tracked (before ++ r.framedDeeds t) queue' [] := by
  rw [← sharing_none] at comes ⊢
  intro queue' good
  obtain ⟨queue, stands, kept⟩ := sharing_tracks .none t (r.dealt_act _) comes queue' good
  refine ⟨queue, stands, fun before tracked => ?_⟩
  simpa [framedDeeds] using (kept before [] (by simpa using tracked)).1

/-- A call that is lent to a frame is still open when the frame has queried it and panicked. -/
example :
    let site : Site := ⟨"t.rs", 7, "f"⟩
    let e : Expectation := { symbol := "f", params := [⟨"x", ⟨.order .equal (.signed 3), none⟩, false⟩] }
    let boom := other (unwind (.panicked none))
      ⟨fun _ => rfl, fun _ _ _ good => ⟨good, by simp [unwind, Flow.OnRecord]⟩⟩
    let lent : Sharing := ⟨fun _ => true, fun _ => true⟩
    let r := seq (expect e site) <| seq (.intercept "f" "c" site) <|
      seq (caught lent (seq (query "c" ⟨"x", .signed 3⟩ site) boom)) (complete "c" site .finish)
    r.framedDeeds ((Thread.start none).install .never) =
      [.opened { e with seq := 1, pushedAt := some site }, .queried 1 ⟨"x", .signed 3⟩, .completed 1 .finish] := by
  decide +kernel

end Routine

end TestIsolation
