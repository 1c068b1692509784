import TestIsolation.Proofs.Unit.Recording
import TestIsolation.Unit.Script

/-!
# What test functions do

A `Behaviour` is anything that a phase's function can do within its unit: it checks, fails, skips and panics, declares
and makes mock calls, catches its own unwinding, and goes on depending on whatever it sees. While its unit is active it
always comes to an end, and it records failures and skips but enters no phase (`Behaviour.records`). A script is a
behaviour unless it nests a unit, ends the process or writes to the channel past the unit (`Action.behaviour_actAll`).
-/

namespace TestIsolation

set_option autoImplicit false

namespace Act

open Thread

/-- What functions can do within their unit. -/
inductive Behaviour : Act → Prop where
  | done : Behaviour done
  | note (item : TraceItem) : Behaviour (note item)
  | print (bytes : Bytes) : Behaviour (put (.console bytes))
  | sleep (millis : Nat) : Behaviour (put (.pause millis))
  | check (cond : Bool) (expr : String) (site : Site) : Behaviour (check cond expr site)
  | ensure (cond : Bool) (expr : String) (site : Site) : Behaviour (ensure cond expr site)
  | compare (actual : Value) (expr : String) (c : Constraint) (site : Site) (fatalIfUnmet : Bool) {next : Bool → Act}
      (goesOn : ∀ held, Behaviour (next held)) : Behaviour (compare actual expr c site fatalIfUnmet next)
  | fail (reason : Option String) (site : Site) : Behaviour (failWith reason site)
  | skip (reason : Option String) (site : Site) : Behaviour (skipWith reason site)
  /-- A panic, or an unwinding that was caught before and goes on. -/
  | unwind (cause : Unwinding) : Behaviour (unwind cause)
  | expect (e : Expectation) (site : Site) : Behaviour (expectCall e site)
  | intercept (symbol name : String) (site : Site) : Behaviour (intercept symbol name site)
  | parameter (name parameter : String) (actual : Value) (site : Site) :
      Behaviour (checkParameter name parameter actual site)
  | finish (name : String) (site : Site) : Behaviour (finish name site)
  | returnValue (name : String) (target : Target) (site : Site) {next : Converted → Act}
      (goesOn : ∀ value, Behaviour (next value)) : Behaviour (returnValue name target site next)
  | drop (name : String) : Behaviour (drop name)
  /-- Open calls are moved to another frame, or forgotten. -/
  | move (f : List (String × MockCall) → List (String × MockCall)) :
      Behaviour (change fun t => { t with calls := f t.calls })
  | andThen {first second : Act} (left : Behaviour first) (right : Behaviour second) : Behaviour (first.andThen second)
  /-- What is done depends on anything there is. -/
  | depend {choose : Thread → Act} (each : ∀ t, Behaviour (choose t)) : Behaviour fun t => choose t t
  | caught {inner : Act} (inside : Behaviour inner) : Behaviour (caught inner)

/-- An act has come back, and on the way entered no phase. -/
structure Comes (t : Thread) (result : Thread × Flow) : Prop where
  recorded : t.Enters [] result.1
  returned : ∀ ending, result.2 ≠ .ended ending

/-- While a unit is active, an act comes back and enters no phase. -/
def Records (act : Act) : Prop := ∀ t : Thread, t.isActive = true → Comes t (act t)

section Acts

variable {t u : Thread}

theorem Comes.isActive {result : Thread × Flow} (comes : Comes t result) (active : t.isActive = true) :
    result.1.isActive = true := comes.recorded.isActive.trans active

/-- Nothing is recorded. -/
theorem Comes.of_aside {flow : Flow} (aside : t.Aside u) (returned : ∀ ending, flow ≠ .ended ending) :
    Comes t (u, flow) := ⟨aside.enters, returned⟩

/-- What is recorded in turn. -/
theorem Comes.trans {first second : Thread × Flow} (comes : Comes t first) (more : Comes first.1 second) :
    Comes t second := ⟨comes.recorded.trans more.recorded, more.returned⟩

/-- An act after a change that records nothing. -/
theorem Records.after {act : Act} (records : Records act) (active : t.isActive = true) (aside : t.Aside u) :
    Comes t (act u) := by
  have first : Comes t (u, .normal) := .of_aside aside nofun
  exact first.trans (records u (first.isActive active))

/-! ## Assertions -/

theorem records_done : Records done := fun _ _ => .of_aside (.of_eq rfl rfl) nofun

theorem records_unwind (cause : Unwinding) : Records (unwind cause) := fun _ _ => .of_aside (.of_eq rfl rfl) nofun

/-- A change that records nothing. -/
theorem records_change {f : Thread → Thread} (aside : ∀ t : Thread, t.Aside (f t)) : Records (change f) :=
  fun t _ => .of_aside (aside t) nofun

theorem Records.andThen {first second : Act} (left : Records first) (right : Records second) :
    Records (first.andThen second) := by
  intro t active
  have comes := left t active
  unfold Act.andThen
  rcases done : first t with ⟨u, flow⟩
  rw [done] at comes
  cases flow with
  | normal => exact comes.trans (right u (comes.isActive active))
  | unwinding cause => exact comes
  | ended ending => exact absurd rfl (comes.returned ending)

theorem records_report (f : Failure) : Records (report f) := by
  intro t active
  simp only [report, active, if_true]
  exact ⟨enters_fail t f, nofun⟩

theorem records_fatal (expression message : String) (site : Site) : Records (fatal expression message site) :=
  (records_report _).andThen (records_unwind .failed)

theorem records_check (cond : Bool) (expr : String) (site : Site) : Records (check cond expr site) := by
  unfold check
  split
  · exact records_done
  · exact records_report _

theorem records_ensure (cond : Bool) (expr : String) (site : Site) : Records (ensure cond expr site) := by
  unfold ensure
  split
  · exact records_done
  · exact records_fatal _ _ _

theorem records_compare (actual : Value) (expr : String) (c : Constraint) (site : Site) (fatalIfUnmet : Bool)
    {next : Bool → Act} (goesOn : ∀ held, Records (next held)) :
    Records (compare actual expr c site fatalIfUnmet next) := by
  unfold compare
  cases c.evaluate actual with
  | error e => exact records_fatal _ _ _
  | ok held =>
    cases held with
    | true => exact goesOn true
    | false =>
      simp only
      split
      · exact records_fatal _ _ _
      · exact (records_report _).andThen (goesOn false)

theorem records_skipWith (reason : Option String) (site : Site) : Records (skipWith reason site) := by
  intro t active
  simp only [skipWith, active, if_true]
  exact ⟨enters_skip t _, nofun⟩

/-! ## Mock calls -/

/-- Only the open calls change. -/
theorem aside_calls (t : Thread) (calls : List (String × MockCall)) : t.Aside { t with calls } := .of_eq rfl rfl

theorem exists_context (active : t.isActive = true) : ∃ c, t.context = some c := Option.isSome_iff_exists.1 active

theorem records_expectCall (e : Expectation) (site : Site) : Records (expectCall e site) := by
  intro t active
  obtain ⟨c, context⟩ := exists_context active
  simp only [expectCall, context]
  exact .of_aside (.queue context _) nofun

theorem records_intercept (symbol name : String) (site : Site) : Records (intercept symbol name site) := by
  intro t active
  obtain ⟨c, context⟩ := exists_context active
  simp only [intercept, context]
  split
  · exact (records_change fun t => aside_calls t _).after active (.queue context _)
  · exact (records_fatal _ _ _).after active (.queue context _)

theorem records_checkParameter (name parameter : String) (actual : Value) (site : Site) :
    Records (checkParameter name parameter actual site) := by
  intro t active
  unfold checkParameter
  cases openCall? t name with
  | none => exact records_done t active
  | some call =>
    simp only
    split
    · exact .of_aside (aside_calls _ _) nofun
    · exact (records_report _).after active (aside_calls _ _)

theorem records_complete (call : MockCall) (site : Site) : Records (complete call site) := by
  unfold complete
  split
  · exact records_unwind _
  · split
    · exact records_done
    · exact records_fatal _ _ _

theorem records_finish (name : String) (site : Site) : Records (finish name site) := by
  intro t active
  unfold finish
  cases openCall? t name with
  | none => exact records_done t active
  | some call => exact (records_complete call site).after active (aside_calls _ _)

theorem records_returnValue (name : String) (target : Target) (site : Site) {next : Converted → Act}
    (goesOn : ∀ value, Records (next value)) : Records (returnValue name target site next) := by
  intro t active
  unfold returnValue
  cases openCall? t name with
  | none => exact records_done t active
  | some call =>
    have closed : t.Aside (close t name) := aside_calls _ _
    simp only
    split
    · exact (records_unwind _).after active closed
    · split
      · exact (records_fatal _ _ _).after active closed
      · split
        · exact (records_fatal _ _ _).after active closed
        · exact ((records_complete _ _).andThen (goesOn _)).after active closed

theorem records_dropped (call : MockCall) : Records (dropped call) := by
  unfold dropped
  split
  · exact records_done
  · exact records_report _

theorem records_drop (name : String) : Records (drop name) := by
  intro t active
  unfold drop
  cases openCall? t name with
  | none => exact records_done t active
  | some call => exact (records_dropped call).after active (aside_calls _ _)

theorem records_dropAll (calls : List (String × MockCall)) : Records (dropAll calls) := by
  induction calls with
  | nil => exact records_done
  | cons call calls ih => exact (records_dropped call.2).andThen ih

/-! ## Frames -/

theorem Records.framed {inner : Act} (records : Records inner) : Records (framed inner) := by
  intro t active
  have dropping : Records fun t => dropAll t.calls t := fun t active => records_dropAll t.calls t active
  have comes := (records.andThen dropping).after active (aside_calls t [])
  exact ⟨comes.recorded.trans (aside_calls _ _).enters, comes.returned⟩

theorem Records.caught {inner : Act} (records : Records inner) : Records (caught inner) := by
  intro t active
  have comes := records.framed t active
  unfold Act.caught
  rcases ended : Act.framed inner t with ⟨u, flow⟩
  rw [ended] at comes
  have noting (ending : CaughtEnd) : Comes t (u.note (.caught ending), .normal) :=
    comes.trans (.of_aside (.of_eq rfl rfl) nofun)
  cases flow with
  | normal => exact noting _
  | unwinding cause =>
    cases cause with
    | failed | skipped => exact noting _
    | panicked message => cases message <;> exact noting _
  | ended ending => exact absurd rfl (comes.returned ending)

/-- **Functions come back and keep to their unit.** -/
theorem Behaviour.records {act : Act} (behaviour : Behaviour act) : Records act := by
  induction behaviour with
  | done => exact records_done
  | note item => exact records_change fun _ => .of_eq rfl rfl
  | print bytes => exact records_change fun _ => .put nofun
  | sleep millis => exact records_change fun _ => .put nofun
  | check cond expr site => exact records_check cond expr site
  | ensure cond expr site => exact records_ensure cond expr site
  | compare actual expr c site fatalIfUnmet _ ih => exact records_compare actual expr c site fatalIfUnmet ih
  | fail reason site => exact records_fatal _ _ site
  | skip reason site => exact records_skipWith reason site
  | unwind cause => exact records_unwind cause
  | expect e site => exact records_expectCall e site
  | intercept symbol name site => exact records_intercept symbol name site
  | parameter name parameter actual site => exact records_checkParameter name parameter actual site
  | finish name site => exact records_finish name site
  | returnValue name target site _ ih => exact records_returnValue name target site ih
  | drop name => exact records_drop name
  | move f => exact records_change fun t => aside_calls t _
  | andThen _ _ left right => exact left.andThen right
  | depend _ ih => exact fun t active => ih t t active
  | caught _ ih => exact ih.caught

end Acts

end Act

/-! ## Scripts -/

namespace Action

open Act

mutual

/-- Whether an action keeps to the unit that it is part of. -/
def isOrdinary : Action → Bool
  | nested .. | hang | exit _ | signal _ | sendRaw _ => false
  | catching actions => allOrdinary actions
  | _ => true

/-- Whether all actions keep to the unit that they are part of. -/
def allOrdinary : List Action → Bool
  | [] => true
  | action :: rest => isOrdinary action && allOrdinary rest

end

mutual

theorem behaviour_act (action : Action) (ordinary : action.isOrdinary = true) : action.act.Behaviour := by
  match action with
  | note text => exact .note _
  | noteActive =>
    have told (t : Thread) : Behaviour (Act.note (.active t.isActive)) := .note _
    have whole := Behaviour.depend told
    exact whole
  | check cond expr site => exact (Behaviour.check cond expr site).andThen (.note _)
  | ensure cond expr site => exact .ensure cond expr site
  | checkThat actual expr constraint site => exact .compare actual expr constraint site false fun _ => .note _
  | ensureThat actual expr constraint site => exact .compare actual expr constraint site true fun _ => .done
  | fail reason site => exact .fail reason site
  | skip reason site => exact .skip reason site
  | panic message => exact .unwind _
  | expect expectation site => exact .expect expectation site
  | intercept symbol call site => exact (Behaviour.intercept symbol call site).andThen (.note _)
  | parameter call name actual site => exact .parameter call name actual site
  | finish call site => exact .finish call site
  | returnValue call target site => exact .returnValue call target site fun _ => .note _
  | drop call => exact .drop call
  | catching actions => exact .caught (behaviour_actAll actions (by simpa [isOrdinary] using ordinary))
  | print bytes => exact .print bytes
  | sleep millis => exact .sleep millis
  | nested .. | hang | exit _ | signal _ | sendRaw _ => simp [isOrdinary] at ordinary

/-- **Ordinary scripts are behaviours.** -/
theorem behaviour_actAll (actions : List Action) (ordinary : allOrdinary actions = true) :
    (actAll actions).Behaviour := by
  match actions with
  | [] => exact .done
  | action :: rest =>
    rw [allOrdinary, Bool.and_eq_true] at ordinary
    exact (behaviour_act action ordinary.1).andThen (behaviour_actAll rest ordinary.2)

end

end Action

end TestIsolation
