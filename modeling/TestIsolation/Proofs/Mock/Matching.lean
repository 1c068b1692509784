import Mathlib.Data.List.Forall2
import TestIsolation.Mock.Expectation

/-!
# When a call is the one that was expected

A call queries parameters and is completed. It is the one that was expected (`Expectation.Met`) if under each name the
queried values meet the constraints that are owed, one by one and with none left over, and it is completed in a way
that suits the value to return. The engine decides this while it goes along (`Expectation.met_iff`): no query breaks a
rule, and nothing is left over at the end.
-/

namespace TestIsolation

set_option autoImplicit false

/-- A parameter that a call queries. -/
structure Query where
  name : String
  actual : Value
  deriving DecidableEq, Repr

/-- How a call is completed. -/
inductive Completing where
  | finish
  /-- A value is returned, as one of a type. -/
  | returning (target : Target)
  deriving DecidableEq, Repr

/-- The values queried under a name, in order. -/
def Query.values (name : String) (queries : List Query) : List Value :=
  (queries.filter (·.name = name)).map (·.actual)

/-- The constraints under a name that were not queried, in the order they were registered. -/
def Parameter.owed (name : String) (params : List Parameter) : List Constraint :=
  (params.filter fun p => p.name = name ∧ !p.consumed).map (·.constraint)

/-- A call is completed in a way that suits the value to return, if there is one. -/
def Completing.Suits (returns : Option Value) : Completing → Prop
  | finish => returns = none
  | returning target => ∃ v ∈ returns, ∃ converted, v.convert target = .ok converted

/-- Under each name the queried values meet the constraints that are owed, one by one. -/
def Parameter.Satisfied (params : List Parameter) (queries : List Query) : Prop :=
  ∀ name, List.Forall₂ (fun constraint actual => constraint.evaluate actual = .ok true) (owed name params)
    (Query.values name queries)

/-- A call is the one that was expected. -/
structure Expectation.Met (e : Expectation) (queries : List Query) (ending : Completing) : Prop where
  params : Parameter.Satisfied e.params queries
  returns : ending.Suits e.returns

theorem Parameter.owed_cons (name : String) (p : Parameter) (params : List Parameter) : owed name (p :: params) =
    if p.name = name ∧ p.consumed = false then p.constraint :: owed name params else owed name params := by
  simp only [owed, List.filter_cons, Bool.not_eq_true', decide_eq_true_eq]
  split <;> rfl

theorem Query.values_cons (name : String) (q : Query) (queries : List Query) :
    values name (q :: queries) = if q.name = name then q.actual :: values name queries else values name queries := by
  simp only [values, List.filter_cons, decide_eq_true_eq]
  split <;> rfl

namespace Expectation

open Parameter

variable {name : String} {params rest : List Parameter} {constraint : Constraint}

/-! ## A query -/

/-- No constraint is left under a name. -/
theorem consume?_eq_none (none_ : consume? name params = none) : owed name params = [] := by
  induction params with
  | nil => rfl
  | cons p params ih =>
    rw [consume?] at none_
    split at none_
    · exact absurd none_ nofun
    · rename_i differs
      rw [owed_cons, if_neg (by simpa using differs)]
      exact ih (Option.map_eq_none_iff.1 none_)

/-- The first constraint under a name is queried, and what is owed under other names stays. -/
theorem consume?_eq_some (found : consume? name params = some (constraint, rest)) (other : String) :
    owed other params = if name = other then constraint :: owed other rest else owed other rest := by
  induction params generalizing rest with
  | nil => exact absurd found nofun
  | cons p params ih =>
    rw [consume?] at found
    split at found
    · rename_i this
      obtain ⟨named, unqueried⟩ : p.name = name ∧ p.consumed = false := by simpa using this
      cases found
      simp only [owed_cons, named, unqueried, and_true, Bool.true_eq_false, and_false, if_false]
    · obtain ⟨⟨constraint, rest⟩, inside, eq⟩ := Option.map_eq_some_iff.1 found
      cases eq
      rename_i differs
      have skipped : ¬ (p.name = name ∧ p.consumed = false) := by simpa using differs
      rw [owed_cons, owed_cons, ih inside]
      by_cases own : name = other
      · subst own
        simp only [if_neg skipped, if_true]
      · simp only [if_neg own]

/-- An expectation after a query that breaks no rule. -/
def query? (e : Expectation) (q : Query) : Option Expectation :=
  match e.checkParameter q.name q.actual with
  | (e, .ok ()) => some e
  | _ => none

/-- An expectation after queries that break no rule. -/
def queried? (e : Expectation) : List Query → Option Expectation
  | [] => some e
  | q :: queries => (e.query? q).bind (queried? · queries)

/-- A query breaks no rule if it meets the first constraint under its name. -/
theorem query?_eq_some_iff {e next : Expectation} {q : Query} :
    e.query? q = some next ↔ ∃ constraint rest, consume? q.name e.params = some (constraint, rest) ∧
      constraint.evaluate q.actual = .ok true ∧ next = { e with params := rest } := by
  unfold query? checkParameter
  cases found : consume? q.name e.params with
  | none => cases e.params.any (·.name = q.name) <;> simp
  | some result =>
    obtain ⟨constraint, rest⟩ := result
    cases held : constraint.evaluate q.actual with
    | error error => simp [held]
    | ok answer => cases answer <;> simp [held, eq_comm]

theorem queried?_append (e : Expectation) (queries more : List Query) :
    e.queried? (queries ++ more) = (e.queried? queries).bind (queried? · more) := by
  induction queries generalizing e with
  | nil => rfl
  | cons q queries ih => simp only [List.cons_append, queried?, ih, Option.bind_assoc]

/-- Queries change only the constraints. -/
theorem queried?_eq_some {e next : Expectation} {queries : List Query} (queried : e.queried? queries = some next) :
    ∃ rest, next = { e with params := rest } := by
  induction queries generalizing e with
  | nil =>
    cases queried
    exact ⟨next.params, rfl⟩
  | cons q queries ih =>
    obtain ⟨middle, first, further⟩ := Option.bind_eq_some_iff.1 queried
    obtain ⟨_, _, _, _, rfl⟩ := query?_eq_some_iff.1 first
    obtain ⟨rest, rfl⟩ := ih further
    exact ⟨rest, rfl⟩

/-! ## All queries -/

/-- What no query is made for is satisfied if nothing is owed. -/
theorem satisfied_nil_iff (e : Expectation) : Satisfied e.params [] ↔ e.unqueried = [] := by
  have nothing : e.unqueried = [] ↔ ∀ p ∈ e.params, p.consumed = true := by simp [unqueried]
  rw [nothing]
  constructor
  · intro satisfied p mem
    by_contra unqueried
    have empty : owed p.name e.params = [] := List.forall₂_nil_right_iff.1 (satisfied p.name)
    rw [owed, List.map_eq_nil_iff, List.filter_eq_nil_iff] at empty
    exact empty p mem (by simp [unqueried])
  · intro consumed name
    have empty : owed name e.params = [] := by
      rw [owed, List.map_eq_nil_iff, List.filter_eq_nil_iff]
      exact fun p mem => by simp [consumed p mem]
    rw [empty]
    exact .nil

/-- Queries are satisfied if the first one breaks no rule and the others satisfy what is then left. -/
theorem satisfied_cons_iff (e : Expectation) (q : Query) (queries : List Query) :
    Satisfied e.params (q :: queries) ↔ ∃ next, e.query? q = some next ∧ Satisfied next.params queries := by
  constructor
  · intro satisfied
    have own := satisfied q.name
    rw [Query.values_cons, if_pos rfl] at own
    cases found : consume? q.name e.params with
    | none =>
      rw [consume?_eq_none found] at own
      cases own
    | some result =>
      obtain ⟨constraint, rest⟩ := result
      rw [consume?_eq_some found, if_pos rfl, List.forall₂_cons] at own
      refine ⟨{ e with params := rest }, query?_eq_some_iff.2 ⟨constraint, rest, found, own.1, rfl⟩, fun name => ?_⟩
      by_cases same : q.name = name
      · subst same
        exact own.2
      · have kept := satisfied name
        rwa [Query.values_cons, consume?_eq_some found, if_neg same, if_neg same] at kept
  · rintro ⟨next, queried, satisfied⟩ name
    obtain ⟨constraint, rest, found, held, rfl⟩ := query?_eq_some_iff.1 queried
    rw [Query.values_cons, consume?_eq_some found]
    by_cases same : q.name = name
    · subst same
      simp only [if_true]
      exact .cons held (satisfied q.name)
    · simp only [if_neg same]
      exact satisfied name

/-- The engine's queries of a call break no rule, and leave nothing, if the call satisfies what is owed. -/
theorem satisfied_iff (e : Expectation) (queries : List Query) :
    Satisfied e.params queries ↔ ∃ next, e.queried? queries = some next ∧ next.unqueried = [] := by
  induction queries generalizing e with
  | nil =>
    rw [satisfied_nil_iff]
    exact ⟨fun nothing => ⟨e, rfl, nothing⟩, fun ⟨_, same, nothing⟩ => by cases same; exact nothing⟩
  | cons q queries ih =>
    rw [satisfied_cons_iff]
    constructor
    · rintro ⟨next, queried, satisfied⟩
      obtain ⟨last, further, nothing⟩ := (ih next).1 satisfied
      exact ⟨last, by rw [queried?, queried, Option.bind_some, further], nothing⟩
    · rintro ⟨last, all, nothing⟩
      obtain ⟨next, queried, further⟩ := Option.bind_eq_some_iff.1 all
      exact ⟨next, queried, (ih next).2 ⟨last, further, nothing⟩⟩

/-! ## The end of a call -/

/-- Whether the engine lets a call be completed. -/
def completes (e : Expectation) : Completing → Bool
  | .finish => e.leftovers.isOk
  | .returning target =>
    match e.takeReturn with
    | (_, .error _) => false
    | (e, .ok v) => (v.convert target).isOk && e.leftovers.isOk

theorem isOk_leftovers (e : Expectation) : e.leftovers.isOk = true ↔ e.unqueried = [] ∧ e.returns = none := by
  unfold leftovers
  cases nothing : e.unqueried with
  | nil => cases returns : e.returns <;> simp [Except.isOk, Except.toBool]
  | cons name names => simp [Except.isOk, Except.toBool]

theorem completes_iff (e : Expectation) (ending : Completing) :
    e.completes ending = true ↔ e.unqueried = [] ∧ ending.Suits e.returns := by
  cases ending with
  | finish => exact isOk_leftovers e
  | returning target =>
    unfold completes takeReturn
    cases returns : e.returns with
    | none => simp [Completing.Suits]
    | some v =>
      have taken := isOk_leftovers { e with returns := none }
      simp only [and_true] at taken
      simp only [Bool.and_eq_true, taken, Completing.Suits, Option.mem_def, Option.some.injEq]
      have same : ({ e with returns := none } : Expectation).unqueried = e.unqueried := rfl
      rw [same]
      cases converted : v.convert target <;> simp [Except.isOk, Except.toBool, converted]

/-- **The engine decides whether a call is the one that was expected.** -/
theorem met_iff (e : Expectation) (queries : List Query) (ending : Completing) :
    e.Met queries ending ↔ ∃ next, e.queried? queries = some next ∧ next.completes ending = true := by
  constructor
  · rintro ⟨params, returns⟩
    obtain ⟨next, queried, nothing⟩ := (satisfied_iff e queries).1 params
    obtain ⟨rest, rfl⟩ := queried?_eq_some queried
    exact ⟨_, queried, (completes_iff _ _).2 ⟨nothing, returns⟩⟩
  · rintro ⟨next, queried, completes⟩
    obtain ⟨nothing, returns⟩ := (completes_iff _ _).1 completes
    refine ⟨(satisfied_iff e queries).2 ⟨next, queried, nothing⟩, ?_⟩
    obtain ⟨rest, rfl⟩ := queried?_eq_some queried
    exact returns

end Expectation

end TestIsolation
