import TestIsolation.Proofs.Mock.Matching

/-!
# Parameters in the order they were registered

A name may carry several constraints. Those that wait under one name are queried in the order they were registered, one
by each query of the name and whatever the answer: after some queries a constraint is queried if there were more queries
of its name than constraints waiting under it before (`Parameter.asked`). One more query finds the next constraint of
its name, if there is one, and leaves all others alone (`Parameter.consume?_asked`). So what a run of demands on an
expected call comes to is known from how often each name was queried (`parameters_matched_in_turn`).
-/

namespace TestIsolation

set_option autoImplicit false

/-- What a constraint makes of a value that is queried. -/
def Constraint.judge (c : Constraint) (symbol name : String) (actual : Value) : Except MockViolation Unit :=
  match c.evaluate actual with
  | .ok true => .ok ()
  | .ok false => .error (.parameterMismatch symbol name c actual)
  | .error error => .error (.invalidComparison symbol name error)

/-- Something demanded of an expected call. -/
inductive Demand where
  /-- A parameter is queried. -/
  | parameter (q : Query)
  /-- The value to return is taken. -/
  | returnValue
  deriving DecidableEq, Repr

namespace Demand

/-- The query of a parameter. -/
def query? : Demand → Option Query
  | parameter q => some q
  | returnValue => none

/-- The queries among some demands. -/
def queries (demands : List Demand) : List Query := demands.filterMap query?

/-- How often a name was queried. -/
def times (name : String) (demands : List Demand) : Nat := (Query.values name (queries demands)).length

end Demand

/-- How a demand was met. -/
inductive Demand.Outcome where
  | checked (answer : Except MockViolation Unit)
  | returned (answer : Except MockViolation Value)

namespace Expectation

/-- Meets one demand. -/
def serve (e : Expectation) : Demand → Expectation × Demand.Outcome
  | .parameter q =>
    let (e, answer) := e.checkParameter q.name q.actual
    (e, .checked answer)
  | .returnValue =>
    let (e, answer) := e.takeReturn
    (e, .returned answer)

/-- Meets demands in turn, whatever the replies. -/
def serveAll (e : Expectation) : List Demand → Expectation × List Demand.Outcome
  | [] => (e, [])
  | d :: demands =>
    let (later, replies) := (e.serve d).1.serveAll demands
    (later, (e.serve d).2 :: replies)

end Expectation

/-! ## Which constraints are queried -/

theorem Query.values_concat (name : String) (queries : List Query) (q : Query) :
    values name (queries ++ [q]) =
      if q.name = name then values name queries ++ [q.actual] else values name queries := by
  simp only [values, List.filter_append, List.map_append, List.filter_cons, decide_eq_true_eq]
  split <;> simp

namespace Parameter

variable {name : String} {before params rest : List Parameter} {p : Parameter} {queries : List Query} {q : Query}

/-- A constraint after some queries, where others were registered before it. It is queried if there were more queries
of its name than constraints waiting under it before. -/
def askedAt (queries : List Query) (before : List Parameter) (p : Parameter) : Parameter :=
  { p with consumed := p.consumed || decide ((owed p.name before).length < (Query.values p.name queries).length) }

/-- Constraints after some queries, where others were registered before them. -/
def asked (queries : List Query) (before : List Parameter) : List Parameter → List Parameter
  | [] => []
  | p :: params => askedAt queries before p :: asked queries (before ++ [p]) params

/-- Where each constraint stands. -/
theorem getElem?_asked (queries : List Query) (before params : List Parameter) (k : Nat) :
    (asked queries before params)[k]? = (params[k]?).map (askedAt queries (before ++ params.take k)) := by
  induction params generalizing before k with
  | nil => rfl
  | cons p params ih =>
    cases k with
    | zero => rw [List.take_zero, List.append_nil]; rfl
    | succ k =>
      rw [asked, List.getElem?_cons_succ, List.getElem?_cons_succ, List.take_succ_cons,
        List.append_cons before p (params.take k)]
      exact ih (before ++ [p]) k

theorem askedAt_nil (before : List Parameter) (p : Parameter) : askedAt [] before p = p := by
  simp [askedAt, Query.values]

theorem asked_nil (before params : List Parameter) : asked [] before params = params := by
  induction params generalizing before with
  | nil => rfl
  | cons p params ih => rw [asked, askedAt_nil, ih]

theorem owed_append (name : String) (params more : List Parameter) :
    owed name (params ++ more) = owed name params ++ owed name more := by
  simp only [owed, List.filter_append, List.map_append]

theorem length_owed_concat (name : String) (params : List Parameter) (p : Parameter) :
    (owed name (params ++ [p])).length =
      (owed name params).length + if p.name = name ∧ p.consumed = false then 1 else 0 := by
  rw [owed_append, List.length_append, owed_cons]
  split <;> rfl

/-- A query leaves constraints of other names alone, and those of its name unless it is their turn. -/
theorem askedAt_concat (other : p.name = q.name → p.consumed = false →
    (owed q.name before).length ≠ (Query.values q.name queries).length) :
    askedAt (queries ++ [q]) before p = askedAt queries before p := by
  unfold askedAt
  rw [Query.values_concat]
  by_cases own : p.name = q.name
  · cases taken : p.consumed with
    | true => simp
    | false =>
      have apart := other own taken
      simp only [own, if_true, List.length_append, List.length_singleton, Bool.false_or]
      congr 1
      rw [decide_eq_decide]
      omega
  · simp [Ne.symm own]

/-- A query leaves constraints alone if the next one of its name is before or behind them. -/
theorem asked_concat (passed : (Query.values q.name queries).length < (owed q.name before).length ∨
      (owed q.name (before ++ params)).length ≤ (Query.values q.name queries).length) :
    asked (queries ++ [q]) before params = asked queries before params := by
  induction params generalizing before with
  | nil => rfl
  | cons p params ih =>
    rw [asked, asked, askedAt_concat, ih]
    · rw [owed_append, List.length_append, ← List.append_cons]
      omega
    · intro own waits
      rw [owed_append, owed_cons, if_pos ⟨own, waits⟩, List.length_append, List.length_cons] at passed
      omega

/-- **A query finds the next constraint of its name**, if there is one, whatever was queried under other names. -/
theorem consume?_asked (reached : (owed q.name before).length ≤ (Query.values q.name queries).length) :
    Expectation.consume? q.name (asked queries before params) =
      ((owed q.name (before ++ params))[(Query.values q.name queries).length]?).map fun constraint =>
        (constraint, asked (queries ++ [q]) before params) := by
  induction params generalizing before with
  | nil =>
    rw [List.append_nil, List.getElem?_eq_none reached]
    rfl
  | cons p params ih =>
    have later : before ++ p :: params = (before ++ [p]) ++ params := List.append_cons ..
    rw [asked, asked, Expectation.consume?]
    by_cases turn : p.name = q.name ∧ p.consumed = false ∧
        (owed q.name before).length = (Query.values q.name queries).length
    · obtain ⟨own, waits, now⟩ := turn
      have behind : (Query.values q.name queries).length < (owed q.name (before ++ [p])).length := by
        rw [length_owed_concat, if_pos ⟨own, waits⟩]
        omega
      have found : (owed q.name (before ++ p :: params))[(Query.values q.name queries).length]? =
          some p.constraint := by
        rw [owed_append, owed_cons, if_pos ⟨own, waits⟩, ← now, List.getElem?_append_right (Nat.le_refl _),
          Nat.sub_self]
        rfl
      rw [found, asked_concat (.inl behind)]
      simp [askedAt, own, waits, now, Query.values_concat]
    · have apart : p.name = q.name → p.consumed = false →
          (owed q.name before).length ≠ (Query.values q.name queries).length :=
        fun own waits now => turn ⟨own, waits, now⟩
      have passed : ¬((askedAt queries before p).name = q.name ∧ !(askedAt queries before p).consumed) := by
        rintro ⟨own, waits⟩
        change p.name = q.name at own
        simp only [askedAt, Bool.not_eq_true', Bool.or_eq_false_iff, decide_eq_false_iff_not, own] at waits
        have differs := apart own waits.1
        omega
      have further : (owed q.name (before ++ [p])).length ≤ (Query.values q.name queries).length := by
        rw [length_owed_concat]
        split
        · rename_i own
          have differs := apart own.1 own.2
          omega
        · exact reached
      rw [if_neg passed, ih further, later, askedAt_concat apart, Option.map_map]
      rfl

/-- Each query of a name takes one of the constraints that wait under it. -/
theorem owed_asked (queries : List Query) (name : String) (before params : List Parameter) :
    owed name (asked queries before params) =
      (owed name params).drop ((Query.values name queries).length - (owed name before).length) := by
  induction params generalizing before with
  | nil => exact List.drop_nil.symm
  | cons p params ih =>
    rw [asked, owed_cons, owed_cons, ih, length_owed_concat]
    by_cases waits : p.name = name ∧ p.consumed = false
    · obtain ⟨own, unqueried⟩ := waits
      simp only [askedAt, own, unqueried, Bool.false_or, decide_eq_false_iff_not, true_and, and_self, if_true]
      by_cases turned : (owed name before).length < (Query.values name queries).length
      · rw [if_neg (not_not.2 turned), show (Query.values name queries).length - (owed name before).length =
          (Query.values name queries).length - ((owed name before).length + 1) + 1 by omega, List.drop_succ_cons]
      · rw [if_pos turned, Nat.sub_eq_zero_of_le (by omega), Nat.sub_eq_zero_of_le (by omega)]
        rfl
    · have skipped : ¬((askedAt queries before p).name = name ∧ (askedAt queries before p).consumed = false) := by
        rintro ⟨own, unqueried⟩
        exact waits ⟨own, (Bool.or_eq_false_iff.1 unqueried).1⟩
      rw [if_neg skipped, if_neg waits, if_neg waits, Nat.add_zero]

end Parameter

/-! ## Demands in turn -/

namespace Expectation

open Parameter

variable {e : Expectation} {demands : List Demand} {d : Demand}

/-- An expected call after some demands. -/
def after (e : Expectation) (demands : List Demand) : Expectation :=
  { e with
    params := asked (Demand.queries demands) [] e.params
    returns := if .returnValue ∈ demands then none else e.returns }

/-- The answer to a query whose name was queried some times before. -/
def answer (e : Expectation) (earlier : Nat) (q : Query) : Except MockViolation Unit :=
  match (owed q.name e.params)[earlier]? with
  | some constraint => constraint.judge e.symbol q.name q.actual
  | none =>
    if e.params.any (·.name = q.name) then .error (.parameterQueriedTwice e.symbol q.name)
    else .error (.unexpectedParameter e.symbol q.name)

theorem checkParameter_of_some {q : Query} {constraint : Constraint} {params : List Parameter}
    (found : consume? q.name e.params = some (constraint, params)) :
    e.checkParameter q.name q.actual = ({ e with params }, constraint.judge e.symbol q.name q.actual) := by
  simp only [checkParameter, found, Constraint.judge]
  cases constraint.evaluate q.actual with
  | error error => rfl
  | ok holds => cases holds <;> rfl

theorem checkParameter_of_none {q : Query} (nothing : consume? q.name e.params = none) :
    e.checkParameter q.name q.actual =
      (e, if e.params.any (·.name = q.name) then .error (.parameterQueriedTwice e.symbol q.name)
        else .error (.unexpectedParameter e.symbol q.name)) := by
  simp only [checkParameter, nothing]
  split <;> rfl

/-- Queries keep the names. -/
theorem any_name_asked (queries : List Query) (name : String) (before params : List Parameter) :
    (asked queries before params).any (·.name = name) = params.any (·.name = name) := by
  induction params generalizing before with
  | nil => rfl
  | cons p params ih => rw [asked, List.any_cons, List.any_cons, ih]; rfl

/-- **One more query** is answered by the next constraint of its name, and takes it whatever the answer. -/
theorem serve_parameter (e : Expectation) (demands : List Demand) (q : Query) :
    (e.after demands).serve (.parameter q) =
      (e.after (demands ++ [.parameter q]), .checked (e.answer (Demand.times q.name demands) q)) := by
  have queries : Demand.queries (demands ++ [.parameter q]) = Demand.queries demands ++ [q] := List.filterMap_append
  have taken : (.returnValue ∈ demands ++ [.parameter q]) ↔ .returnValue ∈ demands := by simp
  have consumed : consume? q.name (asked (Demand.queries demands) [] e.params) =
      (owed q.name e.params)[Demand.times q.name demands]?.map fun constraint =>
        (constraint, asked (Demand.queries demands ++ [q]) [] e.params) :=
    consume?_asked (Nat.zero_le _)
  cases found : (owed q.name e.params)[Demand.times q.name demands]? with
  | some constraint =>
    rw [found] at consumed
    rw [Demand.times] at found
    have checked := checkParameter_of_some (e := e.after demands) consumed
    simp only [serve, checked, answer, Demand.times, found]
    simp only [after, queries, taken]
  | none =>
    rw [found] at consumed
    rw [Demand.times] at found
    have unchanged : asked (Demand.queries demands ++ [q]) [] e.params = asked (Demand.queries demands) [] e.params :=
      asked_concat (.inr (List.getElem?_eq_none_iff.1 found))
    have checked := checkParameter_of_none (e := e.after demands) consumed
    simp only [serve, checked, answer, Demand.times, found]
    simp only [after, queries, taken, unchanged, any_name_asked]

theorem takeReturn_fst (e : Expectation) : e.takeReturn.1 = { e with returns := none } := by
  unfold takeReturn
  split
  · rfl
  · rename_i nothing
    rw [← nothing]

theorem serve_returnValue (e : Expectation) (demands : List Demand) :
    ((e.after demands).serve .returnValue).1 = e.after (demands ++ [.returnValue]) := by
  have queries : Demand.queries (demands ++ [.returnValue]) = Demand.queries demands := by
    simp [Demand.queries, Demand.query?]
  have taken : Demand.returnValue ∈ demands ++ [.returnValue] := by simp
  show (e.after demands).takeReturn.1 = _
  rw [takeReturn_fst]
  simp only [after, queries, if_pos taken]

/-- Every demand takes an expected call further. -/
theorem serve_after (e : Expectation) (demands : List Demand) (d : Demand) :
    ((e.after demands).serve d).1 = e.after (demands ++ [d]) := by
  cases d with
  | parameter q => rw [serve_parameter]
  | returnValue => exact e.serve_returnValue demands

/-- **What a run of demands comes to**, where some were met before. -/
theorem serveAll_after (e : Expectation) (before demands : List Demand) :
    ((e.after before).serveAll demands).1 = e.after (before ++ demands) ∧
      ∀ i d, demands[i]? = some d →
        ((e.after before).serveAll demands).2[i]? = some ((e.after (before ++ demands.take i)).serve d).2 := by
  induction demands generalizing before with
  | nil => exact ⟨by rw [List.append_nil]; rfl, fun i d listed => by simp at listed⟩
  | cons first demands ih =>
    obtain ⟨last, replies⟩ := ih (before ++ [first])
    rw [← serve_after] at last replies
    constructor
    · rw [List.append_cons]
      exact last
    · intro i d listed
      cases i with
      | zero =>
        obtain rfl : first = d := Option.some.inj listed
        rw [List.take_zero, List.append_nil]
        rfl
      | succ i =>
        rw [List.take_succ_cons, List.append_cons]
        exact replies i d listed

theorem after_nil (e : Expectation) : e.after [] = e := by
  simp only [after, Demand.queries, List.filterMap_nil, asked_nil, List.not_mem_nil, if_false]

/-! ## What is left over -/

/-- The names of the constraints that some demands leave unqueried, in the order the constraints were registered. -/
def unasked (e : Expectation) (demands : List Demand) : List String :=
  (e.params.zipIdx.filter fun (p, k) =>
    !p.consumed ∧ Demand.times p.name demands ≤ (owed p.name (e.params.take k)).length).map (·.1.name)

theorem unqueried_after (e : Expectation) (demands : List Demand) :
    (e.after demands).unqueried = e.unasked demands := by
  have places : (e.after demands).params =
      e.params.zipIdx.map fun (p, k) => askedAt (Demand.queries demands) (e.params.take k) p := by
    apply List.ext_getElem?
    intro k
    rw [after, getElem?_asked, List.getElem?_map, List.getElem?_zipIdx, Option.map_map, List.nil_append, Nat.zero_add]
    rfl
  rw [unqueried, places, List.filter_map, List.map_map, unasked]
  apply congrArg
  apply List.filter_congr
  rintro ⟨p, k⟩ -
  simp only [askedAt, Function.comp_apply, Demand.times]
  cases p.consumed
  · simp [← decide_not]
  · simp

theorem leftovers_after_iff (e : Expectation) (demands : List Demand) :
    (e.after demands).leftovers = .ok () ↔
      (∀ name, (owed name e.params).length ≤ Demand.times name demands) ∧
        (e.returns = none ∨ .returnValue ∈ demands) := by
  have ok : (e.after demands).leftovers = .ok () ↔ (e.after demands).leftovers.isOk = true := by
    cases (e.after demands).leftovers <;> simp [Except.isOk, Except.toBool]
  have queried : Satisfied (e.after demands).params [] ↔
      ∀ name, (owed name e.params).length ≤ Demand.times name demands := by
    apply forall_congr'
    intro name
    show List.Forall₂ _ (owed name (asked (Demand.queries demands) [] e.params)) [] ↔ _
    rw [owed_asked, List.forall₂_nil_right_iff, List.drop_eq_nil_iff]
    rfl
  have taken : (e.after demands).returns = none ↔ e.returns = none ∨ .returnValue ∈ demands := by
    simp only [after]
    split <;> simp [*]
  rw [ok, isOk_leftovers, ← satisfied_nil_iff, queried, taken]

/-- The constraints of an expected call are matched in the order they were registered, in a run of demands. -/
structure InTurn (e : Expectation) (demands : List Demand) : Prop where
  /-- All constraints of a name wait that were registered under it, if none was queried before. -/
  registered : (∀ p ∈ e.params, p.consumed = false) →
    ∀ name, owed name e.params = (e.params.filter (·.name = name)).map (·.constraint)
  /-- A query judges its value by the constraint whose turn it is under its name. -/
  judged : ∀ (i : Nat) (q : Query) (c : Constraint), demands[i]? = some (.parameter q) →
    (owed q.name e.params)[Demand.times q.name (demands.take i)]? = some c →
      (e.serveAll demands).2[i]? = some (.checked (c.judge e.symbol q.name q.actual))
  /-- A name is queried too often. -/
  repeated : ∀ (i : Nat) (q : Query), demands[i]? = some (.parameter q) →
    (owed q.name e.params).length ≤ Demand.times q.name (demands.take i) → (∃ p ∈ e.params, p.name = q.name) →
      (e.serveAll demands).2[i]? = some (.checked (.error (.parameterQueriedTwice e.symbol q.name)))
  /-- Nothing was registered under a name. -/
  unexpected : ∀ (i : Nat) (q : Query), demands[i]? = some (.parameter q) → (∀ p ∈ e.params, p.name ≠ q.name) →
    (e.serveAll demands).2[i]? = some (.checked (.error (.unexpectedParameter e.symbol q.name)))
  /-- Nothing is left over. -/
  settled : (e.serveAll demands).1.leftovers = .ok () ↔
    (∀ name, (owed name e.params).length ≤ Demand.times name demands) ∧ (e.returns = none ∨ .returnValue ∈ demands)
  /-- Constraints are left over. -/
  unmet : e.unasked demands ≠ [] →
    (e.serveAll demands).1.leftovers = .error (.unconsumedParameters e.symbol (e.unasked demands))
  /-- Only the value to return is left over. -/
  untaken : e.unasked demands = [] → e.returns ≠ none → .returnValue ∉ demands →
    (e.serveAll demands).1.leftovers = .error (.unconsumedReturn e.symbol)

/-- **Parameters are matched in the order they were registered.** -/
theorem parameters_matched_in_turn (e : Expectation) (demands : List Demand) : e.InTurn demands := by
  obtain ⟨last, replies⟩ := serveAll_after e [] demands
  rw [after_nil, List.nil_append] at last
  rw [after_nil] at replies
  have replied : ∀ (i : Nat) (q : Query), demands[i]? = some (Demand.parameter q) → (e.serveAll demands).2[i]? =
      some (.checked (e.answer (Demand.times q.name (demands.take i)) q)) := by
    intro i q listed
    rw [replies i _ listed, List.nil_append, serve_parameter]
  constructor
  case registered =>
    intro fresh name
    unfold owed
    congr 1
    apply List.filter_congr
    intro p listed
    simp [fresh p listed]
  case judged =>
    intro i q c listed turn
    rw [replied i q listed, answer, turn]
  case repeated =>
    intro i q listed exceeded named
    rw [replied i q listed, answer, List.getElem?_eq_none exceeded, if_pos (by simpa using named)]
  case unexpected =>
    intro i q listed unnamed
    have nothing : owed q.name e.params = [] := by
      rw [owed, List.map_eq_nil_iff, List.filter_eq_nil_iff]
      intro p mem
      simp [unnamed p mem]
    rw [replied i q listed, answer, nothing, List.getElem?_nil, if_neg (by simpa using unnamed)]
  case settled =>
    rw [last]
    exact leftovers_after_iff e demands
  case unmet =>
    intro some_left
    rw [last, leftovers, unqueried_after]
    split
    · contradiction
    · rfl
  case untaken =>
    intro none_left queued untaken
    have waits : (e.after demands).returns.isSome := by
      rw [after, if_neg untaken]
      exact Option.isSome_iff_ne_none.2 queued
    rw [last, leftovers, unqueried_after, none_left, if_pos waits]
    rfl

/-- A query that fails takes its constraint, and the next one under the name is judged by the second. -/
example :
    let within (min max : Nat) : Parameter := ⟨"n", ⟨.range true (.unsigned min) (.unsigned max), none⟩, false⟩
    let e : Expectation := { symbol := "f", params := [within 1 5, within 6 9, within 1 5] }
    let (last, replies) := e.serveAll [.parameter ⟨"n", .unsigned 7⟩, .parameter ⟨"m", .unsigned 7⟩,
      .parameter ⟨"n", .unsigned 7⟩]
    replies[1]? = some (.checked (.error (.unexpectedParameter "f" "m"))) ∧ replies[2]? = some (.checked (.ok ())) ∧
      last.unqueried = ["n"] :=
  ⟨rfl, rfl, rfl⟩

end Expectation

end TestIsolation
