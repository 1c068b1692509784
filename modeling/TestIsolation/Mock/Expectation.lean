import TestIsolation.Outcome.Record
import TestIsolation.Value.Constraint
import TestIsolation.Value.Conversion

/-!
# Expected calls

An `Expectation` is one call that a test expects: its symbol, constraints on its parameters and a value to return.
Each query of a parameter consumes the first constraint registered under its name that is still unqueried, whatever
the answer. `MockViolation` is every way in which calls can break what was expected.
-/

namespace TestIsolation

set_option autoImplicit false

/-- A constraint on a parameter of an expected call. -/
structure Parameter where
  name : String
  constraint : Constraint
  /-- The parameter has been queried. -/
  consumed : Bool := false
  deriving DecidableEq, Repr

/-- One expected call. -/
structure Expectation where
  symbol : String
  /-- The position in the order of pushes, from one on. -/
  seq : Nat := 0
  params : List Parameter := []
  returns : Option Value := none
  pushedAt : Option Site := none
  deriving DecidableEq, Repr

/-- An expected call as messages name it. -/
structure PendingCall where
  symbol : String
  file : String
  line : UInt32
  deriving DecidableEq, Repr

/-- The text of a pending call. -/
def PendingCall.render (c : PendingCall) : String :=
  "`" ++ c.symbol ++ "` (expected at " ++ c.file ++ s!":{c.line.toNat})"

/-- A broken rule of the mock engine. -/
inductive MockViolation where
  | missing (symbol : String)
  | wrongCall (expected : PendingCall) (found : String)
  | unexpectedParameter (symbol name : String)
  | parameterQueriedTwice (symbol name : String)
  | parameterMismatch (symbol name : String) (constraint : Constraint) (actual : Value)
  | invalidComparison (symbol name : String) (error : CompareError)
  | noReturnValue (symbol : String)
  | returnValueDomain (symbol : String) (error : CompareError)
  | unconsumedParameters (symbol : String) (names : List String)
  | unconsumedReturn (symbol : String)
  | unfinished (symbol : String)
  | notConsumed (calls : List PendingCall)
  deriving DecidableEq, Repr

/-- What a constraint expects, with the source text of the operand where that says more than its value. -/
def Constraint.expectedText (c : Constraint) : String :=
  match c.expr with
  | some expr =>
    if expr = c.condition.operand then c.describe
    else c.condition.predicate.name ++ " " ++ expr ++ " (" ++ c.condition.operand ++ ")"
  | none => c.describe

namespace MockViolation

/-- A symbol or a name in quotes. -/
def quote (name : String) : String := "`" ++ name ++ "`"

/-- The text of a violation. -/
def message : MockViolation → String
  | missing symbol => "missing expectation: " ++ quote symbol ++ " called with no call expected"
  | wrongCall expected found =>
    "wrong call: " ++ quote found ++ " called while " ++ expected.render ++ " was expected"
  | unexpectedParameter symbol name => "unexpected parameter " ++ quote name ++ " queried for " ++ quote symbol
  | parameterQueriedTwice symbol name => "parameter " ++ quote name ++ " of " ++ quote symbol ++ " queried twice"
  | parameterMismatch symbol name constraint actual =>
    "parameter " ++ quote name ++ " of " ++ quote symbol ++ ": expected " ++ constraint.expectedText
      ++ ", found " ++ actual.render
  | invalidComparison symbol name error =>
    "parameter " ++ quote name ++ " of " ++ quote symbol ++ ": " ++ error.message
  | noReturnValue symbol => "no return value queued for " ++ quote symbol
  | returnValueDomain symbol error => "return value domain mismatch for " ++ quote symbol ++ ": " ++ error.message
  | unconsumedParameters symbol names =>
    "parameter expectation not consumed for " ++ quote symbol ++ ": " ++ ", ".intercalate names
  | unconsumedReturn symbol => "return value not consumed for " ++ quote symbol
  | unfinished symbol => "call to " ++ quote symbol ++ " dropped without `finish` or `retval`"
  | notConsumed calls => "expected calls not consumed: " ++ ", ".intercalate (calls.map PendingCall.render)

end MockViolation

namespace Expectation

/-- The expectation as messages name it. -/
def pending (e : Expectation) : PendingCall :=
  match e.pushedAt with
  | some site => ⟨e.symbol, site.file, site.line⟩
  | none => ⟨e.symbol, "<unknown>", 0⟩

/-- The first unqueried constraint under a name, with the parameters after its query. -/
def consume? (name : String) : List Parameter → Option (Constraint × List Parameter)
  | [] => none
  | p :: rest =>
    if p.name = name ∧ !p.consumed then some (p.constraint, { p with consumed := true } :: rest)
    else (consume? name rest).map fun (constraint, rest) => (constraint, p :: rest)

/-- Queries a parameter of the call. -/
def checkParameter (e : Expectation) (name : String) (actual : Value) :
    Expectation × Except MockViolation Unit :=
  match consume? name e.params with
  | none =>
    if e.params.any (·.name = name) then (e, .error (.parameterQueriedTwice e.symbol name))
    else (e, .error (.unexpectedParameter e.symbol name))
  | some (constraint, params) =>
    let e := { e with params }
    match constraint.evaluate actual with
    | .ok true => (e, .ok ())
    | .ok false => (e, .error (.parameterMismatch e.symbol name constraint actual))
    | .error error => (e, .error (.invalidComparison e.symbol name error))

/-- Takes the value to return. -/
def takeReturn (e : Expectation) : Expectation × Except MockViolation Value :=
  match e.returns with
  | some v => ({ e with returns := none }, .ok v)
  | none => (e, .error (.noReturnValue e.symbol))

/-- The names of the constraints that were never queried. -/
def unqueried (e : Expectation) : List String := (e.params.filter (!·.consumed)).map (·.name)

/-- Whether all constraints were queried and the value to return was taken. -/
def leftovers (e : Expectation) : Except MockViolation Unit :=
  match e.unqueried with
  | [] => if e.returns.isSome then .error (.unconsumedReturn e.symbol) else .ok ()
  | names => .error (.unconsumedParameters e.symbol names)

end Expectation

end TestIsolation
