import TestIsolation.Unit.Assertion

/-!
# Mock calls of a unit

These acts bind the queue of expected calls to the active unit. A wrong parameter is recorded at once, but the phase
ends only when the call is completed, so that every parameter of a call is checked. A call that is dropped without
being completed is a failure at the place where it was intercepted, unless a failure of it is on record already.
-/

namespace TestIsolation

set_option autoImplicit false

namespace Act

/-- The panic of a mock engine without a unit. -/
def outsideUnit : Act := panic "mock engine used outside of an isolated unit"

/-- Declares an expected call. -/
def expectCall (e : Expectation) (site : Site) : Act := fun t =>
  match t.context with
  | none => outsideUnit t
  | some c => ({ t with context := some { c with queue := (c.queue.push e site).1 } }, .normal)

/-- The expression of failures of a call. -/
def callExpression (symbol : String) : String := "mock " ++ symbol

/-- Takes the head of the queue for a call, which is then open under a name. -/
def intercept (symbol name : String) (site : Site) : Act := fun t =>
  match t.context with
  | none => outsideUnit t
  | some c =>
    let (queue, taken) := c.queue.intercept symbol
    let t := { t with context := some { c with queue } }
    match taken with
    | .ok entry => ({ t with calls := t.calls ++ [(name, { entry, site })] }, .normal)
    | .error violation => fatal (callExpression symbol) violation.message site t

/-- The open call with a name. Of several, the one that was intercepted first is meant. -/
def openCall? (t : Thread) (name : String) : Option MockCall := t.calls.lookup name

/-- The thread without the open call of a name. -/
def close (t : Thread) (name : String) : Thread := { t with calls := t.calls.eraseP (·.1 = name) }

/-- The calls with the first one of a name replaced. -/
def replaceCall (name : String) (call : MockCall) : List (String × MockCall) → List (String × MockCall)
  | [] => []
  | (n, c) :: rest => if n = name then (n, call) :: rest else (n, c) :: replaceCall name call rest

/-- The thread with the open call of a name changed. -/
def update (t : Thread) (name : String) (call : MockCall) : Thread :=
  { t with calls := replaceCall name call t.calls }

/-- Queries a parameter of an open call. -/
def checkParameter (name parameter : String) (actual : Value) (site : Site) : Act := fun t =>
  match openCall? t name with
  | none => done t
  | some call =>
    let (entry, result) := call.entry.checkParameter parameter actual
    match result with
    | .ok () => (update t name { call with entry }, .normal)
    | .error violation =>
      recordFatal (callExpression entry.symbol ++ "(" ++ parameter ++ ")") violation.message site
        (update t name { call with entry, deferred := true })

/-- Completes a call that was taken out of the open ones. -/
def complete (call : MockCall) (site : Site) : Act :=
  if call.deferred then unwind .failed
  else
    match call.entry.leftovers with
    | .ok () => done
    | .error violation => fatal (callExpression call.entry.symbol) violation.message site

/-- Completes an open call that returns nothing. -/
def finish (name : String) (site : Site) : Act := fun t =>
  match openCall? t name with
  | none => done t
  | some call => complete call site (close t name)

/-- Completes an open call that returns a value of a type. What follows is told the value. -/
def returnValue (name : String) (target : Target) (site : Site) (next : Converted → Act) : Act := fun t =>
  match openCall? t name with
  | none => done t
  | some call =>
    let t := close t name
    let expression := callExpression call.entry.symbol
    if call.deferred then unwind .failed t
    else
      match call.entry.takeReturn with
      | (_, .error violation) => fatal expression violation.message site t
      | (entry, .ok v) =>
        match v.convert target with
        | .error e => fatal expression (MockViolation.returnValueDomain entry.symbol e).message site t
        | .ok converted => ((complete { call with entry } site).andThen (next converted)) t

/-- What a call that is dropped leaves behind. -/
def dropped (call : MockCall) : Act :=
  if call.deferred then done
  else
    recordFatal (callExpression call.entry.symbol) (MockViolation.unfinished call.entry.symbol).message call.site

/-- Drops an open call. -/
def drop (name : String) : Act := fun t =>
  match openCall? t name with
  | none => done t
  | some call => dropped call (close t name)

/-- Drops calls in turn; once one unwinds, the others leave nothing behind. -/
def dropAll : List (String × MockCall) → Act
  | [] => done
  | (_, call) :: rest => (dropped call).andThen (dropAll rest)

/-- A frame with open calls of its own. Those still open when it ends normally are dropped. -/
def framed (inner : Act) : Act := fun t =>
  let outer := t.calls
  let (t, flow) := (inner.andThen fun t => dropAll t.calls t) { t with calls := [] }
  ({ t with calls := outer }, flow)

/-- A frame whose unwinding is caught and noted. The end of the process is not caught. -/
def caught (inner : Act) : Act := fun t =>
  match framed inner t with
  | (t, flow) =>
    match flow.caughtEnd? with
    | some ending => (t.note (.caught ending), .normal)
    | none => (t, flow)

end Act

end TestIsolation
