import TestIsolation.Outcome.Frame

/-!
# Summary of an outcome channel

`Summary.absorb` folds the records of a unit into what its status is decided from.
-/

namespace TestIsolation

set_option autoImplicit false

/-- How a channel broke its rules. -/
inductive Violation where
  | recordAfterTerminal
  | corrupt (error : ChannelError)
  /-- A violation that is known by its description alone. -/
  | described (text : String)
  deriving DecidableEq, Repr

namespace Violation

/-- The text of a violation. -/
def message : Violation → String
  | recordAfterTerminal => "record received after terminal record"
  | corrupt error => "corrupt outcome channel: " ++ error.message
  | described text => text

end Violation

/-- What the records of a unit say. -/
structure Summary where
  failures : List Failure := []
  skip : Option SkipNotice := none
  /-- The last phase the unit entered. -/
  phase : Option Phase := none
  terminal : Option Verdict := none
  /-- The first violation; nothing is absorbed after it. -/
  violation : Option Violation := none
  /-- The channel ended inside a frame. -/
  truncated : Bool := false
  deriving DecidableEq, Repr

namespace Summary

/-- A summary with one more record. No record may follow the terminal one. -/
def absorb (s : Summary) (r : Record) : Summary :=
  if s.violation.isSome then s
  else if s.terminal.isSome then { s with violation := some .recordAfterTerminal }
  else
    match r with
    | .phase p => { s with phase := some p }
    | .failure f => { s with failures := s.failures ++ [f] }
    | .skip notice => { s with skip := some notice }
    | .terminal v => { s with terminal := some v }

/-- A summary with more records, in turn. -/
def absorbAll (s : Summary) (records : List Record) : Summary := records.foldl absorb s

/-- A summary whose channel turned out to be corrupt; an earlier violation stays. -/
def corrupt (s : Summary) (error : ChannelError) : Summary :=
  { s with violation := s.violation <|> some (.corrupt error) }

end Summary

end TestIsolation
