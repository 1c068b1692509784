/-!
# The life of a step's unit

Every step of a run moves through these states. A step that needs no unit is reported at once; one that does is
spawned, awaited, classified and reported. A unit that cannot be spawned is classified without having been awaited.
-/

namespace TestIsolation

set_option autoImplicit false

/-- Where a step's unit stands. -/
inductive UnitState where
  | idle
  | spawning
  | awaitingCompletion
  | classifying
  | reported
  deriving DecidableEq, Repr

namespace UnitState

/-- All states in the order in which a unit passes through them. -/
def all : List UnitState := [idle, spawning, awaitingCompletion, classifying, reported]

/-- Whether a unit may go from one state right to another. -/
def canAdvanceTo : UnitState → UnitState → Bool
  | idle, spawning | idle, reported => true
  | spawning, awaitingCompletion | spawning, classifying => true
  | awaitingCompletion, classifying => true
  | classifying, reported => true
  | _, _ => false

end UnitState

end TestIsolation
