import TestIsolation.Suite.Tree

/-!
# Runs and run trees

A `Run` is the result of one node in one invocation, and a `RunTree` holds the runs of a suite tree in pre-order.
-/

namespace TestIsolation

set_option autoImplicit false

/-- Result of one node in one invocation. -/
structure Run where
  node : Nat
  path : String
  depth : Nat
  isSuite : Bool
  status : Status := .pending
  startedAt : Option Timestamp := none
  endedAt : Option Timestamp := none
  failures : List Failure := []
  reason : Option String := none
  /-- The last phase that the node's unit entered. -/
  phase : Option Phase := none
  /-- How the unit's process ended; nothing where none was started. -/
  exit : Option ExitCondition := none
  /-- What the node's units printed. -/
  console : String := ""
  deriving DecidableEq, Repr

namespace Run

/-- The run of a node before anything happened. -/
def pending {β : Type} (n : Node β) : Run :=
  { node := n.index, path := n.path, depth := n.depth, isSuite := !n.isTest }

/-- How long the run took in milliseconds; nothing if it did not end, or ended before it started. -/
def duration (r : Run) : Nat :=
  match r.startedAt, r.endedAt with
  | some start, some finish => (finish - start).toNat
  | _, _ => 0

/-- The duration as reports give it, in at most 64 bits. -/
def millis (r : Run) : Nat := min r.duration (UInt64.size - 1)

end Run

/-- The runs of a suite tree, by the number of their node. -/
structure RunTree where
  runs : List Run
  children : List (List Nat)
  deriving Repr

namespace RunTree

/-- The tree in which every run is pending. -/
def new {β : Type} (o : Outline β) : RunTree := ⟨o.nodes.map Run.pending, o.nodes.map (·.children)⟩

/-- The run of a node. -/
def run? (t : RunTree) (node : Nat) : Option Run := t.runs[node]?

/-- The children of a node. -/
def childrenOf (t : RunTree) (node : Nat) : List Nat := (t.children[node]?).getD []

/-- The tree with one run changed. -/
def modify (t : RunTree) (node : Nat) (f : Run → Run) : RunTree := { t with runs := t.runs.modify node f }

/-- The runs of the tests. -/
def leaves (t : RunTree) : List Run := t.runs.filter (!·.isSuite)

/-- The number of the node with a path. -/
def find? (t : RunTree) (path : String) : Option Nat := t.runs.findIdx? (·.path == path)

/-- The runs that are over. -/
def reports (t : RunTree) : List Run := t.runs.filter (·.status.isTerminal)

/-- Zero only if every run passed or was skipped. -/
def exitCode (t : RunTree) : Nat := if t.runs.all (·.status.isSuccess) then 0 else 1

/-- The order in which a tally lists statuses. -/
def tallyOrder : List Status := [.passed, .failed, .skipped, .crashed, .timedOut, .aborted, .terminated]

/-- How many tests ended with each status, without the statuses of none. -/
def tally (t : RunTree) : List (Status × Nat) :=
  (tallyOrder.map fun s => (s, t.leaves.countP (·.status == s))).filter (·.2 > 0)

end RunTree

end TestIsolation
