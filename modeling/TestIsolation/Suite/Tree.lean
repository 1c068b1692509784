import TestIsolation.Suite.Declaration

/-!
# The suite tree

A `SuiteTree` is the declared hierarchy itself. `SuiteTree.nodes` numbers it in pre-order and stamps every node with
its path, depth and ancestors; `SuiteTree.plan` is the traversal that a run follows.
-/

namespace TestIsolation

set_option autoImplicit false

/-- A test, or a suite with its children in order. -/
inductive SuiteTree (β : Type) where
  | test (slots : Slots β) (body : β)
  | suite (slots : Slots β) (children : List (SuiteTree β))
  deriving Repr

/-- A numbered node of a suite tree. -/
structure Node (β : Type) where
  /-- The position in pre-order. -/
  index : Nat
  path : String
  depth : Nat
  slots : Slots β
  /-- The body of a test; a suite has none. -/
  body : Option β
  /-- The nodes above, the nearest first. -/
  ancestors : List Nat
  children : List Nat
  /-- How many nodes the subtree has; they are numbered from `index` on. -/
  size : Nat
  deriving DecidableEq, Repr

namespace Node

variable {β : Type}

/-- The node's own name. -/
def name (n : Node β) : String := n.slots.name

/-- Whether the node is a test. -/
def isTest (n : Node β) : Bool := n.body.isSome

/-- The node above. -/
def parent? (n : Node β) : Option Nat := n.ancestors.head?

/-- The node itself and then every node above it. -/
def lineage (n : Node β) : List Nat := n.index :: n.ancestors

/-- Whether a number belongs to a node of the subtree. -/
def covers (n : Node β) (index : Nat) : Bool := n.index ≤ index && index < n.index + n.size

end Node

/-- One position of the traversal: a suite is entered before its children and left after them. -/
inductive Step where
  | enter (node : Nat)
  | leaf (node : Nat)
  | exit (node : Nat)
  deriving DecidableEq, Repr

/-- The node of a step. -/
def Step.node : Step → Nat
  | enter node | leaf node | exit node => node

namespace SuiteTree

variable {β : Type}

/-- What the root of the tree has in common with any node. -/
def slots : SuiteTree β → Slots β
  | test slots _ => slots
  | suite slots _ => slots

mutual

/-- How many nodes a tree has. -/
def size : SuiteTree β → Nat
  | test _ _ => 1
  | suite _ children => 1 + sizes children

/-- How many nodes some trees have together. -/
def sizes : List (SuiteTree β) → Nat
  | [] => 0
  | t :: rest => t.size + sizes rest

end

/-- The numbers of sibling trees, the first of which is given. -/
def siblingIndices (first : Nat) : List (SuiteTree β) → List Nat
  | [] => []
  | t :: rest => first :: siblingIndices (first + t.size) rest

/-- The path of a node, given that of its parent. -/
def pathBelow (above : Option String) (name : String) : String :=
  match above with
  | some path => path ++ pathSeparator ++ name
  | none => name

mutual

/-- The nodes of a tree in pre-order, numbered from `first` on. -/
def nodesFrom (first : Nat) (above : Option String) (ancestors : List Nat) : SuiteTree β → List (Node β)
  | test slots body =>
    [{ index := first, path := pathBelow above slots.name, depth := ancestors.length, slots := slots,
       body := some body, ancestors := ancestors, children := [], size := 1 }]
  | suite slots children =>
    let path := pathBelow above slots.name
    { index := first, path := path, depth := ancestors.length, slots := slots, body := none,
      ancestors := ancestors, children := siblingIndices (first + 1) children, size := 1 + sizes children }
      :: siblingNodes (first + 1) (some path) (first :: ancestors) children

/-- The nodes of sibling trees. -/
def siblingNodes (first : Nat) (above : Option String) (ancestors : List Nat) :
    List (SuiteTree β) → List (Node β)
  | [] => []
  | t :: rest => nodesFrom first above ancestors t ++ siblingNodes (first + t.size) above ancestors rest

end

/-- All nodes in pre-order, so that a node's number is its position. -/
def nodes (t : SuiteTree β) : List (Node β) := nodesFrom 0 none [] t

mutual

/-- The steps of a tree whose root has the number `first`. -/
def stepsFrom (first : Nat) : SuiteTree β → List Step
  | test _ _ => [.leaf first]
  | suite _ children => .enter first :: (siblingSteps (first + 1) children ++ [.exit first])

/-- The steps of sibling trees. -/
def siblingSteps (first : Nat) : List (SuiteTree β) → List Step
  | [] => []
  | t :: rest => stepsFrom first t ++ siblingSteps (first + t.size) rest

end

/-- The traversal of a tree. -/
def plan (t : SuiteTree β) : List Step := stepsFrom 0 t

end SuiteTree

/-- A tree's nodes, and what is asked about them. -/
structure Outline (β : Type) where
  nodes : List (Node β)
  steps : List Step
  deriving Repr

/-- The outline of a tree. -/
def SuiteTree.outline {β : Type} (t : SuiteTree β) : Outline β := ⟨t.nodes, t.plan⟩

namespace Outline

variable {β : Type}

/-- The node with a number. -/
def node? (o : Outline β) (index : Nat) : Option (Node β) := o.nodes[index]?

/-- The numbers of the tests in pre-order. -/
def leaves (o : Outline β) : List Nat := (o.nodes.filter (·.isTest)).map (·.index)

/-- The paths of all tests, a line each. -/
def listing (o : Outline β) : String := String.join ((o.nodes.filter (·.isTest)).map (·.path ++ "\n"))

/-- The node with a path. -/
def find? (o : Outline β) (path : String) : Option Nat := o.nodes.findIdx? (·.path == path)

/-- The nodes from the given one up to the root. -/
def lineage (o : Outline β) (n : Node β) : List (Node β) := n.lineage.filterMap o.node?

/-- The fixture that a line of slots comes down to: the first that is not left to an ancestor. -/
def resolve (slots : List (Fixture β)) : Option β :=
  match slots with
  | [] => none
  | .inherited :: above => resolve above
  | slot :: _ => slot.explicit?

/-- The setup that a node runs under. -/
def resolveSetup (o : Outline β) (n : Node β) : Option β := resolve ((o.lineage n).map (·.slots.setup))

/-- The teardown that a node runs under. -/
def resolveTeardown (o : Outline β) (n : Node β) : Option β := resolve ((o.lineage n).map (·.slots.teardown))

/-- The nearest timeout that is not inherited; where there is none the configured default is meant. -/
def resolveTimeout (o : Outline β) (n : Node β) : Option Timeout :=
  ((o.lineage n).map (·.slots.timeout)).find? (· != .inherited)

end Outline

end TestIsolation
