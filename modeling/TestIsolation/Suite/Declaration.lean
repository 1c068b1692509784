import TestIsolation.Run.Classification
import TestIsolation.Text.Bytes

/-!
# Declarations of suites and tests

Suites and tests are declared one by one, each against the name of its parent suite. Test bodies and fixtures have an
arbitrary type `β`: nothing here looks inside them.
-/

namespace TestIsolation

set_option autoImplicit false

/-- The setup or teardown slot of a node. -/
inductive Fixture (β : Type) where
  /-- No fixture, and none is inherited. -/
  | none
  /-- The nearest ancestor's fixture. -/
  | inherited
  | explicit (run : β)
  deriving DecidableEq, Repr

namespace Fixture

variable {β : Type}

/-- The slot's own fixture. -/
def explicit? : Fixture β → Option β
  | explicit run => some run
  | _ => Option.none

/-- Whether the slot is left to an ancestor. -/
def isInherited : Fixture β → Bool
  | inherited => true
  | _ => false

end Fixture

/-- The time a node allows its units. -/
inductive Timeout where
  /-- No limit: the test bounds itself. -/
  | none
  /-- No limit at all. -/
  | forever
  | after (limit : Duration)
  /-- The nearest ancestor's policy, or the configured default where no ancestor has one. -/
  | inherited
  deriving DecidableEq, Repr

namespace Timeout

/-- The limit that a policy arms a watchdog with. -/
def limit? : Timeout → Option Duration
  | after d => some d
  | _ => Option.none

/-- A limit of zero is no limit. -/
def normalized : Timeout → Timeout
  | after d => if d.nanos = 0 then none else after d
  | other => other

end Timeout

/-- What a suite and a test have in common. -/
structure Slots (β : Type) where
  name : String
  setup : Fixture β := .none
  teardown : Fixture β := .none
  timeout : Timeout := .inherited
  deriving DecidableEq, Repr

/-- A declared suite or test, with the name of the suite it belongs to. -/
structure Declaration (β : Type) where
  slots : Slots β
  parent : Option String := none
  /-- The body of a test; a suite has none. -/
  body : Option β := none
  deriving DecidableEq, Repr

namespace Declaration

variable {β : Type}

/-- The declared name. -/
def name (d : Declaration β) : String := d.slots.name

/-- Whether a suite is declared. -/
def isSuite (d : Declaration β) : Bool := d.body.isNone

end Declaration

/-- What stands between the names in a path. -/
def pathSeparator : String := "::"

/-- Why declarations do not make a tree. -/
inductive RegistryError where
  | noRoot
  | multipleRoots (names : List String)
  | emptyName
  | invalidName (name : String)
  | duplicateSuite (name : String)
  | duplicateChild (parent name : String)
  | unknownParent (node parent : String)
  | parentIsTest (node parent : String)
  | cycle (chain : List String)
  | inheritedRoot (node fixture : String)
  deriving DecidableEq, Repr

namespace RegistryError

/-- The text of a registry error. -/
def message : RegistryError → String
  | noRoot => "no root node declared"
  | multipleRoots names => "several root nodes declared: " ++ ", ".intercalate names
  | emptyName => "node names must not be empty"
  | invalidName name => "node name `" ++ name ++ "` contains the path separator `" ++ pathSeparator ++ "`"
  | duplicateSuite name => "suite `" ++ name ++ "` declared more than once"
  | duplicateChild parent name => "suite `" ++ parent ++ "` already has a child named `" ++ name ++ "`"
  | unknownParent node parent => "`" ++ node ++ "` names unknown parent suite `" ++ parent ++ "`"
  | parentIsTest node parent => "`" ++ node ++ "` names test `" ++ parent ++ "` as its parent"
  | cycle chain => "suite parent chain forms a cycle: " ++ " -> ".intercalate chain
  | inheritedRoot node fixture => "root `" ++ node ++ "` cannot inherit its " ++ fixture ++ " fixture"

end RegistryError

end TestIsolation
