import TestIsolation.Suite.Tree

/-!
# Building the suite tree

`Registry.build` checks a list of declarations and assembles the tree. Its checks come in a fixed order, and the first
that fails decides the error: every declaration by itself, the number of roots, the parents, cycles, the root's
fixtures, and last the names of siblings.
-/

namespace TestIsolation

set_option autoImplicit false

namespace Registry

variable {β : Type}

/-- The first declaration that is wrong by its own name, or repeats a suite that is known already. -/
def checkNames (known : List String) : List (Declaration β) → Except RegistryError Unit
  | [] => .ok ()
  | d :: rest =>
    if d.name = "" then .error .emptyName
    else if textOccursIn pathSeparator d.name then .error (.invalidName d.name)
    else if d.isSuite then
      if d.name ∈ known then .error (.duplicateSuite d.name) else checkNames (d.name :: known) rest
    else checkNames known rest

/-- The one declaration without a parent. -/
def root (decls : List (Declaration β)) : Except RegistryError (Declaration β) :=
  match decls.filter (·.parent.isNone) with
  | [] => .error .noRoot
  | [one] => .ok one
  | several => .error (.multipleRoots (several.map (·.name)))

/-- The first declaration whose parent is not a declared suite. -/
def checkParents (all : List (Declaration β)) : List (Declaration β) → Except RegistryError Unit
  | [] => .ok ()
  | d :: rest =>
    match d.parent with
    | none => checkParents all rest
    | some parent =>
      if all.any fun other => other.isSuite && other.name = parent then checkParents all rest
      else if all.any fun other => !other.isSuite && other.name = parent then .error (.parentIsTest d.name parent)
      else .error (.unknownParent d.name parent)

/-- The declarations with another name. -/
def without (name : String) (decls : List (Declaration β)) : List (Declaration β) := decls.filter (·.name ≠ name)

theorem length_without_lt {name : String} {decls : List (Declaration β)} {d : Declaration β}
    (h : decls.find? (·.name = name) = some d) : (without name decls).length < decls.length := by
  refine List.length_filter_lt_length_iff_exists.2 ⟨d, List.mem_of_find?_eq_some h, ?_⟩
  simpa using List.find?_some h

/-- Follows parents upwards through the suites not yet on the chain, and returns the chain if it closes. -/
def cycleFrom? (suites : List (Declaration β)) (chain : List String) : Option String → Option (List String)
  | none => none
  | some parent =>
    if parent ∈ chain then some (chain ++ [parent])
    else
      match _h : suites.find? (·.name = parent) with
      | none => none
      | some d => cycleFrom? (without parent suites) (chain ++ [parent]) d.parent
termination_by suites.length
decreasing_by exact length_without_lt _h

/-- The first suite from which following parents does not reach the root. -/
def checkCycles (suites : List (Declaration β)) : List (Declaration β) → Except RegistryError Unit
  | [] => .ok ()
  | d :: rest =>
    match cycleFrom? suites [d.name] d.parent with
    | some chain => .error (.cycle chain)
    | none => checkCycles suites rest

/-- The root has no ancestor to inherit from. -/
def checkRoot (d : Declaration β) : Except RegistryError Unit :=
  if d.slots.setup.isInherited then .error (.inheritedRoot d.name "setup")
  else if d.slots.teardown.isInherited then .error (.inheritedRoot d.name "teardown")
  else .ok ()

/-- The declarations that name a suite as their parent. -/
def childrenOf (suite : String) (decls : List (Declaration β)) : List (Declaration β) :=
  decls.filter (·.parent = some suite)

/-- The declarations that do not. -/
def othersThan (suite : String) (decls : List (Declaration β)) : List (Declaration β) :=
  decls.filter (·.parent ≠ some suite)

theorem length_othersThan_lt {suite : String} {decls : List (Declaration β)} (h : childrenOf suite decls ≠ []) :
    (othersThan suite decls).length < decls.length := by
  obtain ⟨c, hc⟩ := List.exists_mem_of_ne_nil _ h
  obtain ⟨hm, hp⟩ := List.mem_filter.1 hc
  exact List.length_filter_lt_length_iff_exists.2 ⟨c, hm, by simpa using hp⟩

/-- A node's slots as the tree keeps them. -/
def keptSlots (d : Declaration β) : Slots β := { d.slots with timeout := d.slots.timeout.normalized }

mutual

/-- The tree below a declaration, taken from the pool of those not yet placed above it. -/
def grow (pool : List (Declaration β)) (d : Declaration β) : Except RegistryError (SuiteTree β) :=
  match d.body with
  | some body => .ok (.test (keptSlots d) body)
  | none =>
    if _h : childrenOf d.name pool = [] then .ok (.suite (keptSlots d) [])
    else
      match growAll (othersThan d.name pool) d.name [] (childrenOf d.name pool) with
      | .ok trees => .ok (.suite (keptSlots d) trees)
      | .error e => .error e
termination_by (pool.length, 0)
decreasing_by exact Prod.Lex.left _ _ (length_othersThan_lt _h)

/-- The trees of the children of one suite, whose names have to differ. -/
def growAll (pool : List (Declaration β)) (suite : String) (seen : List String) :
    List (Declaration β) → Except RegistryError (List (SuiteTree β))
  | [] => .ok []
  | d :: rest =>
    if d.name ∈ seen then .error (.duplicateChild suite d.name)
    else
      match grow pool d with
      | .error e => .error e
      | .ok tree =>
        match growAll pool suite (d.name :: seen) rest with
        | .ok trees => .ok (tree :: trees)
        | .error e => .error e
termination_by children => (pool.length, children.length + 1)

end

/-- The tree that the declarations make. -/
def build (decls : List (Declaration β)) : Except RegistryError (SuiteTree β) := do
  checkNames [] decls
  let top ← root decls
  checkParents decls decls
  let suites := decls.filter (·.isSuite)
  checkCycles suites suites
  checkRoot top
  grow decls top

end Registry

end TestIsolation
