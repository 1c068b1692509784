import Mathlib.Data.List.Basic
import TestIsolation.Suite.Declaration

/-!
# Names joined to paths

A path is made of names with a separator between them. A name holds no separator, but it may begin or end with half of
one. So names that differ may make the same path, and exactly in one way (`path_eq_iff`): where they first differ, one
name is the other with a colon at its end, and the colon has been taken from the start of the name below the other.
-/

namespace TestIsolation

set_option autoImplicit false

/-- What a declaration may be called. -/
structure ProperName (name : String) : Prop where
  some : name ≠ ""
  whole : textOccursIn pathSeparator name = false

/-- A colon has moved from the start of a name of the first list to the end of the name above in the second. -/
inductive ColonMoved : List String → List String → Prop where
  | intro (above : List String) (upper lower other : String) (below below' : List String)
      (same : pathSeparator.intercalate (lower :: below) = pathSeparator.intercalate (other :: below')) :
      ColonMoved (above ++ upper :: (":" ++ lower) :: below) (above ++ (upper ++ ":") :: other :: below')

/-! ## Separators in names -/

/-- A name has no separator anywhere. -/
theorem ProperName.toList_ne {name : String} (proper : ProperName name) (before after : List Char) :
    name.toList ≠ before ++ ':' :: ':' :: after := by
  intro split
  have here : occursIn [':', ':'] (':' :: ':' :: after) = true := by simp [occursIn]
  have whole := proper.whole
  rw [textOccursIn, split] at whole
  exact absurd (occursIn_append here before) (by simpa [pathSeparator] using whole)

theorem ProperName.toList_ne_nil {name : String} (proper : ProperName name) : name.toList ≠ [] := by
  simpa using proper.some

/-! ## The first difference -/

/-- What stands behind a name in a path: every name below with a separator before it. -/
def behind : List String → List Char
  | [] => []
  | name :: below => ':' :: ':' :: (name.toList ++ behind below)

theorem toList_path (name : String) (below : List String) :
    (pathSeparator.intercalate (name :: below)).toList = name.toList ++ behind below := by
  induction below generalizing name with
  | nil => simp [behind]
  | cons next below ih =>
    rw [String.intercalate_cons_cons, String.toList_append, String.toList_append, ih, behind]
    simp [pathSeparator]

theorem path_eq_path_iff {x y : String} {below below' : List String} :
    pathSeparator.intercalate (x :: below) = pathSeparator.intercalate (y :: below') ↔
      x.toList ++ behind below = y.toList ++ behind below' := by
  rw [← String.toList_inj, toList_path, toList_path]

/-- If one of two names goes on behind the other, equal paths move a colon. -/
theorem colonMoved_of_longer {x y : String} {below below' : List String} {more : List Char} (proper : ProperName y)
    (lower : ∀ name ∈ below, ProperName name) (longer : y.toList = x.toList ++ more) (some : more ≠ [])
    (rest : behind below = more ++ behind below') : ColonMoved (x :: below) (y :: below') := by
  cases below with
  | nil => simp_all [behind]
  | cons next below =>
    match more with
    | [] => exact absurd rfl some
    | [colon] =>
      simp only [behind, List.cons_append, List.nil_append, List.cons.injEq] at rest
      obtain ⟨rfl, rest⟩ := rest
      cases below' with
      | nil => simp [behind] at rest
      | cons other below' =>
        -- half a separator is in the longer name, so the other half is where the name below begins
        obtain ⟨c, chars, opening⟩ := List.exists_cons_of_ne_nil (lower next (by simp)).toList_ne_nil
        simp only [opening, behind, List.cons_append, List.cons.injEq, true_and] at rest
        obtain ⟨rfl, rest⟩ := rest
        have upper : y = x ++ ":" := String.toList_inj.1 (by simpa using longer)
        have begins : next = ":" ++ String.ofList chars := String.toList_inj.1 (by simpa using opening)
        rw [upper, begins]
        exact .intro [] x (String.ofList chars) other below below' (path_eq_path_iff.2 (by simpa using rest))
    | c :: d :: more =>
      simp only [behind, List.cons_append, List.cons.injEq] at rest
      obtain ⟨rfl, rfl, -⟩ := rest
      exact absurd longer (proper.toList_ne _ _)

theorem ColonMoved.cons {p q : List String} (moved : ColonMoved p q) (name : String) :
    ColonMoved (name :: p) (name :: q) := by
  obtain ⟨above, upper, lower, other, below, below', same⟩ := moved
  exact .intro (name :: above) upper lower other below below' same

/-- Where a colon moves the path stays. -/
theorem ColonMoved.path_eq {p q : List String} (moved : ColonMoved p q) :
    pathSeparator.intercalate p = pathSeparator.intercalate q := by
  obtain ⟨above, upper, lower, other, below, below', same⟩ := moved
  rw [path_eq_path_iff] at same
  have here : pathSeparator.intercalate (upper :: (":" ++ lower) :: below) =
      pathSeparator.intercalate ((upper ++ ":") :: other :: below') := by
    rw [path_eq_path_iff]
    simp [behind, same]
  cases above with
  | nil => exact here
  | cons name above =>
    rw [String.intercalate_append_of_ne_nil (by simp) (by simp), here,
      String.intercalate_append_of_ne_nil (by simp) (by simp)]

/-- **Equal paths.** Two lists of names make the same path exactly if they are the same, or a colon has moved between
them. -/
theorem path_eq_iff {p q : List String} (proper : ∀ name ∈ p, ProperName name) (proper' : ∀ name ∈ q, ProperName name)
    (some : p ≠ []) (some' : q ≠ []) :
    pathSeparator.intercalate p = pathSeparator.intercalate q ↔ p = q ∨ ColonMoved p q ∨ ColonMoved q p := by
  constructor
  · intro same
    induction p generalizing q with
    | nil => exact absurd rfl some
    | cons x below ih =>
      obtain ⟨y, below', rfl⟩ := List.exists_cons_of_ne_nil some'
      simp only [List.forall_mem_cons] at proper proper'
      have chars := path_eq_path_iff.1 same
      by_cases equal : x = y
      · subst equal
        have rest := List.append_cancel_left chars
        match below, below' with
        | [], [] => exact .inl rfl
        | [], _ :: _ | _ :: _, [] => simp [behind] at rest
        | next :: below, other :: below' =>
          simp only [behind, List.cons.injEq, true_and] at rest
          rcases ih proper.2 proper'.2 (by simp) (by simp) (path_eq_path_iff.2 rest) with eq | moved | moved
          · exact .inl (congrArg (x :: ·) eq)
          · exact .inr (.inl (moved.cons x))
          · exact .inr (.inr (moved.cons x))
      · rcases List.append_eq_append_iff.1 chars with ⟨more, longer, rest⟩ | ⟨more, longer, rest⟩
        · have some : more ≠ [] := fun nothing => equal (String.toList_inj.1 (by simpa [nothing] using longer.symm))
          exact .inr (.inl (colonMoved_of_longer proper'.1 proper.2 longer some rest))
        · have some : more ≠ [] := fun nothing => equal (String.toList_inj.1 (by simpa [nothing] using longer))
          exact .inr (.inr (colonMoved_of_longer proper.1 proper'.2 longer some rest))
  · rintro (rfl | moved | moved)
    · rfl
    · exact moved.path_eq
    · exact moved.path_eq.symm

/-- A colon moves from the start of one name to the end of another. -/
theorem ColonMoved.exists_names {p q : List String} (moved : ColonMoved p q) :
    (∃ name ∈ p, name.toList.head? = some ':') ∧ ∃ name ∈ q, name.toList.getLast? = some ':' := by
  obtain ⟨above, upper, lower, other, below, below', -⟩ := moved
  exact ⟨⟨":" ++ lower, by simp, by simp⟩, ⟨upper ++ ":", by simp, by simp⟩⟩

end TestIsolation
