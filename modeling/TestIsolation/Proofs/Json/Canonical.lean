import TestIsolation.Json.Value

/-!
# Members of canonical objects

Putting a member in place changes what is found under its name and nothing else (`lookup_putMember`), so the canonical
form of an object has the last member of each name, with its value in canonical form (`member?_canonical_last`). Where
the names are distinct, these are all members (`member?_canonical`).
-/

namespace TestIsolation

set_option autoImplicit false

namespace JsonValue

variable {members : List (String × JsonValue)}

theorem lookup_cons (name first : String) (v : JsonValue) (rest : List (String × JsonValue)) :
    ((first, v) :: rest).lookup name = if name = first then some v else rest.lookup name := by
  by_cases same : name = first
  · subst same
    rw [List.lookup_cons_self, if_pos rfl]
  · have differs : (name == first) = false := beq_false_of_ne same
    rw [List.lookup_cons, differs, if_neg same]

theorem lookup_putMember (name put : String) (v : JsonValue) (members : List (String × JsonValue)) :
    (putMember put v members).lookup name = if name = put then some v else members.lookup name := by
  induction members with
  | nil => rw [putMember, lookup_cons]
  | cons m rest ih =>
    obtain ⟨other, w⟩ := m
    rw [putMember]
    split
    · rw [lookup_cons]
    · split
      · rename_i same
        subst same
        rw [lookup_cons, lookup_cons]
        split <;> rfl
      · rename_i differs
        rw [lookup_cons, lookup_cons, ih]
        -- at most one of the two names is the one that is looked for
        by_cases same : name = other
        · rw [if_pos same, if_pos same, if_neg (same ▸ Ne.symm differs)]
        · rw [if_neg same, if_neg same]

theorem lookup_eq_none {name : String} (new : name ∉ members.map (·.1)) : members.lookup name = none := by
  induction members with
  | nil => rfl
  | cons m rest ih =>
    rw [List.map_cons, List.mem_cons, not_or] at new
    rw [lookup_cons, if_neg new.1, ih new.2]

/-- In an object whose names are distinct the last member of a name is the first. -/
theorem lookup_reverse (distinct : (members.map (·.1)).Nodup) (name : String) :
    members.reverse.lookup name = members.lookup name := by
  induction members with
  | nil => rfl
  | cons m rest ih =>
    rw [List.map_cons, List.nodup_cons] at distinct
    rw [List.reverse_cons, List.lookup_append, ih distinct.2, lookup_cons, lookup_cons]
    by_cases same : name = m.1
    · rw [if_pos same, if_pos same, same, lookup_eq_none distinct.1]
      rfl
    · rw [if_neg same, if_neg same, List.lookup_nil, Option.or_none]

theorem lookup_canonicalMembers (known members : List (String × JsonValue)) (name : String) :
    (canonicalMembers known members).lookup name =
      ((members.reverse.lookup name).map canonical).or (known.lookup name) := by
  induction members generalizing known with
  | nil => rw [canonicalMembers]; rfl
  | cons m rest ih =>
    obtain ⟨put, v⟩ := m
    rw [canonicalMembers, ih, lookup_putMember, List.reverse_cons, List.lookup_append, lookup_cons]
    cases rest.reverse.lookup name <;> by_cases same : name = put <;> simp [same]

/-- What is found under a name in the canonical form of an object: the last member of that name. -/
theorem member?_canonical_last (members : List (String × JsonValue)) (name : String) :
    (object members).canonical.member? name = (members.reverse.lookup name).map canonical := by
  have found := lookup_canonicalMembers [] members name
  rwa [List.lookup_nil, Option.or_none] at found

/-- What is found under a name in the canonical form of an object with distinct names. -/
theorem member?_canonical (distinct : (members.map (·.1)).Nodup) (name : String) :
    (object members).canonical.member? name = (members.lookup name).map canonical := by
  rw [member?_canonical_last, lookup_reverse distinct]

/-- Texts in a list are in canonical form. -/
theorem canonical_texts (texts : List String) :
    (array (texts.map .string)).canonical = array (texts.map .string) := by
  have items : canonicalItems (texts.map .string) = texts.map .string := by
    induction texts with
    | nil => rfl
    | cons s rest ih => rw [List.map_cons, canonicalItems, ih, canonical.eq_3 _ (by simp) (by simp)]
  rw [canonical, items]

end JsonValue

end TestIsolation
