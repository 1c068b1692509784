import TestIsolation.CommandLine.Usage
import TestIsolation.Proofs.Run.Spelling

/-!
# Limits from the command line

Whatever the arguments of a program are, the limit that they set is a machine word of milliseconds
(`Command.inRange`), as every step of reading them keeps this of the flags read so far.
-/

namespace TestIsolation

set_option autoImplicit false

theorem exists_of_map_eq_ok {ε α γ : Type} {x : Except ε α} {f : α → γ} {b : γ} (ok : x.map f = .ok b) :
    ∃ a, x = .ok a ∧ f a = b := by
  cases x with
  | error e => cases ok
  | ok a => exact ⟨a, rfl, Except.ok.inj ok⟩

/-- A limit that flags set is a machine word. -/
def RunFlags.InRange (flags : RunFlags) : Prop := ∀ n ∈ flags.timeoutMillis, n ≤ maxWord

namespace RunFlags.InRange

variable {o : RunOption} {value : String} {given : Option String} {flags flags' : RunFlags} {allowed : List RunOption}
  {argument : String} {r r' : OptionReader}

/-- An option that is set keeps the flags in range. -/
theorem set? (inRange : flags.InRange) (set : o.set? value flags = .ok flags') : flags'.InRange := by
  cases o with
  | filter | stopOnTerminated | quiet =>
    cases set
    exact inRange
  | log =>
    simp only [RunOption.set?] at set
    split at set
    · cases set
    · cases set
      exact inRange
  | jobs =>
    obtain ⟨n, -, rfl⟩ := exists_of_map_eq_ok set
    exact inRange
  | timeoutMillis =>
    obtain ⟨n, number, rfl⟩ := exists_of_map_eq_ok set
    intro m here
    obtain rfl : n = m := Option.some.inj here
    split at number
    · rename_i word
      obtain rfl := Except.ok.inj number
      exact (readWord?_iff.1 word).le
    · cases number

theorem take (inRange : r.flags.InRange) (taken : r.take o given = .ok r') : r'.flags.InRange := by
  unfold OptionReader.take at taken
  split at taken
  · cases taken
  · split at taken
    · cases taken
    · obtain ⟨flags, set, rfl⟩ := exists_of_map_eq_ok taken
      exact inRange.set? set

theorem settle (inRange : r.flags.InRange) (settled : r.settle = .ok r') : r'.flags.InRange := by
  unfold OptionReader.settle at settled
  split at settled
  · cases settled
    exact inRange
  · exact take (r := { r with pending := none }) inRange settled

theorem readLong {name : String} (inRange : r.flags.InRange)
    (read : r.readLong allowed argument name given = .ok r') : r'.flags.InRange := by
  unfold OptionReader.readLong at read
  split at read
  case h_1 =>
    split at read
    · split at read
      · rename_i settled
        exact (inRange.settle settled).take read
      · cases read
    · cases read
  case h_2 =>
    split at read
    · rename_i settled
      have kept := inRange.settle settled
      split at read
      · cases read
        exact kept
      · exact kept.take read
    · cases read
  case h_3 =>
    unfold OptionReader.help at read
    repeat' split at read
    all_goals cases read

/-- Every argument that is read keeps the flags in range. -/
theorem read (inRange : r.flags.InRange) (read : r.read allowed argument = .ok r') : r'.flags.InRange := by
  unfold OptionReader.read at read
  split at read
  · cases read
  · split at read
    · cases read
      exact inRange
    · exact inRange.readLong read
    · unfold OptionReader.help at read
      split at read <;> cases read
    · cases read
    · cases read
      exact inRange
    · cases read

theorem foldlM_read (arguments : List String) (inRange : r.flags.InRange)
    (read : arguments.foldlM (OptionReader.read allowed) r = .ok r') : r'.flags.InRange := by
  induction arguments generalizing r with
  | nil =>
    cases read
    exact inRange
  | cons argument rest ih =>
    rw [List.foldlM_cons] at read
    cases first : r.read allowed argument with
    | error e =>
      rw [first] at read
      cases read
    | ok next =>
      rw [first] at read
      exact ih (inRange.read first) read

theorem readAll {arguments : List String} (read : OptionReader.readAll allowed arguments = .ok flags) :
    flags.InRange := by
  unfold OptionReader.readAll at read
  cases all : arguments.foldlM (OptionReader.read allowed) {} with
  | error e =>
    rw [all] at read
    cases read
  | ok last =>
    have kept := foldlM_read arguments (r := {}) nofun all
    rw [all] at read
    obtain ⟨settled, judged, rfl⟩ := exists_of_map_eq_ok (x := last.settle) (f := (·.flags)) read
    exact kept.settle judged

end RunFlags.InRange

/-- **A limit that the arguments of a program set is a machine word.** -/
theorem Command.inRange {arguments : List String} {flags : RunFlags}
    (given : ofArguments arguments = .ok (.run flags)) : flags.InRange := by
  unfold ofArguments at given
  split at given
  case h_1 =>
    cases given
    nofun
  case h_2 =>
    obtain ⟨flags', read, same⟩ := exists_of_map_eq_ok given
    cases same
    exact .readAll read
  case h_3 =>
    obtain ⟨_, _, other⟩ := exists_of_map_eq_ok given
    cases other
  case h_4 => cases given
  case h_5 =>
    split at given
    · unfold afterEscape at given
      split at given
      · cases given
        nofun
      · split at given <;> cases given
    all_goals cases given

end TestIsolation
