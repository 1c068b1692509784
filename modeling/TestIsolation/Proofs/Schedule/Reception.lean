import TestIsolation.Proofs.Outcome.Chunking
import TestIsolation.Schedule.Supervision

/-!
# What a channel makes of a unit

The status of a unit that was not killed is decided by the bytes of its outcome channel and by its exit. A reception
that met no violation holds what one read of all the bytes would give (`takeAll_of_clean`), and every violation leads to
the same status, so it does not matter how the bytes were cut into reads. A unit passes only with whole frames, no
failure and one verdict at the end (`status_of_channel`).
-/

namespace TestIsolation

set_option autoImplicit false

namespace Record

/-- A verdict. -/
def isTerminal : Record → Bool
  | terminal _ => true
  | _ => false

/-- A marker or a request to be skipped. -/
def isNote : Record → Bool
  | phase _ | skip _ => true
  | _ => false

/-- The failure of a record that is one. -/
def failure? : Record → Option Failure
  | failure f => some f
  | _ => none

theorem isNote_iff (r : Record) : r.isNote = true ↔ r.isTerminal = false ∧ r.failure? = none := by
  cases r <;> simp [isNote, isTerminal, failure?]

end Record

/-- What is wrong with the bytes of a channel that has ended. -/
inductive ChannelFault : Bytes → Prop where
  | malformed {before bad : Bytes} {records : List Record} (spells : Spells before records)
      (malformed : Malformed bad) (after : Bytes) : ChannelFault (before ++ (bad ++ after))
  | unfinished {before part : Bytes} {records : List Record} (spells : Spells before records)
      (unfinished : Unfinished part) : ChannelFault (before ++ part)
  | undecided {bytes : Bytes} {records : List Record} (spells : Spells bytes records)
      (open_ : ∀ r ∈ records, r.isTerminal = false) : ChannelFault bytes
  | overrun {before : Bytes} {records : List Record} {v : Verdict} {r : Record}
      (spells : Spells before (records ++ [.terminal v, r])) (after : Bytes) : ChannelFault (before ++ after)

/-! ## Summaries -/

namespace Summary

theorem absorbAll_append (s : Summary) (a b : List Record) : s.absorbAll (a ++ b) = (s.absorbAll a).absorbAll b :=
  List.foldl_append

/-- Nothing is absorbed after a violation. -/
theorem absorbAll_of_violation {s : Summary} (h : s.violation.isSome) (records : List Record) :
    s.absorbAll records = s := by
  induction records with
  | nil => rfl
  | cons r records ih =>
    have same : s.absorb r = s := by simp [absorb, h]
    simpa [absorbAll, same] using ih

theorem absorbAll_clean {s : Summary} {a b : List Record} (clean : (s.absorbAll (a ++ b)).violation = none) :
    (s.absorbAll a).violation = none := by
  by_contra violated
  rw [absorbAll_append, absorbAll_of_violation (Option.isSome_iff_ne_none.2 violated)] at clean
  exact violated clean

/-- A record after the verdict is a violation. -/
theorem violation_absorb_of_terminal {s : Summary} (h : s.terminal.isSome) (r : Record) :
    (s.absorb r).violation.isSome := by
  simp only [absorb]
  split
  · assumption
  · rfl

/-- A record that is no verdict leaves the summary open and adds its failure. -/
theorem absorb_open {r : Record} (other : r.isTerminal = false) {s : Summary} (clean : s.violation = none)
    (undecided : s.terminal = none) :
    (s.absorb r).violation = none ∧ (s.absorb r).terminal = none ∧
      (s.absorb r).failures = s.failures ++ r.failure?.toList ∧ (s.absorb r).truncated = s.truncated := by
  cases r with
  | terminal v => simp [Record.isTerminal] at other
  | phase p => simp [absorb, clean, undecided, Record.failure?]
  | failure f => simp [absorb, clean, undecided, Record.failure?]
  | skip n => simp [absorb, clean, undecided, Record.failure?]

/-- Records without a verdict leave the summary open and add their failures. -/
theorem absorbAll_open {records : List Record} (others : ∀ r ∈ records, r.isTerminal = false) {s : Summary}
    (clean : s.violation = none) (undecided : s.terminal = none) :
    (s.absorbAll records).violation = none ∧ (s.absorbAll records).terminal = none ∧
      (s.absorbAll records).failures = s.failures ++ records.filterMap Record.failure? ∧
      (s.absorbAll records).truncated = s.truncated := by
  induction records generalizing s with
  | nil => simp [absorbAll, clean, undecided]
  | cons r records ih =>
    obtain ⟨clean, undecided, failures, whole⟩ := absorb_open (others r (by simp)) clean undecided
    obtain ⟨clean, undecided, more, whole'⟩ := ih (fun r mem => others r (by simp [mem])) clean undecided
    refine ⟨clean, undecided, more.trans ?_, whole'.trans whole⟩
    rw [failures, List.filterMap_cons]
    cases r.failure? <;> simp

/-- Records that end in the only verdict. -/
theorem absorbAll_verdict {records : List Record} (none_ : ∀ r ∈ records, r.isTerminal = false) (v : Verdict) :
    (({} : Summary).absorbAll (records ++ [.terminal v])).violation = none ∧
      (({} : Summary).absorbAll (records ++ [.terminal v])).terminal = some v ∧
      (({} : Summary).absorbAll (records ++ [.terminal v])).failures = records.filterMap Record.failure? ∧
      (({} : Summary).absorbAll (records ++ [.terminal v])).truncated = false := by
  obtain ⟨clean, undecided, failures, whole⟩ := absorbAll_open none_ (s := {}) rfl rfl
  rw [absorbAll_append]
  simp only [absorbAll, List.foldl_cons, List.foldl_nil] at clean undecided failures whole ⊢
  simp [absorb, clean, undecided, failures, whole]

/-- Something after the only verdict. -/
theorem absorbAll_overrun (records : List Record) (v : Verdict) (r : Record) (more : List Record) :
    (({} : Summary).absorbAll (records ++ [.terminal v, r] ++ more)).violation.isSome := by
  have violated : (({} : Summary).absorbAll (records ++ [.terminal v, r])).violation.isSome := by
    rw [absorbAll_append]
    simp only [absorbAll, List.foldl_cons, List.foldl_nil]
    generalize List.foldl absorb ({} : Summary) records = s
    by_cases h : s.violation.isSome
    · have stuck := absorbAll_of_violation h [.terminal v, r]
      simp only [absorbAll, List.foldl_cons, List.foldl_nil] at stuck
      rwa [stuck]
    · by_cases terminal : s.terminal.isSome
      · have first := violation_absorb_of_terminal terminal (.terminal v)
        have second := absorbAll_of_violation first [r]
        simp only [absorbAll, List.foldl_cons, List.foldl_nil] at second
        rwa [second]
      · apply violation_absorb_of_terminal
        simp [absorb, h, terminal]
  rw [absorbAll_append, absorbAll_of_violation violated]
  exact violated

end Summary

/-- Records have no verdict, or a first one. -/
theorem exists_first_terminal (records : List Record) :
    (∀ r ∈ records, r.isTerminal = false) ∨
      ∃ before v after, records = before ++ .terminal v :: after ∧ ∀ r ∈ before, r.isTerminal = false := by
  induction records with
  | nil => exact .inl (by simp)
  | cons r records ih =>
    cases terminal : r.isTerminal with
    | true =>
      cases r with
      | terminal v => exact .inr ⟨[], v, records, rfl, by simp⟩
      | _ => simp [Record.isTerminal] at terminal
    | false =>
      rcases ih with none_ | ⟨before, v, after, rfl, none_⟩
      · exact .inl (by simpa [terminal] using none_)
      · exact .inr ⟨r :: before, v, after, rfl, by simpa [terminal] using none_⟩

/-! ## Receptions -/

namespace Reception

theorem takeAll_of_violation {r : Reception} (h : r.summary.violation.isSome) (reads : List Bytes) :
    r.takeAll reads = r := by
  induction reads with
  | nil => rfl
  | cons read reads ih =>
    have same : r.take read = r := by simp [take, h]
    simpa [takeAll, same] using ih

/-- A read on a reception without a violation. -/
theorem take_of_clean {d : Decoder} {s : Summary} (reading : d.isReading) (clean : s.violation = none) (read : Bytes) :
    (⟨d, s⟩ : Reception).take read =
      match d.feedFrom [] read with
      | .ok (next, records) => ⟨next, s.absorbAll records⟩
      | .error e => ⟨.stuck e (read.reverse ++ d.heldNewestFirst), s.corrupt e⟩ := by
  simp only [take, clean, Option.isSome_none, Bool.false_eq_true, if_false, Decoder.feed_of_isReading reading]
  cases d.feedFrom [] read <;> rfl

/-- **Without a violation the cuts leave no trace.** -/
theorem takeAll_of_clean {d : Decoder} {s : Summary} (reading : d.isReading) (reads : List Bytes)
    (clean : ((⟨d, s⟩ : Reception).takeAll reads).summary.violation = none) :
    ∃ next records, d.feedFrom [] reads.flatten = .ok (next, records) ∧
      (⟨d, s⟩ : Reception).takeAll reads = ⟨next, s.absorbAll records⟩ := by
  have before : s.violation = none := by
    by_contra violated
    have same := takeAll_of_violation (r := ⟨d, s⟩) (Option.isSome_iff_ne_none.2 violated) reads
    exact violated (by simpa [same] using clean)
  induction reads generalizing d s with
  | nil => exact ⟨d, [], rfl, rfl⟩
  | cons read reads ih =>
    simp only [takeAll, List.foldl_cons] at clean ⊢
    rw [take_of_clean reading before] at clean ⊢
    cases fed : d.feedFrom [] read with
    | error e =>
      simp only [fed] at clean
      have violated : (s.corrupt e).violation.isSome := by simp [Summary.corrupt, before]
      have same :=
        takeAll_of_violation (r := ⟨.stuck e (read.reverse ++ d.heldNewestFirst), s.corrupt e⟩) violated reads
      simp only [takeAll] at same
      rw [same] at clean
      simp [Summary.corrupt, before] at clean
    | ok after =>
      obtain ⟨next, records⟩ := after
      simp only [fed] at clean ⊢
      have still : (s.absorbAll records).violation = none := by
        by_contra violated
        have same :=
          takeAll_of_violation (r := ⟨next, s.absorbAll records⟩) (Option.isSome_iff_ne_none.2 violated) reads
        simp only [takeAll] at same
        exact violated (by simpa [same] using clean)
      obtain ⟨last, more, fedMore, taken⟩ := ih (Decoder.isReading_feedFrom reading fed) clean still
      rw [List.flatten_cons, Decoder.feedFrom_append_eq_ok_iff.2 ⟨next, records, more, fed, fedMore, rfl⟩]
      refine ⟨last, records ++ more, rfl, ?_⟩
      simp only [takeAll] at taken
      rw [taken, Summary.absorbAll_append]

/-- Bytes that are read without an error into records without a violation are received, however they are cut. -/
theorem takeAll_of_feedFrom {d next : Decoder} {s : Summary} {records : List Record} (reading : d.isReading)
    (reads : List Bytes) (fed : d.feedFrom [] reads.flatten = .ok (next, records))
    (clean : (s.absorbAll records).violation = none) :
    (⟨d, s⟩ : Reception).takeAll reads = ⟨next, s.absorbAll records⟩ := by
  induction reads generalizing d s records with
  | nil =>
    cases fed
    rfl
  | cons read reads ih =>
    rw [List.flatten_cons, Decoder.feedFrom_append_eq_ok_iff] at fed
    obtain ⟨middle, first, second, fed, more, rfl⟩ := fed
    have before : s.violation = none := Summary.absorbAll_clean (a := []) clean
    have taken := ih (Decoder.isReading_feedFrom reading fed) (s := s.absorbAll first) more
      (by rwa [← Summary.absorbAll_append])
    rw [← Summary.absorbAll_append] at taken
    simp only [takeAll, List.foldl_cons] at taken ⊢
    rw [take_of_clean reading before, fed]
    exact taken

end Reception

/-! ## Statuses -/

/-- The status that a verdict stands for if nothing speaks against it. -/
def Verdict.success? : Verdict → Option Status
  | pass => some .passed
  | skip => some .skipped
  | fail => none

namespace Summary

/-- A unit that exits is judged a crash exactly if its channel is at fault. -/
theorem classifyExit_eq_crashed_iff (s : Summary) (code : Int) :
    (s.classifyExit code).status = .crashed ↔ s.violation.isSome ∨ s.truncated = true ∨ s.terminal = none := by
  unfold classifyExit
  cases s.violation with
  | some violation => simp
  | none =>
    cases s.truncated with
    | true => simp
    | false =>
      cases s.terminal with
      | none =>
        simp only [or_true, iff_true]
        split <;> rfl
      | some v =>
        simp only [Option.isSome_none, Bool.false_eq_true, reduceCtorEq, or_self, iff_false]
        split_ifs <;> simp

/-- A verdict counts as a success only if nothing speaks against it. -/
theorem classifyExit_eq_success_iff (s : Summary) (code : Int) {v : Verdict} {status : Status}
    (means : v.success? = some status) :
    (s.classifyExit code).status = status ↔
      s.violation = none ∧ s.truncated = false ∧ s.terminal = some v ∧ s.failures = [] ∧ code = 0 := by
  unfold classifyExit
  cases s.violation with
  | some violation => cases v <;> cases means <;> simp
  | none =>
    cases s.truncated with
    | true => cases v <;> cases means <;> simp
    | false =>
      cases s.terminal with
      | none => cases v <;> cases means <;> simp <;> split <;> simp
      | some verdict =>
        simp only [true_and]
        split_ifs with failed fail exit skip <;> cases v <;> cases means <;> simp_all
        cases verdict <;> simp_all

end Summary

/-- A channel that has ended is at fault, or holds whole frames with one verdict, at the end. -/
theorem fault_or_verdict (bytes : Bytes) :
    ChannelFault bytes ∨
      ∃ records v, Spells bytes (records ++ [.terminal v]) ∧ ∀ r ∈ records, r.isTerminal = false := by
  obtain ⟨before, records, rest, rfl, spells, kind⟩ := exists_reading bytes
  rcases kind with rfl | unfinished | ⟨bad, after, rfl, malformed⟩
  · rw [List.append_nil]
    rcases exists_first_terminal records with none_ | ⟨first, v, after, rfl, none_⟩
    · exact .inl (.undecided spells none_)
    · cases after with
      | nil => exact .inr ⟨first, v, spells, none_⟩
      | cons r after =>
        obtain ⟨a, b, rfl, within, _⟩ := Spells.exists_split (first ++ [.terminal v, r]) after (by simpa using spells)
        exact .inl (.overrun within b)
  · exact .inl (.unfinished spells unfinished)
  · exact .inl (.malformed spells malformed after)

namespace Reception

/-- **A fault shows**, in what was absorbed or in what is still held. -/
theorem final_of_fault {reads : List Bytes} (fault : ChannelFault reads.flatten) :
    (({} : Reception).takeAll reads).final.violation.isSome ∨ (({} : Reception).takeAll reads).final.truncated = true ∨
      (({} : Reception).takeAll reads).final.terminal = none := by
  by_cases violated : (({} : Reception).takeAll reads).summary.violation.isSome
  · exact .inl violated
  right
  rw [Bool.not_eq_true, Option.isSome_eq_false_iff, Option.isNone_iff_eq_none] at violated
  obtain ⟨next, records, fed, taken⟩ := takeAll_of_clean Decoder.isReading_new reads violated
  -- Nothing was lost: the bytes as a whole were read into these records.
  rw [taken] at violated ⊢
  generalize reads.flatten = bytes at fault fed
  cases fault with
  | malformed spells malformed after =>
    rw [spells.feedFrom] at fed
    obtain ⟨e, failed⟩ := malformed.feedFrom _ after
    rw [failed] at fed
    cases fed
  | unfinished spells unfinished =>
    rw [spells.feedFrom] at fed
    obtain ⟨d, held, pending⟩ := unfinished.feedFrom _
    rw [held] at fed
    cases fed
    have some := unfinished.length_pos
    rw [← pending] at some
    exact .inl (by simp [final, some])
  | undecided spells others =>
    have whole := spells.feedFrom [] []
    rw [List.append_nil, fed] at whole
    cases whole
    obtain ⟨_, undecided, _, _⟩ := Summary.absorbAll_open (by simpa using others) (s := {}) rfl rfl
    exact .inr (by simpa [final] using undecided)
  | overrun spells after =>
    rw [spells.feedFrom, Decoder.feedFrom_found] at fed
    cases more : Decoder.new.feedFrom [] after with
    | error e => simp [more, Except.map] at fed
    | ok rest =>
      simp only [more, Except.map, List.append_nil, List.reverse_reverse] at fed
      cases fed
      exact absurd violated (Option.isSome_iff_ne_none.1 (Summary.absorbAll_overrun _ _ _ _))

/-- Whole frames with one verdict, at the end, are received as they are. -/
theorem final_of_verdict {reads : List Bytes} {records : List Record} {v : Verdict}
    (spells : Spells reads.flatten (records ++ [.terminal v])) (none_ : ∀ r ∈ records, r.isTerminal = false) :
    (({} : Reception).takeAll reads).final = ({} : Summary).absorbAll (records ++ [.terminal v]) := by
  have fed := spells.feedFrom [] []
  simp only [List.append_nil, Decoder.feedFrom, List.reverse_reverse] at fed
  obtain ⟨clean, _, _, whole⟩ := Summary.absorbAll_verdict none_ v
  rw [takeAll_of_feedFrom Decoder.isReading_new reads fed clean]
  have nothing : decide (0 < Decoder.new.pending) = false := rfl
  simp only [final, nothing, Bool.or_false]

/-- The status of a unit, from the reads of its outcome channel, its exit and the reason it was killed for, if any. -/
def status (reads : List Bytes) (exit : ExitCondition) (kill : Option KillCause) : Status :=
  ((({} : Reception).takeAll reads).final.classify exit kill).status

/-- Only the exit of a unit that was not killed is judged by its channel. -/
theorem status_eq_of_exited {a b : List Bytes}
    (same : ∀ code, status a (.exited code) none = status b (.exited code) none) (exit : ExitCondition)
    (kill : Option KillCause) : status a exit kill = status b exit kill := by
  cases kill with
  | some cause => cases cause <;> rfl
  | none =>
    cases exit with
    | exited code => exact same code
    | signaled signal => rfl

theorem status_eq_crashed_of_fault {reads : List Bytes} (fault : ChannelFault reads.flatten) (code : Int) :
    status reads (.exited code) none = .crashed :=
  (Summary.classifyExit_eq_crashed_iff _ code).2 (final_of_fault fault)

/-- A unit has the status of a success only if it exited with code 0, and its channel held whole frames without a
failure and with that verdict alone at the end. -/
theorem status_eq_success_iff (reads : List Bytes) (exit : ExitCondition) (kill : Option KillCause) {v : Verdict}
    {outcome : Status} (means : v.success? = some outcome) :
    status reads exit kill = outcome ↔ kill = none ∧ exit = .exited 0 ∧
      ∃ notes, Spells reads.flatten (notes ++ [.terminal v]) ∧ ∀ r ∈ notes, r.isNote = true := by
  constructor
  · intro judged
    cases kill with
    | some cause => cases cause <;> cases v <;> cases means <;> cases judged
    | none =>
      cases exit with
      | signaled signal =>
        simp only [status, Summary.classify, Summary.classifyEnd] at judged
        split_ifs at judged <;> cases v <;> cases means <;> cases judged
      | exited code =>
        obtain ⟨clean, whole, verdict, clear, rfl⟩ := (Summary.classifyExit_eq_success_iff _ code means).1 judged
        rcases fault_or_verdict reads.flatten with fault | ⟨notes, v', spells, none_⟩
        · rcases final_of_fault fault with violated | cut | undecided
          · simp [clean] at violated
          · simp [whole] at cut
          · simp [verdict] at undecided
        · obtain ⟨_, verdict', failures, _⟩ := Summary.absorbAll_verdict none_ v'
          rw [final_of_verdict spells none_] at verdict clear
          obtain rfl : v' = v := Option.some.inj (verdict'.symm.trans verdict)
          rw [failures, List.filterMap_eq_nil_iff] at clear
          exact ⟨rfl, rfl, notes, spells, fun r mem => (Record.isNote_iff r).2 ⟨none_ r mem, clear r mem⟩⟩
  · rintro ⟨rfl, rfl, notes, spells, allNotes⟩
    have none_ : ∀ r ∈ notes, r.isTerminal = false := fun r mem => ((Record.isNote_iff r).1 (allNotes r mem)).1
    have clear : notes.filterMap Record.failure? = [] :=
      List.filterMap_eq_nil_iff.2 fun r mem => ((Record.isNote_iff r).1 (allNotes r mem)).2
    obtain ⟨clean, verdict, failures, whole⟩ := Summary.absorbAll_verdict none_ v
    refine (Summary.classifyExit_eq_success_iff _ 0 means).2 ?_
    rw [final_of_verdict spells none_]
    exact ⟨clean, whole, verdict, failures.trans clear, rfl⟩

/-- **Reads that make up the same bytes make the same status.** -/
theorem status_flatten (reads : List Bytes) (exit : ExitCondition) (kill : Option KillCause) :
    status reads exit kill = status [reads.flatten] exit kill := by
  apply status_eq_of_exited
  intro code
  have one : [reads.flatten].flatten = reads.flatten := by simp
  rcases fault_or_verdict reads.flatten with fault | ⟨records, v, spells, none_⟩
  · rw [status_eq_crashed_of_fault fault, status_eq_crashed_of_fault (one.symm ▸ fault)]
  · unfold status
    rw [final_of_verdict spells none_, final_of_verdict (one.symm ▸ spells) none_]

/-- With an exit of its own, a unit has crashed exactly if its channel is at fault. -/
theorem status_eq_crashed_iff (reads : List Bytes) (code : Int) :
    status reads (.exited code) none = .crashed ↔ ChannelFault reads.flatten := by
  constructor
  · intro judged
    rcases fault_or_verdict reads.flatten with fault | ⟨records, v, spells, none_⟩
    · exact fault
    · rcases (Summary.classifyExit_eq_crashed_iff _ code).1 judged with violated | cut | undecided <;>
        obtain ⟨clean, verdict, _, whole⟩ := Summary.absorbAll_verdict none_ v
      · simp [final_of_verdict spells none_, clean] at violated
      · simp [final_of_verdict spells none_, whole] at cut
      · simp [final_of_verdict spells none_, verdict] at undecided
  · intro fault
    exact status_eq_crashed_of_fault fault code

end Reception

/-- **No false pass.** The status of a unit depends on the bytes of its outcome channel but not on the reads that they
came in. It is a pass, or a skip, exactly if nothing killed the unit, it exited with code 0, and the bytes are whole
frames with markers and requests to be skipped, and with that verdict at the end. A unit that exits by itself crashed
exactly if something is wrong with the bytes. -/
theorem status_of_channel (reads : List Bytes) :
    (∀ exit kill, Reception.status reads exit kill = Reception.status [reads.flatten] exit kill) ∧
      (∀ exit kill, Reception.status reads exit kill = .passed ↔ kill = none ∧ exit = .exited 0 ∧
        ∃ notes, Spells reads.flatten (notes ++ [.terminal .pass]) ∧ ∀ r ∈ notes, r.isNote = true) ∧
      (∀ exit kill, Reception.status reads exit kill = .skipped ↔ kill = none ∧ exit = .exited 0 ∧
        ∃ notes, Spells reads.flatten (notes ++ [.terminal .skip]) ∧ ∀ r ∈ notes, r.isNote = true) ∧
      ∀ code, Reception.status reads (.exited code) none = .crashed ↔ ChannelFault reads.flatten := by
  refine ⟨Reception.status_flatten reads, ?_, ?_, Reception.status_eq_crashed_iff reads⟩
  · intro exit kill
    exact Reception.status_eq_success_iff reads exit kill (v := .pass) rfl
  · intro exit kill
    exact Reception.status_eq_success_iff reads exit kill (v := .skip) rfl

end TestIsolation
