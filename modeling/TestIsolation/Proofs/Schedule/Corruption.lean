import TestIsolation.Proofs.Unit.Recording

/-!
# A channel that turns out to be corrupt

The decoder hands out the records of a read only if it can read all of it. So a channel that is corrupt is told up to
the read that shows it (`takeAll_of_rejected`), and a record arrives exactly if its frame ends before that read
(`take_prefix_iff`). What arrived is told whole (`told_before_corruption`); what came in the same read as the error is
lost (`failure_lost_to_corruption`), so here it does matter how the bytes are cut.
-/

namespace TestIsolation

set_option autoImplicit false

/-! ## Bytes that end at a frame's end -/

namespace Decoder

/-- A byte that leaves no frame begun completed one. -/
theorem isSome_of_step_eq_new {d : Decoder} {b : UInt8} {record : Option Record}
    (stepped : d.step b = .ok (new, record)) : record.isSome := by
  cases takes_of_step stepped <;> rfl

/-- Bytes that end at a frame's end hold a record. -/
theorem records_ne_nil_of_feedFrom {d : Decoder} {bytes : Bytes} {records : List Record} (some : bytes ≠ [])
    (fed : d.feedFrom [] bytes = .ok (new, records)) : records ≠ [] := by
  obtain ⟨init, last, rfl⟩ := List.eq_nil_or_concat bytes |>.resolve_left some
  rw [List.concat_eq_append, feedFrom_append_eq_ok_iff] at fed
  obtain ⟨next, first, second, -, closing, rfl⟩ := fed
  simp only [feedFrom] at closing
  cases stepped : next.step last with
  | error e => simp [stepped] at closing
  | ok after =>
    obtain ⟨d', record⟩ := after
    simp only [stepped, Except.ok.injEq, Prod.mk.injEq] at closing
    obtain ⟨rfl, rfl⟩ := closing
    obtain ⟨r, rfl⟩ := Option.isSome_iff_exists.1 (isSome_of_step_eq_new stepped)
    simp

/-- An error is the same whatever was found before. -/
theorem feedFrom_eq_error_iff {d : Decoder} {found : List Record} {bytes : Bytes} {e : ChannelError} :
    d.feedFrom found bytes = .error e ↔ d.feedFrom [] bytes = .error e := by
  rw [feedFrom_found]
  cases d.feedFrom [] bytes <;> simp [Except.map]

theorem feed_eq_error_iff {d : Decoder} (reading : d.isReading) {chunk : Bytes} {e : ChannelError} :
    (d.feed chunk).2 = .error e ↔ d.feedFrom [] chunk = .error e := by
  rw [feed_of_isReading reading]
  cases d.feedFrom [] chunk <;> simp

end Decoder

/-- Whole frames that are cut anywhere yield their records in two parts. -/
theorem Spells.cut {start missing : Bytes} {records kept : List Record} {next : Decoder}
    (spells : Spells (start ++ missing) records) (fed : Decoder.new.feedFrom [] start = .ok (next, kept)) :
    ∃ more, next.feedFrom [] missing = .ok (.new, more) ∧ records = kept ++ more := by
  have all := spells.feedFrom [] []
  rw [List.append_nil] at all
  obtain ⟨middle, first, more, early, late, split⟩ := Decoder.feedFrom_append_eq_ok_iff.1 all
  rw [fed] at early
  cases early
  exact ⟨more, late, by simpa using split⟩

/-- Bytes after whole frames yield their records after those of the frames. -/
theorem Spells.exists_of_append {whole more : Bytes} {records kept : List Record} {next : Decoder}
    (spells : Spells whole records) (fed : Decoder.new.feedFrom [] (whole ++ more) = .ok (next, kept)) :
    ∃ found, Decoder.new.feedFrom [] more = .ok (next, found) ∧ kept = records ++ found := by
  rw [spells.feedFrom, Decoder.feedFrom_found] at fed
  cases later : Decoder.new.feedFrom [] more with
  | error e => simp [later, Except.map] at fed
  | ok after =>
    obtain ⟨d, found⟩ := after
    simp only [later, Except.map, List.append_nil, List.reverse_reverse, Except.ok.injEq, Prod.mk.injEq] at fed
    obtain ⟨rfl, rfl⟩ := fed
    exact ⟨found, rfl, rfl⟩

/-- Of whole frames, the start of a channel yields those that lie in it. -/
theorem Spells.prefix_iff {whole start rest : Bytes} {records kept : List Record} {next : Decoder}
    (spells : Spells whole records) (begins : start <+: whole ++ rest)
    (fed : Decoder.new.feedFrom [] start = .ok (next, kept)) :
    records <+: kept ↔ whole.length ≤ start.length := by
  constructor
  · intro arrived
    by_contra short
    -- the frames go on behind the start, so at least one of their records has not arrived
    obtain ⟨missing, rfl⟩ := List.prefix_of_prefix_length_le begins (List.prefix_append whole rest) (by omega)
    obtain ⟨more, late, rfl⟩ := spells.cut fed
    have open_ : missing ≠ [] := by
      rintro rfl
      simp at short
    have some := List.length_pos_iff.2 (Decoder.records_ne_nil_of_feedFrom open_ late)
    have bound := arrived.length_le
    rw [List.length_append] at bound
    omega
  · intro long
    obtain ⟨more, rfl⟩ := List.prefix_of_prefix_length_le (List.prefix_append whole rest) begins long
    obtain ⟨found, -, rfl⟩ := spells.exists_of_append fed
    exact List.prefix_append records found

/-- A part of something that is no frame shows no error yet. -/
theorem Malformed.unfinished_of_prefix {broken part : Bytes} (malformed : Malformed broken) (start : part <+: broken)
    (short : part.length < broken.length) : part = [] ∨ Unfinished part := by
  by_cases empty : part = []
  · exact .inl empty
  · cases malformed with
    | tag _ whole => exact .inr (.header empty (by simpa [← whole] using short))
    | oversized _ _ => exact .inr (.header empty (by simpa [lengthBytes, headerLength] using short))
    | payload small _ => exact TestIsolation.unfinished_of_prefix small start short

/-- A channel that is read up to a point yields no record behind the opening of something that is no frame. -/
theorem Spells.prefix_of_malformed {whole broken start rest : Bytes} {records kept : List Record} {next : Decoder}
    (spells : Spells whole records) (malformed : Malformed broken) (begins : start <+: whole ++ (broken ++ rest))
    (fed : Decoder.new.feedFrom [] start = .ok (next, kept)) : kept <+: records := by
  by_cases long : whole.length ≤ start.length
  · obtain ⟨part, rfl⟩ := List.prefix_of_prefix_length_le (List.prefix_append whole _) begins long
    obtain ⟨found, later, rfl⟩ := spells.exists_of_append fed
    have inside : part <+: broken ++ rest := (List.prefix_append_right_inj whole).1 begins
    by_cases through : broken.length ≤ part.length
    · obtain ⟨more, rfl⟩ := List.prefix_of_prefix_length_le (List.prefix_append broken rest) inside through
      obtain ⟨e, error⟩ := malformed.feedFrom [] more
      rw [error] at later
      cases later
    · have part_of := List.prefix_of_prefix_length_le inside (List.prefix_append broken rest) (by omega)
      have nothing : found = [] := by
        rcases malformed.unfinished_of_prefix part_of (by omega) with rfl | unfinished
        · cases later
          rfl
        · obtain ⟨d, held, -⟩ := unfinished.feedFrom []
          rw [held] at later
          cases later
          rfl
      simp [nothing]
  · obtain ⟨missing, rfl⟩ := List.prefix_of_prefix_length_le begins (List.prefix_append whole _) (by omega)
    obtain ⟨more, -, rfl⟩ := spells.cut fed
    exact List.prefix_append kept more

/-! ## What a summary tells -/

/-- A summary tells the failures of some records in order, and the last of their phases and requests to be skipped. -/
structure Summary.Tells (s : Summary) (records : List Record) : Prop where
  failures : s.failures = records.filterMap Record.failure?
  skip : s.skip = (records.filterMap Record.skip?).getLast?
  phase : s.phase = (records.filterMap Record.phase?).getLast?

namespace Summary

theorem tells_empty : ({} : Summary).Tells [] := ⟨rfl, rfl, rfl⟩

/-- A summary without a verdict goes on to tell what it absorbs. -/
theorem Tells.absorb {s : Summary} {records : List Record} (tells : s.Tells records) (clean : s.violation = none)
    (undecided : s.terminal = none) {r : Record} (other : r.isTerminal = false) :
    (s.absorb r).Tells (records ++ [r]) := by
  obtain ⟨failures, skip, phase⟩ := tells
  cases r with
  | terminal v => simp [Record.isTerminal] at other
  | phase p =>
    constructor <;> simp [Summary.absorb, clean, undecided, failures, skip, Record.failure?, Record.skip?,
      Record.phase?]
  | failure f =>
    constructor <;> simp [Summary.absorb, clean, undecided, failures, skip, phase, Record.failure?, Record.skip?,
      Record.phase?]
  | skip n =>
    constructor <;> simp [Summary.absorb, clean, undecided, failures, phase, Record.failure?, Record.skip?,
      Record.phase?]

theorem Tells.absorbAll {s : Summary} {records : List Record} (tells : s.Tells records) (clean : s.violation = none)
    (undecided : s.terminal = none) {more : List Record} (others : ∀ r ∈ more, r.isTerminal = false) :
    (s.absorbAll more).Tells (records ++ more) := by
  induction more generalizing s records with
  | nil => simpa [Summary.absorbAll] using tells
  | cons r more ih =>
    obtain ⟨clean', undecided', -, -⟩ := absorb_open (others r (by simp)) clean undecided
    have told := ih (tells.absorb clean undecided (others r (by simp))) clean' undecided'
      fun r mem => others r (by simp [mem])
    simpa [Summary.absorbAll] using told

/-- After the verdict a summary tells nothing new. -/
theorem Tells.absorbAll_of_terminal {s : Summary} {records : List Record} (tells : s.Tells records)
    (decided : s.terminal.isSome) (more : List Record) : (s.absorbAll more).Tells records := by
  induction more generalizing s with
  | nil => exact tells
  | cons r more ih =>
    have next : (s.absorb r).Tells records ∧ (s.absorb r).terminal.isSome := by
      unfold Summary.absorb
      split_ifs
      · exact ⟨tells, decided⟩
      · exact ⟨⟨tells.failures, tells.skip, tells.phase⟩, decided⟩
    exact ih next.1 next.2

/-- Records are told up to the first verdict. -/
theorem tells_absorbAll (records : List Record) :
    (({} : Summary).absorbAll records).Tells (records.takeWhile (!·.isTerminal)) := by
  rcases exists_first_terminal records with none_ | ⟨before, v, after, rfl, none_⟩
  · rw [List.takeWhile_eq_self_iff.2 (by simpa using none_)]
    exact tells_empty.absorbAll rfl rfl none_
  · obtain ⟨clean, decided, -, -⟩ := absorbAll_verdict none_ v
    have told := tells_empty.absorbAll rfl rfl none_
    rw [List.takeWhile_append_of_pos (by simpa using none_), List.takeWhile_cons_of_neg (by simp [Record.isTerminal]),
      List.append_nil, List.append_cons, absorbAll_append]
    refine Tells.absorbAll_of_terminal ?_ (by simp [decided]) after
    rw [absorbAll_append]
    obtain ⟨clean, undecided, -, -⟩ := absorbAll_open none_ (s := {}) rfl rfl
    simp only [absorbAll, List.foldl_cons, List.foldl_nil, List.nil_append] at told clean undecided ⊢
    exact ⟨by simpa [absorb, clean, undecided] using told.failures,
      by simpa [absorb, clean, undecided] using told.skip, by simpa [absorb, clean, undecided] using told.phase⟩

theorem Tells.corrupt {s : Summary} {records : List Record} (tells : s.Tells records) (e : ChannelError) :
    (s.corrupt e).Tells records :=
  ⟨tells.failures, tells.skip, tells.phase⟩

theorem violation_corrupt (s : Summary) (e : ChannelError) : (s.corrupt e).violation.isSome := by
  unfold corrupt
  cases s.violation <;> rfl

/-- Once there is a violation, an error of the channel adds nothing. -/
theorem corrupt_of_violation {s : Summary} (h : s.violation.isSome) (e : ChannelError) : s.corrupt e = s := by
  obtain ⟨violation, eq⟩ := Option.isSome_iff_exists.1 h
  have same : (s.violation <|> some (.corrupt e)) = s.violation := by rw [eq]; rfl
  simp only [corrupt, same]

end Summary

/-- Items that all pass are at the start of a list exactly if they are at the start of what passes first. -/
theorem prefix_takeWhile_iff {α : Type} {p : α → Bool} {a l : List α} (pass : ∀ x ∈ a, p x = true) :
    a <+: l.takeWhile p ↔ a <+: l := by
  constructor
  · intro start
    exact start.trans (List.takeWhile_prefix p)
  · rintro ⟨rest, rfl⟩
    rw [List.takeWhile_append_of_pos pass]
    exact List.prefix_append a _

/-! ## Reads -/

/-- Reads that hold an error are taken up to the read that shows it. -/
theorem Reception.takeAll_of_rejected {d : Decoder} (reading : d.isReading) (s : Summary) {reads : List Bytes}
    {e : ChannelError} (rejected : d.feedFrom [] reads.flatten = .error e) :
    ∃ early read later next kept, reads = early ++ read :: later ∧
      d.feedFrom [] early.flatten = .ok (next, kept) ∧ (next.feed read).2 = .error e ∧
      ((⟨d, s⟩ : Reception).takeAll reads).summary = (s.absorbAll kept).corrupt e := by
  induction reads generalizing d s with
  | nil => cases rejected
  | cons read reads ih =>
    rw [List.flatten_cons, Decoder.feedFrom_append] at rejected
    cases fed : d.feedFrom [] read with
    | error e' =>
      simp only [fed] at rejected
      cases rejected
      refine ⟨[], read, reads, d, [], rfl, rfl, (Decoder.feed_eq_error_iff reading).2 fed, ?_⟩
      by_cases violated : s.violation.isSome
      · rw [takeAll_of_violation violated, Summary.absorbAll, List.foldl_nil, Summary.corrupt_of_violation violated]
      · simp only [takeAll, List.foldl_cons]
        rw [take_of_clean reading (by simpa using violated), fed]
        exact congrArg Reception.summary (takeAll_of_violation (s.violation_corrupt e) reads)
    | ok after =>
      obtain ⟨middle, first⟩ := after
      simp only [fed] at rejected
      obtain ⟨early, shown, later, next, kept, rfl, fed', shows, taken⟩ := ih (Decoder.isReading_feedFrom reading fed)
        (s.absorbAll first) (Decoder.feedFrom_eq_error_iff.1 rejected)
      refine ⟨read :: early, shown, later, next, first ++ kept, rfl, ?_, shows, ?_⟩
      · exact Decoder.feedFrom_append_eq_ok_iff.2 ⟨middle, first, kept, fed, fed', rfl⟩
      · rw [Summary.absorbAll_append, ← taken]
        by_cases violated : s.violation.isSome
        · rw [takeAll_of_violation violated, takeAll_of_violation] <;>
            simp [Summary.absorbAll_of_violation violated, violated]
        · simp only [takeAll, List.foldl_cons]
          rw [take_of_clean reading (by simpa using violated), fed]

/-- **Corruption costs the read that shows it.** Frames of records that are no verdict are followed by bytes that the
decoder rejects, and the channel comes cut into reads. Some read is the first that is rejected. What the earlier reads
hold is told, and a violation: every failure in order, and the last request to be skipped and the last phase. A record
of the list is among it exactly if its frame ends in an earlier read, so nothing of the list is lost if all of its
frames do; and nothing else is told if what follows them opens with no frame. -/
theorem told_before_corruption {records : List Record} {frames : List Bytes} {bad : Bytes} {e : ChannelError}
    (encoded : List.Forall₂ (fun r bytes => r.encode = .ok bytes) records frames)
    (others : ∀ r ∈ records, r.isTerminal = false) (rejected : (Decoder.new.feed bad).2 = .error e)
    {reads : List Bytes} (cut : reads.flatten = frames.flatten ++ bad) :
    ∃ early read later next kept, reads = early ++ read :: later ∧ Decoder.new.feedAll early = .ok (next, kept) ∧
      (next.feed read).2 = .error e ∧
      (({} : Reception).takeAll reads).final.Tells (kept.takeWhile (!·.isTerminal)) ∧
      (({} : Reception).takeAll reads).final.violation.isSome ∧
      (∀ n ≤ records.length, records.take n <+: kept.takeWhile (!·.isTerminal) ↔
        (frames.take n).flatten.length ≤ early.flatten.length) ∧
      ((∃ broken after, bad = broken ++ after ∧ Malformed broken) → kept <+: records) := by
  have spells := spells_frames encoded
  have whole : Decoder.new.feedFrom [] reads.flatten = .error e := by
    rw [cut, spells.feedFrom, Decoder.feedFrom_eq_error_iff]
    exact (Decoder.feed_eq_error_iff Decoder.isReading_new).1 rejected
  obtain ⟨early, read, later, next, kept, rfl, fed, shows, taken⟩ :=
    Reception.takeAll_of_rejected Decoder.isReading_new {} whole
  have start : early.flatten <+: frames.flatten ++ bad := ⟨(read :: later).flatten, by rw [← cut, List.flatten_append]⟩
  refine ⟨early, read, later, next, kept, rfl, ?_, shows, ?_, ?_, ?_, ?_⟩
  · rw [Decoder.feedAll_eq Decoder.isReading_new, fed]
  · have told := (Summary.tells_absorbAll kept).corrupt e
    rw [← taken] at told
    exact ⟨told.failures, told.skip, told.phase⟩
  · have violated := Summary.violation_corrupt (({} : Summary).absorbAll kept) e
    rwa [← taken] at violated
  · intro n _
    have begins : early.flatten <+: (frames.take n).flatten ++ ((frames.drop n).flatten ++ bad) := by
      rwa [← List.append_assoc, ← List.flatten_append, List.take_append_drop]
    rw [← (spells_frames (List.forall₂_take n encoded)).prefix_iff begins fed]
    exact prefix_takeWhile_iff fun r mem => by simp [others r (List.mem_of_mem_take mem)]
  · rintro ⟨broken, after, rfl, malformed⟩
    exact spells.prefix_of_malformed malformed start fed

/-- A failure and a marker, where the marker's frame is cut in two and its end comes with bytes that are no frame. -/
theorem told_before_corruption_marker :
    let failure : Record := .failure ⟨"a == b", ⟨"t.rs", 7, "f"⟩, "unequal", false⟩
    let first := frame (Bytes.ofString failure.payload)
    let second := frame (Bytes.ofString (Record.phase .teardown).payload)
    let bad : Bytes := [0, 0, 0, 0, 0, 0]
    let reads := [first, second.take 4, second.drop 4 ++ bad]
    ∃ early read later next kept, reads = early ++ read :: later ∧ Decoder.new.feedAll early = .ok (next, kept) ∧
      (next.feed read).2 = .error (.badTag 0) ∧ (({} : Reception).takeAll reads).final.Tells [failure] ∧
      (({} : Reception).takeAll reads).final.violation.isSome ∧
      ([failure] <+: kept.takeWhile (!·.isTerminal) ↔ first.length ≤ early.flatten.length) ∧
      kept <+: [failure, .phase .teardown] := by
  intro failure first second bad reads
  have one : failure.encode = .ok first := by decide +kernel
  have two : (Record.phase .teardown).encode = .ok second := by decide +kernel
  have rejected : (Decoder.new.feed bad).2 = .error (.badTag 0) := by decide +kernel
  have cut : reads.flatten = [first, second].flatten ++ bad := by decide +kernel
  have broken : ∃ broken after, bad = broken ++ after ∧ Malformed broken :=
    ⟨[0, 0, 0, 0, 0], [0], rfl, .tag (by decide) (by decide)⟩
  obtain ⟨early, read, later, next, kept, split, fed, shows, -, violated, arrived, nothing⟩ :=
    told_before_corruption (.cons one (.cons two .nil)) (by decide) rejected cut
  -- One evaluation of the reads shows all that they tell.
  obtain ⟨failures, skip, phase⟩ :
      (({} : Reception).takeAll reads).final.failures = [failure].filterMap Record.failure? ∧
        (({} : Reception).takeAll reads).final.skip = none ∧ (({} : Reception).takeAll reads).final.phase = none := by
    decide +kernel
  refine ⟨early, read, later, next, kept, split, fed, shows, ⟨failures, skip, phase⟩, violated, ?_, nothing broken⟩
  simpa using arrived 1 (by decide)

/-- A failure that comes in the same read as bytes that are no frame is lost. In a read of its own it is told. -/
theorem failure_lost_to_corruption :
    let failure : Failure := ⟨"a == b", ⟨"t.rs", 7, "f"⟩, "unequal", false⟩
    let bytes := frame (Bytes.ofString (Record.failure failure).payload)
    let bad := Bytes.ofString "xxxxx"
    (Record.failure failure).encode = .ok bytes ∧ (Decoder.new.feed bad).2 = .error (.badTag 120) ∧
      (({} : Reception).takeAll [bytes ++ bad]).final.failures = [] ∧
      (({} : Reception).takeAll [bytes, bad]).final.failures = [failure] := by
  decide +kernel

end TestIsolation
