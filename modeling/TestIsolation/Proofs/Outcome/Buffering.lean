import TestIsolation.Proofs.Outcome.Chunking

/-!
# What a reader holds back

Bytes read without an error are whole frames and the bytes held back, which are nothing or a part of one frame
(`Decoder.exists_frames`). So they can be read again from nothing: a reader may keep its bytes in a buffer, append each
read to them and look for frames from the front. `Buffer.feed` does so with slices that are checked against the buffer,
and comes to what reading byte by byte comes to, so no slice is ever out of range (`Buffer.feed_eq`).
-/

namespace TestIsolation

set_option autoImplicit false

/-! ## Parts of a frame -/

theorem length_frame (payload : Bytes) : (frame payload).length = headerLength + payload.length := by
  simp only [frame, lengthBytes, headerLength, List.length_cons, List.length_append, List.length_nil]
  omega

theorem lengthBytes_inj {m n : Nat} (word : m < UInt32.size) (word' : n < UInt32.size)
    (same : lengthBytes m = lengthBytes n) : m = n := by
  simp only [lengthBytes, List.cons.injEq] at same
  obtain ⟨b0, b1, b2, b3, _⟩ := same
  rw [← lengthBytes_toNat word, ← lengthBytes_toNat word', b0, b1, b2, b3]

/-- A part of a frame is shorter than the largest frame. -/
theorem Unfinished.length_lt {part : Bytes} (unfinished : Unfinished part) :
    part.length < maxPayload + headerLength := by
  cases unfinished with
  | header _ short => omega
  | payload small short =>
    simp only [lengthBytes, headerLength, List.length_cons, List.length_append, List.length_nil]
    omega

/-- A part of a frame does not start with a whole one. -/
theorem Unfinished.not_prefix {part payload : Bytes} (unfinished : Unfinished part)
    (word : payload.length < UInt32.size) : ¬frame payload <+: part := by
  intro whole
  cases unfinished with
  | header _ short =>
    have bound := whole.length_le
    rw [length_frame] at bound
    omega
  | @payload n body small short =>
    have limit : maxPayload = 1048576 := rfl
    have size : UInt32.size = 4294967296 := rfl
    obtain ⟨rest, split⟩ := whole
    rw [frame, List.cons_append, List.cons.injEq, List.append_assoc] at split
    obtain ⟨header, inside⟩ := List.append_inj split.2 rfl
    have same := lengthBytes_inj word (by omega) header
    have longer := congrArg List.length inside
    rw [List.length_append] at longer
    omega

/-! ## The bytes held back -/

namespace Decoder

theorem pending_eq (d : Decoder) : d.pending = d.held.length := by
  cases d <;> simp [pending, held, heldNewestFirst, Nat.add_comm]

theorem held_step {d next : Decoder} {b : UInt8} (stepped : d.step b = .ok (next, none)) :
    next.held = d.held ++ [b] := by
  cases takes_of_step stepped <;> simp [held, heldNewestFirst]

/-- Bytes that complete no frame are held. -/
theorem held_feedFrom {d next : Decoder} {bytes : Bytes} (fed : d.feedFrom [] bytes = .ok (next, [])) :
    next.held = d.held ++ bytes := by
  induction bytes generalizing d with
  | nil =>
    cases fed
    rw [List.append_nil]
  | cons b bytes ih =>
    simp only [feedFrom] at fed
    cases stepped : d.step b with
    | error e => simp [stepped] at fed
    | ok after =>
      obtain ⟨d', record⟩ := after
      simp only [stepped, List.append_nil] at fed
      rw [feedFrom_found] at fed
      cases later : d'.feedFrom [] bytes with
      | error e => simp [later, Except.map] at fed
      | ok last =>
        obtain ⟨last, more⟩ := last
        simp only [later, Except.map, Except.ok.injEq, Prod.mk.injEq, List.append_eq_nil_iff,
          List.reverse_eq_nil_iff] at fed
        obtain ⟨rfl, none_, rfl⟩ := fed
        cases record with
        | some r => cases none_
        | none => rw [ih later, held_step stepped, List.append_assoc, List.singleton_append]

end Decoder

/-- A part of a frame is held back whole, whatever was found before. -/
theorem Unfinished.kept {part : Bytes} (unfinished : Unfinished part) :
    ∃ d : Decoder, d.held = part ∧ ∀ found, Decoder.new.feedFrom found part = .ok (d, found.reverse) := by
  obtain ⟨d, fed, _⟩ := unfinished.feedFrom []
  refine ⟨d, Decoder.held_feedFrom fed, fun found => ?_⟩
  rw [Decoder.feedFrom_found, fed]
  simp [Except.map]

/-- **Whole frames and a part of one.** Bytes that were read without an error are the frames of the records found, and
then the bytes held back. -/
theorem Decoder.exists_frames {bytes : Bytes} {d : Decoder} {records : List Record}
    (fed : Decoder.new.feedFrom [] bytes = .ok (d, records)) :
    ∃ frames, bytes = frames ++ d.held ∧ Spells frames records ∧ (d.held = [] ∨ Unfinished d.held) ∧
      Decoder.new.feedFrom [] d.held = .ok (d, []) := by
  obtain ⟨frames, found, rest, rfl, spells, kind⟩ := exists_reading bytes
  rw [spells.feedFrom, List.append_nil] at fed
  rcases kind with rfl | unfinished | ⟨bad, after, rfl, malformed⟩
  · simp only [feedFrom, List.reverse_reverse, Except.ok.injEq, Prod.mk.injEq] at fed
    obtain ⟨rfl, rfl⟩ := fed
    exact ⟨frames, rfl, spells, .inl rfl, rfl⟩
  · obtain ⟨part, held, kept⟩ := unfinished.kept
    rw [kept, List.reverse_reverse, Except.ok.injEq, Prod.mk.injEq] at fed
    obtain ⟨rfl, rfl⟩ := fed
    rw [held]
    exact ⟨frames, rfl, spells, .inr unfinished, kept []⟩
  · obtain ⟨e, refused⟩ := malformed.feedFrom found.reverse after
    rw [refused] at fed
    cases fed

/-! ## A buffer -/

namespace Buffer

/-- The bytes of a buffer between two positions. There are none if the positions are out of order or beyond its end. -/
def slice? (buffer : Bytes) (first last : Nat) : Option Bytes :=
  if first ≤ last ∧ last ≤ buffer.length then some ((buffer.drop first).take (last - first)) else none

/-- Why a search for frames stops before the buffer's end. -/
inductive Stop where
  /-- A position beyond the buffer's end. -/
  | outOfRange
  | refused (error : ChannelError)
  deriving DecidableEq, Repr

/-- The number that four bytes stand for, the lowest first. -/
def number (b0 b1 b2 b3 : UInt8) : Nat := b0.toNat + b1.toNat <<< 8 + b2.toNat <<< 16 + b3.toNat <<< 24

/-- The frame that starts at a position with a whole header: where it ends and its record, unless it is unfinished. -/
def frameAt (buffer : Bytes) (offset : Nat) : Except Stop (Option (Nat × Record)) :=
  match slice? buffer offset (offset + headerLength) with
  | some [tag, b0, b1, b2, b3] =>
    let length := number b0 b1 b2 b3
    let last := offset + headerLength + length
    if tag ≠ frameTag then .error (.refused (.badTag tag))
    else if length > maxPayload then .error (.refused (.oversized length))
    else if buffer.length < last then .ok none
    else
      match slice? buffer (offset + headerLength) last with
      | none => .error .outOfRange
      | some payload =>
        match Record.ofPayload? payload with
        | none => .error (.refused .malformed)
        | some r => .ok (some (last, r))
  | _ => .error .outOfRange

theorem bounds_of_frameAt {buffer : Bytes} {offset last : Nat} {r : Record}
    (found : frameAt buffer offset = .ok (some (last, r))) : offset < last ∧ last ≤ buffer.length := by
  unfold frameAt at found
  split at found
  · simp only at found
    split_ifs at found with wrong large more
    · cases found
    · split at found
      · cases found
      · split at found
        · cases found
        · simp only [Except.ok.injEq, Option.some.injEq, Prod.mk.injEq] at found
          rw [← found.1]
          simp only [headerLength] at *
          omega
  · cases found

/-- The frames from a position on: where the last of them ends, and the records, of which those found before are held
newest first. -/
def scan (buffer : Bytes) (offset : Nat) (found : List Record) : Except Stop (Nat × List Record) :=
  if buffer.length < offset then .error .outOfRange
  else if buffer.length - offset < headerLength then .ok (offset, found.reverse)
  else
    match _h : frameAt buffer offset with
    | .error e => .error e
    | .ok none => .ok (offset, found.reverse)
    | .ok (some (last, r)) => scan buffer last (r :: found)
termination_by buffer.length - offset
decreasing_by
  have bounds := bounds_of_frameAt _h
  omega

/-- One read: the bytes that are left in the buffer, and the records of the frames that were taken out of it. -/
def feed (held chunk : Bytes) : Except Stop (Bytes × List Record) :=
  let buffer := held ++ chunk
  match scan buffer 0 [] with
  | .error e => .error e
  | .ok (offset, records) => if offset ≤ buffer.length then .ok (buffer.drop offset, records) else .error .outOfRange

theorem slice?_eq {buffer : Bytes} {first count : Nat} (inside : first + count ≤ buffer.length) :
    slice? buffer first (first + count) = some ((buffer.drop first).take count) := by
  rw [slice?, if_pos ⟨Nat.le_add_right _ _, inside⟩, Nat.add_sub_cancel_left]

theorem number_of_eq {b0 b1 b2 b3 : UInt8} {n : Nat} (word : n < UInt32.size) (eq : [b0, b1, b2, b3] = lengthBytes n) :
    number b0 b1 b2 b3 = n := by
  simp only [lengthBytes, List.cons.injEq] at eq
  obtain ⟨rfl, rfl, rfl, rfl, _⟩ := eq
  exact lengthBytes_toNat word

theorem exists_header {buffer : Bytes} {offset : Nat} (inside : offset + headerLength ≤ buffer.length) :
    ∃ tag b0 b1 b2 b3 more, buffer.drop offset = tag :: b0 :: b1 :: b2 :: b3 :: more ∧
      slice? buffer offset (offset + headerLength) = some [tag, b0, b1, b2, b3] := by
  rw [slice?_eq inside]
  have enough : headerLength ≤ (buffer.drop offset).length := by
    rw [List.length_drop]
    omega
  match buffer.drop offset, enough with
  | tag :: b0 :: b1 :: b2 :: b3 :: more, _ => exact ⟨tag, b0, b1, b2, b3, more, rfl, rfl⟩

/-- One frame of the buffer is what reading byte by byte comes to. -/
theorem frameAt_spec (buffer : Bytes) (offset : Nat) (found : List Record)
    (inside : offset + headerLength ≤ buffer.length) :
    match frameAt buffer offset with
    | .error stop => ∃ e, stop = .refused e ∧ Decoder.new.feedFrom found (buffer.drop offset) = .error e
    | .ok none => ∃ d, Decoder.new.feedFrom found (buffer.drop offset) = .ok (d, found.reverse) ∧
        d.held = buffer.drop offset
    | .ok (some (last, r)) =>
        Decoder.new.feedFrom found (buffer.drop offset) = Decoder.new.feedFrom (r :: found) (buffer.drop last) := by
  obtain ⟨tag, b0, b1, b2, b3, more, split, header⟩ := exists_header inside
  obtain ⟨n, word, eq⟩ := exists_lengthBytes b0 b1 b2 b3
  have length : buffer.length = offset + headerLength + more.length := by
    have whole := congrArg List.length split
    simp only [List.length_drop, List.length_cons] at whole
    simp only [headerLength] at inside ⊢
    omega
  simp only [frameAt, header, number_of_eq word eq]
  by_cases wrong : tag = frameTag
  · subst wrong
    have own : buffer.drop offset = frameTag :: (lengthBytes n ++ more) := by
      rw [split, ← eq]
      rfl
    by_cases large : n > maxPayload
    · rw [if_neg (not_not_intro rfl), if_pos large]
      refine ⟨_, rfl, ?_⟩
      have opened := Decoder.openFrame_lengthBytes word
      rw [if_pos large, ← eq] at opened
      rw [split, Decoder.feedFrom_header]
      simp only [List.reverse_cons, List.reverse_nil, List.nil_append, List.cons_append] at opened
      rw [opened]
    · by_cases short : buffer.length < offset + headerLength + n
      · rw [if_neg (not_not_intro rfl), if_neg large, if_pos short, own]
        have unfinished : Unfinished (frameTag :: (lengthBytes n ++ more)) := .payload (by omega) (by omega)
        obtain ⟨d, held, kept⟩ := unfinished.kept
        exact ⟨d, kept found, held⟩
      · rw [if_neg (not_not_intro rfl), if_neg large, if_neg short]
        have payload : (more.take n).length = n := List.length_take_of_le (by omega)
        have rest : buffer.drop (offset + headerLength) = more := by
          rw [← List.drop_drop, split]
          rfl
        have framed : buffer.drop offset = frame (more.take n) ++ buffer.drop (offset + headerLength + n) := by
          rw [← List.drop_drop, rest, own, frame, payload, List.cons_append, List.append_assoc, List.take_append_drop]
        rw [slice?_eq (by omega), rest, framed, Decoder.feedFrom_frame (by omega)]
        dsimp only
        cases Record.ofPayload? (more.take n) with
        | none => exact ⟨_, rfl, rfl⟩
        | some r => rfl
  · rw [if_pos wrong]
    refine ⟨_, rfl, ?_⟩
    rw [split, Decoder.feedFrom_header]
    simp [Decoder.openFrame, wrong]

/-- All frames of the buffer are what reading byte by byte comes to. -/
theorem scan_spec (buffer : Bytes) (offset : Nat) (found : List Record) (inside : offset ≤ buffer.length) :
    match scan buffer offset found with
    | .error stop => ∃ e, stop = .refused e ∧ Decoder.new.feedFrom found (buffer.drop offset) = .error e
    | .ok (last, records) => last ≤ buffer.length ∧
        ∃ d, Decoder.new.feedFrom found (buffer.drop offset) = .ok (d, records) ∧ d.held = buffer.drop last := by
  fun_induction scan buffer offset found with
  | case1 offset found outside => exact absurd outside (by omega)
  | case2 offset found _ short =>
    have length : (buffer.drop offset).length < headerLength := by rwa [List.length_drop]
    refine ⟨inside, _, Decoder.feedFrom_short found (buffer.drop offset) [] (by simpa using length), ?_⟩
    simp [Decoder.held, Decoder.heldNewestFirst]
  | case3 offset found _ long stop stopped =>
    have round := frameAt_spec buffer offset found (by omega)
    rwa [stopped] at round
  | case4 offset found _ long more =>
    have round := frameAt_spec buffer offset found (by omega)
    rw [more] at round
    exact ⟨inside, round⟩
  | case5 offset found _ long last r whole ih =>
    have round := frameAt_spec buffer offset found (by omega)
    rw [whole] at round
    rw [round]
    exact ih (bounds_of_frameAt whole).2

/-- **A read with a buffer is a read byte by byte.** It is refused for the same errors, and no position is beyond the
buffer's end. -/
theorem feed_eq (held chunk : Bytes) :
    feed held chunk =
      match Decoder.new.feedFrom [] (held ++ chunk) with
      | .ok (d, records) => .ok (d.held, records)
      | .error e => .error (.refused e) := by
  have scanned := scan_spec (held ++ chunk) 0 [] (Nat.zero_le _)
  rw [feed]
  simp only [List.drop_zero] at scanned ⊢
  cases outcome : scan (held ++ chunk) 0 [] with
  | error stop =>
    rw [outcome] at scanned
    obtain ⟨e, rfl, refused⟩ := scanned
    simp [refused]
  | ok result =>
    rw [outcome] at scanned
    obtain ⟨inside, d, fed, held⟩ := scanned
    simp only [fed, held, if_pos inside]

end Buffer

end TestIsolation
