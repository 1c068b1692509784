import Mathlib.Data.List.Induction
import TestIsolation.Proofs.Outcome.Buffering
import TestIsolation.Proofs.Schedule.Reception

/-!
# What the scheduler keeps of a channel

A unit writes what it likes to its outcome channel, and a frame may announce more than ever comes. What a reader holds
back is short of one frame (`pending_lt`), and a reception adds at most the read in which it met an error
(`Reception.pending_lt`), so a unit cannot make the scheduler keep more than one frame and one read.
-/

namespace TestIsolation

set_option autoImplicit false

/-- Bytes that were read without an error leave less than the largest frame. -/
theorem Decoder.pending_lt {bytes : Bytes} {d : Decoder} {records : List Record}
    (fed : Decoder.new.feedFrom [] bytes = .ok (d, records)) : d.pending < maxPayload + headerLength := by
  obtain ⟨_, _, _, rest, _⟩ := Decoder.exists_frames fed
  rw [Decoder.pending_eq]
  rcases rest with none_ | unfinished
  · rw [none_]
    decide
  · exact unfinished.length_lt

/-- The next read of a reader is a read of its buffer. -/
theorem Buffer.feed_held {bytes : Bytes} {d : Decoder} {records : List Record}
    (fed : Decoder.new.feedFrom [] bytes = .ok (d, records)) (chunk : Bytes) :
    Buffer.feed d.held chunk =
      match d.feed chunk with
      | (next, .ok found) => .ok (next.held, found)
      | (_, .error e) => .error (.refused e) := by
  obtain ⟨_, _, _, _, again⟩ := Decoder.exists_frames fed
  have reading := Decoder.isReading_feedFrom Decoder.isReading_new fed
  rw [Buffer.feed_eq, Decoder.feedFrom_append, again, Decoder.feed_of_isReading reading]
  dsimp only [List.reverse_nil]
  cases d.feedFrom [] chunk <;> rfl

namespace Reception

/-- A reception keeps less than the largest frame and one read. -/
theorem pending_lt {reads : List Bytes} {size : Nat} (cut : ∀ read ∈ reads, read.length ≤ size) :
    (({} : Reception).takeAll reads).decoder.pending < maxPayload + headerLength + size := by
  induction reads using List.reverseRecOn with
  | nil => exact Nat.lt_of_lt_of_le (by decide) (Nat.le_add_right _ _)
  | append_singleton reads read ih =>
    have earlier := ih fun other mem => cut other (List.mem_append_left _ mem)
    have last := cut read (List.mem_append_right _ List.mem_cons_self)
    rw [takeAll, List.foldl_append]
    change ((takeAll {} reads).take read).decoder.pending < _
    by_cases violated : (takeAll {} reads).summary.violation.isSome
    · rwa [take, if_pos violated]
    · rw [Bool.not_eq_true, Option.isSome_eq_false_iff, Option.isNone_iff_eq_none] at violated
      obtain ⟨d, records, fed, taken⟩ := takeAll_of_clean Decoder.isReading_new reads violated
      rw [taken] at violated ⊢
      rw [take_of_clean (Decoder.isReading_feedFrom Decoder.isReading_new fed) violated]
      cases more : d.feedFrom [] read with
      | ok after =>
        have all := Decoder.feedFrom_append_eq_ok_iff.2 ⟨d, records, after.2, fed, more, rfl⟩
        exact Nat.lt_of_lt_of_le (Decoder.pending_lt all) (Nat.le_add_right _ _)
      | error e =>
        have held := Decoder.pending_lt fed
        rw [Decoder.pending_eq] at held ⊢
        simp only [Decoder.held, Decoder.heldNewestFirst, List.length_reverse, List.length_append] at held ⊢
        omega

end Reception

/-- **A reader holds back a part of one frame and nothing else.** However bytes are cut into reads, if none of the reads
held an error then the frames of the records found and the bytes held back are all bytes read. Those held back are
nothing or short of one frame: no whole frame stands at their start, and they are fewer than the bytes of the largest
one. They are all that the next read needs, which appends its bytes to them and looks for frames from the front: it
finds the same records, holds the same bytes back or meets the same error, and never looks beyond the end of a buffer,
whatever that holds. A reception, which also meets errors, keeps less than the largest frame and one read. -/
theorem part_of_frame_held (reads : List Bytes) :
    (∀ d records, Decoder.new.feedAll reads = .ok (d, records) →
      (∃ frames, Spells frames records ∧ reads.flatten = frames ++ d.held) ∧
        (d.held = [] ∨ Unfinished d.held) ∧
        (∀ payload, payload.length < UInt32.size → ¬frame payload <+: d.held) ∧
        d.pending = d.held.length ∧ d.pending < maxPayload + headerLength ∧
        ∀ chunk, Buffer.feed d.held chunk =
          match d.feed chunk with
          | (next, .ok found) => .ok (next.held, found)
          | (_, .error e) => .error (.refused e)) ∧
      (∀ held chunk, Buffer.feed held chunk ≠ .error .outOfRange) ∧
      ∀ size, (∀ read ∈ reads, read.length ≤ size) →
        (({} : Reception).takeAll reads).decoder.pending < maxPayload + headerLength + size := by
  refine ⟨?_, ?_, fun size cut => Reception.pending_lt cut⟩
  · intro d records fed
    rw [Decoder.feedAll_eq Decoder.isReading_new] at fed
    obtain ⟨frames, split, spells, rest, _⟩ := Decoder.exists_frames fed
    refine ⟨⟨frames, spells, split⟩, rest, ?_, d.pending_eq, Decoder.pending_lt fed, Buffer.feed_held fed⟩
    intro payload word
    rcases rest with none_ | unfinished
    · simp [none_, frame]
    · exact unfinished.not_prefix word
  · intro held chunk
    rw [Buffer.feed_eq]
    cases Decoder.new.feedFrom [] (held ++ chunk) <;> simp

/-- A marker, and a header that announces a payload of 100 bytes of which only another marker comes. The header is cut
in two. The marker inside is a part of the payload, and none of its bytes is read as a frame. -/
theorem part_of_frame_held_marker :
    let marker := frame (Bytes.ofString (Record.phase .exec).payload)
    let reads := [marker ++ [0xC7, 100], [0, 0, 0] ++ marker]
    ∃ d, Decoder.new.feedAll reads = .ok (d, [.phase .exec]) ∧ d.held = [0xC7, 100, 0, 0, 0] ++ marker ∧
      ¬frame [] <+: d.held ∧ d.pending < maxPayload + headerLength ∧
      (({} : Reception).takeAll reads).decoder.pending < maxPayload + headerLength + 64 := by
  intro marker reads
  have fed : Decoder.new.feedAll reads =
      .ok (.payload [0, 0, 0, 100, 0xC7] marker.reverse (100 - marker.length), [.phase .exec]) := by decide +kernel
  obtain ⟨held, _, bounded⟩ := part_of_frame_held reads
  obtain ⟨_, _, whole, _, small, _⟩ := held _ _ fed
  have cut : ∀ read ∈ reads, read.length ≤ 64 := by decide +kernel
  exact ⟨_, fed, by decide +kernel, whole [] (by decide), small, bounded 64 cut⟩

end TestIsolation
