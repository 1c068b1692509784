import Mathlib.Data.List.Forall2
import TestIsolation.Proofs.Outcome.Framing

/-!
# Reading a channel in pieces

A channel reaches its reader cut into reads. `Decoder.feedAll` takes them in turn, and comes to what one read of all the
bytes comes to (`feedAll_eq`). So decoding undoes encoding however the bytes are cut (`feedAll_frames`).
-/

namespace TestIsolation

set_option autoImplicit false

namespace Decoder

/-- No read held an error yet. -/
def isReading : Decoder → Prop
  | stuck _ _ => False
  | _ => True

theorem isReading_new : new.isReading := trivial

/-- Several reads in turn, up to the first that holds an error: the reader after them and all records. -/
def feedAll (d : Decoder) : List Bytes → Except ChannelError (Decoder × List Record)
  | [] => .ok (d, [])
  | chunk :: rest =>
    match d.feed chunk with
    | (_, .error e) => .error e
    | (next, .ok records) => (feedAll next rest).map fun (last, more) => (last, records ++ more)

theorem isReading_step {d next : Decoder} {b : UInt8} {record : Option Record}
    (stepped : d.step b = .ok (next, record)) : next.isReading := by
  cases takes_of_step stepped <;> trivial

theorem isReading_feedFrom {bytes : Bytes} {d next : Decoder} {found records : List Record} (reading : d.isReading)
    (h : d.feedFrom found bytes = .ok (next, records)) : next.isReading := by
  induction bytes generalizing d found with
  | nil =>
    cases h
    exact reading
  | cons b bytes ih =>
    simp only [feedFrom] at h
    cases stepped : d.step b with
    | error e => simp [stepped] at h
    | ok after =>
      obtain ⟨d', record⟩ := after
      simp only [stepped] at h
      exact ih (isReading_step stepped) h

/-- Records found before are kept in front. -/
theorem feedFrom_found (d : Decoder) (found : List Record) (bytes : Bytes) :
    d.feedFrom found bytes = (d.feedFrom [] bytes).map fun (next, records) => (next, found.reverse ++ records) := by
  induction bytes generalizing d found with
  | nil => simp [feedFrom, Except.map]
  | cons b bytes ih =>
    simp only [feedFrom]
    cases d.step b with
    | error e => rfl
    | ok after =>
      obtain ⟨next, record⟩ := after
      simp only
      rw [ih next (record.toList ++ found), ih next (record.toList ++ [])]
      cases next.feedFrom [] bytes with
      | error e => rfl
      | ok last => cases record <;> simp [Except.map]

/-- Bytes in two parts are read without an error if both parts are, the second where the first ended. -/
theorem feedFrom_append_eq_ok_iff {d last : Decoder} {a b : Bytes} {records : List Record} :
    d.feedFrom [] (a ++ b) = .ok (last, records) ↔
      ∃ next first second, d.feedFrom [] a = .ok (next, first) ∧ next.feedFrom [] b = .ok (last, second) ∧
        records = first ++ second := by
  rw [feedFrom_append]
  cases d.feedFrom [] a with
  | error e => simp
  | ok after =>
    obtain ⟨next, first⟩ := after
    simp only
    rw [feedFrom_found next first.reverse, List.reverse_reverse]
    constructor
    · intro h
      cases fed : next.feedFrom [] b with
      | error e => simp [fed, Except.map] at h
      | ok after =>
        obtain ⟨last', second⟩ := after
        simp only [fed, Except.map, Except.ok.injEq, Prod.mk.injEq] at h
        obtain ⟨rfl, rfl⟩ := h
        exact ⟨next, first, second, rfl, fed, rfl⟩
    · rintro ⟨next', first', second, eq, fed, rfl⟩
      cases eq
      simp [fed, Except.map]

/-- A read on a reader that met no error. -/
theorem feed_of_isReading {d : Decoder} (reading : d.isReading) (chunk : Bytes) :
    d.feed chunk =
      match d.feedFrom [] chunk with
      | .ok (next, records) => (next, .ok records)
      | .error e => (.stuck e (chunk.reverse ++ d.heldNewestFirst), .error e) := by
  cases d with
  | stuck error held => exact reading.elim
  | header held =>
    simp only [feed]
    cases feedFrom (header held) [] chunk <;> rfl
  | payload opening held due =>
    simp only [feed]
    cases feedFrom (payload opening held due) [] chunk <;> rfl

/-- **Pieces do not matter.** Several reads in turn are one read of what they make up. -/
theorem feedAll_eq {d : Decoder} (reading : d.isReading) (chunks : List Bytes) :
    d.feedAll chunks = d.feedFrom [] chunks.flatten := by
  induction chunks generalizing d with
  | nil => rfl
  | cons chunk chunks ih =>
    rw [feedAll, feed_of_isReading reading, List.flatten_cons, feedFrom_append]
    cases fed : d.feedFrom [] chunk with
    | error e => rfl
    | ok after =>
      obtain ⟨next, records⟩ := after
      simp only
      rw [ih (isReading_feedFrom reading fed), feedFrom_found next records.reverse, List.reverse_reverse]

end Decoder

/-! ## Encoding -/

/-- A record is encoded as the frame of its payload. -/
theorem Record.encode_eq_ok {r : Record} {bytes : Bytes} (h : r.encode = .ok bytes) :
    bytes = frame (Bytes.ofString r.payload) ∧ (Bytes.ofString r.payload).length ≤ maxPayload := by
  rw [Bytes.length_ofString]
  simp only [Record.encode] at h
  split at h
  · rename_i small
    cases h
    exact ⟨rfl, small⟩
  · cases h

theorem Record.encode_eq_oversized_iff (r : Record) :
    r.encode = .error (.oversized r.payload.utf8ByteSize) ↔ maxPayload < r.payload.utf8ByteSize := by
  simp only [Record.encode]
  split
  · rename_i small
    simp only [reduceCtorEq, false_iff]
    omega
  · rename_i large
    simp only [true_iff]
    omega

/-- A header alone is refused for its length exactly beyond the limit. -/
theorem Decoder.feed_lengthBytes_iff {n : Nat} (word : n < UInt32.size) :
    (new.feed (frameTag :: lengthBytes n)).2 = .error (.oversized n) ↔ maxPayload < n := by
  have opened := openFrame_lengthBytes word
  have header := feedFrom_header [] frameTag (UInt8.ofNat n) (UInt8.ofNat (n >>> 8)) (UInt8.ofNat (n >>> 16))
    (UInt8.ofNat (n >>> 24)) []
  rw [feed_of_isReading isReading_new]
  simp only [lengthBytes, List.reverse_cons, List.reverse_nil, List.nil_append, List.cons_append] at opened ⊢
  rw [header, opened]
  by_cases large : n > maxPayload
  · simp [large]
  · rw [if_neg large]
    cases n with
    | zero =>
      rw [closeFrame]
      cases Record.ofPayload? (List.reverse []) <;> simp [feedFrom, maxPayload]
    | succ n => simp [feedFrom, large]

theorem spells_frames {records : List Record} {frames : List Bytes}
    (encoded : List.Forall₂ (fun r bytes => r.encode = .ok bytes) records frames) : Spells frames.flatten records := by
  induction encoded with
  | nil => exact .nil
  | cons h _ ih =>
    obtain ⟨rfl, small⟩ := Record.encode_eq_ok h
    exact .cons small (Record.ofPayload?_payload _) ih

/-- A proper part of a frame from its start on is empty or unfinished. -/
theorem unfinished_of_prefix {payload part : Bytes} (small : payload.length ≤ maxPayload)
    (start : part <+: frame payload) (short : part.length < (frame payload).length) :
    part = [] ∨ Unfinished part := by
  by_cases empty : part = []
  · exact .inl empty
  · by_cases header : part.length < headerLength
    · exact .inr (.header empty header)
    · right
      obtain ⟨b0, b1, b2, b3, four⟩ : ∃ b0 b1 b2 b3, lengthBytes payload.length = [b0, b1, b2, b3] := ⟨_, _, _, _, rfl⟩
      match part with
      | [] | [_] | [_, _] | [_, _, _] | [_, _, _, _] => simp [headerLength] at header
      | t :: c0 :: c1 :: c2 :: c3 :: body =>
        simp only [frame, four, List.cons_append, List.nil_append, List.cons_prefix_cons] at start
        obtain ⟨rfl, rfl, rfl, rfl, rfl, inside⟩ := start
        have body_short : body.length < payload.length := by
          simp only [frame, four, List.length_cons, List.length_append, List.length_nil] at short
          omega
        have unfinished := Unfinished.payload small body_short
        rwa [four] at unfinished

/-- **Decoding undoes encoding.** Frames of records and a proper part of one more frame, cut into reads anywhere, give
back the records in order without an error, and the part is held back. The largest payload that is encoded is the
largest that is read. -/
theorem feedAll_frames {records : List Record} {frames chunks : List Bytes} {next : Record} {last part : Bytes}
    (encoded : List.Forall₂ (fun r bytes => r.encode = .ok bytes) records frames) (one : next.encode = .ok last)
    (start : part <+: last) (proper : part ≠ last) (cut : chunks.flatten = frames.flatten ++ part) :
    (∃ d, Decoder.new.feedAll chunks = .ok (d, records) ∧ d.pending = part.length) ∧
      (∀ r : Record, r.encode = .error (.oversized r.payload.utf8ByteSize) ↔ maxPayload < r.payload.utf8ByteSize) ∧
      ∀ n < UInt32.size, (Decoder.new.feed (frameTag :: lengthBytes n)).2 = .error (.oversized n) ↔ maxPayload < n := by
  refine ⟨?_, Record.encode_eq_oversized_iff, fun n word => Decoder.feed_lengthBytes_iff word⟩
  have spells := spells_frames encoded
  obtain ⟨rfl, small⟩ := Record.encode_eq_ok one
  have short : part.length < (frame (Bytes.ofString next.payload)).length :=
    Nat.lt_of_le_of_ne start.length_le fun eq => proper (start.eq_of_length eq)
  have whole := spells.feedFrom [] part
  rw [List.append_nil] at whole
  rw [Decoder.feedAll_eq Decoder.isReading_new, cut, whole]
  rcases unfinished_of_prefix small start short with rfl | unfinished
  · exact ⟨.new, by simp [Decoder.feedFrom], rfl⟩
  · obtain ⟨d, fed, pending⟩ := unfinished.feedFrom records.reverse
    exact ⟨d, by rw [fed, List.reverse_reverse], pending⟩

/-- A notice whose text needs escapes and two bytes for a character, cut inside its header, with seven bytes of a
marker behind it. -/
theorem feedAll_frames_skip :
    let notice : Record := .skip ⟨some "\u0001\"é", ⟨"t.rs", 4294967295, "f"⟩⟩
    let bytes := frame (Bytes.ofString notice.payload)
    let part := (frame (Bytes.ofString (Record.phase .exec).payload)).take 7
    ∃ d, Decoder.new.feedAll [bytes.take 3, [], bytes.drop 3 ++ part] = .ok (d, [notice]) ∧ d.pending = 7 := by
  intro notice bytes part
  have first : notice.encode = .ok bytes := by decide +kernel
  have second : (Record.phase .exec).encode = .ok (frame (Bytes.ofString (Record.phase .exec).payload)) := by
    decide +kernel
  have proper : part ≠ frame (Bytes.ofString (Record.phase .exec).payload) := by decide +kernel
  have cut : [bytes.take 3, [], bytes.drop 3 ++ part].flatten = [bytes].flatten ++ part := by
    simp [← List.append_assoc]
  obtain ⟨d, fed, pending⟩ := (feedAll_frames (.cons first .nil) second (List.take_prefix 7 _) proper cut).1
  exact ⟨d, fed, pending.trans (by decide +kernel)⟩

end TestIsolation
