import TestIsolation.Proofs.Outcome.Payload
import TestIsolation.Outcome.Frame

/-!
# Frames, whole and broken

Any bytes are whole frames (`Spells`) followed by nothing, by a part of a frame (`Unfinished`) or by something that is
no frame (`Malformed`): `exists_reading`. A `Decoder` tells the three apart, and finds the records of the whole frames
(`Spells.feedFrom`, `Unfinished.feedFrom`, `Malformed.feedFrom`).
-/

namespace TestIsolation

set_option autoImplicit false

/-- Whole frames, with the records of their payloads. -/
inductive Spells : Bytes → List Record → Prop where
  | nil : Spells [] []
  | cons {payload bytes : Bytes} {r : Record} {records : List Record} (small : payload.length ≤ maxPayload)
      (holds : Record.ofPayload? payload = some r) (rest : Spells bytes records) :
      Spells (frame payload ++ bytes) (r :: records)

/-- Some bytes of a frame, but not all. -/
inductive Unfinished : Bytes → Prop where
  | header {part : Bytes} (some : part ≠ []) (short : part.length < headerLength) : Unfinished part
  | payload {n : Nat} {part : Bytes} (small : n ≤ maxPayload) (short : part.length < n) :
      Unfinished (frameTag :: (lengthBytes n ++ part))

/-- The opening of something that is no frame: a wrong tag, a length beyond the limit, or a payload without a record. -/
inductive Malformed : Bytes → Prop where
  | tag {byte : UInt8} {others : Bytes} (wrong : byte ≠ frameTag) (whole : others.length + 1 = headerLength) :
      Malformed (byte :: others)
  | oversized {n : Nat} (large : maxPayload < n) (word : n < UInt32.size) : Malformed (frameTag :: lengthBytes n)
  | payload {payload : Bytes} (small : payload.length ≤ maxPayload) (empty : Record.ofPayload? payload = none) :
      Malformed (frame payload)

/-! ## Lengths -/

/-- The four bytes of a length give it back. -/
theorem lengthBytes_toNat {n : Nat} (word : n < UInt32.size) :
    (UInt8.ofNat n).toNat + (UInt8.ofNat (n >>> 8)).toNat <<< 8 + (UInt8.ofNat (n >>> 16)).toNat <<< 16 +
      (UInt8.ofNat (n >>> 24)).toNat <<< 24 = n := by
  have size : UInt32.size = 4294967296 := rfl
  simp only [UInt8.toNat_ofNat', Nat.shiftLeft_eq, Nat.shiftRight_eq_div_pow]
  omega

/-- Any four bytes are those of a length. -/
theorem exists_lengthBytes (b0 b1 b2 b3 : UInt8) : ∃ n, n < UInt32.size ∧ [b0, b1, b2, b3] = lengthBytes n := by
  have h0 := b0.toNat_lt
  have h1 := b1.toNat_lt
  have h2 := b2.toNat_lt
  have h3 := b3.toNat_lt
  have size : UInt32.size = 4294967296 := rfl
  refine ⟨b0.toNat + b1.toNat * 256 + b2.toNat * 65536 + b3.toNat * 16777216, by omega, ?_⟩
  simp only [lengthBytes, List.cons.injEq, and_true, ← UInt8.toNat_inj, UInt8.toNat_ofNat',
    Nat.shiftRight_eq_div_pow]
  omega

namespace Decoder

theorem openFrame_lengthBytes {n : Nat} (word : n < UInt32.size) :
    openFrame ((lengthBytes n).reverse ++ [frameTag]) =
      if n > maxPayload then .error (.oversized n) else .ok n := by
  have value := lengthBytes_toNat word
  simp only [lengthBytes, List.reverse_cons, List.reverse_nil, List.nil_append, List.cons_append, openFrame,
    value, ne_eq, not_true, if_false]

/-! ## Reading byte by byte -/

/-- What a byte does: it is held, in the header or in the payload, or it completes a header, or it completes a frame. -/
inductive Takes (b : UInt8) : Decoder → Decoder → Option Record → Prop where
  | keepsHeader {held : Bytes} (short : held.length + 1 < headerLength) :
      Takes b (header held) (header (b :: held)) none
  | opens {held : Bytes} {due : Nat} (opened : openFrame (b :: held) = .ok (due + 1)) :
      Takes b (header held) (payload (b :: held) [] (due + 1)) none
  | closesEmpty {held : Bytes} {r : Record} (closed : closeFrame [] = .ok r) : Takes b (header held) new (some r)
  | keepsPayload {opening held : Bytes} {due : Nat} (more : 1 < due) :
      Takes b (payload opening held due) (payload opening (b :: held) (due - 1)) none
  | closes {opening held : Bytes} {due : Nat} {r : Record} (closed : closeFrame (b :: held) = .ok r) :
      Takes b (payload opening held due) new (some r)

theorem takes_of_step {d next : Decoder} {b : UInt8} {record : Option Record}
    (stepped : d.step b = .ok (next, record)) : Takes b d next record := by
  cases d with
  | header held =>
    simp only [step] at stepped
    split at stepped
    · rename_i short
      cases stepped
      exact .keepsHeader short
    · cases opened : openFrame (b :: held) with
      | error e => simp [opened, bind, Except.bind] at stepped
      | ok n =>
        cases n with
        | zero =>
          cases closed : closeFrame [] with
          | error e => simp [opened, closed, bind, Except.bind] at stepped
          | ok r =>
            simp only [opened, closed, bind, Except.bind, pure, Except.pure] at stepped
            cases stepped
            exact .closesEmpty closed
        | succ n =>
          simp only [opened, bind, Except.bind, pure, Except.pure] at stepped
          cases stepped
          exact .opens opened
  | payload opening held due =>
    simp only [step] at stepped
    split at stepped
    · cases closed : closeFrame (b :: held) with
      | error e => simp [closed, bind, Except.bind] at stepped
      | ok r =>
        simp only [closed, bind, Except.bind, pure, Except.pure] at stepped
        cases stepped
        exact .closes closed
    · cases stepped
      exact .keepsPayload (by omega)
  | stuck error held => simp [step] at stepped

theorem feedFrom_append (d : Decoder) (found : List Record) (a b : Bytes) :
    feedFrom d found (a ++ b) =
      match feedFrom d found a with
      | .error e => .error e
      | .ok (d, records) => feedFrom d records.reverse b := by
  induction a generalizing d found with
  | nil => simp [feedFrom]
  | cons x a ih =>
    simp only [List.cons_append, feedFrom]
    cases d.step x with
    | error e => rfl
    | ok next => exact ih _ _

/-- Bytes that do not make up a header yet are held. -/
theorem feedFrom_short (found : List Record) :
    ∀ (bytes held : Bytes), held.length + bytes.length < headerLength →
      feedFrom (header held) found bytes = .ok (header (bytes.reverse ++ held), found.reverse) := by
  intro bytes
  induction bytes with
  | nil => intro held _; rfl
  | cons b bytes ih =>
    intro held short
    simp only [List.length_cons] at short
    have next : held.length + 1 < headerLength := by omega
    simp only [feedFrom, step, next, if_true, Option.toList_none, List.nil_append]
    rw [ih (b :: held) (by simp only [List.length_cons]; omega)]
    simp

/-- A whole header opens a frame. -/
theorem feedFrom_header (found : List Record) (tag b0 b1 b2 b3 : UInt8) (rest : Bytes) :
    feedFrom new found (tag :: b0 :: b1 :: b2 :: b3 :: rest) =
      match openFrame [b3, b2, b1, b0, tag] with
      | .error e => .error e
      | .ok 0 =>
        match closeFrame [] with
        | .error e => .error e
        | .ok r => feedFrom new (r :: found) rest
      | .ok due => feedFrom (.payload [b3, b2, b1, b0, tag] [] due) found rest := by
  have four := feedFrom_short found [tag, b0, b1, b2] [] (by simp [headerLength])
  have whole : ¬[b2, b1, b0, tag].length + 1 < headerLength := by simp [headerLength]
  rw [show tag :: b0 :: b1 :: b2 :: b3 :: rest = [tag, b0, b1, b2] ++ b3 :: rest from rfl, feedFrom_append, new, four]
  simp only [List.reverse_reverse, List.reverse_cons, List.reverse_nil, List.nil_append, List.cons_append,
    List.append_nil, feedFrom, step, whole, if_false]
  cases openFrame [b3, b2, b1, b0, tag] with
  | error e => rfl
  | ok n =>
    cases n with
    | zero => cases closeFrame [] <;> simp [bind, Except.bind, pure, Except.pure, new]
    | succ n => rfl

/-- Bytes that do not make up the payload yet are held. -/
theorem feedFrom_part (opening : Bytes) (found : List Record) :
    ∀ (bytes held : Bytes) (due : Nat), bytes.length < due →
      feedFrom (.payload opening held due) found bytes =
        .ok (.payload opening (bytes.reverse ++ held) (due - bytes.length), found.reverse) := by
  intro bytes
  induction bytes with
  | nil => intro held due _; rfl
  | cons b bytes ih =>
    intro held due short
    simp only [List.length_cons] at short
    have more : ¬due ≤ 1 := by omega
    simp only [feedFrom, step, more, if_false, Option.toList_none, List.nil_append]
    rw [ih (b :: held) (due - 1) (by omega)]
    simp only [List.reverse_cons, List.append_assoc, List.singleton_append, List.length_cons]
    rw [show due - 1 - bytes.length = due - (bytes.length + 1) by omega]

/-- The last byte of the payload closes the frame. -/
theorem feedFrom_rest (opening : Bytes) (found : List Record) (rest : Bytes) :
    ∀ (bytes held : Bytes), bytes ≠ [] →
      feedFrom (.payload opening held bytes.length) found (bytes ++ rest) =
        match closeFrame (bytes.reverse ++ held) with
        | .error e => .error e
        | .ok r => feedFrom new (r :: found) rest := by
  intro bytes
  induction bytes with
  | nil => intro held empty; exact absurd rfl empty
  | cons b bytes ih =>
    intro held _
    cases bytes with
    | nil =>
      simp only [List.length_singleton, List.singleton_append, feedFrom, step, le_refl, if_true,
        List.reverse_singleton]
      cases closeFrame (b :: held) <;> rfl
    | cons c bytes =>
      have more : ¬(b :: c :: bytes).length ≤ 1 := by simp
      have less : (b :: c :: bytes).length - 1 = (c :: bytes).length := by simp
      have next := ih (b :: held) (by simp)
      simp only [List.cons_append, feedFrom, step, more, if_false, less, Option.toList_none, List.nil_append]
        at next ⊢
      rw [next]
      simp

/-- A frame yields its record, or the error that it has none. -/
theorem feedFrom_frame {payload : Bytes} (small : payload.length ≤ maxPayload) (found : List Record) (rest : Bytes) :
    feedFrom new found (frame payload ++ rest) =
      match Record.ofPayload? payload with
      | none => .error .malformed
      | some r => feedFrom new (r :: found) rest := by
  have limit : maxPayload = 1048576 := rfl
  have size : UInt32.size = 4294967296 := rfl
  have opened := openFrame_lengthBytes (n := payload.length) (by omega)
  rw [if_neg (by omega)] at opened
  have split : frame payload ++ rest = frameTag :: UInt8.ofNat payload.length ::
      UInt8.ofNat (payload.length >>> 8) :: UInt8.ofNat (payload.length >>> 16) ::
      UInt8.ofNat (payload.length >>> 24) :: (payload ++ rest) := by simp [frame, lengthBytes]
  rw [split, feedFrom_header]
  simp only [lengthBytes, List.reverse_cons, List.reverse_nil, List.nil_append, List.cons_append] at opened
  rw [opened]
  cases payload with
  | nil =>
    simp only [List.length_nil, List.nil_append, closeFrame, List.reverse_nil]
    cases Record.ofPayload? [] <;> rfl
  | cons b payload =>
    simp only [List.length_cons]
    have closed := feedFrom_rest [UInt8.ofNat ((payload.length + 1) >>> 24), UInt8.ofNat ((payload.length + 1) >>> 16),
      UInt8.ofNat ((payload.length + 1) >>> 8), UInt8.ofNat (payload.length + 1), frameTag] found rest (b :: payload)
      [] (by simp)
    simp only [List.length_cons] at closed
    rw [closed, List.append_nil, closeFrame, List.reverse_reverse]
    cases Record.ofPayload? (b :: payload) <;> rfl

end Decoder

/-! ## The three readings -/

/-- Whole frames yield their records. -/
theorem Spells.feedFrom {bytes : Bytes} {records : List Record} (spells : Spells bytes records) (found : List Record)
    (rest : Bytes) :
    Decoder.new.feedFrom found (bytes ++ rest) = Decoder.new.feedFrom (records.reverse ++ found) rest := by
  induction spells generalizing found with
  | nil => rfl
  | cons small holds _ ih =>
    rw [List.append_assoc, Decoder.feedFrom_frame small, holds]
    simp only
    rw [ih]
    simp

theorem Unfinished.length_pos {part : Bytes} (unfinished : Unfinished part) : 0 < part.length := by
  cases unfinished with
  | header some _ => exact List.length_pos_iff.2 some
  | payload _ _ => simp

/-- A part of a frame is held back whole. -/
theorem Unfinished.feedFrom {part : Bytes} (unfinished : Unfinished part) (found : List Record) :
    ∃ d, Decoder.new.feedFrom found part = .ok (d, found.reverse) ∧ d.pending = part.length := by
  cases unfinished with
  | header _ short =>
    refine ⟨_, Decoder.feedFrom_short found part [] (by simpa using short), ?_⟩
    simp [Decoder.pending]
  | @payload n body small short =>
    have limit : maxPayload = 1048576 := rfl
    have size : UInt32.size = 4294967296 := rfl
    have opened := Decoder.openFrame_lengthBytes (n := n) (by omega)
    rw [if_neg (by omega)] at opened
    obtain ⟨n, rfl⟩ : ∃ m, n = m + 1 := ⟨n - 1, by omega⟩
    simp only [lengthBytes, List.reverse_cons, List.reverse_nil, List.nil_append, List.cons_append] at opened ⊢
    rw [Decoder.feedFrom_header, opened]
    refine ⟨_, Decoder.feedFrom_part _ found body [] (n + 1) short, ?_⟩
    simp [Decoder.pending]

/-- Something that is no frame is an error. -/
theorem Malformed.feedFrom {bad : Bytes} (malformed : Malformed bad) (found : List Record) (rest : Bytes) :
    ∃ e, Decoder.new.feedFrom found (bad ++ rest) = .error e := by
  cases malformed with
  | @tag byte others wrong whole =>
    match others, whole with
    | [b0, b1, b2, b3], _ =>
      refine ⟨.badTag byte, ?_⟩
      simp [Decoder.feedFrom_header, Decoder.openFrame, wrong]
  | @oversized n large word =>
    have opened := Decoder.openFrame_lengthBytes word
    rw [if_pos large] at opened
    refine ⟨.oversized n, ?_⟩
    simp only [lengthBytes, List.reverse_cons, List.reverse_nil, List.nil_append, List.cons_append] at opened ⊢
    rw [Decoder.feedFrom_header, opened]
  | payload small empty => exact ⟨.malformed, by rw [Decoder.feedFrom_frame small, empty]⟩

theorem Spells.exists_split {bytes : Bytes} (records more : List Record) (spells : Spells bytes (records ++ more)) :
    ∃ a b, bytes = a ++ b ∧ Spells a records ∧ Spells b more := by
  induction records generalizing bytes with
  | nil => exact ⟨[], bytes, rfl, .nil, spells⟩
  | cons r records ih =>
    cases spells with
    | cons small holds rest =>
      obtain ⟨a, b, rfl, first, second⟩ := ih rest
      exact ⟨_, b, (List.append_assoc _ a b).symm, .cons small holds first, second⟩

/-- **Every channel can be read**: whole frames, and then nothing, a part of a frame, or something that is no frame. -/
theorem exists_reading (bytes : Bytes) :
    ∃ before records rest, bytes = before ++ rest ∧ Spells before records ∧
      (rest = [] ∨ Unfinished rest ∨ ∃ bad after, rest = bad ++ after ∧ Malformed bad) := by
  induction length : bytes.length using Nat.strongRecOn generalizing bytes with
  | ind size ih =>
    match bytes with
    | [] => exact ⟨[], [], [], rfl, .nil, .inl rfl⟩
    | [_] | [_, _] | [_, _, _] | [_, _, _, _] =>
      exact ⟨[], [], _, rfl, .nil, .inr (.inl (.header (by simp) (by simp [headerLength])))⟩
    | tag :: b0 :: b1 :: b2 :: b3 :: more =>
      by_cases wrong : tag = frameTag
      · subst wrong
        obtain ⟨n, word, eq⟩ := exists_lengthBytes b0 b1 b2 b3
        have split : frameTag :: b0 :: b1 :: b2 :: b3 :: more = frameTag :: (lengthBytes n ++ more) := by
          rw [← eq]
          rfl
        rw [split]
        by_cases large : maxPayload < n
        · exact ⟨[], [], _, rfl, .nil, .inr (.inr ⟨_, more, rfl, .oversized large word⟩)⟩
        · by_cases short : more.length < n
          · exact ⟨[], [], _, rfl, .nil, .inr (.inl (.payload (by omega) short))⟩
          · have whole : (more.take n).length = n := List.length_take_of_le (by omega)
            have framed : frameTag :: (lengthBytes n ++ more) = frame (more.take n) ++ more.drop n := by
              simp [frame, whole]
            rw [framed]
            cases held : Record.ofPayload? (more.take n) with
            | none => exact ⟨[], [], _, rfl, .nil, .inr (.inr ⟨_, _, rfl, .payload (by omega) held⟩)⟩
            | some r =>
              have smaller : (more.drop n).length < size := by
                simp only [List.length_cons] at length
                simp only [List.length_drop]
                omega
              obtain ⟨before, records, rest, eq, spells, kind⟩ := ih _ smaller (more.drop n) rfl
              refine ⟨frame (more.take n) ++ before, r :: records, rest, ?_, .cons (by omega) held spells, kind⟩
              rw [eq, List.append_assoc]
      · exact ⟨[], [], _, rfl, .nil, .inr (.inr ⟨[tag, b0, b1, b2, b3], more, rfl, .tag wrong rfl⟩)⟩

end TestIsolation
