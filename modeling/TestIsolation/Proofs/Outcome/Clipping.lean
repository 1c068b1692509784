import TestIsolation.Proofs.Outcome.Chunking

/-!
# Records that are too large

What stands in for a record that is too large always fits (`Record.encode_shortened`): its texts are cut, and an escape
takes at most six bytes for one. So some frame is sent for whatever is recorded (`Record.encode_sent`).
-/

namespace TestIsolation

set_option autoImplicit false

/-- How many bytes some characters take in UTF-8. -/
def utf8Bytes : List Char → Nat
  | [] => 0
  | c :: rest => c.utf8Size + utf8Bytes rest

theorem utf8Bytes_append (a b : List Char) : utf8Bytes (a ++ b) = utf8Bytes a + utf8Bytes b := by
  induction a with
  | nil => simp [utf8Bytes]
  | cons c a ih => simp only [List.cons_append, utf8Bytes, ih, Nat.add_assoc]

theorem utf8ByteSize_ofList (chars : List Char) : (String.ofList chars).utf8ByteSize = utf8Bytes chars := by
  induction chars with
  | nil => rfl
  | cons c chars ih => rw [String.ofList_cons, String.utf8ByteSize_append, String.utf8ByteSize_singleton, ih, utf8Bytes]

theorem utf8Bytes_toList (s : String) : utf8Bytes s.toList = s.utf8ByteSize := by
  rw [← utf8ByteSize_ofList, String.ofList_toList]

/-- Digits take a byte each. -/
theorem utf8Bytes_digits {digits : List Char} (all : ∀ c ∈ digits, c.isDigit = true) :
    utf8Bytes digits = digits.length := by
  induction digits with
  | nil => rfl
  | cons c digits ih =>
    rw [List.forall_mem_cons] at all
    have small : c.val ≤ 0x7F := by
      have digit := all.1
      simp only [Char.isDigit, Bool.and_eq_true, decide_eq_true_eq] at digit
      exact UInt32.le_trans digit.2 (by decide)
    have one : c.utf8Size = 1 := if_pos small
    rw [utf8Bytes, ih all.2, List.length_cons, one, Nat.add_comm]

/-- A machine word takes twenty digits at most. -/
theorem utf8Bytes_word {n : Nat} (word : n < UInt64.size) : utf8Bytes (Nat.toDigits 10 n) ≤ 20 := by
  have size : UInt64.size = 18446744073709551616 := rfl
  rw [utf8Bytes_digits JsonNumber.isDigit_of_mem_toDigits, Nat.length_toDigits_le_iff (by omega) (by omega)]
  omega

namespace JsonValue

/-- An escape takes at most six bytes for one. -/
theorem utf8Bytes_escapedChar_le (c : Char) : utf8Bytes (escapedChar c) ≤ 6 * c.utf8Size := by
  have digit : ∀ k < 16, (Nat.digitChar k).utf8Size = 1 := by decide
  have some := c.utf8Size_pos
  unfold escapedChar
  split
  · decide
  · decide
  · decide
  · decide
  · decide
  · split
    · simp only [utf8Bytes, show '\\'.utf8Size = 1 from rfl, show 'b'.utf8Size = 1 from rfl]
      omega
    · simp only [utf8Bytes, show '\\'.utf8Size = 1 from rfl, show 'f'.utf8Size = 1 from rfl]
      omega
    · split
      · rename_i n _ _ _
        have high := digit (c.toNat / 16) (by omega)
        have low := digit (c.toNat % 16) (by omega)
        simp only [utf8Bytes, high, low, show '\\'.utf8Size = 1 from rfl, show 'u'.utf8Size = 1 from rfl,
          show '0'.utf8Size = 1 from rfl]
        omega
      · simp only [utf8Bytes]
        omega

theorem utf8Bytes_quoted_le (s : String) : utf8Bytes (quoted s) ≤ 6 * s.utf8ByteSize + 2 := by
  have escaped : ∀ chars : List Char, utf8Bytes (chars.flatMap escapedChar) ≤ 6 * utf8Bytes chars := by
    intro chars
    induction chars with
    | nil => exact Nat.le_refl _
    | cons c chars ih =>
      have one := utf8Bytes_escapedChar_le c
      rw [List.flatMap_cons, utf8Bytes_append, utf8Bytes]
      omega
  have inside := escaped s.toList
  rw [utf8Bytes_toList] at inside
  simp only [quoted, utf8Bytes, utf8Bytes_append, show '"'.utf8Size = 1 from rfl]
  omega

/-- A member whose name is short, and whose value is no longer than a text that was cut. -/
structure IsShort (m : String × JsonValue) : Prop where
  name : utf8Bytes (quoted m.1) ≤ 20
  value : utf8Bytes m.2.chars ≤ 6602

theorem utf8Bytes_membersChars_le {members : List (String × JsonValue)} (short : ∀ m ∈ members, IsShort m) :
    utf8Bytes (membersChars members) ≤ members.length * 6624 := by
  match members with
  | [] => exact Nat.le_refl _
  | [(name, v)] =>
    obtain ⟨first, second⟩ := short _ List.mem_cons_self
    simp only [membersChars, utf8Bytes_append, utf8Bytes, List.length_singleton, show ':'.utf8Size = 1 from rfl]
    simp only at first second
    omega
  | (name, v) :: other :: rest =>
    obtain ⟨first, second⟩ := short _ List.mem_cons_self
    have ih := utf8Bytes_membersChars_le fun m mem => short m (List.mem_cons_of_mem _ mem)
    simp only [membersChars, utf8Bytes_append, utf8Bytes, List.length_cons, show ':'.utf8Size = 1 from rfl,
      show ','.utf8Size = 1 from rfl] at ih ⊢
    simp only at first second
    omega

theorem isShort_text {name text : String} (named : utf8Bytes (quoted name) ≤ 20) (short : text.utf8ByteSize ≤ 1100) :
    IsShort (name, .string text) where
  name := named
  value := by
    have quoted := utf8Bytes_quoted_le text
    rw [chars]
    omega

theorem isShort_line {name : String} (named : utf8Bytes (quoted name) ≤ 20) (line : UInt32) :
    IsShort (name, .integer line.toNat) where
  name := named
  value := by
    have bound := line.toNat_lt
    have size : UInt64.size = 18446744073709551616 := rfl
    have digits : (JsonValue.integer line.toNat).chars = Nat.toDigits 10 line.toNat :=
      JsonNumber.numberChars_ofNat line.toNat
    rw [digits]
    exact Nat.le_trans (utf8Bytes_word (by omega)) (by decide)

end JsonValue

namespace Record

/-! ## Texts that were cut -/

theorem utf8Bytes_fitting_le (chars : List Char) (bytes : Nat) : utf8Bytes (fitting chars bytes) ≤ bytes := by
  induction chars generalizing bytes with
  | nil => exact Nat.zero_le _
  | cons c chars ih =>
    unfold fitting
    split
    · have rest := ih (bytes - c.utf8Size)
      rw [utf8Bytes]
      omega
    · exact Nat.zero_le _

theorem size_clip_le (text : String) : (clip text).utf8ByteSize ≤ 1027 := by
  unfold clip
  split
  · rename_i short
    simp only [keptBytes] at short
    omega
  · have kept := utf8Bytes_fitting_le text.toList keptBytes
    rw [String.utf8ByteSize_append, utf8ByteSize_ofList, show "...".utf8ByteSize = 3 from rfl]
    simp only [keptBytes] at kept ⊢
    omega

theorem size_clippedNote (length : UInt64) (text : String) :
    (clippedNote length text).utf8ByteSize = 18 + utf8Bytes (Nat.toDigits 10 length.toNat) + 9 +
      (clip text).utf8ByteSize := by
  have decimal : (toString length.toNat).utf8ByteSize = utf8Bytes (Nat.toDigits 10 length.toNat) := by
    rw [← utf8Bytes_toList]
    exact congrArg utf8Bytes Nat.toList_repr
  rw [← decimal]
  unfold clippedNote
  rw [String.utf8ByteSize_append, String.utf8ByteSize_append, String.utf8ByteSize_append]
  rfl

theorem size_clippedNote_le (length : UInt64) (text : String) : (clippedNote length text).utf8ByteSize ≤ 1100 := by
  have digits := utf8Bytes_word length.toNat_lt
  have cut := size_clip_le text
  have size := size_clippedNote length text
  omega

/-! ## Payloads -/

/-- A few short members fit. -/
theorem size_payload_le {members : List (String × JsonValue)} {r : Record} (form : r.toJson = .object members)
    (few : members.length ≤ 7) (short : ∀ m ∈ members, JsonValue.IsShort m) :
    r.payload.utf8ByteSize ≤ maxPayload := by
  have inside := JsonValue.utf8Bytes_membersChars_le short
  rw [payload, form, JsonValue.render, utf8ByteSize_ofList]
  simp only [JsonValue.chars, utf8Bytes, utf8Bytes_append, maxPayload, show '\x7b'.utf8Size = 1 from rfl,
    show '\x7d'.utf8Size = 1 from rfl]
  omega

open JsonValue in
/-- **A failure with cut texts fits.** -/
theorem size_failure_le (f : Failure) (expression : f.expression.utf8ByteSize ≤ 1100)
    (file : f.site.file.utf8ByteSize ≤ 1100) (function : f.site.function.utf8ByteSize ≤ 1100)
    (message : f.message.utf8ByteSize ≤ 1100) : (failure f).payload.utf8ByteSize ≤ maxPayload := by
  refine size_payload_le (r := failure f) rfl (Nat.le_refl 7) ?_
  simp only [List.forall_mem_cons, List.not_mem_nil, IsEmpty.forall_iff, implies_true, and_true]
  refine ⟨isShort_text (by decide) (by decide), isShort_text (by decide) expression, isShort_text (by decide) file,
    isShort_line (by decide) _, isShort_text (by decide) function, isShort_text (by decide) message, ?_⟩
  have named : utf8Bytes (quoted "fatal") ≤ 20 := by decide
  refine ⟨named, ?_⟩
  cases f.fatal <;> decide

open JsonValue in
/-- **A notice with cut texts fits.** -/
theorem size_skip_le (notice : SkipNotice) (reason : ∀ r ∈ notice.reason, r.utf8ByteSize ≤ 1100)
    (file : notice.site.file.utf8ByteSize ≤ 1100) (function : notice.site.function.utf8ByteSize ≤ 1100) :
    (skip notice).payload.utf8ByteSize ≤ maxPayload := by
  refine size_payload_le (r := skip notice) rfl ?_ ?_
  · cases notice.reason <;> simp
  · simp only [List.forall_mem_append, List.forall_mem_cons, List.not_mem_nil, IsEmpty.forall_iff, implies_true,
      and_true]
    refine ⟨⟨isShort_text (by decide) (by decide), ?_⟩, isShort_text (by decide) file, isShort_line (by decide) _,
      isShort_text (by decide) function⟩
    intro m mem
    obtain ⟨text, given, rfl⟩ := Option.map_eq_some_iff.1 (Option.mem_toList.1 mem)
    exact isShort_text (by decide) (reason text given)

/-! ## What is sent -/

theorem encode_of_size_le {r : Record} (small : r.payload.utf8ByteSize ≤ maxPayload) :
    r.encode = .ok (frame (Bytes.ofString r.payload)) := if_pos small

/-- **What stands in for a record that is too large fits.** -/
theorem encode_shortened {length : Nat} {r short : Record} (cut : r.shortened length = some short) :
    short.encode = .ok (frame (Bytes.ofString short.payload)) := by
  have clipped (text : String) : (clip text).utf8ByteSize ≤ 1100 := Nat.le_trans (size_clip_le text) (by decide)
  apply encode_of_size_le
  cases r with
  | phase p => cases cut
  | terminal v => cases cut
  | failure f =>
    cases cut
    exact size_failure_le _ (clipped _) (clipped _) (clipped _) (size_clippedNote_le _ _)
  | skip notice =>
    cases cut
    refine size_skip_le _ ?_ (clipped _) (clipped _)
    intro reason mem
    obtain ⟨text, _, rfl⟩ := Option.map_eq_some_iff.1 mem
    exact size_clippedNote_le _ _

/-- The form in which a record is sent: as it is if it fits, and shortened if it is too large. -/
def sent (r : Record) : Record :=
  match r.encode with
  | .error (.oversized length) => (r.shortened length).getD r
  | _ => r

/-- **Some frame is sent for every record.** -/
theorem encode_sent (r : Record) : r.sent.encode = .ok (frame (Bytes.ofString r.sent.payload)) := by
  by_cases small : r.payload.utf8ByteSize ≤ maxPayload
  · have encoded := encode_of_size_le small
    rw [sent, encoded]
    exact encoded
  · have large : r.encode = .error (.oversized r.payload.utf8ByteSize) := if_neg small
    rw [sent, large]
    cases cut : r.shortened r.payload.utf8ByteSize with
    | some short =>
      simp only [cut, Option.getD_some]
      exact encode_shortened cut
    | none =>
      -- Only records of fixed size have no shortened form, and those are never too large.
      cases r with
      | phase p => cases p <;> exact absurd (by decide) small
      | terminal v => cases v <;> exact absurd (by decide) small
      | failure f => cases cut
      | skip notice => cases cut

end Record

end TestIsolation
