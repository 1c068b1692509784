import TestIsolation.Proofs.Json.RoundTrip
import TestIsolation.Text.Blank

/-!
# Texts of lines

Lines that are each ended by a line feed are found again when their text is divided (`splitLines_ended`), if none
holds a line feed of its own. The compact form of a JSON value is such a line (`newline_notMem_chars`): in strings line
feeds are escaped, and nothing else writes any.
-/

namespace TestIsolation

set_option autoImplicit false

/-! ## Dividing a text -/

/-- One character more: the line that is being read, backwards, and the lines before it, the last first. -/
def lineStep (acc : List Char × List (List Char)) (c : Char) : List Char × List (List Char) :=
  if c = '\n' then ([], acc.1.reverse :: acc.2) else (c :: acc.1, acc.2)

theorem splitLines_eq (chars : List Char) : splitLines chars =
    ((chars.foldl lineStep ([], [])).1.reverse :: (chars.foldl lineStep ([], [])).2).reverse := rfl

theorem foldl_lineStep {line : List Char} (whole : '\n' ∉ line) (read : List Char) (pieces : List (List Char)) :
    line.foldl lineStep (read, pieces) = (line.reverse ++ read, pieces) := by
  induction line generalizing read with
  | nil => rfl
  | cons c line ih =>
    rw [List.mem_cons, not_or] at whole
    rw [List.foldl_cons, lineStep, if_neg (Ne.symm whole.1), ih whole.2, List.reverse_cons, List.append_assoc]
    rfl

theorem foldl_lineStep_ended {lines : List (List Char)} (whole : ∀ line ∈ lines, '\n' ∉ line)
    (pieces : List (List Char)) :
    (lines.flatMap (· ++ ['\n'])).foldl lineStep ([], pieces) = ([], lines.reverse ++ pieces) := by
  induction lines generalizing pieces with
  | nil => rfl
  | cons line lines ih =>
    have ended : (line ++ ['\n']).foldl lineStep ([], pieces) = ([], line :: pieces) := by
      rw [List.foldl_append, foldl_lineStep (whole line (List.mem_cons_self ..))]
      simp [lineStep]
    rw [List.flatMap_cons, List.foldl_append, ended, ih fun line mem => whole line (List.mem_cons_of_mem _ mem),
      List.reverse_cons, List.append_assoc]
    rfl

/-- Lines that are each ended by a line feed are the pieces of their text, and nothing follows the last one. -/
theorem splitLines_ended {lines : List (List Char)} (whole : ∀ line ∈ lines, '\n' ∉ line) :
    splitLines (lines.flatMap (· ++ ['\n'])) = lines ++ [[]] := by
  rw [splitLines_eq, foldl_lineStep_ended whole]
  simp

/-! ## JSON on one line -/

namespace JsonValue

theorem newline_notMem_escapedChar (c : Char) : '\n' ∉ escapedChar c := by
  have code : ∀ d < 16, Nat.digitChar d ≠ '\n' := by decide
  unfold escapedChar
  split
  case h_3 => decide
  case h_6 notFeed _ _ =>
    split
    · decide
    · decide
    · split
      · rename_i control
        have high := code (c.toNat / 16) (by omega)
        have low := code (c.toNat % 16) (by omega)
        simp [high.symm, low.symm]
      · rw [List.mem_singleton]
        exact fun same => notFeed same.symm
  all_goals decide

theorem newline_notMem_quoted (s : String) : '\n' ∉ quoted s := by
  simp [quoted, newline_notMem_escapedChar]

theorem newline_notMem_numberChars {n : JsonNumber} (exact_ : n.isExact = true) : '\n' ∉ numberChars n := by
  obtain ⟨lead, tail, chars, first, digits⟩ := JsonNumber.numberChars_eq_cons exact_
  rw [chars, List.mem_cons, not_or]
  constructor
  · rintro rfl
    revert first
    decide
  · intro mem
    exact absurd (digits _ mem) (by decide)

mutual

/-- The compact form of a value that fits is on one line. -/
theorem newline_notMem_chars {room : Nat} (v : JsonValue) (fits : v.fits room = true) : '\n' ∉ v.chars := by
  match v with
  | .null => decide
  | .boolean true => decide
  | .boolean false => decide
  | .number n =>
    rw [JsonValue.fits] at fits
    rw [chars]
    exact newline_notMem_numberChars fits
  | .string s =>
    rw [chars]
    exact newline_notMem_quoted s
  | .array items =>
    cases room with
    | zero => simp [JsonValue.fits] at fits
    | succ room =>
      rw [JsonValue.fits] at fits
      simp [chars, newline_notMem_itemsChars items fits]
  | .object members =>
    cases room with
    | zero => simp [JsonValue.fits] at fits
    | succ room =>
      rw [JsonValue.fits] at fits
      simp [chars, newline_notMem_membersChars members fits]

theorem newline_notMem_itemsChars {room : Nat} (items : List JsonValue) (fits : itemsFit room items = true) :
    '\n' ∉ itemsChars items := by
  match items with
  | [] => simp [itemsChars]
  | [v] =>
    rw [itemsFit, Bool.and_eq_true] at fits
    rw [itemsChars]
    exact newline_notMem_chars v fits.1
  | v :: w :: others =>
    rw [itemsFit, Bool.and_eq_true] at fits
    simp [itemsChars.eq_3, newline_notMem_chars v fits.1, newline_notMem_itemsChars (w :: others) fits.2]

theorem newline_notMem_membersChars {room : Nat} (members : List (String × JsonValue))
    (fits : membersFit room members = true) : '\n' ∉ membersChars members := by
  match members with
  | [] => simp [membersChars]
  | [(name, v)] =>
    rw [membersFit, Bool.and_eq_true] at fits
    simp [membersChars, newline_notMem_quoted, newline_notMem_chars v fits.1]
  | (name, v) :: m :: others =>
    rw [membersFit, Bool.and_eq_true] at fits
    simp [membersChars.eq_3, newline_notMem_quoted, newline_notMem_chars v fits.1,
      newline_notMem_membersChars (m :: others) fits.2]

end

end JsonValue

end TestIsolation
