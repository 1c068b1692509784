import TestIsolation.Proofs.Outcome.Clipping

/-!
# What is kept of a text

A text that is cut keeps its longest beginning in whole characters (`LongestWithin`). It is found by walking down from
the last position allowed to one between two characters (`Record.clip?`), and the walk is safe: the start of a text is
such a position, so it never passes it, and the bytes before where it ends are a text (`Record.clip?_eq`).
-/

namespace TestIsolation

set_option autoImplicit false

/-- The longest beginning of a text in whole characters that takes at most a number of bytes. -/
structure LongestWithin (bytes : Nat) (text kept : String) : Prop where
  beginning : kept.toList <+: text.toList
  within : kept.utf8ByteSize ≤ bytes
  longest : ∀ other : String, other.toList <+: text.toList → other.utf8ByteSize ≤ bytes → other.toList <+: kept.toList

namespace Record

/-- What stands for a text in a shortened record. -/
inductive Kept (text : String) : String → Prop where
  | whole (short : text.utf8ByteSize ≤ 1024) : Kept text text
  | cut (long : 1024 < text.utf8ByteSize) {kept : String} (longest : LongestWithin 1024 text kept) :
    Kept text (kept ++ "...")

/-- The walk down from a position to one between two characters; nothing if it passed the start of the text. -/
def boundaryFrom? (text : String) (position : Nat) : Option Nat :=
  if (⟨position⟩ : String.Pos.Raw).isValid text then some position
  else
    match position with
    | 0 => none
    | position + 1 => boundaryFrom? text position

/-- A text cut at a position, which breaks off if the position is none of the text or within a character. -/
def clip? (text : String) : Option String :=
  if text.utf8ByteSize ≤ keptBytes then some text
  else do
    let position ← boundaryFrom? text keptBytes
    let kept ← Bytes.toString? ((Bytes.ofString text).take position)
    return kept ++ "..."

/-! ## The longest beginning -/

theorem fitting_prefix (chars : List Char) (bytes : Nat) : fitting chars bytes <+: chars := by
  induction chars generalizing bytes with
  | nil => exact List.nil_prefix
  | cons c chars ih =>
    unfold fitting
    split
    · exact (List.prefix_cons_inj c).2 (ih _)
    · exact List.nil_prefix

theorem prefix_fitting {chars other : List Char} {bytes : Nat} (beginning : other <+: chars)
    (within : utf8Bytes other ≤ bytes) : other <+: fitting chars bytes := by
  induction chars generalizing other bytes with
  | nil => exact beginning
  | cons c chars ih =>
    cases other with
    | nil => exact List.nil_prefix
    | cons d other =>
      obtain ⟨rfl, after⟩ := List.cons_prefix_cons.1 beginning
      rw [utf8Bytes] at within
      rw [fitting, if_pos (by omega)]
      exact (List.prefix_cons_inj d).2 (ih after (by omega))

theorem longestWithin_fitting (text : String) (bytes : Nat) :
    LongestWithin bytes text (String.ofList (fitting text.toList bytes)) where
  beginning := by
    rw [String.toList_ofList]
    exact fitting_prefix text.toList bytes
  within := by
    rw [utf8ByteSize_ofList]
    exact utf8Bytes_fitting_le text.toList bytes
  longest other beginning within := by
    rw [String.toList_ofList]
    exact prefix_fitting beginning (by rwa [utf8Bytes_toList])

/-- **What is kept of a text is all of it or its longest beginning.** -/
theorem kept_clip (text : String) : Kept text (clip text) := by
  unfold clip
  split
  · rename_i short
    exact .whole short
  · rename_i long
    exact .cut (Nat.lt_of_not_le long) (longestWithin_fitting text keptBytes)

/-! ## The walk -/

variable {text kept : String} {bytes : Nat}

/-- A position is between two characters if it ends a beginning of the text. -/
theorem isValid_iff {position : Nat} : (⟨position⟩ : String.Pos.Raw).isValid text = true ↔
    ∃ other : String, other.toList <+: text.toList ∧ position = other.utf8ByteSize := by
  rw [String.Pos.Raw.isValid_eq_true_iff, String.Pos.Raw.isValid_iff_exists_take_toList]
  constructor
  · rintro ⟨i, ends⟩
    exact ⟨_, by rw [String.toList_ofList]; exact List.take_prefix i _, ends⟩
  · rintro ⟨other, beginning, ends⟩
    exact ⟨other.toList.length, by rw [← List.prefix_iff_eq_take.1 beginning, String.ofList_toList]; exact ends⟩

/-- The walk from a position ends at the next one down that is between two characters. -/
theorem boundaryFrom?_of_next {position bytes : Nat} (ends : (⟨position⟩ : String.Pos.Raw).isValid text = true)
    (le : position ≤ bytes)
    (next : ∀ n, position < n → n ≤ bytes → (⟨n⟩ : String.Pos.Raw).isValid text = false) :
    boundaryFrom? text bytes = some position := by
  induction bytes with
  | zero =>
    obtain rfl : position = 0 := by omega
    rw [boundaryFrom?, if_pos ends]
  | succ bytes ih =>
    by_cases here : position = bytes + 1
    · subst here
      rw [boundaryFrom?, if_pos ends]
    · rw [boundaryFrom?, next (bytes + 1) (by omega) (Nat.le_refl _), if_neg Bool.false_ne_true]
      exact ih (by omega) fun n above below => next n above (by omega)

/-- **The walk ends where the longest beginning does.** -/
theorem boundaryFrom?_eq (longest : LongestWithin bytes text kept) :
    boundaryFrom? text bytes = some kept.utf8ByteSize := by
  refine boundaryFrom?_of_next (isValid_iff.2 ⟨kept, longest.beginning, rfl⟩) longest.within fun n above within => ?_
  rw [← Bool.not_eq_true, isValid_iff]
  rintro ⟨other, beginning, rfl⟩
  obtain ⟨rest, whole⟩ := longest.longest other beginning within
  have size : utf8Bytes other.toList + utf8Bytes rest = utf8Bytes kept.toList := by rw [← utf8Bytes_append, whole]
  rw [utf8Bytes_toList, utf8Bytes_toList] at size
  omega

/-- The bytes of a beginning are those up to where it ends. -/
theorem take_ofString (beginning : kept.toList <+: text.toList) :
    (Bytes.ofString text).take kept.utf8ByteSize = Bytes.ofString kept := by
  obtain ⟨rest, whole⟩ := beginning
  have parts : text = kept ++ String.ofList rest := by
    rw [← String.toList_inj, String.toList_append, String.toList_ofList, whole]
  have bytes : Bytes.ofString text = Bytes.ofString kept ++ Bytes.ofString (String.ofList rest) := by
    rw [parts]
    simp [Bytes.ofString]
  rw [bytes, List.take_left' (Bytes.length_ofString kept)]

/-- **Cutting a text by positions never breaks off.** -/
theorem clip?_eq (text : String) : clip? text = some (clip text) := by
  unfold clip? clip
  split
  · rfl
  · have longest := longestWithin_fitting text keptBytes
    rw [boundaryFrom?_eq longest]
    simp only [bind, Option.bind, take_ofString longest.beginning, Bytes.toString?_ofString]
    rfl

end Record

end TestIsolation
