/-!
# Bytes and text

Byte strings are lists. `Bytes.ofString` and `Bytes.toString?` go between them and text by UTF-8, `Bytes.toStringLossy`
replaces what is not UTF-8, and `Bytes.escaped` writes any bytes in printable ASCII.
-/

namespace TestIsolation

set_option autoImplicit false

/-- A byte string. -/
abbrev Bytes := List UInt8

namespace Bytes

/-- The UTF-8 form of a text. -/
def ofString (s : String) : Bytes := s.toByteArray.data.toList

/-- The text whose UTF-8 form these bytes are. -/
def toString? (bytes : Bytes) : Option String := String.fromUTF8? ⟨bytes.toArray⟩

/-- The two lowercase hexadecimal digits of a byte. -/
def hexDigits (b : UInt8) : List Char :=
  [Nat.digitChar (b.toNat / 16), Nat.digitChar (b.toNat % 16)]

/-- A byte in printable ASCII: a short escape, itself, or its hexadecimal digits. -/
def escapedByte (b : UInt8) : List Char :=
  match b.toNat with
  | 9 => ['\\', 't']
  | 10 => ['\\', 'n']
  | 13 => ['\\', 'r']
  | 34 => ['\\', '"']
  | 39 => ['\\', '\'']
  | 92 => ['\\', '\\']
  | n => if 32 ≤ n ∧ n < 127 then [Char.ofNat n] else '\\' :: 'x' :: hexDigits b

/-- Any bytes written in printable ASCII. -/
def escaped (bytes : Bytes) : List Char := bytes.flatMap escapedByte

/-- A reader of UTF-8 between two bytes: at a character's start, or inside one with the code collected so far, the
number of bytes still due and the range the next one must lie in. -/
inductive Utf8State where
  | start
  | inside (code : Nat) (due : Nat) (low high : Nat)

/-- What stands for bytes that are not UTF-8. -/
def replacement : Char := '\uFFFD'

/-- The first byte of a character. Overlong forms and surrogates are excluded by the range of the second byte. -/
def leadByte (b : Nat) : Utf8State × List Char :=
  if b < 0x80 then (.start, [Char.ofNat b])
  else if b < 0xC2 then (.start, [replacement])
  else if b < 0xE0 then (.inside (b - 0xC0) 1 0x80 0xBF, [])
  else if b < 0xF0 then
    (.inside (b - 0xE0) 2 (if b = 0xE0 then 0xA0 else 0x80) (if b = 0xED then 0x9F else 0xBF), [])
  else if b < 0xF5 then
    (.inside (b - 0xF0) 3 (if b = 0xF0 then 0x90 else 0x80) (if b = 0xF4 then 0x8F else 0xBF), [])
  else (.start, [replacement])

/-- One byte of possibly malformed UTF-8: the state after it and the characters that are now settled. -/
def Utf8State.step : Utf8State → UInt8 → Utf8State × List Char
  | .start, b => leadByte b.toNat
  | .inside code due low high, b =>
    if low ≤ b.toNat ∧ b.toNat ≤ high then
      let code := code * 64 + b.toNat % 64
      if due = 1 then (.start, [Char.ofNat code]) else (.inside code (due - 1) 0x80 0xBF, [])
    else
      let (state, chars) := leadByte b.toNat
      (state, replacement :: chars)

/-- The characters left when the bytes end. -/
def Utf8State.finish : Utf8State → List Char
  | .start => []
  | .inside .. => [replacement]

/-- The text of the bytes, each longest malformed piece replaced by one mark. -/
def toStringLossy (bytes : Bytes) : String :=
  let (state, reversed) := bytes.foldl
    (fun (acc : Utf8State × List Char) b =>
      let (state, chars) := acc.1.step b
      (state, chars.reverse ++ acc.2))
    (Utf8State.start, [])
  String.ofList (reversed.reverse ++ state.finish)

end Bytes

/-- Whether `needle` stands somewhere in the list as a contiguous part. -/
def occursIn {α : Type} [BEq α] (needle : List α) : List α → Bool
  | [] => needle.isEmpty
  | x :: rest => needle.isPrefixOf (x :: rest) || occursIn needle rest

theorem occursIn_append {needle chars : List Char} (occurs : occursIn needle chars = true) (before : List Char) :
    occursIn needle (before ++ chars) = true := by
  induction before with
  | nil => exact occurs
  | cons c before ih =>
    rw [List.cons_append, occursIn, ih, Bool.or_true]

/-- A list occurs in another if it is a contiguous part of it. -/
theorem occursIn_iff {α : Type} [BEq α] [LawfulBEq α] {needle whole : List α} :
    occursIn needle whole = true ↔ needle <:+: whole := by
  induction whole with
  | nil => rw [occursIn, List.isEmpty_iff, List.infix_nil]
  | cons x whole ih => rw [occursIn, Bool.or_eq_true, ih, List.isPrefixOf_iff_prefix, List.infix_cons_iff]

/-- Whether `needle` stands somewhere in the text. -/
def textOccursIn (needle text : String) : Bool := occursIn needle.toList text.toList

end TestIsolation
