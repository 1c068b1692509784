import Mathlib.Data.List.TakeWhile
import TestIsolation.Json.Reader

/-!
# Reading back written JSON

A value without doubles, whose integers fit 64 bits and whose containers are not nested beyond the reader's depth, is
read back from its compact form (`parse?_render`). The way is that of the reader: the characters of the value scan to
`JsonValue.tokens` (`scanFrom_chars`), and the tokens settle the value (`run_tokens`).
-/

namespace TestIsolation

set_option autoImplicit false

/-! ## Numbers -/

namespace JsonNumber

/-- An integer of 64 bits, with or without a sign. -/
def isExact : JsonNumber → Bool
  | integer n => decide (-(UInt64.size : Int) ≤ 2 * n ∧ n < UInt64.size)
  | float _ => false

theorem toDigits_head_ne_zero (n : Nat) (h : 0 < n) : (Nat.toDigits 10 n).head? ≠ some '0' := by
  induction n using Nat.strongRecOn with
  | ind n ih =>
    by_cases small : n < 10
    · rw [Nat.toDigits_of_lt_base small]
      simp only [List.head?_cons, ne_eq, Option.some.injEq, Nat.digitChar_eq_zero]
      omega
    · rw [Nat.toDigits_of_base_le (by omega) (by omega)]
      have front := ih (n / 10) (by omega) (by omega)
      cases digits : Nat.toDigits 10 (n / 10) with
      | nil => exact absurd digits Nat.toDigits_ne_nil
      | cons d ds => simpa [digits] using front

theorem length_toDigits_of_head {n : Nat} (h : (Nat.toDigits 10 n).head? = some '0') :
    (Nat.toDigits 10 n).length = 1 := by
  cases n with
  | zero => simp
  | succ n => exact absurd h (toDigits_head_ne_zero _ (by omega))

/-- Digits alone make up the whole of a number. -/
theorem written?_digits (sign : List Char) (negative : Bool) {digits : List Char}
    (signed : sign = if negative then ['-'] else []) (nonempty : digits ≠ []) (all : ∀ c ∈ digits, c.isDigit = true)
    (lead : digits.head? = some '0' → digits.length = 1) :
    written? (sign ++ digits) = some ⟨negative, digits, [], 0, true⟩ := by
  have taken : digits.takeWhile Char.isDigit = digits := List.takeWhile_eq_self_iff.2 all
  have dropped : digits.dropWhile Char.isDigit = [] := List.dropWhile_eq_nil_iff.2 all
  have leading : ¬(digits = [] ∨ digits.head? = some '0' ∧ digits.length ≠ 1) := by
    rintro (empty | ⟨zero, long⟩)
    · exact nonempty empty
    · exact long (lead zero)
  cases negative with
  | true =>
    subst signed
    simp only [if_true, List.singleton_append, written?, taken, dropped, if_neg leading]
    rfl
  | false =>
    subst signed
    cases digits with
    | nil => exact absurd rfl nonempty
    | cons d ds =>
      have notSign : d ≠ '-' := by
        rintro rfl
        exact absurd (all '-' (by simp)) (by decide)
      simp only [Bool.false_eq_true, if_false, List.nil_append, written?]
      split
      · rename_i eq
        exact absurd (List.cons.inj eq).1 notSign
      · simp only [taken, dropped, if_neg leading]
        rfl

theorem digitsValue_toDigits (n : Nat) : digitsValue (Nat.toDigits 10 n) = n := by
  have value := Nat.ofDigitChars_ten_toDigits (n := n)
  rwa [Nat.ofDigitChars_eq_foldl] at value

theorem isDigit_of_mem_toDigits {k : Nat} : ∀ c ∈ Nat.toDigits 10 k, c.isDigit = true := fun _ mem =>
  Nat.isDigit_of_mem_toDigits (by omega) (by omega) mem

theorem numberChars_ofNat (k : Nat) : JsonValue.numberChars (.integer (Int.ofNat k)) = Nat.toDigits 10 k :=
  Nat.toList_repr

theorem numberChars_negSucc (k : Nat) :
    JsonValue.numberChars (.integer (Int.negSucc k)) = '-' :: Nat.toDigits 10 (k + 1) := by
  simp only [JsonValue.numberChars, Int.toString_eq_repr]
  rw [Int.repr]
  simp [Nat.toList_repr]

/-- An integer is written as a sign or a digit and more digits. -/
theorem numberChars_eq_cons {n : JsonNumber} (exact : n.isExact = true) :
    ∃ lead tail, JsonValue.numberChars n = lead :: tail ∧ (lead = '-' ∨ lead.isDigit = true) ∧
      ∀ c ∈ tail, c.isDigit = true := by
  cases n with
  | float x => simp [isExact] at exact
  | integer n =>
    cases n with
    | ofNat k =>
      have chars := numberChars_ofNat k
      cases digits : Nat.toDigits 10 k with
      | nil => exact absurd digits Nat.toDigits_ne_nil
      | cons d ds =>
        have all : ∀ c ∈ d :: ds, c.isDigit = true := digits ▸ isDigit_of_mem_toDigits
        exact ⟨d, ds, chars.trans digits, .inr (all d (by simp)), fun c mem => all c (by simp [mem])⟩
    | negSucc k => exact ⟨'-', _, numberChars_negSucc k, .inl rfl, isDigit_of_mem_toDigits⟩

/-- The characters of an integer of 64 bits spell that integer. -/
theorem ofChars?_numberChars {n : JsonNumber} (exact : n.isExact = true) :
    ofChars? (JsonValue.numberChars n) = some n := by
  cases n with
  | float x => simp [isExact] at exact
  | integer n =>
    simp only [isExact, decide_eq_true_eq] at exact
    have bound : UInt64.size = 18446744073709551616 := rfl
    cases n with
    | ofNat k =>
      have written := written?_digits [] false rfl Nat.toDigits_ne_nil isDigit_of_mem_toDigits
        (length_toDigits_of_head (n := k))
      rw [numberChars_ofNat, ofChars?, ← List.nil_append (Nat.toDigits 10 k), written]
      have fits : k < UInt64.size := by simp only [Int.ofNat_eq_natCast] at exact; omega
      simp [digitsValue_toDigits, fits, pure, bind]
    | negSucc k =>
      have written := written?_digits ['-'] true rfl Nat.toDigits_ne_nil isDigit_of_mem_toDigits
        (length_toDigits_of_head (n := k + 1))
      rw [numberChars_negSucc, ofChars?, ← List.singleton_append, written]
      have fits : 2 * (k + 1) ≤ UInt64.size := by omega
      simp [digitsValue_toDigits, fits, pure, bind, Int.negSucc_eq]

end JsonNumber

/-! ## Scanning -/

namespace JsonToken

/-- What may follow a value: the end of the text, a comma or the end of a container. -/
def Delimited (rest : List Char) : Prop := ∀ c ∈ rest.head?, c = ',' ∨ c = ']' ∨ c = '\x7d'

theorem delimited_nil : Delimited [] := by simp [Delimited]

theorem delimited_cons {c : Char} {rest : List Char} (h : c = ',' ∨ c = ']' ∨ c = '\x7d') : Delimited (c :: rest) := by
  simpa [Delimited] using h

/-- A literal name is complete where a value may end. -/
theorem scanFrom_word (read : List Char) {token : JsonToken} (named : ofWord? read.reverse = some token)
    (found : List JsonToken) {rest : List Char} (delimited : Delimited rest) :
    scanFrom (.word read) found rest = scanFrom .between (token :: found) rest := by
  cases rest with
  | nil => simp [scanFrom, Scanner.finish, named]
  | cons c rest =>
    have noLetter : c.isAlpha = false := by
      rcases delimited c rfl with rfl | rfl | rfl <;> rfl
    rcases delimited c rfl with rfl | rfl | rfl <;>
      simp [scanFrom, Scanner.step, named, start, bind, Option.bind, noLetter]

/-- A number is complete where a value may end. -/
theorem scanFrom_number {read : List Char} {n : JsonNumber} (spelt : JsonNumber.ofChars? read.reverse = some n)
    (found : List JsonToken) {rest : List Char} (delimited : Delimited rest) :
    scanFrom (.number read) found rest = scanFrom .between (.number n :: found) rest := by
  cases rest with
  | nil => simp [scanFrom, Scanner.finish, spelt]
  | cons c rest =>
    rcases delimited c rfl with rfl | rfl | rfl <;>
      simp [scanFrom, Scanner.step, spelt, start, bind, Option.bind, isNumberChar, Char.isDigit]

/-- A sign or a digit opens a number. -/
theorem start_number {c : Char} (first : c = '-' ∨ c.isDigit = true) : start c = some (.number [c], []) := by
  rcases first with rfl | digit
  · rfl
  · unfold start
    split
    all_goals first
      | exact absurd digit (by decide)
      | simp [digit]

theorem scanFrom_numberChars (read : List Char) (found : List JsonToken) {chars : List Char}
    (all : ∀ c ∈ chars, c.isDigit = true) (rest : List Char) :
    scanFrom (.number read) found (chars ++ rest) = scanFrom (.number (chars.reverse ++ read)) found rest := by
  induction chars generalizing read with
  | nil => rfl
  | cons c chars ih =>
    have head : isNumberChar c = true := by simp [isNumberChar, all c (by simp)]
    simp only [List.cons_append, scanFrom, Scanner.step, head, if_true, List.reverse_nil, List.nil_append]
    rw [ih (c :: read) fun d mem => all d (by simp [mem])]
    simp

theorem hexValue?_digitChar {n : Nat} (h : n < 16) : hexValue? (Nat.digitChar n) = some n := by
  revert n
  decide

/-- A digit of a code before the last. -/
theorem scanFrom_code_more {d due : Nat} (digit : d < 16) (more : 1 < due) (read : List Char) (value : Nat)
    (found : List JsonToken) (rest : List Char) :
    scanFrom (.code read none due value) found (Nat.digitChar d :: rest) =
      scanFrom (.code read none (due - 1) (16 * value + d)) found rest := by
  simp [scanFrom, Scanner.step, hexValue?_digitChar digit, pure, show ¬due ≤ 1 by omega]

/-- The last digit of the code of a control character. -/
theorem scanFrom_code_last {d value : Nat} (digit : d < 16) (control : 16 * value + d < 32) (read : List Char)
    (found : List JsonToken) (rest : List Char) :
    scanFrom (.code read none 1 value) found (Nat.digitChar d :: rest) =
      scanFrom (.string (Char.ofNat (16 * value + d) :: read)) found rest := by
  simp [scanFrom, Scanner.step, hexValue?_digitChar digit, pure, codeRead,
    show ¬(55296 ≤ 16 * value + d ∧ 16 * value + d < 56320) by omega,
    show ¬(56320 ≤ 16 * value + d ∧ 16 * value + d < 57344) by omega]

/-- A control character's code is read as that character. -/
theorem scanFrom_code {n : Nat} (control : n < 32) (read : List Char) (found : List JsonToken) (rest : List Char) :
    scanFrom (.string read) found
        (['\\', 'u', '0', '0', Nat.digitChar (n / 16), Nat.digitChar (n % 16)] ++ rest) =
      scanFrom (.string (Char.ofNat n :: read)) found rest := by
  have opened : scanFrom (.string read) found
      (['\\', 'u', '0', '0', Nat.digitChar (n / 16), Nat.digitChar (n % 16)] ++ rest) =
      scanFrom (.code read none 4 0) found
        (Nat.digitChar 0 :: Nat.digitChar 0 :: Nat.digitChar (n / 16) :: Nat.digitChar (n % 16) :: rest) := by
    simp [scanFrom, Scanner.step, Nat.digitChar]
  rw [opened, scanFrom_code_more (by omega) (by omega), scanFrom_code_more (by omega) (by omega),
    scanFrom_code_more (by omega) (by omega), scanFrom_code_last (by omega) (by omega)]
  rw [show 16 * (16 * (16 * (16 * 0 + 0) + 0) + n / 16) + n % 16 = n by omega]

/-- What an escape stands for is read as that character. -/
theorem scanFrom_escapedChar (c : Char) (read : List Char) (found : List JsonToken) (rest : List Char) :
    scanFrom (.string read) found (JsonValue.escapedChar c ++ rest) = scanFrom (.string (c :: read)) found rest := by
  unfold JsonValue.escapedChar
  split
  · simp [scanFrom, Scanner.step, shortEscape?]
  · simp [scanFrom, Scanner.step, shortEscape?]
  · simp [scanFrom, Scanner.step, shortEscape?]
  · simp [scanFrom, Scanner.step, shortEscape?]
  · simp [scanFrom, Scanner.step, shortEscape?]
  · rename_i notQuote notBackslash _ _ _
    split
    · rename_i code
      rw [← Char.ofNat_toNat c, code]
      simp [scanFrom, Scanner.step, shortEscape?]
    · rename_i code
      rw [← Char.ofNat_toNat c, code]
      simp [scanFrom, Scanner.step, shortEscape?]
    · split
      · rename_i control
        rw [scanFrom_code control, Char.ofNat_toNat]
      · rename_i printable
        simp only [List.singleton_append, scanFrom, Scanner.step]
        rw [if_neg notQuote, if_neg notBackslash, if_neg printable]
        rfl

theorem scanFrom_escapedChars (chars read : List Char) (found : List JsonToken) (rest : List Char) :
    scanFrom (.string read) found (chars.flatMap JsonValue.escapedChar ++ rest) =
      scanFrom (.string (chars.reverse ++ read)) found rest := by
  induction chars generalizing read with
  | nil => rfl
  | cons c chars ih =>
    rw [List.flatMap_cons, List.append_assoc, scanFrom_escapedChar, ih]
    simp

/-- A quoted string scans to the string, whatever its characters. -/
theorem scanFrom_quoted (s : String) (found : List JsonToken) (rest : List Char) :
    scanFrom .between found (JsonValue.quoted s ++ rest) = scanFrom .between (.string s :: found) rest := by
  have opened : scanFrom .between found (JsonValue.quoted s ++ rest) =
      scanFrom (.string []) found (s.toList.flatMap JsonValue.escapedChar ++ ('"' :: rest)) := by
    simp [JsonValue.quoted, scanFrom, Scanner.step, start]
  rw [opened, scanFrom_escapedChars]
  simp [scanFrom, Scanner.step]

end JsonToken

/-! ## Tokens of a value -/

namespace JsonValue

mutual

/-- No doubles, integers of 64 bits, and at most `room` containers inside each other. -/
def fits (room : Nat) : JsonValue → Bool
  | number n => n.isExact
  | array items => match room with
    | 0 => false
    | room + 1 => itemsFit room items
  | object members => match room with
    | 0 => false
    | room + 1 => membersFit room members
  | _ => true

/-- All items fit. -/
def itemsFit (room : Nat) : List JsonValue → Bool
  | [] => true
  | v :: rest => fits room v && itemsFit room rest

/-- The values of all members fit. -/
def membersFit (room : Nat) : List (String × JsonValue) → Bool
  | [] => true
  | (_, v) :: rest => fits room v && membersFit room rest

end

mutual

/-- The tokens of the compact form. -/
def tokens : JsonValue → List JsonToken
  | null => [.null]
  | boolean b => [.boolean b]
  | number n => [.number n]
  | string s => [.string s]
  | array items => .leftBracket :: (itemsTokens items ++ [.rightBracket])
  | object members => .leftBrace :: (membersTokens members ++ [.rightBrace])

/-- The tokens of an array's items. -/
def itemsTokens : List JsonValue → List JsonToken
  | [] => []
  | [v] => tokens v
  | v :: rest => tokens v ++ .comma :: itemsTokens rest

/-- The tokens of an object's members. -/
def membersTokens : List (String × JsonValue) → List JsonToken
  | [] => []
  | [(name, v)] => .string name :: .colon :: tokens v
  | (name, v) :: rest => .string name :: .colon :: (tokens v ++ .comma :: membersTokens rest)

end

/-- The tokens of items after those of the first. -/
theorem itemsTokens_cons (v : JsonValue) (others : List JsonValue) :
    itemsTokens (v :: others) =
      v.tokens ++ (if others = [] then [] else .comma :: itemsTokens others) := by
  cases others with
  | nil => simp [itemsTokens]
  | cons w others => simp [itemsTokens]

/-- The tokens of members start with a name. -/
theorem membersTokens_cons (name : String) (v : JsonValue) (others : List (String × JsonValue)) :
    membersTokens ((name, v) :: others) =
      .string name :: .colon :: (v.tokens ++ (if others = [] then [] else .comma :: membersTokens others)) := by
  cases others with
  | nil => simp [membersTokens]
  | cons m others => simp [membersTokens]

end JsonValue

namespace JsonToken

theorem scanFrom_cons_between {c : Char} (token : JsonToken) (opens : start c = some (.between, [token]))
    (found : List JsonToken) (rest : List Char) :
    scanFrom .between found (c :: rest) = scanFrom .between (token :: found) rest := by
  simp [scanFrom, Scanner.step, opens]

theorem scanFrom_exact {n : JsonNumber} (exact : n.isExact = true) (found : List JsonToken) {rest : List Char}
    (delimited : Delimited rest) :
    scanFrom .between found (JsonValue.numberChars n ++ rest) = scanFrom .between (.number n :: found) rest := by
  have spelt := JsonNumber.ofChars?_numberChars exact
  obtain ⟨lead, tail, eq, first, others⟩ := JsonNumber.numberChars_eq_cons exact
  have opened : scanFrom .between found (JsonValue.numberChars n ++ rest) =
      scanFrom (.number [lead]) found (tail ++ rest) := by
    rw [eq]
    simp [scanFrom, Scanner.step, start_number first]
  rw [opened, scanFrom_numberChars [lead] found others]
  exact scanFrom_number (by simpa [eq] using spelt) found delimited

mutual

/-- The characters of a value that fits scan to its tokens, wherever a value may end. -/
theorem scanFrom_chars {room : Nat} (v : JsonValue) (fits : v.fits room = true) (found : List JsonToken)
    {rest : List Char} (delimited : Delimited rest) :
    scanFrom .between found (v.chars ++ rest) = scanFrom .between (v.tokens.reverse ++ found) rest := by
  match v with
  | .null =>
    rw [JsonValue.chars, JsonValue.tokens]
    exact scanFrom_word ['l', 'l', 'u', 'n'] rfl found delimited
  | .boolean true =>
    rw [JsonValue.chars, JsonValue.tokens]
    exact scanFrom_word ['e', 'u', 'r', 't'] rfl found delimited
  | .boolean false =>
    rw [JsonValue.chars, JsonValue.tokens]
    exact scanFrom_word ['e', 's', 'l', 'a', 'f'] rfl found delimited
  | .number n =>
    rw [JsonValue.fits] at fits
    rw [JsonValue.chars, JsonValue.tokens]
    exact scanFrom_exact fits found delimited
  | .string s =>
    rw [JsonValue.chars, JsonValue.tokens]
    exact scanFrom_quoted s found rest
  | .array items =>
    cases room with
    | zero => simp [JsonValue.fits] at fits
    | succ room =>
      rw [JsonValue.fits] at fits
      rw [JsonValue.chars, JsonValue.tokens, List.cons_append, scanFrom_cons_between .leftBracket rfl,
        List.append_assoc, List.singleton_append, scanFrom_itemsChars items fits _ (delimited_cons (.inr (.inl rfl))),
        scanFrom_cons_between .rightBracket rfl]
      simp
  | .object members =>
    cases room with
    | zero => simp [JsonValue.fits] at fits
    | succ room =>
      rw [JsonValue.fits] at fits
      rw [JsonValue.chars, JsonValue.tokens, List.cons_append, scanFrom_cons_between .leftBrace rfl,
        List.append_assoc, List.singleton_append,
        scanFrom_membersChars members fits _ (delimited_cons (.inr (.inr rfl))),
        scanFrom_cons_between .rightBrace rfl]
      simp

theorem scanFrom_itemsChars {room : Nat} (items : List JsonValue) (fits : JsonValue.itemsFit room items = true)
    (found : List JsonToken) {rest : List Char} (delimited : Delimited rest) :
    scanFrom .between found (JsonValue.itemsChars items ++ rest) =
      scanFrom .between ((JsonValue.itemsTokens items).reverse ++ found) rest := by
  match items with
  | [] => simp [JsonValue.itemsChars, JsonValue.itemsTokens]
  | [v] =>
    simp only [JsonValue.itemsFit, Bool.and_true] at fits
    rw [JsonValue.itemsChars, JsonValue.itemsTokens]
    exact scanFrom_chars v fits found delimited
  | v :: w :: others =>
    rw [JsonValue.itemsFit, Bool.and_eq_true] at fits
    rw [JsonValue.itemsChars.eq_3 _ _ (by simp), JsonValue.itemsTokens.eq_3 _ _ (by simp), List.append_assoc,
      List.cons_append, scanFrom_chars v fits.1 found (delimited_cons (.inl rfl)),
      scanFrom_cons_between .comma rfl, scanFrom_itemsChars (w :: others) fits.2 _ delimited]
    simp

theorem scanFrom_membersChars {room : Nat} (members : List (String × JsonValue))
    (fits : JsonValue.membersFit room members = true) (found : List JsonToken) {rest : List Char}
    (delimited : Delimited rest) :
    scanFrom .between found (JsonValue.membersChars members ++ rest) =
      scanFrom .between ((JsonValue.membersTokens members).reverse ++ found) rest := by
  match members with
  | [] => simp [JsonValue.membersChars, JsonValue.membersTokens]
  | [(name, v)] =>
    simp only [JsonValue.membersFit, Bool.and_true] at fits
    rw [JsonValue.membersChars, JsonValue.membersTokens, List.append_assoc, scanFrom_quoted, List.cons_append,
      scanFrom_cons_between .colon rfl, scanFrom_chars v fits _ delimited]
    simp
  | (name, v) :: m :: others =>
    rw [JsonValue.membersFit, Bool.and_eq_true] at fits
    rw [JsonValue.membersChars.eq_3 _ _ _ (by simp), JsonValue.membersTokens.eq_3 _ _ _ (by simp),
      List.append_assoc, scanFrom_quoted, List.cons_append, scanFrom_cons_between .colon rfl,
      List.append_assoc, List.cons_append, scanFrom_chars v fits.1 _ (delimited_cons (.inl rfl)),
      scanFrom_cons_between .comma rfl, scanFrom_membersChars (m :: others) fits.2 _ delimited]
    simp

end

end JsonToken

/-! ## Reading -/

namespace JsonReader

/-- Items start where an array may end, since no value starts with a right bracket. -/
theorem run_firstItem (v : JsonValue) (others : List JsonValue) (frames : List JsonFrame) (rest : List JsonToken) :
    (firstItem frames).run (JsonValue.itemsTokens (v :: others) ++ rest) =
      (value (.array [] :: frames)).run (JsonValue.itemsTokens (v :: others) ++ rest) := by
  rw [JsonValue.itemsTokens_cons]
  cases v <;> simp [JsonValue.tokens, run, step]

theorem run_firstName (m : String × JsonValue) (others : List (String × JsonValue)) (frames : List JsonFrame)
    (rest : List JsonToken) :
    (firstName frames).run (JsonValue.membersTokens (m :: others) ++ rest) =
      (name [] frames).run (JsonValue.membersTokens (m :: others) ++ rest) := by
  rw [JsonValue.membersTokens_cons]
  simp [run, step]

mutual

/-- The tokens of a value that fits settle it. -/
theorem run_tokens {room : Nat} (v : JsonValue) (fits : v.fits room = true) (frames : List JsonFrame)
    (depth : frames.length + room ≤ maxDepth) (rest : List JsonToken) :
    (value frames).run (v.tokens ++ rest) = (settled v frames).run rest := by
  match v with
  | .null | .boolean _ | .number _ | .string _ => simp [JsonValue.tokens, run, step, startValue]
  | .array items =>
    cases room with
    | zero => simp [JsonValue.fits] at fits
    | succ room =>
      rw [JsonValue.fits] at fits
      have shallow : frames.length < maxDepth := by omega
      have opened : (value frames).run ((JsonValue.array items).tokens ++ rest) =
          (firstItem frames).run (JsonValue.itemsTokens items ++ .rightBracket :: rest) := by
        simp [JsonValue.tokens, run, step, startValue, shallow]
      rw [opened]
      exact run_itemsTokens items fits frames (by omega) rest
  | .object members =>
    cases room with
    | zero => simp [JsonValue.fits] at fits
    | succ room =>
      rw [JsonValue.fits] at fits
      have shallow : frames.length < maxDepth := by omega
      have opened : (value frames).run ((JsonValue.object members).tokens ++ rest) =
          (firstName frames).run (JsonValue.membersTokens members ++ .rightBrace :: rest) := by
        simp [JsonValue.tokens, run, step, startValue, shallow]
      rw [opened]
      exact run_membersTokens members fits frames (by omega) rest

theorem run_itemsTokens {room : Nat} (items : List JsonValue) (fits : JsonValue.itemsFit room items = true)
    (frames : List JsonFrame) (depth : frames.length + 1 + room ≤ maxDepth) (rest : List JsonToken) :
    (firstItem frames).run (JsonValue.itemsTokens items ++ .rightBracket :: rest) =
      (settled (.array items) frames).run rest := by
  match items with
  | [] => simp [JsonValue.itemsTokens, run, step]
  | v :: others =>
    rw [JsonValue.itemsFit, Bool.and_eq_true] at fits
    rw [run_firstItem, JsonValue.itemsTokens_cons, List.append_assoc, run_tokens v fits.1 _ (by simpa using depth)]
    exact run_moreItems others fits.2 v [] frames depth rest

/-- The items of an array after the first. -/
theorem run_moreItems {room : Nat} (others : List JsonValue) (fits : JsonValue.itemsFit room others = true)
    (v : JsonValue) (before : List JsonValue) (frames : List JsonFrame)
    (depth : frames.length + 1 + room ≤ maxDepth) (rest : List JsonToken) :
    (settled v (.array before :: frames)).run
        ((if others = [] then [] else .comma :: JsonValue.itemsTokens others) ++ .rightBracket :: rest) =
      (settled (.array (before.reverse ++ v :: others)) frames).run rest := by
  match others with
  | [] => simp [run, step]
  | w :: others =>
    rw [JsonValue.itemsFit, Bool.and_eq_true] at fits
    have next : (settled v (.array before :: frames)).run
        ((if w :: others = [] then [] else .comma :: JsonValue.itemsTokens (w :: others)) ++ .rightBracket :: rest) =
        (value (.array (v :: before) :: frames)).run
          (JsonValue.itemsTokens (w :: others) ++ .rightBracket :: rest) := by
      simp [run, step]
    rw [next, JsonValue.itemsTokens_cons, List.append_assoc, run_tokens w fits.1 _ (by simpa using depth),
      run_moreItems others fits.2 w (v :: before) frames depth rest]
    simp

theorem run_membersTokens {room : Nat} (members : List (String × JsonValue))
    (fits : JsonValue.membersFit room members = true) (frames : List JsonFrame)
    (depth : frames.length + 1 + room ≤ maxDepth) (rest : List JsonToken) :
    (firstName frames).run (JsonValue.membersTokens members ++ .rightBrace :: rest) =
      (settled (.object members) frames).run rest := by
  match members with
  | [] => simp [JsonValue.membersTokens, run, step]
  | (key, v) :: others =>
    rw [JsonValue.membersFit, Bool.and_eq_true] at fits
    have named : (firstName frames).run (JsonValue.membersTokens ((key, v) :: others) ++ .rightBrace :: rest) =
        (value (.member [] key :: frames)).run (v.tokens ++
          ((if others = [] then [] else .comma :: JsonValue.membersTokens others) ++ .rightBrace :: rest)) := by
      rw [run_firstName, JsonValue.membersTokens_cons]
      simp [run, step]
    rw [named, run_tokens v fits.1 _ (by simpa using depth)]
    exact run_moreMembers others fits.2 key v [] frames depth rest

/-- The members of an object after the first. -/
theorem run_moreMembers {room : Nat} (others : List (String × JsonValue))
    (fits : JsonValue.membersFit room others = true) (key : String) (v : JsonValue)
    (before : List (String × JsonValue)) (frames : List JsonFrame)
    (depth : frames.length + 1 + room ≤ maxDepth) (rest : List JsonToken) :
    (settled v (.member before key :: frames)).run
        ((if others = [] then [] else .comma :: JsonValue.membersTokens others) ++ .rightBrace :: rest) =
      (settled (.object (before.reverse ++ (key, v) :: others)) frames).run rest := by
  match others with
  | [] => simp [run, step]
  | (next, w) :: others =>
    rw [JsonValue.membersFit, Bool.and_eq_true] at fits
    have named : (settled v (.member before key :: frames)).run
        ((if (next, w) :: others = [] then [] else .comma :: JsonValue.membersTokens ((next, w) :: others)) ++
          .rightBrace :: rest) =
        (value (.member ((key, v) :: before) next :: frames)).run (w.tokens ++
          ((if others = [] then [] else .comma :: JsonValue.membersTokens others) ++ .rightBrace :: rest)) := by
      rw [JsonValue.membersTokens_cons]
      simp [run, step]
    rw [named, run_tokens w fits.1 _ (by simpa using depth),
      run_moreMembers others fits.2 next w ((key, v) :: before) frames depth rest]
    simp

end

end JsonReader

/-- **Reading back.** The compact form of a value that fits the reader's depth is read as that value. -/
theorem JsonValue.parse?_render {v : JsonValue} (fits : v.fits JsonReader.maxDepth = true) :
    JsonValue.parse? v.render = some v := by
  have scanned : JsonToken.scan v.render.toList = some v.tokens := by
    have scan := JsonToken.scanFrom_chars v fits [] JsonToken.delimited_nil
    simp only [List.append_nil] at scan
    rw [JsonValue.render, String.toList_ofList, JsonToken.scan, scan]
    simp [JsonToken.scanFrom, JsonToken.Scanner.finish]
  have settled := JsonReader.run_tokens v fits [] (by simp) []
  simp only [List.append_nil] at settled
  simp [JsonValue.parse?, scanned, settled, JsonReader.run]

end TestIsolation
