import Mathlib.Data.List.DropRight
import Mathlib.Data.Option.Basic
import TestIsolation.Run.Settings

/-!
# How durations are spelled

The texts that are read as a duration are those of a small grammar: between blanks, a machine word in decimal, alone or
followed by `ms` or `s` in either case, with blanks before that (`Spelled`). The reader tries the endings one after the
other, although a text that ends with `ms` ends with `s` as well, and trims twice. It accepts the grammar and nothing
else (`duration_read_iff`), and a limit in the environment that it does not accept leaves the default in place.
-/

namespace TestIsolation

set_option autoImplicit false

/-! ## Blanks at the ends of a text -/

section Trimming

variable {before core after chars : List Char}

/-- A text without blanks at its ends. -/
structure Trimmed (chars : List Char) : Prop where
  first : ∀ c ∈ chars.head?, isBlank c = false
  last : ∀ c ∈ chars.getLast?, isBlank c = false

theorem trimBlank_of_trimmed (trimmed : Trimmed core) (blankBefore : ∀ c ∈ before, isBlank c = true)
    (blankAfter : ∀ c ∈ after, isBlank c = true) : trimBlank (before ++ core ++ after) = core := by
  have left : (before ++ core ++ after).dropWhile isBlank = core ++ if core = [] then [] else after := by
    rw [List.append_assoc, List.dropWhile_append_of_pos blankBefore]
    cases core with
    | nil => exact List.dropWhile_eq_nil_iff.2 blankAfter
    | cons c core =>
      rw [if_neg (List.cons_ne_nil c core), List.cons_append, List.dropWhile_cons_of_neg]
      simpa using trimmed.first c rfl
  have blank : ∀ c ∈ (if core = [] then [] else after).reverse, isBlank c = true := by
    intro c mem
    split at mem
    · simp at mem
    · exact blankAfter c (List.mem_reverse.1 mem)
  rw [trimBlank, left, List.reverse_append, List.dropWhile_append_of_pos blank]
  cases ends : core.reverse with
  | nil => exact (List.reverse_eq_nil_iff.1 ends).symm
  | cons c rest =>
    have final : core.getLast? = some c := by rw [← List.head?_reverse, ends]; rfl
    rw [List.dropWhile_cons_of_neg (by simpa using trimmed.last c final), ← ends, List.reverse_reverse]

/-- Only blanks are trimmed, and all of them. -/
theorem exists_trimBlank (chars : List Char) : ∃ before after, chars = before ++ trimBlank chars ++ after ∧
    (∀ c ∈ before, isBlank c = true) ∧ (∀ c ∈ after, isBlank c = true) ∧ Trimmed (trimBlank chars) := by
  have whole : chars.dropWhile isBlank =
      trimBlank chars ++ ((chars.dropWhile isBlank).reverse.takeWhile isBlank).reverse := by
    rw [trimBlank, ← List.reverse_append, List.takeWhile_append_dropWhile, List.reverse_reverse]
  refine ⟨chars.takeWhile isBlank, ((chars.dropWhile isBlank).reverse.takeWhile isBlank).reverse, ?_, ?_, ?_, ?_⟩
  · rw [List.append_assoc, ← whole, List.takeWhile_append_dropWhile]
  · exact fun c mem => List.mem_takeWhile_imp mem
  · exact fun c mem => List.mem_takeWhile_imp (List.mem_reverse.1 mem)
  · constructor
    · intro c leads
      have first := List.head?_dropWhile_not isBlank chars
      rwa [whole, List.head?_append, Option.mem_def.1 leads] at first
    · intro c ends
      have last := List.head?_dropWhile_not isBlank (chars.dropWhile isBlank).reverse
      rw [trimBlank, List.getLast?_reverse] at ends
      rwa [Option.mem_def.1 ends] at last

end Trimming

theorem isBlank_eq_false {c : Char} (printable : 33 ≤ c.toNat ∧ c.toNat ≤ 126) : isBlank c = false := by
  simp only [isBlank, blankRanges, List.any_cons, List.any_nil, Bool.or_false, Bool.or_eq_false_iff,
    Bool.and_eq_false_iff, decide_eq_false_iff_not]
  omega

/-! ## Machine words -/

/-- A text spells a machine word in decimal: digits, after a plus sign or alone. -/
inductive SpellsWord : List Char → Nat → Prop where
  | intro {sign digits : List Char} (plus : sign = [] ∨ sign = ['+']) (nonempty : digits ≠ [])
    (all : ∀ c ∈ digits, c.isDigit = true) (fits : Nat.ofDigitChars 10 digits 0 ≤ maxWord) :
    SpellsWord (sign ++ digits) (Nat.ofDigitChars 10 digits 0)

theorem toNat_of_isDigit {c : Char} (digit : c.isDigit = true) : 48 ≤ c.toNat ∧ c.toNat ≤ 57 := by
  simp only [Char.isDigit, Bool.and_eq_true, decide_eq_true_eq] at digit
  exact digit

/-- Every text is a sign, if it starts with one, and the rest. -/
theorem exists_sign (chars : List Char) : ∃ sign rest, chars = sign ++ rest ∧
    ((sign = [] ∧ rest.head? ≠ some '+') ∨ sign = ['+']) := by
  by_cases signed : chars.head? = some '+'
  · obtain ⟨rest, rfl⟩ := List.head?_eq_some_iff.1 signed
    exact ⟨['+'], rest, rfl, .inr rfl⟩
  · exact ⟨[], chars, rfl, .inl ⟨rfl, signed⟩⟩

theorem readWord?_append {sign digits : List Char} {n : Nat}
    (split : (sign = [] ∧ digits.head? ≠ some '+') ∨ sign = ['+']) :
    readWord? (sign ++ digits) = some n ↔ digits ≠ [] ∧ (∀ c ∈ digits, c.isDigit = true) ∧
      Nat.ofDigitChars 10 digits 0 ≤ maxWord ∧ Nat.ofDigitChars 10 digits 0 = n := by
  have taken : readWord? (sign ++ digits) = if digits = [] ∨ !digits.all Char.isDigit then none
      else if Nat.ofDigitChars 10 digits 0 ≤ maxWord then some (Nat.ofDigitChars 10 digits 0) else none := by
    obtain ⟨rfl, unsigned⟩ | rfl := split
    · unfold readWord?
      split
      · rename_i signed
        exact absurd (congrArg List.head? signed) unsigned
      · rfl
    · rfl
  have proper : ¬(digits = [] ∨ (!digits.all Char.isDigit) = true) ↔
      digits ≠ [] ∧ ∀ c ∈ digits, c.isDigit = true := by
    rw [not_or, Bool.not_eq_true', Bool.not_eq_false, List.all_eq_true]
  rw [taken]
  split
  · rename_i refused
    exact ⟨nofun, fun ⟨nonempty, all, _⟩ => absurd refused (proper.2 ⟨nonempty, all⟩)⟩
  · rename_i accepted
    have digitsOnly := proper.1 accepted
    rw [← and_assoc, and_iff_right digitsOnly, Option.ite_none_right_eq_some, Option.some.injEq]

theorem readWord?_iff {chars : List Char} {n : Nat} : readWord? chars = some n ↔ SpellsWord chars n := by
  constructor
  · intro read
    obtain ⟨sign, digits, rfl, split⟩ := exists_sign chars
    obtain ⟨nonempty, all, fits, rfl⟩ := (readWord?_append split).1 read
    exact .intro (split.imp And.left id) nonempty all fits
  · rintro ⟨plus, nonempty, all, fits⟩
    rename_i sign digits
    have unsigned : digits.head? ≠ some '+' := by
      intro signed
      have digit := all '+' (List.mem_of_mem_head? signed)
      contradiction
    exact (readWord?_append (plus.imp (fun unsign => ⟨unsign, unsigned⟩) id)).2 ⟨nonempty, all, fits, rfl⟩

namespace SpellsWord

variable {word : List Char} {n : Nat}

theorem le (spelt : SpellsWord word n) : n ≤ maxWord := by
  obtain ⟨-, -, -, fits⟩ := spelt
  exact fits

/-- A number consists of printable characters, of which none is a letter. -/
theorem sign_or_digit (spelt : SpellsWord word n) : ∀ c ∈ word, c = '+' ∨ c.isDigit = true := by
  obtain ⟨plus, -, all, -⟩ := spelt
  intro c mem
  cases List.mem_append.1 mem with
  | inl signs =>
    obtain rfl | rfl := plus
    · simp at signs
    · exact .inl (List.mem_singleton.1 signs)
  | inr digit => exact .inr (all c digit)

theorem printable (spelt : SpellsWord word n) : ∀ c ∈ word, 33 ≤ c.toNat ∧ c.toNat ≤ 57 := by
  intro c mem
  obtain rfl | digit := spelt.sign_or_digit c mem
  · decide
  · have bounds := toNat_of_isDigit digit
    omega

theorem digits_le (spelt : SpellsWord word n) : Nat.ofDigitChars 10 (word.filter Char.isDigit) 0 ≤ maxWord := by
  obtain ⟨plus, -, all, fits⟩ := spelt
  rw [List.filter_append, List.filter_eq_self.2 all]
  obtain rfl | rfl := plus
  · exact fits
  · exact fits

theorem ne_nil (spelt : SpellsWord word n) : word ≠ [] := by
  obtain ⟨-, nonempty, -, -⟩ := spelt
  exact fun empty => nonempty (List.append_eq_nil_iff.1 empty).2

theorem trimmed (spelt : SpellsWord word n) : Trimmed word := by
  constructor
  · intro c first
    have bounds := spelt.printable c (List.mem_of_mem_head? first)
    exact isBlank_eq_false (by omega)
  · intro c last
    have bounds := spelt.printable c (List.mem_of_mem_getLast? last)
    exact isBlank_eq_false (by omega)

end SpellsWord

/-! ## Durations -/

theorem withoutSuffix?_iff {suffix chars front : List Char} :
    withoutSuffix? suffix chars = some front ↔ chars = front ++ suffix := by
  unfold withoutSuffix?
  constructor
  · intro cut
    split at cut
    · rename_i ends
      obtain ⟨rest, rfl⟩ := List.isSuffixOf_iff_suffix.1 ends
      cases cut
      simp
    · cases cut
  · rintro rfl
    rw [if_pos (List.isSuffixOf_iff_suffix.2 (List.suffix_append front suffix))]
    simp

/-- A lower-case text spells a duration: a number of milliseconds alone, or a number with its unit behind it. -/
inductive SpellsDuration : List Char → Duration → Prop where
  | bare {word : List Char} {n : Nat} (spelt : SpellsWord word n) : SpellsDuration word (.ofMillis n)
  | millis {word blanks : List Char} {n : Nat} (spelt : SpellsWord word n)
    (blank : ∀ c ∈ blanks, isBlank c = true) : SpellsDuration (word ++ blanks ++ ['m', 's']) (.ofMillis n)
  | seconds {word blanks : List Char} {n : Nat} (spelt : SpellsWord word n)
    (blank : ∀ c ∈ blanks, isBlank c = true) : SpellsDuration (word ++ blanks ++ ['s']) (.ofSeconds n)

/-- A text spells a duration, in either case and between blanks. -/
def Spelled (raw : String) (d : Duration) : Prop :=
  ∃ before core after, raw.toList = before ++ core ++ after ∧ (∀ c ∈ before, isBlank c = true) ∧
    (∀ c ∈ after, isBlank c = true) ∧ SpellsDuration (core.map Char.toLower) d

/-- What a lower-case text without blanks at its ends is read as. -/
def readTrimmed? (chars : List Char) : Option Duration :=
  match withoutSuffix? ['m', 's'] chars with
  | some number => (readWord? (trimBlank number)).map Duration.ofMillis
  | none =>
    match withoutSuffix? ['s'] chars with
    | some number => (readWord? (trimBlank number)).map Duration.ofSeconds
    | none => (readWord? chars).map Duration.ofMillis

theorem readDuration?_eq (raw : String) :
    readDuration? raw = readTrimmed? ((trimBlank raw.toList).map Char.toLower) := rfl

/-- A number before a unit is read up to the blanks behind it, as nothing stands before it. -/
theorem readWord?_trimBlank_iff {front suffix : List Char} {n : Nat} (trimmed : Trimmed (front ++ suffix)) :
    readWord? (trimBlank front) = some n ↔
      ∃ word blanks, front = word ++ blanks ∧ SpellsWord word n ∧ ∀ c ∈ blanks, isBlank c = true := by
  rw [readWord?_iff]
  constructor
  · intro spelt
    obtain ⟨before, after, whole, blankBefore, blankAfter, -⟩ := exists_trimBlank front
    cases before with
    | nil => exact ⟨trimBlank front, after, whole, spelt, blankAfter⟩
    | cons c before =>
      have blank := blankBefore c List.mem_cons_self
      have visible := trimmed.first c (by rw [whole]; rfl)
      rw [blank] at visible
      cases visible
  · rintro ⟨word, blanks, rfl, spelt, blank⟩
    have same : trimBlank ([] ++ word ++ blanks) = word := trimBlank_of_trimmed spelt.trimmed (by simp) blank
    rw [List.nil_append] at same
    rwa [same]

/-- No other way of reading a text stands open: a number contains no letter. -/
theorem withoutSuffix?_eq_none {suffix chars : List Char} {c : Char} (mem : c ∈ suffix) (notMem : c ∉ chars) :
    withoutSuffix? suffix chars = none := by
  rw [Option.eq_none_iff_forall_ne_some]
  intro front cut
  rw [withoutSuffix?_iff.1 cut] at notMem
  exact notMem (List.mem_append_right front mem)

/-- A text without blanks at its ends is read as the duration it spells. -/
theorem readTrimmed?_iff {chars : List Char} {d : Duration} (trimmed : Trimmed chars) :
    readTrimmed? chars = some d ↔ SpellsDuration chars d := by
  constructor
  · intro read
    unfold readTrimmed? at read
    split at read
    · rename_i number cut
      have whole := withoutSuffix?_iff.1 cut
      subst whole
      obtain ⟨n, numbered, rfl⟩ := Option.map_eq_some_iff.1 read
      obtain ⟨word, blanks, rfl, spelt, blank⟩ := (readWord?_trimBlank_iff trimmed).1 numbered
      exact .millis spelt blank
    · split at read
      · rename_i number cut
        have whole := withoutSuffix?_iff.1 cut
        subst whole
        obtain ⟨n, numbered, rfl⟩ := Option.map_eq_some_iff.1 read
        obtain ⟨word, blanks, rfl, spelt, blank⟩ := (readWord?_trimBlank_iff trimmed).1 numbered
        exact .seconds spelt blank
      · obtain ⟨n, numbered, rfl⟩ := Option.map_eq_some_iff.1 read
        exact .bare (readWord?_iff.1 numbered)
  · intro spelling
    unfold readTrimmed?
    cases spelling with
    | bare spelt =>
      have letterless : 's' ∉ chars := fun mem => absurd (spelt.printable 's' mem) (by decide)
      rw [withoutSuffix?_eq_none (c := 's') (by simp) letterless,
        withoutSuffix?_eq_none (c := 's') (by simp) letterless]
      show (readWord? chars).map Duration.ofMillis = _
      rw [readWord?_iff.2 spelt]
      rfl
    | millis spelt blank =>
      rw [withoutSuffix?_iff.2 rfl]
      show (readWord? (trimBlank _)).map Duration.ofMillis = _
      rw [(readWord?_trimBlank_iff trimmed).2 ⟨_, _, rfl, spelt, blank⟩]
      rfl
    | seconds spelt blank =>
      rename_i word blanks n
      have letterless : 'm' ∉ word ++ blanks ++ ['s'] := by
        intro mem
        simp only [List.mem_append, List.mem_singleton] at mem
        obtain (inWord | inBlanks) | other := mem
        · exact absurd (spelt.printable 'm' inWord) (by decide)
        · exact absurd (blank 'm' inBlanks) (by decide)
        · contradiction
      rw [withoutSuffix?_eq_none (c := 'm') (by simp) letterless, withoutSuffix?_iff.2 rfl]
      show (readWord? (trimBlank _)).map Duration.ofSeconds = _
      rw [(readWord?_trimBlank_iff trimmed).2 ⟨_, _, rfl, spelt, blank⟩]
      rfl

/-! ## Either case -/

theorem isBlank_toLower (c : Char) : isBlank c.toLower = isBlank c := by
  unfold Char.toLower
  split
  · rename_i upper
    have bounds : 65 ≤ c.val.toNat ∧ c.val.toNat ≤ 90 := ⟨upper.1, upper.2⟩
    have lower : (c.val + ('a'.val - 'A'.val)).toNat = c.val.toNat + 32 := by
      rw [UInt32.toNat_add, show ('a'.val - 'A'.val).toNat = 32 from rfl]
      omega
    have visible : isBlank c = false := isBlank_eq_false (by show 33 ≤ c.val.toNat ∧ c.val.toNat ≤ 126; omega)
    rw [visible]
    apply isBlank_eq_false
    show 33 ≤ (c.val + ('a'.val - 'A'.val)).toNat ∧ (c.val + ('a'.val - 'A'.val)).toNat ≤ 126
    omega
  · rfl

theorem trimmed_map_toLower {chars : List Char} : Trimmed (chars.map Char.toLower) ↔ Trimmed chars := by
  have same (o : Option Char) : (∀ c ∈ o.map Char.toLower, isBlank c = false) ↔ ∀ c ∈ o, isBlank c = false := by
    rw [Option.forall_mem_map]
    simp only [isBlank_toLower]
  constructor
  · rintro ⟨first, last⟩
    rw [List.head?_map, same] at first
    rw [List.getLast?_map, same] at last
    exact ⟨first, last⟩
  · rintro ⟨first, last⟩
    constructor
    · rwa [List.head?_map, same]
    · rwa [List.getLast?_map, same]

namespace SpellsDuration

variable {chars : List Char} {d : Duration}

/-- A duration is a number and what follows it. -/
theorem exists_word (spelling : SpellsDuration chars d) : ∃ word tail n, chars = word ++ tail ∧ SpellsWord word n ∧
    (∀ c ∈ tail, isBlank c = true ∨ c = 'm' ∨ c = 's') ∧ tail.count 's' ≤ 1 ∧
      (tail = [] ∨ tail.getLast? = some 's') := by
  have blankless : ∀ blanks : List Char, (∀ c ∈ blanks, isBlank c = true) → blanks.count 's' = 0 := by
    intro blanks blank
    exact List.count_eq_zero.2 fun mem => absurd (blank 's' mem) (by decide)
  cases spelling with
  | bare spelt => exact ⟨chars, [], _, (List.append_nil chars).symm, spelt, by simp, by simp, .inl rfl⟩
  | millis spelt blank =>
    refine ⟨_, _, _, List.append_assoc .., spelt, ?_, ?_, .inr (by simp)⟩
    · intro c mem
      simp only [List.mem_append, List.mem_cons, List.not_mem_nil, or_false] at mem
      exact mem.imp (blank c) id
    · rw [List.count_append, blankless _ blank]
      decide
  | seconds spelt blank =>
    refine ⟨_, _, _, List.append_assoc .., spelt, ?_, ?_, .inr (by simp)⟩
    · intro c mem
      simp only [List.mem_append, List.mem_cons, List.not_mem_nil, or_false] at mem
      exact mem.imp (blank c) .inr
    · rw [List.count_append, blankless _ blank]
      decide

theorem amount (spelling : SpellsDuration chars d) : ∃ n ≤ maxWord, d = .ofMillis n ∨ d = .ofSeconds n := by
  cases spelling with
  | bare spelt => exact ⟨_, spelt.le, .inl rfl⟩
  | millis spelt => exact ⟨_, spelt.le, .inl rfl⟩
  | seconds spelt => exact ⟨_, spelt.le, .inr rfl⟩

theorem trimmed (spelling : SpellsDuration chars d) : Trimmed chars := by
  obtain ⟨word, tail, n, rfl, spelt, -, -, ends⟩ := spelling.exists_word
  constructor
  · rw [List.head?_append_of_ne_nil _ spelt.ne_nil]
    exact spelt.trimmed.first
  · obtain rfl | ends := ends
    · rw [List.append_nil]
      exact spelt.trimmed.last
    · intro c last
      rw [List.getLast?_append, ends] at last
      obtain rfl : 's' = c := Option.some.inj last
      decide

end SpellsDuration

/-- **The reader accepts the texts of the grammar**, and reads them as what they spell. -/
theorem readDuration?_iff (raw : String) (d : Duration) : readDuration? raw = some d ↔ Spelled raw d := by
  rw [readDuration?_eq]
  obtain ⟨before, after, whole, blankBefore, blankAfter, trimmed⟩ := exists_trimBlank raw.toList
  rw [readTrimmed?_iff (trimmed_map_toLower.2 trimmed)]
  constructor
  · intro spelling
    exact ⟨before, trimBlank raw.toList, after, whole, blankBefore, blankAfter, spelling⟩
  · rintro ⟨before, core, after, whole, blankBefore, blankAfter, spelling⟩
    rwa [whole, trimBlank_of_trimmed (trimmed_map_toLower.1 spelling.trimmed) blankBefore blankAfter]

/-- What is spelled is a machine word of milliseconds or of seconds. -/
theorem Spelled.amount {raw : String} {d : Duration} (spelled : Spelled raw d) :
    ∃ n ≤ maxWord, d = .ofMillis n ∨ d = .ofSeconds n := by
  obtain ⟨_, core, _, -, -, -, spelling⟩ := spelled
  exact spelling.amount

/-! ## Texts that spell no duration -/

/-- A lower-case text has a fault for which it spells no duration. -/
inductive Misspelt (chars : List Char) : Prop where
  /-- There is no digit, as in a unit or a sign alone. -/
  | noDigit (all : ∀ c ∈ chars, c.isDigit = false)
  /-- A character has no place in a duration, such as the point of a fraction. -/
  | stray (c : Char) (mem : c ∈ chars) (visible : isBlank c = false) (digitless : c.isDigit = false)
    (other : c ∉ ['+', 'm', 's'])
  /-- There is more than one unit. -/
  | doubled (twice : 1 < chars.count 's')
  /-- The digits make up no machine word. -/
  | tooLarge (large : maxWord < Nat.ofDigitChars 10 (chars.filter Char.isDigit) 0)

theorem SpellsDuration.not_misspelt {chars : List Char} {d : Duration} (spelling : SpellsDuration chars d) :
    ¬Misspelt chars := by
  obtain ⟨word, tail, n, rfl, spelt, letters, once, -⟩ := spelling.exists_word
  intro fault
  cases fault with
  | noDigit all =>
    obtain ⟨-, nonempty, digits, -⟩ := spelt
    obtain ⟨c, mem⟩ := List.exists_mem_of_ne_nil _ nonempty
    have digitless := all c (by simp [mem])
    rw [digits c mem] at digitless
    contradiction
  | stray c mem visible digitless other =>
    simp only [List.mem_cons, List.not_mem_nil, or_false, not_or] at other
    cases List.mem_append.1 mem with
    | inl inWord =>
      obtain plus | digit := spelt.sign_or_digit c inWord
      · exact other.1 plus
      · exact absurd digit (by simp [digitless])
    | inr inTail =>
      obtain blank | unit := letters c inTail
      · exact absurd blank (by simp [visible])
      · exact not_or.2 other.2 unit
  | doubled twice =>
    have letterless : word.count 's' = 0 :=
      List.count_eq_zero.2 fun mem => absurd (spelt.printable 's' mem) (by decide)
    rw [List.count_append] at twice
    omega
  | tooLarge large =>
    have letterless : tail.filter Char.isDigit = [] := by
      rw [List.filter_eq_nil_iff]
      intro c mem digit
      have bounds := toNat_of_isDigit digit
      obtain blank | rfl | rfl := letters c mem
      · rw [isBlank_eq_false (by omega)] at blank
        contradiction
      · contradiction
      · contradiction
    rw [List.filter_append, letterless, List.append_nil] at large
    exact absurd large (not_lt.2 spelt.digits_le)

/-! ## The limit of a run -/

/-- The default limit is the one that the variable spells, and three seconds if it spells none. -/
theorem Settings.defaultTimeout_iff (processors : Nat) (lookup : String → Option String) (limit : Duration) :
    (ofVariables processors lookup).defaultTimeout = limit ↔
      (∃ raw, lookup timeoutVariable = some raw ∧ Spelled raw limit) ∨
      ((∀ raw, lookup timeoutVariable = some raw → ∀ d, ¬Spelled raw d) ∧ limit = .ofSeconds 3) := by
  show ((lookup timeoutVariable).bind readDuration?).getD (.ofSeconds 3) = limit ↔ _
  simp only [← readDuration?_iff]
  cases lookup timeoutVariable with
  | none => simp [eq_comm]
  | some raw =>
    simp only [Option.bind_some, Option.some.injEq, exists_eq_left', forall_eq']
    cases readDuration? raw <;> simp [eq_comm]

/-- **Durations are read loosely, and no more loosely than that.** The texts that are read are those that spell a
duration. The limit of a run is the one that the variable for it spells, and three seconds if it spells none. -/
theorem durations_read_loosely :
    (∀ raw d, readDuration? raw = some d ↔ Spelled raw d) ∧
    (∀ raw, Misspelt ((trimBlank raw.toList).map Char.toLower) → readDuration? raw = none) ∧
    ∀ processors lookup limit, (Settings.ofVariables processors lookup).defaultTimeout = limit ↔
      (∃ raw, lookup Settings.timeoutVariable = some raw ∧ Spelled raw limit) ∨
      ((∀ raw, lookup Settings.timeoutVariable = some raw → ∀ d, ¬Spelled raw d) ∧ limit = .ofSeconds 3) := by
  refine ⟨readDuration?_iff, ?_, Settings.defaultTimeout_iff⟩
  intro raw fault
  rw [Option.eq_none_iff_forall_ne_some]
  intro d read
  obtain ⟨-, -, -, -, -, trimmed⟩ := exists_trimBlank raw.toList
  rw [readDuration?_eq, readTrimmed?_iff (trimmed_map_toLower.2 trimmed)] at read
  exact read.not_misspelt fault

/-- A limit between blanks, with a sign, leading zeros and a unit in upper case, and a fraction. -/
example : readDuration? "\t+007 MS " = some (.ofMillis 7) ∧ readDuration? "1.5s" = none := ⟨rfl, rfl⟩

end TestIsolation
