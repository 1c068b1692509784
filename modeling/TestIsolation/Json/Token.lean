import TestIsolation.Json.Number

/-!
# JSON tokens

`JsonToken.scan` cuts a text into tokens, one character at a time. Strings come out with their escapes resolved, and
numbers as values.
-/

namespace TestIsolation

set_option autoImplicit false

/-- A token of JSON. -/
inductive JsonToken where
  | leftBracket
  | rightBracket
  | leftBrace
  | rightBrace
  | colon
  | comma
  | null
  | boolean (b : Bool)
  | number (n : JsonNumber)
  | string (s : String)
  deriving DecidableEq, Repr

namespace JsonToken

/-- Where the scanner stands. Characters read so far are held newest first. -/
inductive Scanner where
  | between
  /-- Inside a literal name. -/
  | word (read : List Char)
  /-- Inside a number. -/
  | number (read : List Char)
  /-- Inside a string. -/
  | string (read : List Char)
  /-- After a backslash. -/
  | escape (read : List Char)
  /-- Inside a code, with digits still due; `high` is the first half of a surrogate pair that precedes it. -/
  | code (read : List Char) (high : Option Nat) (due : Nat) (value : Nat)
  /-- After the first half of a pair, where a backslash must follow. -/
  | pairBackslash (read : List Char) (high : Nat)
  /-- After that backslash, where the letter of a code must follow. -/
  | pairLetter (read : List Char) (high : Nat)
  deriving DecidableEq, Repr

/-- The value of a hexadecimal digit. -/
def hexValue? (c : Char) : Option Nat :=
  if '0' ≤ c ∧ c ≤ '9' then some (c.toNat - '0'.toNat)
  else if 'a' ≤ c ∧ c ≤ 'f' then some (c.toNat - 'a'.toNat + 10)
  else if 'A' ≤ c ∧ c ≤ 'F' then some (c.toNat - 'A'.toNat + 10)
  else none

/-- The character of a short escape. -/
def shortEscape? : Char → Option Char
  | '"' => some '"'
  | '\\' => some '\\'
  | '/' => some '/'
  | 'b' => some (Char.ofNat 8)
  | 'f' => some (Char.ofNat 12)
  | 'n' => some '\n'
  | 'r' => some '\r'
  | 't' => some '\t'
  | _ => none

/-- Characters that numbers consist of. -/
def isNumberChar (c : Char) : Bool := c.isDigit || c = '-' || c = '+' || c = '.' || c = 'e' || c = 'E'

/-- A character outside of any token: blank, a token of its own, or the first of one. -/
def start (c : Char) : Option (Scanner × List JsonToken) :=
  match c with
  | ' ' | '\n' | '\r' | '\t' => some (.between, [])
  | '[' => some (.between, [leftBracket])
  | ']' => some (.between, [rightBracket])
  | '\x7b' => some (.between, [leftBrace])
  | '\x7d' => some (.between, [rightBrace])
  | ':' => some (.between, [colon])
  | ',' => some (.between, [comma])
  | '"' => some (.string [], [])
  | c =>
    if c = '-' ∨ c.isDigit then some (.number [c], [])
    else if c.isAlpha then some (.word [c], [])
    else none

/-- The token of a literal name. -/
def ofWord? (name : List Char) : Option JsonToken :=
  if name = ['n', 'u', 'l', 'l'] then some null
  else if name = ['t', 'r', 'u', 'e'] then some (boolean true)
  else if name = ['f', 'a', 'l', 's', 'e'] then some (boolean false)
  else none

/-- A complete code: a character, the first half of a pair, or with such a half before it the pair's character. -/
def codeRead (read : List Char) (high : Option Nat) (value : Nat) : Option Scanner :=
  let isHigh : Bool := 0xD800 ≤ value ∧ value < 0xDC00
  let isLow : Bool := 0xDC00 ≤ value ∧ value < 0xE000
  match high with
  | some h =>
    if isLow then some (.string (Char.ofNat (0x10000 + (h - 0xD800) * 0x400 + (value - 0xDC00)) :: read)) else none
  | none =>
    if isHigh then some (.pairBackslash read value)
    else if isLow then none
    else some (.string (Char.ofNat value :: read))

/-- One character: the scanner after it and the tokens that are now complete. -/
def Scanner.step : Scanner → Char → Option (Scanner × List JsonToken)
  | .between, c => start c
  | .word read, c =>
    if c.isAlpha then some (.word (c :: read), [])
    else do
      let token ← ofWord? read.reverse
      let (scanner, tokens) ← start c
      return (scanner, token :: tokens)
  | .number read, c =>
    if isNumberChar c then some (.number (c :: read), [])
    else do
      let n ← JsonNumber.ofChars? read.reverse
      let (scanner, tokens) ← start c
      return (scanner, JsonToken.number n :: tokens)
  | .string read, c =>
    if c = '"' then some (.between, [JsonToken.string (String.ofList read.reverse)])
    else if c = '\\' then some (.escape read, [])
    else if c.toNat < 32 then none
    else some (.string (c :: read), [])
  | .escape read, c =>
    if c = 'u' then some (.code read none 4 0, [])
    else (shortEscape? c).map fun e => (.string (e :: read), [])
  | .code read high due value, c => do
    let value := 16 * value + (← hexValue? c)
    if due ≤ 1 then return (← codeRead read high value, [])
    return (.code read high (due - 1) value, [])
  | .pairBackslash read high, c => if c = '\\' then some (.pairLetter read high, []) else none
  | .pairLetter read high, c => if c = 'u' then some (.code read (some high) 4 0, []) else none

/-- The token that the end of the text completes. -/
def Scanner.finish : Scanner → Option (List JsonToken)
  | .between => some []
  | .word read => (ofWord? read.reverse).map fun token => [token]
  | .number read => (JsonNumber.ofChars? read.reverse).map fun n => [JsonToken.number n]
  | _ => none

/-- Scans on from a state, with the tokens found so far held newest first. -/
def scanFrom (scanner : Scanner) (found : List JsonToken) : List Char → Option (List JsonToken)
  | [] => scanner.finish.map fun tokens => found.reverse ++ tokens
  | c :: rest =>
    match scanner.step c with
    | some (scanner, tokens) => scanFrom scanner (tokens.reverse ++ found) rest
    | none => none

/-- The tokens of a text; nothing where it is not made of tokens. -/
def scan (chars : List Char) : Option (List JsonToken) := scanFrom .between [] chars

end JsonToken

end TestIsolation
