import TestIsolation.Decimal.Layout

/-!
# JSON values

A `JsonValue` keeps the members of an object as they were written, repeated names included, because the formats built
on it differ in what they make of them. `JsonValue.render` writes the compact form; `JsonValue.canonical` orders the
members of every object by name and keeps the last one of each.
-/

namespace TestIsolation

set_option autoImplicit false

/-- A number: a 64-bit integer of either sign, or a double. -/
inductive JsonNumber where
  | integer (n : Int)
  | float (x : Ieee.Double)
  deriving DecidableEq, Repr

/-- A JSON value. -/
inductive JsonValue where
  | null
  | boolean (b : Bool)
  | number (n : JsonNumber)
  | string (s : String)
  | array (items : List JsonValue)
  | object (members : List (String × JsonValue))
  deriving Repr

namespace JsonValue

/-- An integer. -/
def integer (n : Int) : JsonValue := number (.integer n)

/-- Doubles are positional from `0.00001` to below `10 ^ 16`, exponents are signed, and a halfway case goes to the even
neighbour. -/
def floatLayout : DecimalLayout := ⟨-5, 16, true, .even⟩

/-- A character inside a quoted string. Below the space there are five short escapes and otherwise a code. -/
def escapedChar (c : Char) : List Char :=
  match c with
  | '"' => ['\\', '"']
  | '\\' => ['\\', '\\']
  | '\n' => ['\\', 'n']
  | '\r' => ['\\', 'r']
  | '\t' => ['\\', 't']
  | c =>
    match c.toNat with
    | 8 => ['\\', 'b']
    | 12 => ['\\', 'f']
    | n =>
      if n < 32 then ['\\', 'u', '0', '0', Nat.digitChar (n / 16), Nat.digitChar (n % 16)]
      else [c]

/-- A quoted string. -/
def quoted (s : String) : List Char := '"' :: (s.toList.flatMap escapedChar ++ ['"'])

/-- The text of a number. -/
def numberChars : JsonNumber → List Char
  | .integer n => (toString n).toList
  | .float x => (x.render floatLayout).toList

mutual

/-- The compact form as characters. -/
def chars : JsonValue → List Char
  | null => ['n', 'u', 'l', 'l']
  | boolean true => ['t', 'r', 'u', 'e']
  | boolean false => ['f', 'a', 'l', 's', 'e']
  | number n => numberChars n
  | string s => quoted s
  | array items => '[' :: (itemsChars items ++ [']'])
  | object members => '\x7b' :: (membersChars members ++ ['\x7d'])

/-- The items of an array with their commas. -/
def itemsChars : List JsonValue → List Char
  | [] => []
  | [v] => chars v
  | v :: rest => chars v ++ ',' :: itemsChars rest

/-- The members of an object with their commas. -/
def membersChars : List (String × JsonValue) → List Char
  | [] => []
  | [(name, v)] => quoted name ++ ':' :: chars v
  | (name, v) :: rest => quoted name ++ ':' :: (chars v ++ ',' :: membersChars rest)

end

/-- The compact form. -/
def render (v : JsonValue) : String := String.ofList v.chars

/-- The value of the last member with this name, in a list where names are in order and occur once, put in place. -/
def putMember (name : String) (v : JsonValue) : List (String × JsonValue) → List (String × JsonValue)
  | [] => [(name, v)]
  | (other, w) :: rest =>
    if name < other then (name, v) :: (other, w) :: rest
    else if name = other then (name, v) :: rest
    else (other, w) :: putMember name v rest

mutual

/-- Every object's members ordered by name, the last of each name kept. -/
def canonical : JsonValue → JsonValue
  | array items => array (canonicalItems items)
  | object members => object (canonicalMembers [] members)
  | other => other

/-- The items of an array in canonical form. -/
def canonicalItems : List JsonValue → List JsonValue
  | [] => []
  | v :: rest => canonical v :: canonicalItems rest

/-- The members read so far, in canonical form, with those that follow. -/
def canonicalMembers (known : List (String × JsonValue)) :
    List (String × JsonValue) → List (String × JsonValue)
  | [] => known
  | (name, v) :: rest => canonicalMembers (putMember name (canonical v) known) rest

end

/-- The members of an object. -/
def members? : JsonValue → Option (List (String × JsonValue))
  | object members => some members
  | _ => none

/-- The value of a member of an object whose names occur once. -/
def member? (v : JsonValue) (name : String) : Option JsonValue :=
  v.members?.bind fun members => members.lookup name

/-- The text of a string value. -/
def string? : JsonValue → Option String
  | string s => some s
  | _ => none

end JsonValue

end TestIsolation
