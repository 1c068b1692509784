import TestIsolation.Json.Token

/-!
# Reading JSON values

A `JsonReader` takes tokens one at a time and holds the containers that are still open, so reading is a fold over the
tokens. `JsonValue.parse?` reads a whole text, with at most `maxDepth` containers inside each other.
-/

namespace TestIsolation

set_option autoImplicit false

/-- A container that is still open, with what it holds so far, newest first. -/
inductive JsonFrame where
  | array (items : List JsonValue)
  | member (members : List (String × JsonValue)) (name : String)

/-- What the next token may be. -/
inductive JsonReader where
  /-- A value has to follow. -/
  | value (frames : List JsonFrame)
  /-- An array was just opened: an item or its end. -/
  | firstItem (frames : List JsonFrame)
  /-- An object was just opened: a name or its end. -/
  | firstName (frames : List JsonFrame)
  /-- A name has to follow. -/
  | name (members : List (String × JsonValue)) (frames : List JsonFrame)
  /-- The colon after a name has to follow. -/
  | colon (name : String) (members : List (String × JsonValue)) (frames : List JsonFrame)
  /-- A value is complete. -/
  | settled (v : JsonValue) (frames : List JsonFrame)

namespace JsonReader

/-- How many containers may lie inside each other. -/
def maxDepth : Nat := 127

/-- A token where a value may start. -/
def startValue (frames : List JsonFrame) : JsonToken → Option JsonReader
  | .null => some (settled .null frames)
  | .boolean b => some (settled (.boolean b) frames)
  | .number n => some (settled (.number n) frames)
  | .string s => some (settled (.string s) frames)
  | .leftBracket => if frames.length < maxDepth then some (firstItem frames) else none
  | .leftBrace => if frames.length < maxDepth then some (firstName frames) else none
  | _ => none

/-- One token. -/
def step : JsonReader → JsonToken → Option JsonReader
  | value frames, token => startValue frames token
  | firstItem frames, .rightBracket => some (settled (.array []) frames)
  | firstItem frames, token => startValue (.array [] :: frames) token
  | firstName frames, .rightBrace => some (settled (.object []) frames)
  | firstName frames, .string s => some (colon s [] frames)
  | firstName _, _ => none
  | name members frames, .string s => some (colon s members frames)
  | name _ _, _ => none
  | colon s members frames, .colon => some (value (.member members s :: frames))
  | colon _ _ _, _ => none
  | settled v (.array items :: frames), .comma => some (value (.array (v :: items) :: frames))
  | settled v (.array items :: frames), .rightBracket => some (settled (.array (v :: items).reverse) frames)
  | settled v (.member members s :: frames), .comma => some (name ((s, v) :: members) frames)
  | settled v (.member members s :: frames), .rightBrace => some (settled (.object ((s, v) :: members).reverse) frames)
  | settled _ _, _ => none

/-- All tokens in turn. -/
def run (reader : JsonReader) : List JsonToken → Option JsonReader
  | [] => some reader
  | token :: rest =>
    match reader.step token with
    | some reader => run reader rest
    | none => none

end JsonReader

/-- The value of a text that is one JSON value with nothing but blanks around it. -/
def JsonValue.parse? (text : String) : Option JsonValue :=
  match JsonToken.scan text.toList with
  | none => none
  | some tokens =>
    match (JsonReader.value []).run tokens with
    | some (.settled v []) => some v
    | _ => none

end TestIsolation
