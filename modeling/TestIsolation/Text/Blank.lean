/-!
# Blanks and lines

The characters with the Unicode property White_Space, the trimming of texts by them, and the division of a text into
lines.
-/

namespace TestIsolation

set_option autoImplicit false

/-- The code points with the property White_Space, as closed ranges. -/
def blankRanges : List (Nat × Nat) :=
  [(0x0009, 0x000D), (0x0020, 0x0020), (0x0085, 0x0085), (0x00A0, 0x00A0), (0x1680, 0x1680), (0x2000, 0x200A),
    (0x2028, 0x2029), (0x202F, 0x202F), (0x205F, 0x205F), (0x3000, 0x3000)]

/-- Whether a character is blank. -/
def isBlank (c : Char) : Bool := blankRanges.any fun (low, high) => low ≤ c.toNat && c.toNat ≤ high

/-- A text without the blanks at its ends. -/
def trimBlank (chars : List Char) : List Char :=
  ((chars.dropWhile isBlank).reverse.dropWhile isBlank).reverse

/-- The pieces of a text between line feeds, one more than there are line feeds. -/
def splitLines (chars : List Char) : List (List Char) :=
  let (last, pieces) := chars.foldl
    (fun (acc : List Char × List (List Char)) c =>
      if c = '\n' then ([], acc.1.reverse :: acc.2) else (c :: acc.1, acc.2))
    ([], [])
  (last.reverse :: pieces).reverse

/-- A line without a carriage return at its end. -/
def dropReturn (line : List Char) : List Char :=
  if line.getLast? = some '\r' then line.dropLast else line

/-- The lines of a text. A line ends with a line feed, before which a carriage return is dropped; what follows the last
line feed is a line if it is not empty. -/
def linesOf (text : String) : List String :=
  let pieces := splitLines text.toList
  let ended := pieces.dropLast.map dropReturn
  let rest := (pieces.getLast?.toList).filter (· ≠ [])
  (ended ++ rest).map String.ofList

end TestIsolation
