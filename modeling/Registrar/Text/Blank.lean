/-
# Blank characters and trimming

The characters with the Unicode property `White_Space`, and a text without the blanks at its
two ends.
-/

namespace Registrar

namespace Chars

/-- The ranges of characters that have the property `White_Space`, ends included. -/
def blankRanges : List (Nat × Nat) :=
  [(0x0009, 0x000D), (0x0020, 0x0020), (0x0085, 0x0085), (0x00A0, 0x00A0), (0x1680, 0x1680),
    (0x2000, 0x200A), (0x2028, 0x2029), (0x202F, 0x202F), (0x205F, 0x205F), (0x3000, 0x3000)]

/-- A blank is a character that has the property `White_Space`. -/
def isBlank (c : Char) : Bool :=
  blankRanges.any fun range => range.1 ≤ c.toNat && c.toNat ≤ range.2

/-- Without the blanks at the front. -/
def trimStart (cs : List Char) : List Char :=
  cs.dropWhile isBlank

/-- Without the blanks at the end. -/
def trimEnd (cs : List Char) : List Char :=
  (cs.reverse.dropWhile isBlank).reverse

/-- Without the blanks at either end. -/
def trim (cs : List Char) : List Char :=
  trimEnd (trimStart cs)

end Chars

namespace Text

/-- A text without the blanks at its two ends. -/
def trim (s : String) : String :=
  String.ofList (Chars.trim s.toList)

theorem toList_trim (s : String) : (trim s).toList = Chars.trim s.toList := by
  simp [trim]

/-- A text without the blanks at its two ends, or nothing if it is all blank. -/
def trimmed? (s : String) : Option String :=
  if trim s = "" then none else some (trim s)

end Text

end Registrar
