/-
# Lines

A line ends at a line feed or at the end of the text, and a carriage return right before a line
feed belongs to the line end.  Joining puts one line feed between two fragments.
-/

namespace Registrar

namespace Chars

/-- A line whose end was a line feed, without a carriage return at its end. -/
def dropReturn (line : List Char) : List Char :=
  if line.getLast? = some '\r' then line.dropLast else line

/-- The lines of a text.  What follows the last line feed is a line only if it is not empty, and
keeps a carriage return at its end. -/
def lines : List Char → List (List Char)
  | [] => []
  | cs =>
    go [] cs
where
  /-- The lines of a text of whose first line `line` has been read, last character first. -/
  go (line : List Char) : List Char → List (List Char)
    | [] => if line = [] then [] else [line.reverse]
    | '\n' :: cs => dropReturn line.reverse :: go [] cs
    | c :: cs => go (c :: line) cs

/-- The fragments with a line feed between each two of them. -/
def joinLines (fragments : List (List Char)) : List Char :=
  ['\n'].intercalate fragments

/-- A text without its empty lines. -/
def removeBlankLines (cs : List Char) : List Char :=
  joinLines ((lines cs).filter fun line => !line.isEmpty)

end Chars

namespace Text

/-- The lines of a text. -/
def lines (s : String) : List String :=
  (Chars.lines s.toList).map String.ofList

/-- The fragments with a line feed between each two of them. -/
def joinLines (fragments : List String) : String :=
  String.ofList (Chars.joinLines (fragments.map String.toList))

/-- A text without its empty lines. -/
def removeBlankLines (s : String) : String :=
  String.ofList (Chars.removeBlankLines s.toList)

end Text

end Registrar
