/-
# File name patterns

A pattern is a text in which each `*` stands for any run of characters, the empty one included.
-/
import Registrar.Text.Search

namespace Registrar.Pattern

/-- Whether the pieces of a pattern after its first `*` can be laid into a text: the last piece
at its end, those before it at their earliest places from left to right. -/
def fits : List (List Char) → List Char → Bool
  | [], rest => rest.isEmpty
  | [last], rest => last.isSuffixOf rest
  | piece :: pieces, rest =>
    match Chars.breakOn? piece rest with
    | some (_, after) => fits pieces after
    | none => false

/-- Whether a text is what a pattern stands for.  What precedes the first `*` begins the text. -/
def accepts (pattern name : List Char) : Bool :=
  match Chars.splitOn '*' pattern with
  | [] => name.isEmpty
  | first :: pieces =>
    match first.isPrefixOf? name with
    | some rest => fits pieces rest
    | none => false

/-- Whether `name` is what `pattern` stands for. -/
def matchesName (pattern name : String) : Bool :=
  accepts pattern.toList name.toList

end Registrar.Pattern
