/-
# References and line ends

What the written text of a document stands for.  A reference stands for one character and is
kept as it is; the characters around references are normalised: in text a line ends in a line
feed however it is written, and in the value of an attribute every blank is a space.
-/
import Registrar.Text.Search
import Registrar.Xml.Character

namespace Registrar.Xml

/-- The greatest number that a character reference may give. -/
def maxReference : Nat :=
  0xFFFFFFFF

/-- The character with a given number; a number that is no character gives the replacement
character, and a character that a document may not hold gives nothing. -/
def referenced? (n : Nat) : Option Char :=
  if n > maxReference then none
  else
    let c := if n.isValidChar then Char.ofNat n else Char.ofNat 0xFFFD
    if isAllowed c then some c else none

/-- The value of a digit of a character reference. -/
def digit? (base : Nat) (c : Char) : Option Nat :=
  let value? :=
    if c.isDigit then some (c.toNat - '0'.toNat)
    else if 'a' ≤ c ∧ c ≤ 'f' then some (c.toNat - 'a'.toNat + 10)
    else if 'A' ≤ c ∧ c ≤ 'F' then some (c.toNat - 'A'.toNat + 10)
    else none
  value?.filter (· < base)

/-- The number that some digits spell, of which there must be one. -/
def number? (base : Nat) : List Char → Option Nat
  | [] => none
  | cs => cs.foldlM (fun n c => (digit? base c).map (n * base + ·)) 0

/-- The character that the name between `&` and `;` stands for. -/
def character? : List Char → Option Char
  | ['l', 't'] => some '<'
  | ['g', 't'] => some '>'
  | ['a', 'm', 'p'] => some '&'
  | ['a', 'p', 'o', 's'] => some '\x27'
  | ['q', 'u', 'o', 't'] => some '"'
  | '#' :: 'x' :: digits => (number? 16 digits).bind referenced?
  | '#' :: digits => (number? 10 digits).bind referenced?
  | _ => none

/-- Characters that are written as they are. -/
def plain (cs : List Char) : List (Char × Bool) :=
  cs.map fun c => (c, false)

/-- What stands behind an `&`: a reference up to a `;`, then characters that are written as they
are. -/
def resolvePiece? (piece : List Char) : Option (List (Char × Bool)) := do
  let (name, after) ← Chars.breakOn? [';'] piece
  let c ← character? name
  pure ((c, true) :: plain after)

/-- Written text as characters, each with whether it stems from a reference.  Nothing if an `&`
starts no reference to a character. -/
def resolve? (cs : List Char) : Option (List (Char × Bool)) :=
  match Chars.splitOn '&' cs with
  | [] => some []
  | first :: pieces => (pieces.mapM resolvePiece?).map fun pieces => plain first ++ pieces.flatten

/-- Characters of text with every written line end as a line feed.  A carriage return right in front
of a reference stays one, and so does one that stands alone behind the last reference. -/
def normaliseText : List (Char × Bool) → List Char
  | [] => []
  | ('\r', false) :: ('\n', false) :: cs => '\n' :: normaliseText cs
  | ('\r', false) :: (c, true) :: cs => '\r' :: normaliseText ((c, true) :: cs)
  | ('\r', false) :: cs => '\n' :: normaliseText cs
  | [(c, true), ('\r', false)] => [c, '\r']
  | (c, _) :: cs => c :: normaliseText cs

/-- Characters of the value of an attribute with every written blank as a space. -/
def normaliseValue : List (Char × Bool) → List Char
  | [] => []
  | ('\r', false) :: ('\n', false) :: cs => ' ' :: normaliseValue cs
  | (c, true) :: cs => c :: normaliseValue cs
  | (c, false) :: cs => (if isSpace c then ' ' else c) :: normaliseValue cs

/-- What the written text between two tags stands for. -/
def decodeText? (cs : List Char) : Option String :=
  (resolve? cs).map fun cs => String.ofList (normaliseText cs)

/-- What the written value of an attribute stands for. -/
def decodeValue? (cs : List Char) : Option String :=
  (resolve? cs).map fun cs => String.ofList (normaliseValue cs)

/-- What a section of literal text stands for. -/
def decodeLiteral (cs : List Char) : String :=
  String.ofList (normaliseText (plain cs))

end Registrar.Xml
