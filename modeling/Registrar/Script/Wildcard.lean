/-
# Patterns of scripts

Texts with wildcards: `*` stands for any text, `?` for any character and brackets for one of some
characters.  Patterns are compared with words, cut from values, and replaced by the paths of files.
-/
import Registrar.FileSystem.Basic

namespace Registrar.Script

/-- A set of characters, or all characters that are not in it. -/
structure CharacterSet where
  isNegated : Bool := false
  ranges : List (Char × Char)
  deriving DecidableEq, Repr

/-- Whether a character is in a set. -/
def CharacterSet.has (set : CharacterSet) (c : Char) : Bool :=
  set.ranges.any (fun range => range.1 ≤ c && c ≤ range.2) != set.isNegated

/-- The characters of a class as ranges, in ASCII. -/
def classRanges? (name : String) : Option (List (Char × Char)) :=
  match name with
  | "alpha" => some [('A', 'Z'), ('a', 'z')]
  | "digit" => some [('0', '9')]
  | "alnum" => some [('0', '9'), ('A', 'Z'), ('a', 'z')]
  | "upper" => some [('A', 'Z')]
  | "lower" => some [('a', 'z')]
  | "space" => some [('\t', '\x0d'), (' ', ' ')]
  | "blank" => some [('\t', '\t'), (' ', ' ')]
  | "punct" => some [('!', '/'), (':', '@'), ('[', '\x60'), ('{', '~')]
  | "print" => some [(' ', '~')]
  | "graph" => some [('!', '~')]
  | "cntrl" => some [('\x00', '\x1f'), ('\x7f', '\x7f')]
  | "xdigit" => some [('0', '9'), ('A', 'F'), ('a', 'f')]
  | _ => none

/-- The ranges of a set up to its closing bracket, and what follows that.  A bracket that stands
first belongs to the set. -/
def setRanges? (isFirst : Bool) : List Char → Option (List (Char × Char) × List Char)
  | [] => none
  | '[' :: ':' :: cs =>
    let name := cs.takeWhile Char.isAlpha
    match h : cs.dropWhile Char.isAlpha with
    | ':' :: ']' :: rest => do
      have : rest.length < cs.length := by
        have h1 := (List.dropWhile_sublist Char.isAlpha (l := cs)).length_le
        rw [h] at h1
        simp only [List.length_cons] at h1
        omega
      let ranges ← classRanges? (String.ofList name)
      let (others, after) ← setRanges? false rest
      pure (ranges ++ others, after)
    | _ => do
      let (others, after) ← setRanges? false (':' :: cs)
      pure (('[', '[') :: others, after)
  | a :: '-' :: b :: cs =>
    if a = ']' && !isFirst then some ([], '-' :: b :: cs)
    else if b = ']' then do
      let (others, after) ← setRanges? false ('-' :: b :: cs)
      pure ((a, a) :: others, after)
    else do
      let (others, after) ← setRanges? false cs
      pure ((a, b) :: others, after)
  | a :: cs =>
    if a = ']' && !isFirst then some ([], cs)
    else do
      let (others, after) ← setRanges? false cs
      pure ((a, a) :: others, after)
termination_by cs => cs.length

/-- The set whose opening bracket has been read; it may start with one of some marks that turn it
round. -/
def characterSet? (marks : List Char) (cs : List Char) : Option (CharacterSet × List Char) :=
  match cs with
  | [] => none
  | c :: rest =>
    if marks.contains c then
      (setRanges? true rest).map fun (ranges, after) => (⟨true, ranges⟩, after)
    else (setRanges? true cs).map fun (ranges, after) => (⟨false, ranges⟩, after)

/-- A part of a pattern. -/
inductive Wildcard where
  | char (c : Char)
  | anyText
  | anyChar
  | oneOf (set : CharacterSet)
  deriving DecidableEq, Repr

namespace Wildcard

/-- Whether a part stands for more than one text. -/
def isWild : Wildcard → Bool
  | char _ => false
  | _ => true

/-- The pattern that some characters spell, each with whether it is quoted.  A quoted character
stands for itself, and so does one behind a backslash. -/
def ofCharacters : List (Char × Bool) → List Wildcard
  | [] => []
  | (c, true) :: cs => char c :: ofCharacters cs
  | ('*', false) :: cs => anyText :: ofCharacters cs
  | ('?', false) :: cs => anyChar :: ofCharacters cs
  | ('\\', false) :: (c, _) :: cs => char c :: ofCharacters cs
  | ('[', false) :: cs =>
    match characterSet? ['!', '^'] (cs.map Prod.fst) with
    | some (set, rest) =>
      if rest.length < cs.length && !(cs.take (cs.length - rest.length)).any Prod.snd then
        oneOf set :: ofCharacters (cs.drop (cs.length - rest.length))
      else char '[' :: ofCharacters cs
    | none => char '[' :: ofCharacters cs
  | (c, false) :: cs => char c :: ofCharacters cs
termination_by cs => cs.length

/-- Whether a text is one that a pattern stands for. -/
def fits : List Wildcard → List Char → Bool
  | [], cs => cs.isEmpty
  | .anyText :: w, [] => fits w []
  | .anyText :: w, c :: cs => fits w (c :: cs) || fits (.anyText :: w) cs
  | .anyChar :: w, _ :: cs => fits w cs
  | .oneOf set :: w, c :: cs => set.has c && fits w cs
  | .char d :: w, c :: cs => c = d && fits w cs
  | _ :: _, [] => false
termination_by w cs => (cs.length, w.length)

/-- A text without the shortest or longest front that a pattern stands for. -/
def cutFront (isLongest : Bool) (w : List Wildcard) (cs : List Char) : List Char :=
  let sizes := List.range (cs.length + 1)
  let sizes := if isLongest then sizes.reverse else sizes
  match sizes.find? fun n => fits w (cs.take n) with
  | some n => cs.drop n
  | none => cs

/-- A text without the shortest or longest end that a pattern stands for. -/
def cutEnd (isLongest : Bool) (w : List Wildcard) (cs : List Char) : List Char :=
  let sizes := List.range (cs.length + 1)
  let sizes := if isLongest then sizes else sizes.reverse
  match sizes.find? fun n => fits w (cs.drop n) with
  | some n => cs.take n
  | none => cs

/-! ## Paths -/

/-- The parts between the slashes of the characters of a pattern. -/
def splitSlashes : List (Char × Bool) → List (List (Char × Bool))
  | [] => [[]]
  | (c, isQuoted) :: cs =>
    if c = '/' then [] :: splitSlashes cs
    else match splitSlashes cs with
      | [] => [[(c, isQuoted)]]
      | part :: parts => ((c, isQuoted) :: part) :: parts

/-- The names in a directory that a pattern stands for, in ascending order.  A name with a dot at
its front is hidden unless the pattern has one there. -/
def names (fs : FileSystem) (dir : Path) (w : List Wildcard) : List String :=
  match fs.listDirectory dir with
  | .error _ => []
  | .ok entries =>
    let names := (entries.map Prod.fst).filter fun name =>
      fits w name.toList && (name.toList.head? ≠ some '.' || w.head? = some (.char '.'))
    names.mergeSort fun a b => decide (a ≤ b)

/-- The paths that the parts of a pattern stand for behind a given front. -/
def pathsBehind (fs : FileSystem) : List (List (Char × Bool)) → String → List String
  | [], front => [front]
  | part :: parts, front =>
    let slash := if parts.isEmpty then "" else "/"
    let w := ofCharacters part
    if w.any isWild then
      let dir : Path := if front.isEmpty then ⟨"."⟩ else ⟨front⟩
      (names fs dir w).flatMap fun name => pathsBehind fs parts (front ++ name ++ slash)
    else pathsBehind fs parts (front ++ String.ofList (part.map Prod.fst) ++ slash)

/-- The paths that the characters of a word stand for.  A word without wildcards stands for
itself, and so does one that no path fits. -/
def paths (fs : FileSystem) (cs : List (Char × Bool)) : List String :=
  let itself := [String.ofList (cs.map Prod.fst)]
  if (ofCharacters cs).any isWild then
    let found := (pathsBehind fs (splitSlashes cs) "").filter fun path =>
      (fs.linkEntry ⟨path⟩).toOption.isSome
    if found.isEmpty then itself else found
  else itself

end Wildcard

end Registrar.Script
