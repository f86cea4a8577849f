/-
# Sets of characters

Lists of characters as they are written, with ranges and classes in them, and a utility that
replaces the characters of one list by those of another, removes them, or leaves only one of
several equal ones.
-/
import Registrar.Script.Utility.Text
import Registrar.Script.Wildcard

namespace Registrar.Script

/-- The characters from one to another. -/
def charactersBetween (a b : Char) : List Char :=
  (List.range (b.toNat + 1 - a.toNat)).map fun n => Char.ofNat (a.toNat + n)

/-- The digits of a number in base eight at the front of a text, at most `count` of them, with its
value and what follows. -/
def octal (count : Nat) (cs : List Char) : Nat × List Char :=
  let digits := (cs.take count).takeWhile fun c => '0' ≤ c && c ≤ '7'
  (digits.foldl (fun n c => n * 8 + (c.toNat - '0'.toNat)) 0, cs.drop digits.length)

/-- What a letter behind a backslash stands for. -/
def escaped : Char → Char
  | 'n' => '\n'
  | 't' => '\t'
  | 'r' => '\r'
  | 'a' => '\x07'
  | 'b' => '\x08'
  | 'f' => '\x0c'
  | 'v' => '\x0b'
  | c => c

theorem length_octal_le (count : Nat) (cs : List Char) :
    (octal count cs).2.length ≤ cs.length := by
  unfold octal
  rw [List.length_drop]
  omega

/-- The characters of a list without the backslashes in it. -/
def unescape (cs : List Char) : List Char :=
  match cs with
  | [] => []
  | '\\' :: c :: rest =>
    if '0' ≤ c && c ≤ '7' then
      Char.ofNat (octal 3 (c :: rest)).1 :: unescape (octal 3 (c :: rest)).2
    else escaped c :: unescape rest
  | c :: rest => c :: unescape rest
termination_by cs.length
decreasing_by
  · exact Nat.lt_succ_of_le (length_octal_le 3 (c :: rest))
  · exact Nat.lt_succ_of_lt (Nat.lt_succ_self _)
  · exact Nat.lt_succ_self _

theorem length_lt_of_dropWhile {p : Char → Bool} {a b : Char} {cs rest : List Char}
    (h : cs.dropWhile p = a :: b :: rest) : rest.length < cs.length := by
  have h1 := (List.dropWhile_sublist p (l := cs)).length_le
  rw [h] at h1
  simp only [List.length_cons] at h1
  omega

/-- The characters that a list with ranges and classes names, in its order. -/
def listed (cs : List Char) : List Char :=
  match cs with
  | [] => []
  | '[' :: ':' :: rest =>
    let name := String.ofList (rest.takeWhile Char.isAlpha)
    match classRanges? name, _h : rest.dropWhile Char.isAlpha with
    | some ranges, ':' :: ']' :: after =>
      (ranges.flatMap fun range => charactersBetween range.1 range.2) ++ listed after
    | _, _ => '[' :: listed (':' :: rest)
  | a :: '-' :: b :: rest => charactersBetween a b ++ listed rest
  | c :: rest => c :: listed rest
termination_by cs.length
decreasing_by
  · exact Nat.lt_succ_of_lt (Nat.lt_succ_of_lt (length_lt_of_dropWhile _h))
  · exact Nat.lt_succ_self _
  · exact Nat.lt_succ_of_lt (Nat.lt_succ_of_lt (Nat.lt_succ_self _))
  · exact Nat.lt_succ_self _

/-- Leaves one of several equal characters behind each other, if they are in a list. -/
def squeeze (isListed : Char → Bool) : List Char → List Char
  | a :: b :: cs =>
    if a = b && isListed a then squeeze isListed (b :: cs) else a :: squeeze isListed (b :: cs)
  | cs => cs

namespace Utility

/-- Exchanges the characters of the input. -/
def tr : Utility := fun fs input args =>
  let letters := (args.takeWhile fun arg => arg.toList.head? = some '-' && arg.length > 1).flatMap
    fun arg => arg.toList.drop 1
  let operands := (args.drop
    (args.takeWhile fun arg => arg.toList.head? = some '-' && arg.length > 1).length).map
    fun arg => listed (unescape arg.toList)
  let has (choice : List Char) : Bool := choice.any letters.contains
  let isDeleting := has ['d']
  let isSqueezing := has ['s']
  let isComplement := has ['c', 'C']
  let write (f : List Char → List Char) : Effect :=
    { fs := fs, output := ofText (f (textOf input).toList), readsInput := true }
  let isIn (set : List Char) (c : Char) : Bool := set.contains c != isComplement
  let exchanged (source target : List Char) (c : Char) : Char :=
    if isComplement then if source.contains c then c else target.getLast?.getD c
    else match source.reverse.idxOf? c with
      | none => c
      | some i => (target[source.length - 1 - i]?).getD (target.getLast?.getD c)
  match operands with
  | [set] =>
    if isDeleting then write (List.filter fun c => !isIn set c)
    else if isSqueezing then write (squeeze (isIn set))
    else Effect.refusal fs
  | [source, target] =>
    if isDeleting then
      if isSqueezing then
        write fun cs => squeeze target.contains (cs.filter fun c => !isIn source c)
      else Effect.refusal fs
    else if target.isEmpty then Effect.refusal fs
    else if isSqueezing then
      write fun cs => squeeze target.contains (cs.map (exchanged source target))
    else write (List.map (exchanged source target))
  | _ => Effect.refusal fs

end Utility

end Registrar.Script
