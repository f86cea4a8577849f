/-
# Regular expressions

Patterns in lines of text, in the basic and in the extended notation.  A match is the leftmost one,
and of those that start there the longest.
-/
import Registrar.Script.Wildcard

namespace Registrar.Script

/-- A regular expression. -/
inductive Regular where
  | empty
  | any
  | oneOf (set : CharacterSet)
  /-- The front of the text. -/
  | front
  /-- The end of the text. -/
  | back
  /-- The front of a word, its end, or either. -/
  | wordEdge (isFront isBack : Bool)
  | group (index : Nat) (r : Regular)
  /-- The text of a group that has been matched. -/
  | again (index : Nat)
  | both (a b : Regular)
  | either (a b : Regular)
  | many (r : Regular) (least : Nat) (most : Option Nat)

namespace Regular

/-! ## Reading -/

/-- A part of the notation of a regular expression. -/
inductive Mark where
  | literal (c : Char)
  | item (r : Regular)
  | openGroup
  | closeGroup
  | bar
  | repetition (least : Nat) (most : Option Nat)
  | caret
  | dollar

/-- The set of a single character. -/
def single (c : Char) : Regular :=
  oneOf ⟨false, [(c, c)]⟩

/-- The characters of a word. -/
def wordRanges : List (Char × Char) :=
  [('0', '9'), ('A', 'Z'), ('a', 'z'), ('_', '_')]

/-- What a letter behind a backslash stands for in both notations. -/
def escape (c : Char) : Mark :=
  if c = 'n' then .literal '\n'
  else if c = 't' then .literal '\t'
  else if c = 'w' then .item (oneOf ⟨false, wordRanges⟩)
  else if c = 'W' then .item (oneOf ⟨true, wordRanges⟩)
  else if c = 's' then .item (oneOf ⟨false, [('\t', '\x0d'), (' ', ' ')]⟩)
  else if c = 'S' then .item (oneOf ⟨true, [('\t', '\x0d'), (' ', ' ')]⟩)
  else if c = 'b' then .item (wordEdge true true)
  else if c = '<' then .item (wordEdge true false)
  else if c = '>' then .item (wordEdge false true)
  else if c.isDigit then .item (again (c.toNat - '0'.toNat))
  else .literal c

/-- The bounds of a repetition up to a closing mark, and what follows the mark. -/
def bounds? (closing cs : List Char) : Option (Mark × List Char) := do
  let (inner, rest) ← Chars.breakOn? closing cs
  match Chars.splitOn ',' inner with
  | [n] => pure (.repetition (← (String.ofList n).toNat?) (← (String.ofList n).toNat?), rest)
  | [n, []] => pure (.repetition (← (String.ofList n).toNat?) none, rest)
  | [[], m] => pure (.repetition 0 (← (String.ofList m).toNat?), rest)
  | [n, m] => pure (.repetition (← (String.ofList n).toNat?) (← (String.ofList m).toNat?), rest)
  | _ => none

/-- The mark at the front of a text. -/
def mark? (isExtended : Bool) : List Char → Option (Mark × List Char)
  | [] => none
  | '[' :: cs => (characterSet? ['^'] cs).map fun (set, rest) => (.item (oneOf set), rest)
  | '.' :: cs => some (.item any, cs)
  | '*' :: cs => some (.repetition 0 none, cs)
  | '^' :: cs => some (.caret, cs)
  | '$' :: cs => some (.dollar, cs)
  | '\\' :: c :: cs =>
    if isExtended then some (escape c, cs)
    else if c = '(' then some (.openGroup, cs)
    else if c = ')' then some (.closeGroup, cs)
    else if c = '|' then some (.bar, cs)
    else if c = '+' then some (.repetition 1 none, cs)
    else if c = '?' then some (.repetition 0 (some 1), cs)
    else if c = '{' then bounds? ['\\', '}'] cs
    else some (escape c, cs)
  | ['\\'] => none
  | c :: cs =>
    if !isExtended then some (.literal c, cs)
    else if c = '(' then some (.openGroup, cs)
    else if c = ')' then some (.closeGroup, cs)
    else if c = '|' then some (.bar, cs)
    else if c = '+' then some (.repetition 1 none, cs)
    else if c = '?' then some (.repetition 0 (some 1), cs)
    else if c = '{' then
      match bounds? ['}'] cs with
      | some found => some found
      | none => some (.literal c, cs)
    else some (.literal c, cs)

/-- The marks of a text. -/
def marks? (isExtended : Bool) : (fuel : Nat) → List Char → Option (List Mark)
  | _, [] => some []
  | 0, _ => none
  | fuel + 1, cs => do
    let (mark, rest) ← mark? isExtended cs
    let others ← marks? isExtended fuel rest
    pure (mark :: others)

/-- An expression with the repetitions that stand behind it. -/
def repeated (r : Regular) : List Mark → Regular × List Mark
  | .repetition least most :: ms => repeated (many r least most) ms
  | ms => (r, ms)

mutual

/-- The alternatives at the front of some marks; `groups` of them have been opened before. -/
def alternatives? (isExtended : Bool) : (fuel groups : Nat) → List Mark →
    Option (Regular × Nat × List Mark)
  | 0, _, _ => none
  | fuel + 1, groups, ms => do
    let (a, groups, rest) ← branch? isExtended fuel groups true ms
    match rest with
    | .bar :: rest => do
      let (b, groups, rest) ← alternatives? isExtended fuel groups rest
      pure (either a b, groups, rest)
    | rest => pure (a, groups, rest)

/-- The expressions up to the next bar or closing parenthesis. -/
def branch? (isExtended : Bool) : (fuel groups : Nat) → (isFirst : Bool) → List Mark →
    Option (Regular × Nat × List Mark)
  | 0, _, _, _ => none
  | fuel + 1, groups, isFirst, ms =>
    let behind (r : Regular) (groups : Nat) (rest : List Mark) := do
      let (r, rest) := repeated r rest
      let (others, groups, rest) ← branch? isExtended fuel groups false rest
      pure (both r others, groups, rest)
    match ms with
    | [] => some (empty, groups, [])
    | .bar :: _ => some (empty, groups, ms)
    | .closeGroup :: _ => some (empty, groups, ms)
    | .literal c :: rest => behind (single c) groups rest
    | .item r :: rest => behind r groups rest
    | .openGroup :: rest => do
      let index := groups + 1
      match ← alternatives? isExtended fuel index rest with
      | (r, groups, .closeGroup :: rest) => behind (group index r) groups rest
      | _ => none
    | .repetition least most :: rest =>
      if isFirst && least = 0 && most = none && !isExtended then behind (single '*') groups rest
      else if isFirst then none
      else behind (many empty least most) groups rest
    | .caret :: rest =>
      if isExtended then behind front groups rest
      else if isFirst then do
        let (others, groups, rest) ← branch? isExtended fuel groups true rest
        pure (both front others, groups, rest)
      else behind (single '^') groups rest
    | .dollar :: rest =>
      let isLast := match rest with
        | [] | .bar :: _ | .closeGroup :: _ => true
        | _ => false
      if isExtended || isLast then behind back groups rest else behind (single '$') groups rest

end

/-- The expression that a text spells. -/
def parse? (isExtended : Bool) (text : String) : Option Regular := do
  let ms ← marks? isExtended text.length text.toList
  match ← alternatives? isExtended (3 * ms.length + 3) 0 ms with
  | (r, _, []) => pure r
  | _ => none

/-- The expression that stands for a text itself. -/
def ofText (text : String) : Regular :=
  text.toList.foldr (fun c r => both (single c) r) empty

/-! ## Matching -/

/-- A place in a text. -/
structure Cursor where
  /-- The character in front of the place. -/
  previous : Option Char := none
  rest : List Char
  /-- The texts of the groups that have been matched. -/
  groups : List (Nat × List Char) := []

/-- The text between a place and a later one. -/
def Cursor.textTo (a b : Cursor) : List Char :=
  a.rest.take (a.rest.length - b.rest.length)

/-- The place behind some characters. -/
def Cursor.advance (n : Nat) (a : Cursor) : Cursor :=
  match n with
  | 0 => a
  | n + 1 => { a with previous := a.rest[n]?, rest := a.rest.drop (n + 1) }

/-- Whether a character belongs to a word. -/
def isWordPart (c : Char) : Bool :=
  c.isAlphanum || c = '_'

/-- Whether two characters are the same, or the same but for their case. -/
def isSame (ignoresCase : Bool) (a b : Char) : Bool :=
  a = b || (ignoresCase && a.toLower = b.toLower)

/-- The places at which a match from a given place may end, the ones that prefer to go on first. -/
def ends (ignoresCase : Bool) : (fuel : Nat) → Regular → Cursor → List Cursor
  | 0, _, _ => []
  | fuel + 1, r, place =>
    match r with
    | empty => [place]
    | any => if place.rest.isEmpty then [] else [place.advance 1]
    | oneOf set =>
      match place.rest with
      | [] => []
      | c :: _ =>
        if set.has c || (ignoresCase && (set.has c.toLower || set.has c.toUpper)) then
          [place.advance 1]
        else []
    | front => if place.previous.isNone then [place] else []
    | back => if place.rest.isEmpty then [place] else []
    | wordEdge isFront isBack =>
      let before := place.previous.any isWordPart
      let after := place.rest.head?.any isWordPart
      if (isFront && !before && after) || (isBack && before && !after) then [place] else []
    | group index r =>
      (ends ignoresCase fuel r place).map fun last =>
        { last with groups := (index, place.textTo last) :: last.groups }
    | again index =>
      let text := (place.groups.lookup index).getD []
      let found := place.rest.take text.length
      let isEqual (pair : Char × Char) : Bool := isSame ignoresCase pair.1 pair.2
      if found.length = text.length && (found.zip text).all isEqual then
        [place.advance text.length]
      else []
    | both a b => (ends ignoresCase fuel a place).flatMap (ends ignoresCase fuel b)
    | either a b => ends ignoresCase fuel a place ++ ends ignoresCase fuel b place
    | many r least most =>
      let further :=
        if most = some 0 then []
        else (ends ignoresCase fuel r place).flatMap fun next =>
          if least = 0 && next.rest.length = place.rest.length then []
          else ends ignoresCase fuel (many r (least - 1) (most.map (· - 1))) next
      if least = 0 then further ++ [place] else further

/-- The number of calls that matching may take at most, one inside of the other. -/
def depth : Regular → Nat
  | group _ r => r.depth + 1
  | both a b => a.depth + b.depth + 1
  | either a b => a.depth + b.depth + 1
  | many r least _ => r.depth + least + 1
  | _ => 1

/-- The longest match from a given place. -/
def matchAt? (r : Regular) (ignoresCase : Bool) (place : Cursor) : Option Cursor :=
  (ends ignoresCase (r.depth + place.rest.length + 2) r place).foldl
    (fun best last =>
      match best with
      | none => some last
      | some b => if last.rest.length < b.rest.length then some last else best)
    none

/-- The leftmost match from a given place on: its two ends. -/
def search? (r : Regular) (ignoresCase : Bool) (place : Cursor) : Option (Cursor × Cursor) :=
  (List.range (place.rest.length + 1)).findSome? fun n =>
    let here := place.advance n
    (r.matchAt? ignoresCase here).map fun last => (here, last)

/-- Whether a text holds a match. -/
def occursIn (r : Regular) (ignoresCase : Bool) (text : List Char) : Bool :=
  (r.search? ignoresCase { rest := text }).isSome

end Regular

end Registrar.Script
