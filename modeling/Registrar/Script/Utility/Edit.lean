/-
# Editing lines

A utility that runs a small program for every line of its files.  An instruction of the program may
be bound to the lines that it is for, and works on the line that has been read last.
-/
import Registrar.Script.Utility.CharacterSet
import Registrar.Script.Regular

namespace Registrar.Script

/-! ## Programs -/

/-- How the case of what is replaced changes. -/
inductive CaseChange where
  | upper
  | lower
  | upperNext
  | lowerNext
  | none
  deriving DecidableEq

/-- A part of what takes the place of a match. -/
inductive Replacement where
  | char (c : Char)
  /-- The text of a group, of which number zero is the whole match. -/
  | group (index : Nat)
  | turn (change : CaseChange)

/-- The lines that an instruction is for. -/
inductive LineAddress where
  | number (n : Nat)
  | last
  | matching (r : Regular) (ignoresCase : Bool)
  /-- Every line at some distance from another one. -/
  | every (first step : Nat)
  /-- As many lines further on. -/
  | further (n : Nat)

/-- What an instruction does. -/
inductive EditAction where
  | openBlock
  | closeBlock
  | label (name : List Char)
  | branch (name : List Char) (needsChange : Bool)
  | substitute (r : Regular) (ignoresCase : Bool) (replacement : List Replacement)
      (first : Nat) (isGlobal prints : Bool)
  | exchange (source target : List Char)
  | append (text : List Char)
  | insert (text : List Char)
  | change (text : List Char)
  | quit (status : Nat) (prints : Bool)
  /-- One of the instructions that are a letter only. -/
  | simple (letter : Char)

/-- An instruction with its place in the program. -/
structure EditInstruction where
  index : Nat
  first : Option LineAddress
  second : Option LineAddress
  isNegated : Bool
  action : EditAction

/-! ## Reading programs -/

/-- What stands up to a mark, in which the mark may stand behind a backslash or in brackets. -/
def delimited? (mark : Char) (inBrackets : Bool) : List Char → Option (List Char × List Char)
  | [] => none
  | '\\' :: c :: cs =>
    (delimited? mark inBrackets cs).map fun (text, rest) =>
      if c = mark && !inBrackets then (c :: text, rest)
      else ('\\' :: c :: text, rest)
  | c :: cs =>
    if c = mark && !inBrackets then some ([], cs)
    else
      let inBrackets := if c = '[' then true else if c = ']' then false else inBrackets
      (delimited? mark inBrackets cs).map fun (text, rest) => (c :: text, rest)

/-- What stands up to a mark in a text without brackets. -/
def plainDelimited? (mark : Char) : List Char → Option (List Char × List Char)
  | [] => none
  | '\\' :: c :: cs =>
    (plainDelimited? mark cs).map fun (text, rest) =>
      if c = mark then (c :: text, rest) else ('\\' :: c :: text, rest)
  | c :: cs =>
    if c = mark then some ([], cs)
    else (plainDelimited? mark cs).map fun (text, rest) => (c :: text, rest)

/-- What a text puts in place of a match. -/
def replacement : List Char → List Replacement
  | [] => []
  | '\\' :: c :: cs =>
    let part : Replacement :=
      if c.isDigit then .group (c.toNat - '0'.toNat)
      else match c with
        | 'n' => .char '\n'
        | 't' => .char '\t'
        | 'U' => .turn .upper
        | 'L' => .turn .lower
        | 'u' => .turn .upperNext
        | 'l' => .turn .lowerNext
        | 'E' => .turn .none
        | c => .char c
    part :: replacement cs
  | '&' :: cs => .group 0 :: replacement cs
  | c :: cs => .char c :: replacement cs

/-- The address at the front of a text, if there is one; nothing if it makes no sense. -/
def lineAddress? (isExtended : Bool) (cs : List Char) :
    Option (Option LineAddress × List Char) :=
  let number (cs : List Char) : Nat × List Char :=
    (((String.ofList (cs.takeWhile Char.isDigit)).toNat?).getD 0, cs.dropWhile Char.isDigit)
  let pattern (mark : Char) (cs : List Char) : Option (Option LineAddress × List Char) := do
    let (text, rest) ← delimited? mark false cs
    let r ← Regular.parse? isExtended (String.ofList text)
    match rest with
    | 'I' :: rest => pure (some (.matching r true), rest)
    | rest => pure (some (.matching r false), rest)
  match cs with
  | '$' :: rest => some (some .last, rest)
  | '/' :: rest => pattern '/' rest
  | '\\' :: mark :: rest => pattern mark rest
  | '+' :: rest => some (some (.further (number rest).1), (number rest).2)
  | c :: _ =>
    if c.isDigit then
      match number cs with
      | (first, '~' :: rest) => some (some (.every first (number rest).1), (number rest).2)
      | (n, rest) => some (some (.number n), rest)
    else some (none, cs)
  | [] => some (none, [])

/-- A text without the blanks at its front. -/
def skipSpaces (cs : List Char) : List Char :=
  cs.dropWhile fun c => c = ' ' || c = '\t'

/-- The text that an instruction is given, up to the end of a line that no backslash continues. -/
def givenText : List Char → List Char × List Char
  | [] => ([], [])
  | '\\' :: c :: cs => ((c :: (givenText cs).1), (givenText cs).2)
  | '\n' :: cs => ([], cs)
  | c :: cs => (c :: (givenText cs).1, (givenText cs).2)

/-- The flags behind a replacement. -/
def substitutionFlags? (cs : List Char) : Option (Nat × Bool × Bool × Bool × List Char) :=
  let flags := cs.takeWhile fun c => c.isAlphanum
  let rest := cs.dropWhile fun c => c.isAlphanum
  let digits := flags.filter Char.isDigit
  if flags.all fun c => c.isDigit || ['g', 'p', 'i', 'I', 'm', 'M'].contains c then
    some (max 1 (((String.ofList digits).toNat?).getD 1), flags.contains 'g', flags.contains 'p',
      flags.contains 'i' || flags.contains 'I', rest)
  else none

/-- The action at the front of a text. -/
def editAction? (isExtended : Bool) (cs : List Char) : Option (EditAction × List Char) :=
  let word (cs : List Char) : List Char × List Char :=
    let cs := skipSpaces cs
    (cs.takeWhile fun c => c ≠ '\n' && c ≠ ';', cs.dropWhile fun c => c ≠ '\n' && c ≠ ';')
  let given (cs : List Char) : List Char × List Char :=
    match skipSpaces cs with
    | '\\' :: '\n' :: cs => givenText cs
    | '\\' :: cs => givenText (skipSpaces cs)
    | cs => givenText cs
  match cs with
  | '{' :: rest => some (.openBlock, rest)
  | '}' :: rest => some (.closeBlock, rest)
  | ':' :: rest => some (.label (word rest).1, (word rest).2)
  | 'b' :: rest => some (.branch (word rest).1 false, (word rest).2)
  | 't' :: rest => some (.branch (word rest).1 true, (word rest).2)
  | 'a' :: rest => some (.append (given rest).1, '\n' :: (given rest).2)
  | 'i' :: rest => some (.insert (given rest).1, '\n' :: (given rest).2)
  | 'c' :: rest => some (.change (given rest).1, '\n' :: (given rest).2)
  | 's' :: mark :: rest => do
    let (text, rest) ← delimited? mark false rest
    let r ← Regular.parse? isExtended (String.ofList text)
    let (target, rest) ← plainDelimited? mark rest
    let (first, isGlobal, prints, ignoresCase, rest) ← substitutionFlags? rest
    pure (.substitute r ignoresCase (replacement target) first isGlobal prints, rest)
  | 'y' :: mark :: rest => do
    let (source, rest) ← plainDelimited? mark rest
    let (target, rest) ← plainDelimited? mark rest
    let source := unescape source
    let target := unescape target
    if source.length = target.length then pure (.exchange source target, rest) else none
  | c :: rest =>
    let status := (skipSpaces rest).takeWhile Char.isDigit
    let behind := (skipSpaces rest).dropWhile Char.isDigit
    if c = 'q' || c = 'Q' then
      some (.quit (((String.ofList status).toNat?).getD 0) (c = 'q'), behind)
    else if ['d', 'D', 'p', 'P', 'n', 'N', 'g', 'G', 'h', 'H', 'x', '=', 'z'].contains c then
      some (.simple c, rest)
    else none
  | [] => none

/-- The instructions that a text spells. -/
def editProgram? (isExtended : Bool) : (fuel index : Nat) → List Char →
    Option (List EditInstruction)
  | 0, _, _ => none
  | fuel + 1, index, cs =>
    match cs.dropWhile fun c => c = ' ' || c = '\t' || c = '\n' || c = ';' with
    | [] => some []
    | '#' :: rest => editProgram? isExtended fuel index (rest.dropWhile (· ≠ '\n'))
    | cs => do
      let (first, rest) ← lineAddress? isExtended cs
      let (second, rest) ← match first, skipSpaces rest with
        | some _, ',' :: rest => lineAddress? isExtended (skipSpaces rest)
        | _, rest => pure (none, rest)
      let rest := skipSpaces rest
      let isNegated := rest.head? = some '!'
      let rest := skipSpaces (rest.dropWhile (· = '!'))
      let (action, rest) ← editAction? isExtended rest
      let rest := skipSpaces rest
      let isEnded := match action, rest with
        | .openBlock, _ => true
        | _, [] => true
        | _, c :: _ => c = ';' || c = '\n' || c = '}' || c = '#'
      if !isEnded then none
      else
        let others ← editProgram? isExtended fuel (index + 1) rest
        pure (⟨index, first, second, isNegated, action⟩ :: others)

/-- Whether every block of a program is closed. -/
def isBalanced (program : List EditInstruction) : Bool :=
  let depth := program.foldl
    (fun (depth : Option Nat) i =>
      match depth, i.action with
      | none, _ => none
      | some n, .openBlock => some (n + 1)
      | some 0, .closeBlock => none
      | some (n + 1), .closeBlock => some n
      | some n, _ => some n)
    (some 0)
  depth = some 0

/-! ## Runs -/

/-- Where a range of lines ends. -/
inductive RangeEnd where
  | number (n : Nat)
  | last
  | matching (r : Regular) (ignoresCase : Bool)

/-- A program in the course of its run. -/
structure Editing where
  /-- The lines that have not been read. -/
  lines : List (List Char)
  number : Nat := 0
  /-- The line that is worked on. -/
  space : List Char := []
  hold : List Char := []
  /-- What has been written, last line first. -/
  output : List (List Char) := []
  /-- What is to be written behind the line. -/
  appended : List (List Char) := []
  /-- The ranges that have begun, by the instructions that they belong to. -/
  ranges : List (Nat × RangeEnd) := []
  hasChanged : Bool := false
  status : Option Nat := none

namespace Editing

/-- Writes a line. -/
def write (s : Editing) (line : List Char) : Editing :=
  { s with output := line :: s.output }

/-- Whether a line is the one that is worked on. -/
def isAt (s : Editing) : LineAddress → Bool
  | .number n => s.number = n
  | .last => s.lines.isEmpty
  | .matching r ignoresCase => r.occursIn ignoresCase s.space
  | .every first step =>
    if step = 0 then s.number = first else first ≤ s.number && (s.number - first) % step = 0
  | .further _ => false

/-- Whether a range ends at the line that is worked on or before it. -/
def isEnd (s : Editing) : RangeEnd → Bool
  | .number n => n ≤ s.number
  | .last => s.lines.isEmpty
  | .matching r ignoresCase => r.occursIn ignoresCase s.space

/-- Whether an instruction is for the line that is worked on. -/
def selects (s : Editing) (i : EditInstruction) : Bool × Editing :=
  match i.first, i.second with
  | none, _ => (!i.isNegated, s)
  | some a, none => (s.isAt a != i.isNegated, s)
  | some a, some b =>
    let begun : Option RangeEnd := (s.ranges.find? fun range => range.1 = i.index).map Prod.snd
    let others := s.ranges.filter fun range => range.1 ≠ i.index
    match begun with
    | some ending =>
      let overrun := match ending with
        | .number n => n < s.number
        | _ => false
      let s := if s.isEnd ending then { s with ranges := others } else s
      (!overrun != i.isNegated, s)
    | none =>
      if s.isAt a then
        let ending : RangeEnd := match b with
          | .number n => .number n
          | .last => .last
          | .matching r ignoresCase => .matching r ignoresCase
          | .further n => .number (s.number + n)
          | .every _ step => .number (if step = 0 then s.number
            else (s.number + step - 1) / step * step)
        let isSingle := match ending with
          | .matching _ _ => false
          | _ => s.isEnd ending
        (!i.isNegated, if isSingle then s else { s with ranges := (i.index, ending) :: others })
      else (i.isNegated, s)

/-- The texts of some parts that take the place of a match. -/
def fill (parts : List Replacement) (groups : List (Nat × List Char)) : List Char :=
  let turned (change : CaseChange) (next : CaseChange) (text : List Char) : List Char :=
    let text := match change with
      | .upper => text.map Char.toUpper
      | .lower => text.map Char.toLower
      | _ => text
    match next, text with
    | .upperNext, c :: cs => c.toUpper :: cs
    | .lowerNext, c :: cs => c.toLower :: cs
    | _, text => text
  (parts.foldl
    (fun (state : List Char × CaseChange × CaseChange) part =>
      let (text, change, next) := state
      let put (more : List Char) : List Char × CaseChange × CaseChange :=
        (text ++ turned change next more, change, if more.isEmpty then next else .none)
      match part with
      | .char c => put [c]
      | .group n => put ((groups.lookup n).getD [])
      | .turn .upperNext => (text, change, .upperNext)
      | .turn .lowerNext => (text, change, .lowerNext)
      | .turn change => (text, change, .none))
    ([], .none, .none)).1

/-- A text with some matches replaced, and whether there are any: `skipped` matches stay. -/
def replaceFrom (r : Regular) (ignoresCase : Bool) (parts : List Replacement) (isGlobal : Bool) :
    (count skipped : Nat) → (isBehindMatch : Bool) → Regular.Cursor → List Char × Bool
  | 0, _, _, place => (place.rest, false)
  | count + 1, skipped, isBehindMatch, place =>
    match r.search? ignoresCase place with
    | none => (place.rest, false)
    | some (here, last) =>
      let before := place.textTo here
      let text := here.textTo last
      let next : Regular.Cursor := { last with groups := [] }
      /- The character behind an empty match, and the place behind that character. -/
      let passed := next.rest.take 1
      let further := if text.isEmpty then next.advance 1 else next
      let isRefused := isBehindMatch && text.isEmpty && before.isEmpty
      if isRefused || skipped > 0 then
        let kept := if text.isEmpty then passed else text
        if text.isEmpty && next.rest.isEmpty then (before, false)
        else
          let (rest, hasChanged) := replaceFrom r ignoresCase parts isGlobal count
            (if isRefused then skipped else skipped - 1) (!text.isEmpty) further
          (before ++ kept ++ rest, hasChanged)
      else
        let filled := fill parts ((0, text) :: last.groups)
        if !isGlobal then (before ++ filled ++ next.rest, true)
        else if next.rest.isEmpty then (before ++ filled, true)
        else if text.isEmpty then
          let (rest, _) := replaceFrom r ignoresCase parts isGlobal count 0 false further
          (before ++ filled ++ passed ++ rest, true)
        else
          let (rest, _) := replaceFrom r ignoresCase parts isGlobal count 0 true next
          (before ++ filled ++ rest, true)

/-- What follows when the instructions are left. -/
inductive Leaving where
  /-- The line is written and the next one read. -/
  | written
  /-- The next line is read. -/
  | dropped
  /-- The instructions start again without another line. -/
  | restarted
  deriving DecidableEq

/-- The instructions behind the block that has been opened. -/
def behindBlock : (depth : Nat) → List EditInstruction → List EditInstruction
  | _, [] => []
  | depth, i :: rest =>
    match i.action, depth with
    | .openBlock, _ => behindBlock (depth + 1) rest
    | .closeBlock, 0 => rest
    | .closeBlock, depth + 1 => behindBlock depth rest
    | _, _ => behindBlock depth rest

/-- The instructions behind a label. -/
def behindLabel (name : List Char) : List EditInstruction → List EditInstruction
  | [] => []
  | i :: rest =>
    match i.action with
    | .label other => if other = name then rest else behindLabel name rest
    | _ => behindLabel name rest

/-- Writes what was to be written behind the line. -/
def flush (s : Editing) : Editing :=
  { s.appended.foldl write s with appended := [] }

/-- Does what a letter stands for; nothing follows if the next instruction does. -/
def runLetter (s : Editing) (isQuiet : Bool) (letter : Char) : Editing × Option Leaving :=
  match letter with
  | 'd' => (s, some .dropped)
  | 'D' =>
    match Chars.breakOn? ['\n'] s.space with
    | some (_, rest) => ({ s with space := rest }, some .restarted)
    | none => (s, some .dropped)
  | 'p' => (s.write s.space, none)
  | 'P' => (s.write (s.space.takeWhile (· ≠ '\n')), none)
  | '=' => (s.write (toString s.number).toList, none)
  | 'g' => ({ s with space := s.hold }, none)
  | 'G' => ({ s with space := s.space ++ '\n' :: s.hold }, none)
  | 'h' => ({ s with hold := s.space }, none)
  | 'H' => ({ s with hold := s.hold ++ '\n' :: s.space }, none)
  | 'x' => ({ s with space := s.hold, hold := s.space }, none)
  | 'z' => ({ s with space := [] }, none)
  | 'n' =>
    match s.lines with
    | [] => ({ s with status := some 0 }, some .written)
    | line :: lines =>
      let s := (if isQuiet then s else s.write s.space).flush
      ({ s with space := line, lines := lines, number := s.number + 1 }, none)
  | 'N' =>
    match s.lines with
    | [] => ({ s with status := some 0 }, some .written)
    | line :: lines =>
      let s := s.flush
      ({ s with space := s.space ++ '\n' :: line, lines := lines, number := s.number + 1 }, none)
  | _ => (s, none)

/-- Runs the instructions from a place in the program on. -/
def runFrom (program : List EditInstruction) (isQuiet : Bool) :
    (fuel : Nat) → List EditInstruction → Editing → Editing × Leaving
  | 0, _, s => ({ s with status := some 1 }, .dropped)
  | _ + 1, [], s => (s, .written)
  | fuel + 1, i :: rest, s =>
    match s.selects i with
    | (false, s) =>
      match i.action with
      | .openBlock => runFrom program isQuiet fuel (behindBlock 0 rest) s
      | _ => runFrom program isQuiet fuel rest s
    | (true, s) =>
      match i.action with
      | .openBlock | .closeBlock | .label _ => runFrom program isQuiet fuel rest s
      | .branch name needsChange =>
        if needsChange && !s.hasChanged then runFrom program isQuiet fuel rest s
        else
          let s := if needsChange then { s with hasChanged := false } else s
          if name.isEmpty then (s, .written)
          else runFrom program isQuiet fuel (behindLabel name program) s
      | .substitute r ignoresCase parts first isGlobal prints =>
        let (text, hasChanged) := replaceFrom r ignoresCase parts isGlobal (s.space.length + 2)
          (first - 1) false { rest := s.space }
        if hasChanged then
          let s := { s with space := text, hasChanged := true }
          runFrom program isQuiet fuel rest (if prints then s.write s.space else s)
        else runFrom program isQuiet fuel rest s
      | .exchange source target =>
        let turn (c : Char) : Char := ((source.zip target).lookup c).getD c
        runFrom program isQuiet fuel rest { s with space := s.space.map turn }
      | .append text =>
        runFrom program isQuiet fuel rest { s with appended := s.appended ++ [text] }
      | .insert text => runFrom program isQuiet fuel rest (s.write text)
      | .change text =>
        let isInRange := s.ranges.any fun range => range.1 = i.index
        (if isInRange && !i.isNegated then s else s.write text, .dropped)
      | .quit status prints =>
        ({ s with status := some status }, if prints then .written else .dropped)
      | .simple letter =>
        match s.runLetter isQuiet letter with
        | (s, some leaving) => (s, leaving)
        | (s, none) => runFrom program isQuiet fuel rest s

/-- Runs a program for all lines. -/
def run (program : List EditInstruction) (isQuiet : Bool) : (fuel : Nat) → (keeps : Bool) →
    Editing → Editing
  | 0, _, s => s
  | fuel + 1, keeps, s =>
    let started := if keeps then some s
      else match s.lines with
        | [] => none
        | line :: lines =>
          some { s with space := line, lines := lines, number := s.number + 1, hasChanged := false }
    match started with
    | none => s
    | some s =>
      let (s, leaving) := runFrom program isQuiet (100000 + 100 * program.length) program s
      let s := (if leaving = .written && !isQuiet then s.write s.space else s).flush
      if s.status.isSome then s else run program isQuiet fuel (leaving = .restarted) s

end Editing

namespace Utility

/-- Contents after a run of a program, and the status with which the program ends. -/
def edited (program : List EditInstruction) (isQuiet : Bool) (contents : ByteArray) :
    ByteArray × Nat :=
  let lines := contentLines contents
  let begun : List (Nat × RangeEnd) := program.filterMap fun i =>
    match i.first, i.second with
    | some (.number 0), some (.matching r ignoresCase) => some (i.index, .matching r ignoresCase)
    | _, _ => none
  let start : Editing := { lines := lines, ranges := begun }
  let s := Editing.run program isQuiet (2 * contents.size + 2) false start
  let output := s.output.reverse
  let lacksEnd := !contents.isEmpty && (textOf contents).toList.getLast? ≠ some '\n'
  let text := output.flatMap fun line => line ++ ['\n']
  let isOpen := lacksEnd && s.lines.isEmpty && output.getLast? = some s.space
  (ofText (if isOpen then text.dropLast else text), s.status.getD 0)

/-- Edits the lines of files. -/
def sed : Utility := fun fs input args =>
  let a := Arguments.read ['e', 'f'] {} (args.map fun arg =>
    if Text.startsWith arg "-i" then "-i" else arg)
  let isQuiet := a.has ['n'] || a.hasWord "quiet" || a.hasWord "silent"
  let isExtended := a.has ['E', 'r'] || a.hasWord "regexp-extended"
  let given := a.values.mapM fun (letter, value) =>
    if letter = 'f' then (contentsOf fs input value).map textOf else some value
  let (texts, operands) := if a.values.isEmpty then (some (a.operands.take 1), a.operands.drop 1)
    else (given, a.operands)
  let program := (texts.filter fun texts => !texts.isEmpty).bind fun texts =>
    let cs := ("\n".intercalate texts).toList
    editProgram? isExtended (cs.length + 1) 0 cs
  match program.filter isBalanced with
  | none => Effect.refusal fs
  | some program =>
    if a.has ['i'] || a.hasWord "in-place" then
      Effect.forEach fs operands fun fs name =>
        match fs.readFile ⟨name⟩ with
        | .error _ => Effect.refusal fs
        | .ok contents =>
          let (result, status) := edited program isQuiet contents
          { Effect.ofExcept fs (fs.writeFile ⟨name⟩ result) with status := status }
    else
      let (found, isComplete) := readAll fs input operands
      let whole := found.foldl (fun whole part => whole ++ part.2) ByteArray.empty
      let (result, status) := edited program isQuiet whole
      { fs := fs
        status := if status = 0 && !isComplete then 2 else status
        output := result
        readsInput := operands.isEmpty || operands.contains "-" }

end Utility

end Registrar.Script
