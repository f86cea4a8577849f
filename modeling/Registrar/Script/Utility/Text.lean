/-
# Lines and columns

Utilities that take files apart and put them together: by bytes, by lines, and by the columns of
lines.
-/
import Registrar.Script.Utility.File
import Registrar.Script.Arithmetic

namespace Registrar.Script

/-- Characters as contents. -/
def ofText (cs : List Char) : ByteArray :=
  (String.ofList cs).toUTF8

/-- The first bytes of contents, and the others. -/
def splitBytes (contents : ByteArray) (n : Nat) : ByteArray × ByteArray :=
  (contents.extract 0 n, contents.extract n contents.size)

/-- The lines of contents with the line feeds behind them. -/
def rawLines (contents : ByteArray) : List (List Char) :=
  let cs := (textOf contents).toList
  let lines := (contentLines contents).map fun line => line ++ ['\n']
  if cs.isEmpty || cs.getLast? = some '\n' then lines
  else match lines.getLast? with
    | some last => lines.dropLast ++ [last.dropLast]
    | none => []

/-- Arguments of which the first may be a number behind a dash, as in `-5`, which is the value of
the option `-n`. -/
def withCount (args : List String) : List String :=
  match args with
  | [] => []
  | arg :: rest =>
    match arg.toList with
    | '-' :: c :: cs =>
      if (c :: cs).all Char.isDigit then "-n" :: String.ofList (c :: cs) :: rest else args
    | _ => args

namespace Utility

/-! ## Whole files -/

/-- Writes files one behind the other. -/
def cat : Utility := fun fs input args =>
  let a := Arguments.read [] {} args
  onContents fs input a.operands fun contents =>
    if a.has ['n', 'b'] then
      let numbered := (rawLines contents).foldl
        (fun (state : List Char × Nat) line =>
          if a.has ['b'] && line = ['\n'] then (state.1 ++ line, state.2)
          else
            let number := toString state.2
            let blanks := List.replicate (6 - number.length) ' '
            (state.1 ++ blanks ++ number.toList ++ '\t' :: line, state.2 + 1))
        ([], 1)
      ofText numbered.1
    else contents

/-- Writes the lines of files in the opposite order. -/
def tac : Utility := fun fs input args =>
  onContents fs input (Arguments.read [] {} args).operands fun contents =>
    ofText (rawLines contents).reverse.flatten

/-- Writes the characters of each line in the opposite order. -/
def rev : Utility := fun fs input args =>
  onContents fs input (Arguments.read [] {} args).operands fun contents =>
    ofContentLines ((contentLines contents).map List.reverse)

/-- What a utility makes of each of its files, with a title in front if there are several. -/
def titled (fs : FileSystem) (input : ByteArray) (a : Arguments)
    (f : ByteArray → ByteArray) : Effect :=
  let (found, isComplete) := readAll fs input a.operands
  let sections := found.map fun (name, contents) =>
    if a.operands.length > 1 && !a.has ['q'] then
      let name := if name = "-" then "standard input" else name
      ("==> " ++ name ++ " <==\n").toUTF8 ++ f contents
    else f contents
  let gap := if a.operands.length > 1 && !a.has ['q'] then "\n".toUTF8 else ByteArray.empty
  { fs := fs
    status := if isComplete then 0 else 1
    output := match sections with
      | [] => ByteArray.empty
      | first :: others => others.foldl (fun whole part => whole ++ gap ++ part) first
    readsInput := a.operands.isEmpty || a.operands.contains "-" }

/-- The number in a text that may have a sign in front, and the sign. -/
def signedCount? (text : String) : Option (Option Char × Nat) :=
  match text.toList with
  | '-' :: cs => (String.ofList cs).toNat?.map fun n => (some '-', n)
  | '+' :: cs => (String.ofList cs).toNat?.map fun n => (some '+', n)
  | _ => text.toNat?.map fun n => (none, n)

/-- Writes the first lines or bytes of files. -/
def head : Utility := fun fs input args =>
  let a := Arguments.read ['n', 'c'] {} (withCount args)
  match signedCount? ((a.value? 'c').getD ((a.value? 'n').getD "10")) with
  | none => Effect.refusal fs
  | some (sign, n) =>
    titled fs input a fun contents =>
      if (a.value? 'c').isSome then
        (splitBytes contents (if sign = some '-' then contents.size - n else n)).1
      else
        let lines := rawLines contents
        ofText (lines.take (if sign = some '-' then lines.length - n else n)).flatten

/-- Writes the last lines or bytes of files. -/
def tail : Utility := fun fs input args =>
  let a := Arguments.read ['n', 'c'] {} (withCount args)
  match signedCount? ((a.value? 'c').getD ((a.value? 'n').getD "10")) with
  | none => Effect.refusal fs
  | some (sign, n) =>
    titled fs input a fun contents =>
      if (a.value? 'c').isSome then
        (splitBytes contents (if sign = some '+' then n - 1 else contents.size - n)).2
      else
        let lines := rawLines contents
        ofText (lines.drop (if sign = some '+' then n - 1 else lines.length - n)).flatten

/-- The numbers of lines, words, characters and bytes of contents, and the length of the longest
line. -/
def counts (contents : ByteArray) : List Nat :=
  let cs := (textOf contents).toList
  let isGap (c : Char) : Bool := c = ' ' || ('\t' ≤ c && c ≤ '\x0d')
  let words := cs.foldl
    (fun (state : Nat × Bool) c =>
      if isGap c then (state.1, false) else if state.2 then state else (state.1 + 1, true))
    (0, false)
  [cs.count '\n', words.1, cs.length, contents.size,
    ((contentLines contents).map List.length).foldl max 0]

/-- Writes the numbers of lines, words and bytes of files. -/
def wc : Utility := fun fs input args =>
  let a := Arguments.read [] {} args
  let letters := if a.has ['l', 'w', 'm', 'c', 'L'] then
      ['l', 'w', 'm', 'c', 'L'].filter fun letter => a.has [letter]
    else ['l', 'w', 'c']
  let (found, isComplete) := readAll fs input a.operands
  let chosen (contents : ByteArray) : List Nat :=
    ((['l', 'w', 'm', 'c', 'L'].zip (counts contents)).filter fun entry =>
      letters.contains entry.1).map Prod.snd
  let size := found.foldl (fun n entry => n + entry.2.size) 0
  let width :=
    if a.operands.length ≤ 1 && letters.length = 1 then 1
    else if a.operands.isEmpty || a.operands.contains "-" then max 7 (toString size).length
    else (toString size).length
  let line (numbers : List Nat) (name : String) : String :=
    let texts := numbers.map fun n =>
      let digits := toString n
      String.ofList (List.replicate (width - digits.length) ' ') ++ digits
    " ".intercalate texts ++ (if name.isEmpty then "" else " " ++ name) ++ "\n"
  let lines := found.map fun (name, contents) =>
    line (chosen contents) (if a.operands.isEmpty then "" else name)
  let sums := found.foldl
    (fun sums entry => List.zipWith (· + ·) sums (chosen entry.2)) (letters.map fun _ => 0)
  let total := if a.operands.length > 1 then [line sums "total"] else []
  { fs := fs
    status := if isComplete then 0 else 1
    output := (String.join (lines ++ total)).toUTF8
    readsInput := a.operands.isEmpty || a.operands.contains "-" }

/-! ## Order of lines -/

/-- The number at the front of a line, a hundred million times as large: it may have a sign and
a fraction. -/
def leadingNumber (cs : List Char) : Int :=
  let cs := cs.dropWhile fun c => c = ' ' || c = '\t'
  let (isNegative, cs) := match cs with
    | '-' :: cs => (true, cs)
    | cs => (false, cs)
  let value (digits : List Char) : Nat :=
    digits.foldl (fun n c => n * 10 + (c.toNat - '0'.toNat)) 0
  let whole := cs.takeWhile Char.isDigit
  let fraction := match cs.dropWhile Char.isDigit with
    | '.' :: rest => (rest.takeWhile Char.isDigit).take 8
    | _ => []
  let n := value (whole ++ fraction ++ List.replicate (8 - fraction.length) '0')
  if isNegative then -(n : Int) else n

/-- The fields of a line for sorting: pieces between separators, or words with the blanks in front
of them. -/
def sortFields (separator : Option Char) (line : List Char) : List (List Char) :=
  match separator with
  | some c => Chars.splitOn c line
  | none =>
    let isBlank (c : Char) : Bool := c = ' ' || c = '\t'
    (line.foldr
      (fun c (state : List (List Char) × Option Char) =>
        match state with
        | (piece :: pieces, some next) =>
          if !isBlank c && isBlank next then ([c] :: piece :: pieces, some c)
          else ((c :: piece) :: pieces, some c)
        | (pieces, _) => ([c] :: pieces, some c))
      ([], none)).1

/-- A key by which lines are sorted. -/
structure SortKey where
  first : Nat
  last : Option Nat
  isNumeric : Bool
  isReversed : Bool
  ignoresCase : Bool

/-- Reads a key such as `2,3n`. -/
def sortKey? (text : String) (a : Arguments) : Option SortKey := do
  let letters := text.toList.filter Char.isAlpha
  let bounds := (Chars.splitOn ',' (text.toList.filter fun c => !c.isAlpha)).map fun bound =>
    (String.ofList (bound.takeWhile Char.isDigit)).toNat?
  let has (letter : Char) : Bool :=
    if letters.isEmpty then a.has [letter] else letters.contains letter
  match bounds with
  | [some first] => pure ⟨first, none, has 'n', has 'r', has 'f'⟩
  | [some first, some last] => pure ⟨first, some last, has 'n', has 'r', has 'f'⟩
  | _ => none

/-- How two lines compare by a key. -/
def SortKey.compare (key : SortKey) (separator : Option Char) (x y : List Char) : Ordering :=
  let part (line : List Char) : List Char :=
    let fields := (sortFields separator line).drop (key.first - 1)
    let fields := match key.last with
      | some last => fields.take (last + 1 - key.first)
      | none => fields
    let joined := match separator with
      | some c => [c].intercalate fields
      | none => fields.flatten
    if key.ignoresCase then joined.map Char.toUpper else joined
  let order :=
    if key.isNumeric then Ord.compare (leadingNumber (part x)) (leadingNumber (part y))
    else Ord.compare (String.ofList (part x)) (String.ofList (part y))
  if key.isReversed then order.swap else order

/-- Writes the lines of files in order. -/
def sort : Utility := fun fs input args =>
  let a := Arguments.read ['k', 't', 'o', 'S', 'T'] {} args
  let keys := (a.values.filter fun value => value.1 = 'k').map fun value => sortKey? value.2 a
  let separator := (a.value? 't').bind fun text => text.toList.head?
  let keys := if keys.isEmpty then [some ⟨1, none, a.has ['n'], a.has ['r'], a.has ['f']⟩] else keys
  match keys.mapM id with
  | none => { fs := fs, status := 2 }
  | some keys =>
    let byKeys (x y : List Char) : Ordering :=
      keys.foldl (fun order key => order.then (key.compare separator x y)) .eq
    let plain (x y : List Char) : Ordering :=
      let order := Ord.compare (String.ofList x) (String.ofList y)
      if a.has ['r'] then order.swap else order
    let order (x y : List Char) : Ordering :=
      if a.has ['s', 'u'] then byKeys x y else (byKeys x y).then (plain x y)
    let (found, isComplete) := readAll fs input a.operands
    let lines := found.flatMap fun entry => contentLines entry.2
    let sorted := lines.mergeSort fun x y => (order x y).isLE
    let kept := if a.has ['u'] then
        (sorted.foldl
          (fun kept line =>
            match kept with
            | last :: _ => if byKeys last line = .eq then kept else line :: kept
            | [] => [line])
          []).reverse
      else sorted
    let isUnordered := (lines.zip (lines.drop 1)).any fun (x, y) => (order x y).isGT
    let readsInput := a.operands.isEmpty || a.operands.contains "-"
    if !isComplete || (a.has ['c', 'C'] && a.operands.length > 1) then
      { fs := fs, status := 2, readsInput := readsInput }
    else if a.has ['c', 'C'] then
      { fs := fs, status := if isUnordered then 1 else 0, readsInput := readsInput }
    else match a.value? 'o' with
      | some file => { putContents fs file (ofContentLines kept) with readsInput := readsInput }
      | none => { fs := fs, output := ofContentLines kept, readsInput := readsInput }

/-- Runs of lines that are the same, each with the number of its lines. -/
def lineRuns (isSame : List Char → List Char → Bool) (lines : List (List Char)) :
    List (List Char × Nat) :=
  (lines.foldl
    (fun runs line =>
      match runs with
      | (last, n) :: others =>
        if isSame last line then (last, n + 1) :: others else (line, 1) :: runs
      | [] => [(line, 1)])
    []).reverse

/-- Writes the lines of a file, equal ones behind each other only once. -/
def uniq : Utility := fun fs input args =>
  let a := Arguments.read ['f', 's', 'w'] {} args
  let fold (line : List Char) : List Char := if a.has ['i'] then line.map Char.toLower else line
  match contentsOf fs input (a.operands.headD "-") with
  | none => Effect.refusal fs
  | some contents =>
    let runs := lineRuns (fun x y => fold x = fold y) (contentLines contents)
    let chosen := runs.filter fun run =>
      (!a.has ['d'] || run.2 > 1) && (!a.has ['u'] || run.2 = 1)
    let lines := chosen.map fun (line, n) =>
      if a.has ['c'] then
        let number := toString n
        List.replicate (7 - number.length) ' ' ++ number.toList ++ ' ' :: line
      else line
    match a.operands with
    | [_, file] => putContents fs file (ofContentLines lines)
    | _ => { fs := fs, output := ofContentLines lines, readsInput := a.operands.isEmpty }

/-! ## Columns -/

/-- The positions that a list such as `1,3-5` names, as bounds. -/
def positions? (text : String) : Option (List (Nat × Option Nat)) :=
  (Chars.splitOn ',' text.toList).mapM fun part =>
    match Chars.splitOn '-' part with
    | [n] => (String.ofList n).toNat?.map fun n => (n, some n)
    | [n, []] => (String.ofList n).toNat?.map fun n => (n, none)
    | [[], m] => (String.ofList m).toNat?.map fun m => (1, some m)
    | [n, m] => do pure (← (String.ofList n).toNat?, some (← (String.ofList m).toNat?))
    | _ => none

/-- The members of a list at the positions within some bounds. -/
def atPositions {α : Type} (bounds : List (Nat × Option Nat)) (xs : List α) : List α :=
  (xs.zipIdx.filter fun (_, i) =>
    bounds.any fun (least, most) => least ≤ i + 1 && most.all fun most => i + 1 ≤ most).map Prod.fst

/-- Writes parts of the lines of files. -/
def cut : Utility := fun fs input args =>
  let a := Arguments.read ['c', 'b', 'f', 'd'] {} args
  let separator := ((a.value? 'd').bind fun text => text.toList.head?).getD '\t'
  let byFields := (a.value? 'f').isSome
  match ((a.value? 'f').orElse fun _ => (a.value? 'c').orElse fun _ => a.value? 'b').bind
    positions? with
  | none => Effect.refusal fs
  | some bounds =>
    onContents fs input a.operands fun contents =>
      ofContentLines ((contentLines contents).filterMap fun line =>
        if !byFields then some (atPositions bounds line)
        else if !line.contains separator then if a.has ['s'] then none else some line
        else some ([separator].intercalate (atPositions bounds (Chars.splitOn separator line))))

/-- Joins the lines of files side by side, or those of each file behind each other. -/
def paste : Utility := fun fs input args =>
  let a := Arguments.read ['d'] {} args
  let separator := ((a.value? 'd').bind fun text => text.toList.head?).getD '\t'
  let (found, isComplete) := readAll fs input a.operands
  let columns := found.map fun entry => contentLines entry.2
  let lines :=
    if a.has ['s'] then columns.map fun column => [separator].intercalate column
    else
      let height := (columns.map List.length).foldl max 0
      (List.range height).map fun i =>
        [separator].intercalate (columns.map fun column => (column[i]?).getD [])
  { fs := fs
    status := if isComplete then 0 else 1
    output := if isComplete then ofContentLines lines else ByteArray.empty
    readsInput := a.operands.isEmpty || a.operands.contains "-" }

/-- Lines of at most a given length, which is not zero. -/
def foldLine (width : Nat) : (count : Nat) → List Char → List (List Char)
  | 0, line => [line]
  | count + 1, line =>
    if line.length ≤ width then [line]
    else line.take width :: foldLine width count (line.drop width)

/-- Breaks the lines of files. -/
def fold : Utility := fun fs input args =>
  let a := Arguments.read ['w'] {} args
  let width := ((a.value? 'w').bind String.toNat?).getD 80
  if width = 0 then Effect.refusal fs
  else onContents fs input a.operands fun contents =>
    ofContentLines ((contentLines contents).flatMap fun line => foldLine width line.length line)

/-- Numbers the lines of files. -/
def nl : Utility := fun fs input args =>
  let a := Arguments.read ['b', 'w', 's'] {} args
  let countsEmpty := a.value? 'b' = some "a"
  onContents fs input a.operands fun contents =>
    let numbered := (contentLines contents).foldl
      (fun (state : List (List Char) × Nat) line =>
        if line.isEmpty && !countsEmpty then (List.replicate 7 ' ' :: state.1, state.2)
        else
          let number := (toString state.2).toList
          ((List.replicate (6 - number.length) ' ' ++ number ++ '\t' :: line) :: state.1,
            state.2 + 1))
      ([], 1)
    ofContentLines numbered.1.reverse

/-! ## Numbers -/

/-- Writes the numbers from one to another. -/
def seq : Utility := fun fs _ args =>
  let isNumber (arg : String) : Bool := arg.toInt?.isSome
  let a := Arguments.read ['s', 'f'] {} (args.takeWhile fun arg => !isNumber arg)
  let numbers := a.operands ++ args.dropWhile fun arg => !isNumber arg
  let separator := (a.value? 's').getD "\n"
  let write (first step last : Int) : Effect :=
    let count := if step = 0 then 0 else Int.toNat (Int.fdiv (last - first) step + 1)
    let texts := (List.range count).map fun (n : Nat) => toString (first + step * n)
    let width := (texts.map String.length).foldl max 0
    let padded := texts.map fun text =>
      if a.has ['w'] then
        String.ofList (List.replicate (width - text.length) '0') ++ text
      else text
    if step = 0 then Effect.refusal fs
    else if count = 0 then { fs := fs }
    else Effect.say fs (separator.intercalate padded ++ "\n")
  match numbers.mapM String.toInt? with
  | some [last] => write 1 1 last
  | some [first, last] => write first 1 last
  | some [first, step, last] => write first step last
  | _ => Effect.refusal fs

/-! ## Comparisons -/

/-- Compares two files: the status says whether they are the same. -/
def diff : Utility := fun fs input args =>
  let a := Arguments.read [] {} args
  match a.operands with
  | [x, y] =>
    match contentsOf fs input x, contentsOf fs input y with
    | some c, some d => { fs := fs, status := if c.data = d.data then 0 else 1 }
    | _, _ => { fs := fs, status := 2 }
  | _ => { fs := fs, status := 2 }

/-- Compares two files, of which the second one may be the input. -/
def cmp : Utility := fun fs input args =>
  match (Arguments.read [] {} args).operands with
  | [x] => diff fs input [x, "-"]
  | operands => diff fs input operands

/-- Lines that only the first of two sorted lists has, only the second one or both, each in a column
of its own. -/
def commonLines (columns : Nat → Option (List Char)) :
    (count : Nat) → List (List Char) → List (List Char) → List (List Char)
  | 0, _, _ => []
  | count + 1, xs, ys =>
    let line (column : Nat) (text : List Char) (rest : List (List Char)) : List (List Char) :=
      match columns column with
      | some front => (front ++ text) :: rest
      | none => rest
    match xs, ys with
    | [], [] => []
    | x :: xs, [] => line 1 x (commonLines columns count xs [])
    | [], y :: ys => line 2 y (commonLines columns count [] ys)
    | x :: xs, y :: ys =>
      if x = y then line 3 x (commonLines columns count xs ys)
      else if String.ofList x < String.ofList y then
        line 1 x (commonLines columns count xs (y :: ys))
      else line 2 y (commonLines columns count (x :: xs) ys)

/-- Compares two sorted files line by line. -/
def comm : Utility := fun fs input args =>
  let a := Arguments.read [] {} args
  let isShown (column : Char) : Bool := !a.has [column]
  let columns (n : Nat) : Option (List Char) :=
    let before := (['1', '2', '3'].take (n - 1)).filter isShown
    if isShown (Char.ofNat ('0'.toNat + n)) then some (List.replicate before.length '\t') else none
  match a.operands with
  | [x, y] =>
    match contentsOf fs input x, contentsOf fs input y with
    | some c, some d =>
      let xs := contentLines c
      let ys := contentLines d
      { fs := fs, output := ofContentLines (commonLines columns (xs.length + ys.length) xs ys) }
    | _, _ => Effect.refusal fs
  | _ => Effect.refusal fs

/-- A utility of whose output nothing is known; it succeeds if its files can be read. -/
def examine : Utility := fun fs input args =>
  let a := Arguments.read [] {} args
  let (_, isComplete) := readAll fs input a.operands
  { fs := fs, status := if isComplete then 0 else 1, readsInput := a.operands.isEmpty }

end Utility

end Registrar.Script
