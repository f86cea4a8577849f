/-
# Searching lines

A utility that writes the lines of files in which a pattern occurs.
-/
import Registrar.Script.Utility.Directory
import Registrar.Script.Regular

namespace Registrar.Script

open FileSystem (Node)

/-- The pattern that some alternative patterns spell together; nothing if one makes no sense. -/
def alternatives? (isFixed isExtended : Bool) (patterns : List String) : Option Regular := do
  let rs ← patterns.mapM fun pattern =>
    if isFixed then some (Regular.ofText pattern) else Regular.parse? isExtended pattern
  match rs with
  | [] => none
  | r :: rs => pure (rs.foldl Regular.either r)

/-- All matches in a text, from left to right. -/
def allMatches (r : Regular) (ignoresCase : Bool) : (count : Nat) → Regular.Cursor →
    List (List Char)
  | 0, _ => []
  | count + 1, place =>
    match r.search? ignoresCase place with
    | none => []
    | some (here, last) =>
      let text := here.textTo last
      if last.rest.isEmpty then [text]
      else if text.isEmpty then allMatches r ignoresCase count (last.advance 1)
      else text :: allMatches r ignoresCase count { last with groups := [] }

mutual

/-- The files in a tree with their paths. -/
def filesBelow (path : String) : Node → List (String × ByteArray)
  | .file _ _ contents => [(path, contents)]
  | .directory _ _ entries => entryFiles path entries
  | _ => []

/-- The files in some entries of a directory with their paths. -/
def entryFiles (directory : String) : List (String × Node) → List (String × ByteArray)
  | [] => []
  | (name, n) :: entries =>
    filesBelow ((⟨directory⟩ : Path) / name).text n ++ entryFiles directory entries

end

namespace Utility

/-- What a search writes for one file, and the number of lines that it has found. -/
def searchLines (a : Arguments) (r : Regular) (title : String) (contents : ByteArray) :
    String × Nat :=
  let ignoresCase := a.has ['i', 'y']
  let lines := (contentLines contents).zipIdx 1
  let found := lines.filter fun (line, _) => r.occursIn ignoresCase line != a.has ['v']
  let found := match (a.value? 'm').bind String.toNat? with
    | some most => found.take most
    | none => found
  let mark (n : Nat) : String := if a.has ['n'] then toString n ++ ":" else ""
  let text :=
    if a.has ['o'] then
      found.flatMap fun (line, n) =>
        if a.has ['v'] then []
        else ((allMatches r ignoresCase (line.length + 1) { rest := line }).filter
          fun part => !part.isEmpty).map fun part => title ++ mark n ++ String.ofList part ++ "\n"
    else found.map fun (line, n) => title ++ mark n ++ String.ofList line ++ "\n"
  (String.join text, found.length)

/-- Writes the lines of files in which a pattern occurs.  The status is one if there is none, and
two if a file cannot be read. -/
def grep : Utility := fun fs input args =>
  let a := Arguments.read ['e', 'f', 'm', 'A', 'B', 'C'] {} args
  let given := (a.values.filter fun value => value.1 = 'e').map Prod.snd
  let filed := (a.values.filter fun value => value.1 = 'f').mapM fun value =>
    (contentsOf fs input value.2).map fun contents =>
      (contentLines contents).map String.ofList
  let hasOption := a.values.any fun value => value.1 = 'e' || value.1 = 'f'
  let (written, operands) := if hasOption then ([], a.operands)
    else (a.operands.take 1, a.operands.drop 1)
  let split (text : String) : List String := (Chars.splitOn '\n' text.toList).map String.ofList
  let patterns := (written ++ given).flatMap split ++ (filed.getD []).flatten
  let r := (alternatives? (a.has ['F']) (a.has ['E', 'P']) patterns).map fun r =>
    if a.has ['x'] then Regular.both .front (.both r .back)
    else if a.has ['w'] then
      Regular.both (.wordEdge true true) (.both r (.wordEdge true true))
    else r
  if !hasOption && a.operands.isEmpty then { fs := fs, status := 2 }
  else match if filed.isNone then none else if patterns.isEmpty then some none else r.map some with
  | none => { fs := fs, status := 2 }
  | some r =>
    let isRecursive := a.has ['r', 'R']
    let operands := if operands.isEmpty then [if isRecursive then "." else "-"] else operands
    let files := operands.flatMap fun name =>
      match if isRecursive then fs.entry ⟨name⟩ else .error .notFound with
      | .ok n => (filesBelow name n).map fun (path, contents) => (path, some contents)
      | .error _ => [(name, contentsOf fs input name)]
    let isTitled := !a.has ['h'] && (a.has ['H'] || isRecursive || operands.length > 1)
    let results := files.filterMap fun (name, contents) =>
      let title := if isTitled then (if name = "-" then "(standard input)" else name) ++ ":" else ""
      match contents, r with
      | some contents, some r =>
        let (text, n) := searchLines a r title contents
        some (name, title, text, n)
      | some _, none => some (name, title, "", 0)
      | none, _ => none
    let isMatched := results.any fun (_, _, _, n) => n > 0
    let isBroken := files.any fun file => file.2.isNone
    let output :=
      if a.has ['q'] then ""
      else String.join (results.map fun (name, title, text, n) =>
        if a.has ['l'] then if n > 0 then name ++ "\n" else ""
        else if a.has ['L'] then if n = 0 then name ++ "\n" else ""
        else if a.has ['c'] then title ++ toString n ++ "\n"
        else text)
    { fs := fs
      status := if isBroken && !(a.has ['q'] && isMatched) then 2 else if isMatched then 0 else 1
      output := output.toUTF8
      readsInput := operands.contains "-" }

end Utility

end Registrar.Script
