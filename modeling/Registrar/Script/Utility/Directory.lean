/-
# Looking through directories

Lists of the entries of directories, and searches for entries of a kind below some paths.
-/
import Registrar.Script.Utility.Name
import Registrar.Script.Wildcard

namespace Registrar.Script

open FileSystem (Node)

/-! ## Trees -/

/-- An entry that a search has come to. -/
structure Found where
  path : String
  /-- The number of names behind the path at which the search has started. -/
  depth : Nat
  node : Node

mutual

/-- An entry and everything below it, with `isLate` directories behind what is in them. -/
def Found.below (isLate : Bool) (path : String) (depth : Nat) : Node → List Found
  | .directory modified isListable entries =>
    let itself : Found := ⟨path, depth, .directory modified isListable entries⟩
    let inner := Found.belowEntries isLate path (depth + 1) entries
    if isLate then inner ++ [itself] else itself :: inner
  | n => [⟨path, depth, n⟩]

/-- Some entries of a directory and everything below them. -/
def Found.belowEntries (isLate : Bool) (directory : String) (depth : Nat) :
    List (String × Node) → List Found
  | [] => []
  | (name, n) :: entries =>
    let path := ((⟨directory⟩ : Path) / name).text
    Found.below isLate path depth n ++ Found.belowEntries isLate directory depth entries

end

namespace Utility

/-! ## Lists -/

/-- The name of an entry as it is listed. -/
def listedName (a : Arguments) (name : String) (n : Node) : String :=
  match n with
  | .directory _ _ _ => if a.has ['F', 'p'] then name ++ "/" else name
  | .link _ _ => if a.has ['F'] then name ++ "@" else name
  | .file _ isExecutable _ => if a.has ['F'] && isExecutable then name ++ "*" else name
  | .device _ => name

/-- Entries in the order in which they are listed. -/
def listedOrder (a : Arguments) (entries : List (String × Node)) : List (String × Node) :=
  let byName := entries.mergeSort fun x y => decide (x.1 ≤ y.1)
  let sorted :=
    if a.has ['t'] then byName.mergeSort fun x y => decide (y.2.modified ≤ x.2.modified)
    else byName
  if a.has ['r'] then sorted.reverse else sorted

/-- The entries of a directory that are listed. -/
def listedEntries (a : Arguments) (entries : List (String × Node)) : List (String × Node) :=
  let shown := if a.has ['a', 'A'] then entries
    else entries.filter fun entry => entry.1.toList.head? ≠ some '.'
  let dots : List (String × Node) :=
    if a.has ['a'] then [(".", Node.emptyDirectory 0), ("..", Node.emptyDirectory 0)] else []
  listedOrder a (dots ++ shown)

/-- The directories in a tree that are listed with it, in the order of their paths. -/
def listedDirectories (a : Arguments) (path : String) (n : Node) : List (String × Node) :=
  let pieces (path : String) : List String := (Chars.splitOn '/' path.toList).map String.ofList
  let inner := (Found.below false path 0 n).filter fun f =>
    f.node.isDirectory && (a.has ['a', 'A'] ||
      ((pieces f.path).drop (pieces path).length).all fun name => name.toList.head? ≠ some '.')
  (inner.mergeSort fun f g => !decide (pieces g.path < pieces f.path)).map fun f =>
    (f.path, f.node)

/-- Lists the entries of directories. -/
def ls : Utility := fun fs _ args =>
  let a := Arguments.read ['I', 'w'] {} args
  let operands := if a.operands.isEmpty then ["."] else a.operands
  let found := operands.filterMap fun name =>
    let target := if a.has ['d', 'l', 'F'] then fs.linkEntry ⟨name⟩ else fs.entry ⟨name⟩
    match target with
    | .ok n => some (name, n)
    | .error _ => ((fs.linkEntry ⟨name⟩).toOption).map fun n => (name, n)
  let (directories, files) := found.partition fun entry => entry.2.isDirectory && !a.has ['d']
  let lines (entries : List (String × Node)) : String :=
    String.join (entries.map fun entry => listedName a entry.1 entry.2 ++ "\n")
  let roots := listedOrder a directories
  let listed := if a.has ['R'] then roots.flatMap fun (path, n) => listedDirectories a path n
    else roots
  let sections := listed.map fun entry =>
    let title := if operands.length > 1 || a.has ['R'] then entry.1 ++ ":\n" else ""
    title ++ lines (listedEntries a entry.2.entries)
  let first := if files.isEmpty then [] else [lines (listedOrder a files)]
  { fs := fs
    status := if found.length = operands.length then 0 else 2
    output := ("\n".intercalate (first ++ sections)).toUTF8 }

end Utility

/-! ## Searches -/

/-- A condition on an entry, or something that is done with it. -/
inductive SearchStep where
  | negation
  | name (pattern : String) (ignoresCase : Bool)
  | path (pattern : String)
  | kind (letters : String)
  | isEmpty
  | newer (path : String)
  | isExecutable
  | holds
  | fails
  | print (ending : String)
  | delete
  /-- Runs a program with the path in place of `{}`, or once for all paths. -/
  | execute (words : List String) (isBatch : Bool)
  deriving DecidableEq

/-- Whether a step does something. -/
def SearchStep.isAction : SearchStep → Bool
  | print _ => true
  | delete => true
  | execute _ _ => true
  | _ => false

/-- What a search is to do. -/
structure Search where
  starts : List String := []
  least : Nat := 0
  most : Option Nat := none
  isLate : Bool := false
  /-- Alternatives, each a row of steps of which one is taken only if those before it hold. -/
  alternatives : List (List SearchStep) := [[]]

namespace Search

/-- Adds a step to the last alternative. -/
def add (s : Search) (step : SearchStep) : Search :=
  match s.alternatives.reverse with
  | [] => { s with alternatives := [[step]] }
  | last :: others => { s with alternatives := (others.reverse) ++ [last ++ [step]] }

/-- Reads the conditions and actions of a search. -/
def readSteps? (s : Search) : List String → Option Search
  | [] => some s
  | "(" :: args => readSteps? s args
  | ")" :: args => readSteps? s args
  | "-a" :: args => readSteps? s args
  | "-and" :: args => readSteps? s args
  | "-o" :: args => readSteps? { s with alternatives := s.alternatives ++ [[]] } args
  | "-or" :: args => readSteps? { s with alternatives := s.alternatives ++ [[]] } args
  | "!" :: args => readSteps? (s.add .negation) args
  | "-not" :: args => readSteps? (s.add .negation) args
  | "-name" :: pattern :: args => readSteps? (s.add (.name pattern false)) args
  | "-iname" :: pattern :: args => readSteps? (s.add (.name pattern true)) args
  | "-path" :: pattern :: args => readSteps? (s.add (.path pattern)) args
  | "-wholename" :: pattern :: args => readSteps? (s.add (.path pattern)) args
  | "-type" :: letters :: args => readSteps? (s.add (.kind letters)) args
  | "-empty" :: args => readSteps? (s.add .isEmpty) args
  | "-newer" :: path :: args => readSteps? (s.add (.newer path)) args
  | "-executable" :: args => readSteps? (s.add .isExecutable) args
  | "-true" :: args => readSteps? (s.add .holds) args
  | "-false" :: args => readSteps? (s.add .fails) args
  | "-maxdepth" :: n :: args => n.toNat?.bind fun n => readSteps? { s with most := some n } args
  | "-mindepth" :: n :: args => n.toNat?.bind fun n => readSteps? { s with least := n } args
  | "-depth" :: args => readSteps? { s with isLate := true } args
  | "-print" :: args => readSteps? (s.add (.print "\n")) args
  | "-print0" :: args => readSteps? (s.add (.print "\x00")) args
  | "-delete" :: args => readSteps? { s.add .delete with isLate := true } args
  | "-exec" :: args =>
    let words := args.takeWhile fun word => word ≠ ";" && word ≠ "+"
    match h : args.dropWhile fun word => word ≠ ";" && word ≠ "+" with
    | [] => none
    | mark :: rest =>
      have : rest.length < args.length + 1 := by
        have h1 := (List.dropWhile_sublist (fun word => word ≠ ";" && word ≠ "+")
          (l := args)).length_le
        rw [h] at h1
        simp only [List.length_cons] at h1
        omega
      readSteps? (s.add (.execute words (mark = "+"))) rest
  | _ => none
termination_by args => args.length

/-- Whether an argument starts the conditions of a search. -/
def startsSteps (arg : String) : Bool :=
  arg = "(" || arg = "!" || arg.toList.head? = some '-'

/-- Reads the arguments of a search.  What is found is printed if nothing else is done with it. -/
def ofArguments? (args : List String) : Option Search := do
  let args := args.dropWhile fun arg => arg = "-L" || arg = "-H" || arg = "-P"
  let starts := args.takeWhile fun arg => !startsSteps arg
  let s ← readSteps? { starts := if starts.isEmpty then ["."] else starts }
    (args.dropWhile fun arg => !startsSteps arg)
  if s.alternatives.any fun steps => steps.any SearchStep.isAction then pure s
  else pure { s with alternatives := s.alternatives.map fun steps => steps ++ [.print "\n"] }

/-- The entries that a search comes to, and whether all its paths lead to one. -/
def found (s : Search) (fs : FileSystem) : List Found × Bool :=
  let starts := s.starts.filterMap fun path =>
    ((fs.linkEntry ⟨path⟩).toOption).map fun n => (path, n)
  let all := starts.flatMap fun (path, n) => Found.below s.isLate path 0 n
  let fitting := all.filter fun f => s.least ≤ f.depth && s.most.all fun most => f.depth ≤ most
  (fitting, starts.length = s.starts.length)

end Search

/-- The letter of the kind of an entry. -/
def kindLetter : Node → Char
  | .file _ _ _ => 'f'
  | .link _ _ => 'l'
  | .directory _ _ _ => 'd'
  | .device _ => 'c'

/-- Whether a pattern without quotes stands for a text. -/
def fitsText (pattern text : String) (ignoresCase : Bool) : Bool :=
  let fold (s : String) : List Char := if ignoresCase then s.toList.map Char.toLower else s.toList
  Wildcard.fits (Wildcard.ofCharacters ((fold pattern).map fun c => (c, false))) (fold text)

/-- Whether a condition holds of an entry. -/
def SearchStep.holdsFor (step : SearchStep) (fs : FileSystem) (f : Found) : Bool :=
  match step with
  | .name pattern ignoresCase => fitsText pattern (baseName f.path) ignoresCase
  | .path pattern => fitsText pattern f.path false
  | .kind letters => letters.toList.contains (kindLetter f.node)
  | .isEmpty =>
    match f.node with
    | .file _ _ contents => contents.isEmpty
    | .directory _ _ entries => entries.isEmpty
    | _ => false
  | .newer other =>
    match fs.modified ⟨other⟩ with
    | .ok time => time < f.node.modified
    | .error _ => false
  | .isExecutable =>
    match f.node with
    | .file _ mayRun _ => mayRun
    | _ => true
  | .fails => false
  | _ => true

end Registrar.Script
