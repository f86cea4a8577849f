/-
# Programs

Which program a name or a path stands for: one of the system, or an executable file whose first
line names the interpreter of its text.
-/
import Registrar.Script.Process
import Registrar.Script.Utility

namespace Registrar.Script

/-- What runs when a program is started. -/
inductive Program where
  | utility (run : Utility)
  /-- A program that runs scripts; an extended one knows some more features. -/
  | shell (isExtended : Bool)
  /-- A program that starts others. -/
  | starter (name : String)
  /-- A file that names no interpreter. -/
  | text (path : String)

namespace Program

/-- What the file of every program of the system begins with. -/
def imageMark : ByteArray := ⟨#[0x7F, 0x45, 0x4C, 0x46]⟩

/-- What stands in the file of the program of the system with a given name. -/
def image (name : String) : ByteArray :=
  imageMark ++ name.toUTF8

/-- The name of the program of the system in whose file some contents stand. -/
def imageName? (contents : ByteArray) : Option String :=
  if (contents.extract 0 imageMark.size).data = imageMark.data then
    String.fromUTF8? (contents.extract imageMark.size contents.size)
  else none

/-- The names of the programs that start others. -/
def starters : List String :=
  ["env", "find", "nice", "nohup", "printenv", "setsid", "stdbuf", "timeout", "which", "xargs"]

/-- The names of the programs of the system. -/
def systemNames : List String :=
  ["bash", "dash"] ++ starters ++ utilities.map Prod.fst

/-- The program of the system of a given name. -/
def ofName? (name : String) : Option Program :=
  if name = "dash" then some (.shell false)
  else if name = "bash" then some (.shell true)
  else if starters.contains name then some (.starter name)
  else (utilities.lookup name).map .utility

/-- The interpreter that the first line of a file names, with the rest of the line, which is a
single argument. -/
def interpreter? (contents : ByteArray) : Option (String × List String) := do
  let isBlank (c : Char) : Bool := c = ' ' || c = '\t'
  let line := (contentLines contents).headD []
  let line ← ['#', '!'].isPrefixOf? line
  let line := ((line.dropWhile isBlank).reverse.dropWhile isBlank).reverse
  let name := line.takeWhile fun c => !isBlank c
  let argument := (line.drop name.length).dropWhile isBlank
  if name.isEmpty then none
  else pure (String.ofList name, if argument.isEmpty then [] else [String.ofList argument])

/-- The most interpreters that are themselves files with an interpreter. -/
def maxInterpreters : Nat := 5

/-- The program that a path stands for, with the arguments that come before those it is given. -/
def ofPath (fs : FileSystem) : (depth : Nat) → (path : String) →
    Except IoError (Program × List String)
  | 0, _ => .error .tooManyLinks
  | depth + 1, path => do
    match ← fs.entry ⟨path⟩ with
    | .file _ true contents =>
      match (imageName? contents).bind ofName?, interpreter? contents with
      | some program, _ => .ok (program, [])
      | none, none => .ok (.text path, [])
      | none, some (name, argument) => do
        match ← ofPath fs depth name with
        | (.text _, _) => throw .permissionDenied
        | (program, front) => pure (program, front ++ argument ++ [path])
    | _ => .error .permissionDenied

/-- The directories in which programs are looked for, unless a script says otherwise. -/
def usualDirectories : String :=
  "/usr/local/sbin:/usr/local/bin:/usr/sbin:/usr/bin:/sbin:/bin"

/-- The paths under which a name without a slash is looked for. -/
def candidates (directories name : String) : List String :=
  (Chars.splitOn ':' directories.toList).map fun directory =>
    if directory.isEmpty then "./" ++ name else String.ofList directory ++ "/" ++ name

/-- The first of some paths that stands for a program.  A file that cannot be executed hides that
there is none at all. -/
def firstOf (fs : FileSystem) : List String → Except IoError (String × Program × List String)
  | [] => .error .notFound
  | path :: paths =>
    match ofPath fs (maxInterpreters + 1) path with
    | .ok (program, front) => .ok (path, program, front)
    | .error e =>
      match firstOf fs paths, e with
      | .ok found, _ => .ok found
      | .error _, .permissionDenied => .error .permissionDenied
      | .error e, _ => .error e

end Program

/-- The program that a name stands for, with its path and the arguments that come before those it
is given. -/
def Process.program (p : Process) (name : String) :
    Except IoError (String × Program × List String) :=
  if name.isEmpty then .error .notFound
  else if name.toList.contains '/' then
    (Program.ofPath p.fs (Program.maxInterpreters + 1) name).map fun found => (name, found)
  else
    let directories := (p.valueOf? "PATH").getD Program.usualDirectories
    Program.firstOf p.fs (Program.candidates directories name)

end Registrar.Script
