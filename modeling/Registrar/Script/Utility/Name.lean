/-
# Names of files

The last name of a path and what stands in front of it, and what a path is once its links have
been followed.
-/
import Registrar.Script.Utility.Effect

namespace Registrar.Script

/-- A text without the slashes at its end. -/
def withoutSlashes (cs : List Char) : List Char :=
  (cs.reverse.dropWhile (· = '/')).reverse

/-- The last name of a path. -/
def baseName (text : String) : String :=
  match withoutSlashes text.toList with
  | [] => if text.isEmpty then "" else "/"
  | cs => String.ofList (cs.reverse.takeWhile (· ≠ '/')).reverse

/-- The path in front of the last name. -/
def directoryName (text : String) : String :=
  match (withoutSlashes text.toList).reverse.dropWhile (· ≠ '/') with
  | [] => if text.toList.head? = some '/' && (withoutSlashes text.toList).isEmpty then "/" else "."
  | front =>
    match front.dropWhile (· = '/') with
    | [] => "/"
    | front => String.ofList front.reverse

/-- The path of the last name of a source in a directory. -/
def inside (directory source : String) : Path :=
  let name := baseName source
  if name = "." || name = ".." then ⟨directory⟩ else (⟨directory⟩ : Path) / name

namespace Utility

/-- Writes the last names of paths, or of a single path without a given ending. -/
def basename : Utility := fun fs _ args =>
  let a := Arguments.read ['s'] {} args
  let without (ending name : String) : String :=
    if name ≠ ending && Text.endsWith name ending then
      String.ofList (name.toList.take (name.length - ending.length))
    else name
  let write (names : List String) : Effect :=
    Effect.say fs (String.join (names.map fun name => name ++ "\n"))
  let ending := a.value? 's'
  match a.operands with
  | [] => Effect.refusal fs
  | [name] => write [without (ending.getD "") (baseName name)]
  | names =>
    if ending.isSome || a.has ['a'] then
      write (names.map fun name => without (ending.getD "") (baseName name))
    else match names with
      | [name, ending] => write [without ending (baseName name)]
      | _ => Effect.refusal fs

/-- Writes what stands in front of the last names of paths. -/
def dirname : Utility := fun fs _ args =>
  let a := Arguments.read [] {} args
  if a.operands.isEmpty then Effect.refusal fs
  else Effect.say fs (String.join (a.operands.map fun name => directoryName name ++ "\n"))

/-- The path that another path leads to, links followed; with `mustExist` something has to be
there. -/
def realPath? (fs : FileSystem) (mustExist : Bool) (text : String) : Option String :=
  match fs.resolve true ⟨text⟩ with
  | .ok (.present location) => some (FileSystem.pathOf location).text
  | .ok (.absent location _) => if mustExist then none else some (FileSystem.pathOf location).text
  | .error _ => none

/-- Writes the paths that other paths lead to. -/
def realpath : Utility := fun fs _ args =>
  let a := Arguments.read [] {} args
  if a.operands.isEmpty then Effect.refusal fs
  else Effect.forEach fs a.operands fun fs name =>
    match realPath? fs (a.has ['e']) name with
    | some path => Effect.say fs (path ++ "\n")
    | none => Effect.refusal fs

/-- Writes what links hold, or with some options where they lead. -/
def readlink : Utility := fun fs _ args =>
  let a := Arguments.read [] {} args
  let ending := if a.has ['n'] then "" else "\n"
  if a.operands.isEmpty then Effect.refusal fs
  else Effect.forEach fs a.operands fun fs name =>
    if a.has ['f', 'e', 'm'] then
      match realPath? fs (a.has ['e']) name with
      | some path => Effect.say fs (path ++ ending)
      | none => Effect.refusal fs
    else match fs.linkEntry ⟨name⟩ with
      | .ok (.link _ target) => Effect.say fs (target ++ ending)
      | _ => Effect.refusal fs

end Utility

end Registrar.Script
