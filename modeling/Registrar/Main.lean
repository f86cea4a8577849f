/-
# The program

Takes the files that a command line is about into a file tree, runs the command line on it, prints
what it says, and puts the changes back in place.
-/
import Registrar.CommandLine.Run
import Registrar.FileSystem.Change
import Registrar.Script.Machine

namespace Registrar.Program

open FileSystem (Location Node)

/-- The part of the file system that has been taken in, and the directories whose entries have. -/
structure Snapshot where
  fs : FileSystem
  listed : List Location := []

namespace Snapshot

/-- Puts an entry in its place, unless there is one. -/
def add (s : Snapshot) (location : Location) (n : Node) : Snapshot :=
  if (s.fs.entry? location).isSome then s
  else { s with fs := s.fs.setEntry location (some n) }

/-- Notes that a directory cannot be listed. -/
def close (s : Snapshot) (location : Location) : Snapshot :=
  { s with fs := s.fs.modifyEntry location fun n => .directory n.modified false n.entries }

end Snapshot

/-- A time of the system in nanoseconds. -/
def instant (time : IO.FS.SystemTime) : Instant :=
  time.sec * 1000000000 + (time.nsec.toNat : Int)

/-- Something that leads nowhere. -/
def nowhere (modified : Instant) : Node :=
  .link modified ""

mutual

/-- Takes in the entry at a location, and if it is a directory and `isDeep` is set, everything in
it. -/
partial def addEntry (s : Snapshot) (location : Location) (isDeep : Bool) : IO Snapshot := do
  let path := (← IO.currentDir) / (FileSystem.pathOf location).text
  match ← path.symlinkMetadata.toBaseIO with
  | .error _ => pure s
  | .ok info =>
    let modified := instant info.modified
    match info.type with
    | .file =>
      match ← (IO.FS.readBinFile path).toBaseIO with
      | .ok contents => pure (s.add location (.file modified false contents))
      | .error _ => pure (s.add location (nowhere modified))
    | .symlink =>
      match ← (IO.FS.realPath path).toBaseIO with
      | .ok target =>
        addPath (s.add location (.link modified target.toString)) ⟨target.toString⟩ isDeep
      | .error _ => pure (s.add location (nowhere modified))
    | .other => pure (s.add location (.device modified))
    | .dir =>
      let s := s.add location (Node.emptyDirectory modified)
      if !isDeep || location ∈ s.listed then pure s
      else
        let s := { s with listed := location :: s.listed }
        match ← path.readDir.toBaseIO with
        | .ok entries =>
          entries.foldlM (fun s entry => addEntry s (location ++ [entry.fileName]) true) s
        | .error _ => pure (s.close location)

/-- Takes in what lies on the way of an absolute path, and at its end, if `isDeep` is set,
everything below. -/
partial def addPath (s : Snapshot) (p : Path) (isDeep : Bool) : IO Snapshot :=
  addPieces s [] (p.pieces.filter fun piece => piece ≠ [] ∧ piece ≠ ['.']) isDeep

/-- Takes in what lies on the way of the pieces of a path. -/
partial def addPieces (s : Snapshot) (location : Location) (pieces : List (List Char))
    (isDeep : Bool) : IO Snapshot := do
  match pieces with
  | [] => addEntry s location isDeep
  | ['.', '.'] :: rest => addPieces s location.dropLast rest isDeep
  | piece :: rest =>
    let place := location ++ [String.ofList piece]
    let s ← addEntry s place false
    match s.fs.entry? place with
    | some (.link _ target) =>
      addPath s ((Path.mk target).join ⟨"/".intercalate (rest.map String.ofList)⟩) isDeep
    | some (.directory _ _ _) => addPieces s place rest isDeep
    | _ => pure s

end

/-- The directory that the program works in, on a machine with nothing else. -/
def workingSnapshot : IO Snapshot := do
  let here : Path := ⟨(← IO.currentDir).toString⟩
  let location := here.components.filterMap fun
    | .name text => some text
    | _ => none
  addPath ⟨⟨Script.Machine.root 0, location, 0⟩, []⟩ here false

/-- Takes in what a path leads to. -/
def addRelative (s : Snapshot) (p : Path) : IO Snapshot := do
  addPath s ((Path.mk (← IO.currentDir).toString).join p) true

/-- Takes in everything that a command line is about. -/
def takeIn (arguments : List String) : IO FileSystem := do
  let s ← workingSnapshot
  match CommandLine.Arguments.parse arguments with
  | .error _ => pure s.fs
  | .ok arguments =>
    let s ← (arguments.configuration.toList).foldlM addRelative s
    let settings := match CommandLine.settings s.fs arguments with
      | .ok settings => settings
      | .error _ => {}
    let program : Path := ⟨settings.doxygenExecutable⟩
    let named := arguments.input :: arguments.output :: arguments.xmlDir.toList
    let s ← (named ++ settings.templateDir.toList ++ [program]).foldlM addRelative s
    match s.fs.makeExecutable program with
    | .ok fs => pure fs
    | .error _ => pure s.fs

/-- Puts a file in its place all at once. -/
def putFile (path : String) (contents : ByteArray) : IO Unit := do
  let temporary := path ++ ".tmp"
  IO.FS.writeBinFile temporary contents
  IO.FS.rename temporary path

mutual

/-- Makes the entry at a location what it has become. -/
partial def putBack (location : Location) (before after : Option Node) : IO Unit := do
  let path := (FileSystem.pathOf location).text
  match before, after with
  | some (.file _ _ old), some (.file _ _ new) => if old ≠ new then putFile path new
  | _, some (.file _ _ new) => putFile path new
  | some (.directory _ _ old), some (.directory _ _ new) => putEntries location old new
  | _, some (.directory _ _ new) =>
    IO.FS.createDirAll path
    putEntries location [] new
  | some (.directory _ _ _), none => IO.FS.removeDirAll path
  | some _, none => IO.FS.removeFile path
  | _, _ => pure ()

/-- Makes the entries of a directory what they have become. -/
partial def putEntries (location : Location) (before after : List (String × Node)) : IO Unit := do
  for (name, n) in before do
    if (after.lookup name).isNone then putBack (location ++ [name]) (some n) none
  for (name, n) in after do
    putBack (location ++ [name]) (before.lookup name) (some n)

end

/-- Runs a command line.  The documentation tool can only be a script. -/
def run (arguments : List String) : IO UInt32 := do
  let before ← takeIn arguments
  let ran := CommandLine.run Script.start arguments before
  let (ending, after) := ran.result
  putBack [] (some before.root) (some after.root)
  for line in ran.log do
    IO.println (line.level.label.toUpper ++ " " ++ line.message)
  match ending with
  | .done => pure ()
  | .shown text => IO.print text
  | .misused => IO.eprint CommandLine.usageText
  | .failed e => IO.eprintln ("Error: " ++ e.message)
  pure ending.exitCode.toUInt32

end Registrar.Program

/-- The command line `reflect`. -/
def main (arguments : List String) : IO UInt32 :=
  Registrar.Program.run arguments
