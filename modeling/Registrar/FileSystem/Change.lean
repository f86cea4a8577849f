/-
# Changes of the file system

Making, writing, moving and removing entries.  Every change takes place at a later time than the
one before it.
-/
import Registrar.FileSystem.Basic

namespace Registrar.FileSystem

/-! ## Single entries -/

/-- The time of the next change. -/
def nextTime (fs : FileSystem) : Instant :=
  fs.clock + 1

/-- Changes the entry at a location in its place. -/
def modifyEntry (fs : FileSystem) (location : Location) (f : Node → Node) : FileSystem :=
  { fs with root := fs.root.alter (Option.map f) location, clock := fs.nextTime }

/-- Puts an entry at a location, or takes away the one that is there, which changes the directory
around it. -/
def setEntry (fs : FileSystem) (location : Location) (n : Option Node) : FileSystem :=
  { fs with
    root := (fs.root.alter (fun _ => n) location).alter
      (Option.map (Node.touched fs.nextTime)) location.dropLast
    clock := fs.nextTime }

/-! ## Making entries -/

/-- Puts an entry at a place where there is none.  Only a directory may have a slash behind its
name. -/
def addEntry (fs : FileSystem) (p : Path) (n : Node) : Except IoError FileSystem := do
  match ← fs.slot p with
  | .unnamed _ => throw .alreadyExists
  | .name directory text hasSlash =>
    let location := directory ++ [text]
    if (fs.entry? location).isSome then throw .alreadyExists
    else if hasSlash && !n.isDirectory then throw .notFound
    else pure (fs.setEntry location (some n))

/-- Makes an empty directory. -/
def createDirectory (fs : FileSystem) (p : Path) : Except IoError FileSystem :=
  fs.addEntry p (Node.emptyDirectory fs.nextTime)

/-- Makes a directory and the ones above it that are missing; the components are those of the path,
last one first.  A path above is written anew from its components, so it has no slashes in a row:
next to the limit for paths it may be short enough where the text of `p` up to there is not. -/
def createBelow (fs : FileSystem) (p : Path) :
    List Component → FileSystem × Except IoError Unit
  | [] => (fs, .ok ())
  | _ :: above =>
    match fs.createDirectory p with
    | .ok fs => (fs, .ok ())
    | .error .notFound =>
      match fs.createBelow (Path.ofComponents above.reverse) above with
      | (fs, .error e) => (fs, .error e)
      | (fs, .ok ()) =>
        match fs.createDirectory p with
        | .ok fs => (fs, .ok ())
        | .error e => (fs, if fs.isDirectory p then .ok () else .error e)
    | .error e => (fs, if fs.isDirectory p then .ok () else .error e)

/-- Makes a directory and the ones above it that are missing.  A directory that is there already
is no failure. -/
def createDirectories (fs : FileSystem) (p : Path) : FileSystem × Except IoError Unit :=
  fs.createBelow p p.components.reverse

/-- Writes a file, a new one or over the contents of one that is there. -/
def writeFile (fs : FileSystem) (p : Path) (contents : ByteArray) : Except IoError FileSystem := do
  let location ← fs.fileSlot maxLinks fs.workingDirectory p
  match fs.entry? location with
  | some (.file _ isExecutable _) =>
    pure (fs.modifyEntry location fun _ => .file fs.nextTime isExecutable contents)
  | some (.device _) => pure fs
  | some _ => throw .isADirectory
  | none => pure (fs.setEntry location (some (.file fs.nextTime false contents)))

/-- Makes a symbolic link. -/
def createLink (fs : FileSystem) (p : Path) (target : String) : Except IoError FileSystem := do
  checkText ⟨target⟩
  fs.addEntry p (.link fs.nextTime target)

/-- Sets the time of an entry, links followed. -/
def setModified (fs : FileSystem) (p : Path) (time : Instant) : Except IoError FileSystem := do
  let location ← fs.locate true p
  pure (fs.modifyEntry location (Node.withModified time))

/-- Makes a file executable. -/
def makeExecutable (fs : FileSystem) (p : Path) : Except IoError FileSystem := do
  let location ← fs.locate true p
  pure (fs.modifyEntry location fun
    | .file modified _ contents => .file modified true contents
    | n => n)

/-! ## Removing entries -/

/-- Removes a file or a link. -/
def removeFile (fs : FileSystem) (p : Path) : Except IoError FileSystem := do
  match ← fs.slot p with
  | .unnamed _ => throw .isADirectory
  | .name directory text hasSlash =>
    let location := directory ++ [text]
    match fs.entry? location with
    | none => throw .notFound
    | some (.directory _ _ _) => throw .isADirectory
    | some _ => if hasSlash then throw .notADirectory else pure (fs.setEntry location none)

/-- Removes an empty directory. -/
def removeDirectory (fs : FileSystem) (p : Path) : Except IoError FileSystem := do
  match ← fs.slot p with
  | .unnamed .current => throw .badPath
  | .unnamed .parent => throw .directoryNotEmpty
  | .unnamed _ => throw .busy
  | .name directory text _ =>
    let location := directory ++ [text]
    match fs.entry? location with
    | none => throw .notFound
    | some (.directory _ _ entries) =>
      if entries.isEmpty then pure (fs.setEntry location none) else throw .directoryNotEmpty
    | some _ => throw .notADirectory

mutual

/-- Whether every directory in a tree can be listed. -/
def Node.isAllListable : Node → Bool
  | .directory _ isListable entries => isListable && entriesAllListable entries
  | _ => true

/-- Whether every directory in some trees can be listed. -/
def Node.entriesAllListable : List (String × Node) → Bool
  | [] => true
  | (_, n) :: entries => n.isAllListable && Node.entriesAllListable entries

end

/-- Removes a directory with everything in it, or a link to one.  What is in the directory goes
first, so it is gone even if the directory itself cannot be removed, and the path may lead nowhere
after that.  A tree with a directory that cannot be listed stays. -/
def removeTree (fs : FileSystem) (p : Path) : FileSystem × Except IoError Unit :=
  match fs.linkEntry p with
  | .error e => (fs, .error e)
  | .ok (.file _ _ _) | .ok (.device _) => (fs, .error .notADirectory)
  | .ok (.link _ _) =>
    match fs.removeFile p with
    | .ok fs => (fs, .ok ())
    | .error e => (fs, .error e)
  | .ok (.directory modified isListable entries) =>
    if !(Node.directory modified isListable entries).isAllListable then
      (fs, .error .permissionDenied)
    else
      match fs.locate false p with
      | .error e => (fs, .error e)
      | .ok location =>
        let emptied :=
          if entries.isEmpty then fs
          else fs.modifyEntry location fun _ => Node.emptyDirectory fs.nextTime
        match emptied.removeDirectory p with
        | .ok fs => (fs, .ok ())
        | .error .notFound => (emptied, .ok ())
        | .error e => (emptied, .error e)

/-! ## Moving entries -/

/-- Moves an entry to the place that another path names.  A file takes the place of a file or a
link, and a directory that of an empty directory. -/
def rename (fs : FileSystem) (source destination : Path) : Except IoError FileSystem := do
  match ← fs.slot source, ← fs.slot destination with
  | .name directory text hasSlash, .name directory' text' hasSlash' =>
    let origin := directory ++ [text]
    let location := directory' ++ [text']
    match fs.entry? origin with
    | none => throw .notFound
    | some n =>
      let moved := (fs.setEntry origin none).setEntry location (some n)
      if !n.isDirectory && (hasSlash || hasSlash') then throw .notADirectory
      else if location = origin then pure fs
      else if origin.isPrefixOf location then throw .badPath
      else if location.isPrefixOf origin then throw .directoryNotEmpty
      else match fs.entry? location with
        | none => pure moved
        | some (.directory _ _ entries) =>
          if !n.isDirectory then throw .isADirectory
          else if entries.isEmpty then pure moved
          else throw .directoryNotEmpty
        | some _ => if n.isDirectory then throw .notADirectory else pure moved
  | _, _ => throw .busy

/-! ## New names -/

/-- The names that a temporary file may get: `.tmp` and six digits, or more where these do not
suffice. -/
def temporaryName (n : Nat) : String :=
  ".tmp" ++ String.ofList (List.leftpad 6 '0' (Nat.toDigits 10 n))

/-- A name that no entry of a directory has. -/
def freshName (entries : List (String × Node)) : String :=
  let candidates := (List.range (entries.length + 1)).map temporaryName
  (candidates.find? fun name => (entries.lookup name).isNone).getD ".tmp"

/-- Replaces the contents of a file all at once: they are written to a new file next to it, which
then takes its place.  If that fails, nothing has changed and the new file is gone. -/
def replaceFile (fs : FileSystem) (p : Path) (contents : ByteArray) :
    Except IoError FileSystem := do
  let directory := p.parent?.getD ⟨"."⟩
  match ← fs.entry directory with
  | .directory _ _ entries =>
    let temporary := directory / freshName entries
    let written ← fs.writeFile temporary contents
    written.rename temporary p
  | _ => throw .notADirectory

/-! ## Listing a tree -/

mutual

/-- The paths of everything in a tree as seen from it, a slash behind each directory. -/
def Node.listing : Node → List String
  | .directory _ _ entries => entriesListing entries
  | _ => []

/-- The paths of some entries and everything in them. -/
def Node.entriesListing : List (String × Node) → List String
  | [] => []
  | (name, n) :: entries =>
    (match n with
      | .directory _ _ _ => (name ++ "/") :: n.listing.map fun below => name ++ "/" ++ below
      | _ => [name]) ++ Node.entriesListing entries

end

/-- The paths of everything below a path in ascending order, links not followed.  Nothing is below
what is no directory, or is not there. -/
def listTree (fs : FileSystem) (p : Path) : List String :=
  match fs.entry p with
  | .ok n => n.listing.mergeSort fun a b => decide (a ≤ b)
  | .error _ => []

end Registrar.FileSystem
