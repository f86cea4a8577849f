/-
# The file system

A file tree with a working directory and a clock, and where a path leads in it.  Links are
followed on the way, and at most forty of them.
-/
import Registrar.FileSystem.Node
import Registrar.Path.Basic

namespace Registrar

/-- Why the file system refuses something. -/
inductive IoError where
  | notFound
  | permissionDenied
  | alreadyExists
  | notADirectory
  | isADirectory
  | directoryNotEmpty
  | tooManyLinks
  | nameTooLong
  | badPath
  | notText
  | busy
  deriving DecidableEq, Repr

/-- A file tree with the location of the working directory and the time of the last change. -/
structure FileSystem where
  root : FileSystem.Node
  workingDirectory : FileSystem.Location
  clock : Instant

namespace FileSystem

/-- The entry at a location. -/
def entry? (fs : FileSystem) (location : Location) : Option Node :=
  fs.root.get? location

/-- The path of a location. -/
def pathOf (location : Location) : Path :=
  ⟨"/" ++ "/".intercalate location⟩

/-! ## Where a path leads -/

/-- Where a path leads: to an entry, or to a place in a directory that is free.  A free place may
have been asked for as that of a directory, by a slash behind it. -/
inductive Target where
  | present (location : Location)
  | absent (location : Location) (asDirectory : Bool)
  deriving DecidableEq, Repr

/-- How far a walk gets without following a link. -/
inductive Walk where
  | done (outcome : Except IoError Target)
  /-- A link in a directory, what it holds, and the pieces of the path behind it. -/
  | link (directory : Location) (target : Path) (rest : List (List Char))

/-- The most bytes that a name may have. -/
def maxNameLength : Nat := 255

/-- The most bytes that a path may have. -/
def maxPathLength : Nat := 4095

/-- The most links that are followed on the way to an entry. -/
def maxLinks : Nat := 40

/-- Walks the pieces of a path from the directory at a location up to the first link.  A link at
the end stays unless it is to be followed or a slash stands behind it. -/
def walk (fs : FileSystem) (followLast : Bool) : Location → List (List Char) → Walk
  | location, [] => .done (.ok (.present location))
  | location, piece :: rest =>
    if piece = [] ∨ piece = ['.'] then fs.walk followLast location rest
    else if piece = ['.', '.'] then fs.walk followLast location.dropLast rest
    else
      let name := String.ofList piece
      let place := location ++ [name]
      if name.utf8ByteSize > maxNameLength then .done (.error .nameTooLong)
      else match fs.entry? place with
        | none =>
          if rest.all List.isEmpty then .done (.ok (.absent place (!rest.isEmpty)))
          else .done (.error .notFound)
        | some (.link _ target) =>
          if rest.isEmpty && !followLast then .done (.ok (.present place))
          else .link location ⟨target⟩ rest
        | some (.directory _ _ _) => fs.walk followLast place rest
        | some _ =>
          if rest.isEmpty then .done (.ok (.present place)) else .done (.error .notADirectory)

/-- The directory at which the walk of a path begins. -/
def start (directory : Location) (p : Path) : Location :=
  if p.isAbsolute then [] else directory

/-- Walks the pieces of a path and follows the links on the way, `links` of them at most. -/
def follow (fs : FileSystem) (followLast : Bool) :
    Nat → Location → List (List Char) → Except IoError Target
  | links, location, pieces =>
    match fs.walk followLast location pieces with
    | .done outcome => outcome
    | .link directory target rest =>
      match links with
      | 0 => .error .tooManyLinks
      | links + 1 =>
        if target.text.isEmpty then .error .notFound
        else fs.follow followLast links (start directory target) (target.pieces ++ rest)

/-- Whether there is a directory at a location. -/
def isDirectoryAt (fs : FileSystem) (location : Location) : Bool :=
  (fs.entry? location).any Node.isDirectory

/-- Whether a text may be a path at all. -/
def checkText (p : Path) : Except IoError Unit :=
  if p.text.isEmpty then .error .notFound
  else if '\x00' ∈ p.text.toList then .error .badPath
  else if p.text.utf8ByteSize > maxPathLength then .error .nameTooLong
  else .ok ()

/-- Where the pieces of a path lead from a directory, which has to be there. -/
def resolvePieces (fs : FileSystem) (followLast : Bool) (directory : Location)
    (pieces : List (List Char)) : Except IoError Target :=
  if !fs.isDirectoryAt directory then .error .notFound
  else fs.follow followLast maxLinks directory pieces

/-- Where a path leads from a directory.  An empty path leads nowhere, and neither does a relative
one if the directory is gone. -/
def resolveFrom (fs : FileSystem) (directory : Location) (followLast : Bool) (p : Path) :
    Except IoError Target := do
  checkText p
  fs.resolvePieces followLast (start directory p) p.pieces

/-- Where a path leads from the working directory. -/
def resolve (fs : FileSystem) (followLast : Bool) (p : Path) : Except IoError Target :=
  fs.resolveFrom fs.workingDirectory followLast p

/-- The path of the working directory, unless it is gone. -/
def workingPath? (fs : FileSystem) : Option Path :=
  if fs.isDirectoryAt fs.workingDirectory then some (pathOf fs.workingDirectory) else none

/-- The location of the entry that a path leads to. -/
def locate (fs : FileSystem) (followLast : Bool) (p : Path) : Except IoError Location := do
  match ← fs.resolve followLast p with
  | .present location => pure location
  | .absent _ _ => throw .notFound

/-! ## The place of an entry -/

/-- The place that a path names for an entry, whether one is there or not.  A link at the end of
the path is not followed, even if a slash stands behind it. -/
inductive Slot where
  /-- A name in a directory, with whether a slash stands behind it. -/
  | name (directory : Location) (text : String) (hasSlash : Bool)
  /-- A directory that is given without a name of its own: the root, or by one or two dots at the
  end of the path. -/
  | unnamed (ending : Component)
  deriving DecidableEq, Repr

/-- The location of the directory that the pieces of a path lead to. -/
def locateDirectory (fs : FileSystem) (directory : Location) (pieces : List (List Char)) :
    Except IoError Location := do
  match ← fs.resolvePieces true directory pieces with
  | .present location =>
    if fs.isDirectoryAt location then pure location else throw .notADirectory
  | .absent _ _ => throw .notFound

/-- The place that a path names as seen from a directory. -/
def slotFrom (fs : FileSystem) (directory : Location) (p : Path) : Except IoError Slot := do
  checkText p
  match p.pieces.reverse.dropWhile List.isEmpty with
  | [] => pure (.unnamed .root)
  | last :: above =>
    let directory ← fs.locateDirectory (start directory p) above.reverse
    if last = ['.'] then pure (.unnamed .current)
    else if last = ['.', '.'] then pure (.unnamed .parent)
    else
      let text := String.ofList last
      if text.utf8ByteSize > maxNameLength then throw .nameTooLong
      else pure (.name directory text p.endsInSlash)

/-- The place that a path names as seen from the working directory. -/
def slot (fs : FileSystem) (p : Path) : Except IoError Slot :=
  fs.slotFrom fs.workingDirectory p

/-- The location of the file that is opened for writing under a path, whether it is there or not.
A link at its end is followed to where its own file would be; `links` of them at most. -/
def fileSlot (fs : FileSystem) : (links : Nat) → Location → Path → Except IoError Location
  | links, directory, p => do
    match ← fs.slotFrom directory p with
    | .unnamed _ => throw .isADirectory
    | .name directory text hasSlash =>
      if hasSlash then throw .isADirectory
      else match fs.entry? (directory ++ [text]) with
        | some (.link _ target) =>
          match links with
          | 0 => throw .tooManyLinks
          | links + 1 => fs.fileSlot links directory ⟨target⟩
        | _ => pure (directory ++ [text])

/-! ## Reading -/

/-- The entry that a path leads to, links followed. -/
def entry (fs : FileSystem) (p : Path) : Except IoError Node := do
  let location ← fs.locate true p
  match fs.entry? location with
  | some n => pure n
  | none => throw .notFound

/-- The entry that a path leads to, which may be a link. -/
def linkEntry (fs : FileSystem) (p : Path) : Except IoError Node := do
  let location ← fs.locate false p
  match fs.entry? location with
  | some n => pure n
  | none => throw .notFound

/-- When the entry that a path leads to was last changed. -/
def modified (fs : FileSystem) (p : Path) : Except IoError Instant :=
  (fs.entry p).map Node.modified

/-- Whether a path leads to a file. -/
def isFile (fs : FileSystem) (p : Path) : Bool :=
  match fs.entry p with
  | .ok n => n.isFile
  | .error _ => false

/-- Whether a path leads to a directory. -/
def isDirectory (fs : FileSystem) (p : Path) : Bool :=
  match fs.entry p with
  | .ok n => n.isDirectory
  | .error _ => false

/-- The contents of a file. -/
def readFile (fs : FileSystem) (p : Path) : Except IoError ByteArray := do
  match ← fs.entry p with
  | .file _ _ contents => pure contents
  | .device _ => pure ByteArray.empty
  | _ => throw .isADirectory

/-- The contents of a file as text. -/
def readText (fs : FileSystem) (p : Path) : Except IoError String := do
  let contents ← fs.readFile p
  match String.fromUTF8? contents with
  | some text => pure text
  | none => throw .notText

/-- The entries of a directory. -/
def listDirectory (fs : FileSystem) (p : Path) : Except IoError (List (String × Node)) := do
  match ← fs.entry p with
  | .directory _ true entries => pure entries
  | .directory _ false _ => throw .permissionDenied
  | _ => throw .notADirectory

end FileSystem

end Registrar
