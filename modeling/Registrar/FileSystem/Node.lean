/-
# File trees

Files, symbolic links and directories as a tree, and the entry at a location in it.
-/

namespace Registrar

/-- A time of modification in nanoseconds. -/
abbrev Instant := Int

namespace FileSystem

/-- The names from the root down to an entry. -/
abbrev Location := List String

/-- An entry of a file tree. -/
inductive Node where
  | file (modified : Instant) (isExecutable : Bool) (contents : ByteArray)
  | link (modified : Instant) (target : String)
  /-- A directory with its entries in the order in which they are listed.  A directory that is not
  listable can be passed through but not read. -/
  | directory (modified : Instant) (isListable : Bool) (entries : List (String × Node))
  /-- A device, which is empty and keeps nothing of what is written to it. -/
  | device (modified : Instant)

namespace Node

/-- An empty directory. -/
def emptyDirectory (modified : Instant) : Node :=
  directory modified true []

/-- When an entry was last changed. -/
def modified : Node → Instant
  | file modified _ _ => modified
  | link modified _ => modified
  | directory modified _ _ => modified
  | device modified => modified

/-- The same entry as if it had been changed at a given time. -/
def withModified (time : Instant) : Node → Node
  | file _ isExecutable contents => file time isExecutable contents
  | link _ target => link time target
  | directory _ isListable entries => directory time isListable entries
  | device _ => device time

/-- Whether an entry is a directory. -/
def isDirectory : Node → Bool
  | directory _ _ _ => true
  | _ => false

/-- Whether an entry is a file. -/
def isFile : Node → Bool
  | file _ _ _ => true
  | _ => false

/-- Whether an entry is a device. -/
def isDevice : Node → Bool
  | device _ => true
  | _ => false

/-- The entries of a directory; there are none in anything else. -/
def entries : Node → List (String × Node)
  | directory _ _ entries => entries
  | _ => []

/-- The entry at a location below a node. -/
def get? : Location → Node → Option Node
  | [], n => some n
  | name :: location, directory _ _ entries => (entries.lookup name).bind (get? location)
  | _ :: _, _ => none

/-- Changes the entry of a given name, adds it, or takes it out. -/
def alterEntry (name : String) (f : Option Node → Option Node) :
    List (String × Node) → List (String × Node)
  | [] =>
    match f none with
    | some n => [(name, n)]
    | none => []
  | (other, n) :: entries =>
    if other = name then
      match f (some n) with
      | some n => (name, n) :: entries
      | none => entries.filter fun entry => entry.1 ≠ name
    else (other, n) :: alterEntry name f entries

/-- Changes the entry at a location below a node, adds it, or takes it out.  Nothing changes if the
location does not lie in a directory. -/
def alter (f : Option Node → Option Node) : Location → Node → Node
  | [], n => (f (some n)).getD n
  | name :: location, directory modified isListable entries =>
    directory modified isListable <|
      if location.isEmpty then alterEntry name f entries
      else alterEntry name (Option.map (alter f location)) entries
  | _ :: _, n => n

/-- Notes that the list of entries of a directory changed. -/
def touched (time : Instant) : Node → Node
  | directory _ isListable entries => directory time isListable entries
  | n => n

end Node

end FileSystem

end Registrar
