/-
# Directories of documents

The model of all documents in a directory, in the order of their file names.
-/
import Registrar.Documentation.Compound
import Registrar.FileSystem.Basic
import Registrar.Model.Basic

namespace Registrar.Documentation

/-- Why a directory of documents cannot be taken in. -/
inductive IngestError where
  /-- The directory cannot be listed. -/
  | readDirectory (path : Path)
  deriving DecidableEq, Repr

namespace IngestError

/-- The wording of a failure. -/
def message : IngestError → String
  | readDirectory path => "failed to read AST directory '" ++ path.text ++ "'"

end IngestError

/-- What is wrong with a document. -/
inductive DocumentError where
  /-- The text is no document. -/
  | malformed
  deriving DecidableEq, Repr

namespace DocumentError

/-- The wording of a failure. -/
def message : DocumentError → String
  | malformed => "malformed AST document"

end DocumentError

/-- What the document that a text spells declares. -/
def parse (tags : TagSettings) (text : String) :
    ExceptT DocumentError Logged (List Declaration) :=
  match Xml.parse? text with
  | none => throw .malformed
  | some document => ExceptT.mk (Except.ok <$> declarations tags document)

/-- The names of the documents in a directory, in ascending order: those of the files with the
extension `xml`, links followed. -/
def documentNames (fs : FileSystem) (dir : Path) (entries : List (String × FileSystem.Node)) :
    List String :=
  let names := (entries.map Prod.fst).filter fun name =>
    Path.extension? name = some "xml" && fs.isFile (dir / name)
  names.mergeSort fun a b => decide (a ≤ b)

/-- Adds what one document declares to a model.  A document that cannot be read, or is malformed,
is reported and left out. -/
def addDocument (fs : FileSystem) (tags : TagSettings) (dir : Path) (m : Model) (name : String) :
    Logged Model :=
  let path := dir / name
  match fs.readText path with
  | .error _ => do
    Logged.say .warn ("skipping AST file: failed to read '" ++ path.text ++ "'")
    pure m
  | .ok text => do
    match ← (parse tags text).run with
    | .error e =>
      Logged.say .warn ("skipping '" ++ path.text ++ "': " ++ e.message)
      pure m
    | .ok ds =>
      Logged.say .debug (path.text ++ ": " ++ toString ds.length ++ " type(s)")
      pure (ds.foldl Model.push m)

/-- The model of the documents in a directory. -/
def readDirectory (fs : FileSystem) (tags : TagSettings) (dir : Path) :
    ExceptT IngestError Logged Model :=
  match fs.listDirectory dir with
  | .error _ => throw (.readDirectory dir)
  | .ok entries =>
    ExceptT.mk (Except.ok <$> (documentNames fs dir entries).foldlM (addDocument fs tags dir) {})

end Registrar.Documentation
