/-
# Producers

Where the documents of a header tree come from: a run of the documentation tool, or a directory
of documents that are there already.
-/
import Registrar.Documentation.Doxyfile
import Registrar.FileSystem.Change
import Registrar.Run.Error
import Registrar.Script.Run

namespace Registrar

/-- A step of a run: it may change the file system, say something, and fail. -/
abbrev Step (α : Type) := ExceptT RunError (StateT FileSystem Logged) α

namespace Step

/-- Says one line. -/
def say (level : Level) (message : String) : Step Unit :=
  ExceptT.lift (StateT.lift (Logged.say level message))

/-- A step that says something and may fail, but changes nothing. -/
def ofLogged {ε α : Type} (wrap : ε → RunError) (x : ExceptT ε Logged α) : Step α :=
  ExceptT.mk (StateT.lift (Except.mapError wrap <$> x.run))

/-- A change of the file system, which fails for a given reason. -/
def change (reason : RunError) (f : FileSystem → Except IoError FileSystem) : Step Unit := do
  match f (← get) with
  | .ok fs => set fs
  | .error _ => throw reason

end Step

/-- Produces the documents of the headers below a directory.  The scratch directory is for
intermediate files, and the answer is the directory that holds the documents. -/
structure Producer where
  /-- Whether the scratch directory is needed.  If not, it is neither made nor removed. -/
  usesScratch : Bool
  produce : (input scratch : Path) → Settings → Step Path

namespace Producer

/-- The documentation tool that the settings name. -/
def doxygen (programs : Programs) : Producer where
  usesScratch := true
  produce input scratch s := do
    let doxyfile := scratch / "Doxyfile"
    Step.change (.write doxyfile) fun fs =>
      fs.writeFile doxyfile (Doxyfile.contents input scratch s).toUTF8
    let program := s.doxygenExecutable
    Step.say .info ("Generating AST with '" ++ program ++ "'...")
    match programs (← get) program [doxyfile.text] scratch with
    | .error _ => throw (.spawn program)
    | .ok (status, fs) =>
      set fs
      if status.isSuccess then pure (scratch / Doxyfile.xmlOutput)
      else throw (.producerFailed program status)

/-- A directory of documents that are there already. -/
def prebuilt (dir : Path) : Producer where
  usesScratch := false
  produce _ _ _ := do
    Step.say .info ("Using prebuilt AST in '" ++ dir.text ++ "'")
    pure dir

end Producer

end Registrar
