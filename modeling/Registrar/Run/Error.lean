/-
# Failures of a run
-/
import Registrar.Classification
import Registrar.Documentation.Directory
import Registrar.Script.ExitStatus
import Registrar.Template.Basic

namespace Registrar

/-- Why a run has not generated anything. -/
inductive RunError where
  /-- A directory that is given by an empty path, or seen from a directory that is gone. -/
  | resolve (path : Path)
  | createDirectory (path : Path)
  | write (path : Path)
  /-- The documentation tool cannot be started. -/
  | spawn (program : String)
  /-- The documentation tool has failed. -/
  | producerFailed (program : String) (status : ExitStatus)
  | ingest (e : Documentation.IngestError)
  | classify (e : ClassifyError)
  | template (e : TemplateError)
  deriving DecidableEq, Repr

namespace RunError

/-- The wording of a failure. -/
def message : RunError → String
  | resolve path => "failed to resolve '" ++ path.text ++ "'"
  | createDirectory path => "failed to create directory '" ++ path.text ++ "'"
  | write path => "failed to write '" ++ path.text ++ "'"
  | spawn program => "failed to run '" ++ program ++ "'"
  | producerFailed program status => "'" ++ program ++ "' exited with " ++ status.display
  | ingest e => e.message
  | classify e => e.message
  | template e => e.message

end RunError

end Registrar
