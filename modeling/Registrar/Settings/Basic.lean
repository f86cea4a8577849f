/-
# Settings

What a run can be told.  Every setting has a default, so a configuration lists only what it
changes.
-/
import Registrar.Model.Role
import Registrar.Path.Basic

namespace Registrar

/-- The markers that a description may hold. -/
structure TagSettings where
  component : List String := ["[component]"]
  system : List String := ["[system]"]
  scene : List String := ["[scene]", "[gamemode]"]
  encodable : List String := ["[encodable]"]
  property : String := "[property]"
  required : String := r"{required}"
  enumeration : String := r"{enum}"
  vector : String := r"{vector}"
  deriving DecidableEq, Repr

namespace TagSettings

/-- The markers that give a class its role. -/
def roleMarkers (tags : TagSettings) : Role → List String
  | .component => tags.component
  | .system => tags.system
  | .scene => tags.scene
  | .none => []

end TagSettings

/-- The names of base classes that give a class its role. -/
structure BaseSettings where
  component : List String := ["hect::Component", "Component"]
  system : List String := ["hect::System", "System"]
  scene : List String := ["hect::Scene", "Scene"]
  deriving DecidableEq, Repr

namespace BaseSettings

/-- The names of base classes that give a class its role. -/
def targets (bases : BaseSettings) : Role → List String
  | .component => bases.component
  | .system => bases.system
  | .scene => bases.scene
  | .none => []

end BaseSettings

/-- The settings of one run. -/
structure Settings where
  /-- The patterns of the names of headers. -/
  filePatterns : List String := ["*.h"]
  outputFileName : String := "RegisterTypes.h"
  /-- The directory for intermediate files, as seen from the output directory. -/
  scratchDirName : String := "xml"
  /-- The directory of the templates that replace the built-in ones. -/
  templateDir : Option Path := none
  /-- A class with this text in its simple name is not registered. -/
  iteratorMarker : String := "Iterator"
  doxygenExecutable : String := "doxygen"
  tags : TagSettings := {}
  bases : BaseSettings := {}
  deriving DecidableEq, Repr

end Registrar
