/-
# Configuration files
-/
import Registrar.FileSystem.Basic
import Registrar.Json.Reader
import Registrar.Settings.Json

namespace Registrar

/-- Why a configuration file gives no settings. -/
inductive SettingsError where
  /-- The file cannot be read as text. -/
  | read (path : Path)
  /-- The text of the file gives no settings. -/
  | parse (path : Path)
  deriving DecidableEq, Repr

namespace SettingsError

/-- The wording of a failure. -/
def message : SettingsError → String
  | read path => "failed to read config '" ++ path.text ++ "'"
  | parse path => "invalid config '" ++ path.text ++ "'"

end SettingsError

namespace Settings

/-- The settings that a text spells. -/
def parse? (text : String) : Option Settings :=
  (Json.parse? text).bind ofJson?

/-- The settings in a file. -/
def load (fs : FileSystem) (path : Path) : Except SettingsError Settings :=
  match fs.readText path with
  | .error _ => .error (.read path)
  | .ok text =>
    match parse? text with
    | none => .error (.parse path)
    | some s => .ok s

end Settings

end Registrar
