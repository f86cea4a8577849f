/-
# Directories of templates

A file `Name.template` replaces the built-in template of that name.
-/
import Registrar.FileSystem.Basic
import Registrar.Log
import Registrar.Template.Set

namespace Registrar.TemplateSet

/-- The file that may replace a template. -/
def overridePath (dir : Path) (name : String) : Path :=
  dir / (name ++ ".template")

/-- A template with the text of the file that replaces it, if there is one. -/
def overridden (fs : FileSystem) (dir : Path) (t : Template) :
    ExceptT TemplateError Logged Template := do
  let path := overridePath dir t.name
  if !fs.isFile path then pure t
  else match fs.readText path with
    | .error _ => throw (.read path)
    | .ok text => do
      Logged.say .debug ("using template override '" ++ path.text ++ "'")
      pure { t with text := text }

/-- The built-in templates with the texts of the files that replace them. -/
def load (fs : FileSystem) (dir : Path) : ExceptT TemplateError Logged TemplateSet := do
  let templates ← Template.builtin.mapM (overridden fs dir)
  pure ⟨templates⟩

end Registrar.TemplateSet
