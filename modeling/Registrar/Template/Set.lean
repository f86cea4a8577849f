/-
# Template sets

The templates of one run.  Of several templates of one name the one that was put in last counts.
-/
import Registrar.Template.Builtin

namespace Registrar

/-- The templates of one run, the ones that were put in last first. -/
structure TemplateSet where
  templates : List Template := Template.builtin
  deriving DecidableEq, Repr

namespace TemplateSet

/-- Puts in a template, in the place of one of the same name. -/
def insert (s : TemplateSet) (t : Template) : TemplateSet :=
  ⟨t :: s.templates⟩

/-- The template of a given name. -/
def get (s : TemplateSet) (name : String) : Except TemplateError Template :=
  match s.templates.find? fun t => t.name = name with
  | some t => .ok t
  | none => .error (.unknown name)

/-- The text of the template of a given name. -/
def render (s : TemplateSet) (name : String) (values : Values) : Except TemplateError String := do
  let t ← s.get name
  t.render values

end TemplateSet

end Registrar
