/-
# Roles

The registry that a class is entered into.
-/

namespace Registrar

/-- The registry that a class is entered into, if any. -/
inductive Role where
  | none
  | component
  | system
  | scene
  deriving DecidableEq, Repr, Inhabited

namespace Role

/-- The roles that name a registry, the ones that take precedence first. -/
def structural : List Role :=
  [component, system, scene]

/-- The name of a role. -/
def label : Role → String
  | none => "none"
  | component => "component"
  | system => "system"
  | scene => "scene"

/-- The role of a given name. -/
def ofLabel? (label : String) : Option Role :=
  [none, component, system, scene].find? fun role => role.label = label

theorem ofLabel?_label (role : Role) : ofLabel? role.label = some role := by
  cases role <;> decide

end Role

end Registrar
