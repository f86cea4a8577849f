/-
# Roles as JSON

A role is written as its label.  It may also be read from an object whose only key is the label
and holds nothing.
-/
import Registrar.Json.Basic
import Registrar.Model.Role

namespace Registrar.Role

/-- The role that a value gives. -/
def ofJson? : Json → Option Role
  | .string (some label) => ofLabel? label
  | .object [(some label, .null)] => ofLabel? label
  | _ => Option.none

/-- A role as a value. -/
def toJson (role : Role) : Json :=
  .text role.label

theorem ofJson?_toJson (role : Role) : ofJson? role.toJson = some role :=
  ofLabel?_label role

end Registrar.Role
