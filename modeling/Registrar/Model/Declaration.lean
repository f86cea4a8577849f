/-
# Declared types

The enums and classes that a documentation describes.
-/
import Registrar.Model.Name
import Registrar.Model.Role
import Registrar.Path.Basic

namespace Registrar

/-- The place of a type in a model. -/
abbrev Handle := Nat

namespace Handle

/-- How a handle is shown in a message. -/
def display (h : Handle) : String :=
  "#" ++ toString h

end Handle

/-- How a class names its first base class. -/
inductive BaseReference where
  /-- By the identifier of the base, with the name as it was written, if it was. -/
  | byIdentifier (identifier : String) (name : Option String)
  /-- By the name as it was written. -/
  | byName (name : String)
  /-- Not at all. -/
  | unresolved
  deriving DecidableEq, Repr, Inhabited

namespace BaseReference

/-- The identifier of the base, if the reference gives it. -/
def identifier? : BaseReference → Option String
  | byIdentifier identifier _ => some identifier
  | byName _ => none
  | unresolved => none

/-- The name of the base as it was written, if it was. -/
def name? : BaseReference → Option String
  | byIdentifier _ name => name
  | byName name => some name
  | unresolved => none

end BaseReference

/-- A data member that is read and written with the objects of its class. -/
structure Property where
  name : String
  /-- Reading an object without this member is an error. -/
  isRequired : Bool := false
  /-- The member is written element by element. -/
  isVector : Bool := false
  /-- The member is written by the names of an enum. -/
  isEnum : Bool := false
  /-- The identifier of the type of the member, if it is known. -/
  typeReference : Option String := none
  deriving DecidableEq, Repr

/-- An enum at namespace scope. -/
structure EnumType where
  header : Option Path := none
  identifier : Option String := none
  qualifiedName : String
  /-- The names of the enumerators as they are declared. -/
  values : List String := []
  /-- The enumerators live in the scope of the enum itself. -/
  isScoped : Bool := false
  deriving DecidableEq, Repr

namespace EnumType

/-- How an enumerator is spelled outside of the namespace of its enum. -/
def qualifiedValue (e : EnumType) (value : String) : String :=
  match if e.isScoped then some e.qualifiedName else Name.scope? e.qualifiedName with
  | some scope => scope ++ "::" ++ value
  | none => value

/-- The name under which an enumerator is registered: what follows its first underscore. -/
def registeredValue (value : String) : String :=
  match Text.breakOn? "_" value with
  | some (_, rest) => rest
  | none => value

end EnumType

/-- A public class.  The fields `resolvedBase`, `effectiveBaseName`, `isDerivedFrom` and
`isWithinTemplate` are filled in by linking, and a class without a documented role gets its role
by classification. -/
structure ClassType where
  header : Option Path := none
  identifier : Option String := none
  qualifiedName : String
  isTemplate : Bool := false
  /-- Some other class has this one as its base. -/
  isDerivedFrom : Bool := false
  /-- The class is nested in a template. -/
  isWithinTemplate : Bool := false
  base : BaseReference := .unresolved
  /-- The class that the base reference leads to. -/
  resolvedBase : Option Handle := none
  /-- The name of the base: the qualified name of the class it leads to, or the name as it was
  written. -/
  effectiveBaseName : Option String := none
  role : Role := .none
  isEncodable : Bool := false
  properties : List Property := []
  /-- The identifiers of the types nested in this class. -/
  innerClasses : List String := []
  deriving DecidableEq, Repr

namespace ClassType

/-- The qualified name without its first scope. -/
def simpleName (c : ClassType) : String :=
  Name.simple c.qualifiedName

/-- Whether functions that write and read the objects of a class are generated. -/
def isSerializable (c : ClassType) : Bool :=
  c.isEncodable || c.role = .component || c.role = .system

end ClassType

/-- A type that the documentation declares. -/
inductive Declaration where
  | enumType (e : EnumType)
  | classType (c : ClassType)
  deriving DecidableEq, Repr

namespace Declaration

/-- The file that declares a type, if it is known. -/
def header : Declaration → Option Path
  | enumType e => e.header
  | classType c => c.header

/-- The identifier of a type, if it has one. -/
def identifier : Declaration → Option String
  | enumType e => e.identifier
  | classType c => c.identifier

/-- The name of a type with its scopes. -/
def qualifiedName : Declaration → String
  | enumType e => e.qualifiedName
  | classType c => c.qualifiedName

/-- The qualified name without its first scope. -/
def simpleName (d : Declaration) : String :=
  Name.simple d.qualifiedName

/-- The class that is declared, if it is one. -/
def class? : Declaration → Option ClassType
  | enumType _ => none
  | classType c => some c

/-- The enum that is declared, if it is one. -/
def enum? : Declaration → Option EnumType
  | enumType e => some e
  | classType _ => none

end Declaration

end Registrar
