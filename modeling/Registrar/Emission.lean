/-
# The generated file

A classified model and its plan as one source file: includes, enums, classes, and one call for
every component, system and scene.
-/
import Registrar.Path.Relative
import Registrar.Plan
import Registrar.Template.Set

namespace Registrar

/-- What the generated file depends on besides the model and its plan. -/
structure Emitter where
  templates : TemplateSet := {}
  /-- The directory of the generated file, from which includes are spelled. -/
  outputDir : Path
  /-- The namespace around the generated function. -/
  outerNamespace : String

namespace Property

/-- The template of the statement that writes a property.  A vector is written element by element,
whatever its elements are. -/
def encodeTemplate (p : Property) : String :=
  if p.isVector then "EncodePropertyVector"
  else if p.isEnum then "EncodePropertyEnum"
  else "EncodePropertyValue"

/-- The template of the statement that reads a property. -/
def decodeTemplate (p : Property) : String :=
  if p.isVector then "DecodePropertyVector"
  else if p.isEnum then "DecodePropertyEnum"
  else "DecodePropertyValue"

end Property

/-- The texts in ascending order, each of them once. -/
def distinctSorted : List String → List String
  | [] => []
  | s :: ss => insertDistinct s (distinctSorted ss)
where
  /-- Puts a text in its place in an ascending list, unless it is there. -/
  insertDistinct (s : String) : List String → List String
    | [] => [s]
    | t :: ts => if s < t then s :: t :: ts else if s = t then t :: ts else t :: insertDistinct s ts

namespace Emitter

/-! ## Includes -/

/-- How the generated file spells the path of a header. -/
def spelling (e : Emitter) (header : Path) : String :=
  (header.relativeTo e.outputDir).includeSpelling

/-- The headers of the planned enums and classes as they are spelled, in ascending order. -/
def includeNames (e : Emitter) (m : Model) (p : Plan) : List String :=
  distinctSorted ((p.enums ++ p.classes).filterMap fun h =>
    ((m.get? h).bind Declaration.header).map e.spelling)

/-- One directive for every header. -/
def includes (e : Emitter) (m : Model) (p : Plan) : Except TemplateError String := do
  let lines ← (e.includeNames m p).mapM fun name =>
    e.templates.render "Include" [("file_name", name)]
  pure (Text.joinLines lines)

/-! ## Enums and classes -/

/-- The statement that adds an enumerator. -/
def addEnumValue (e : Emitter) (t : EnumType) (value : String) : Except TemplateError String :=
  e.templates.render "AddEnumValue"
    [("type_name", t.qualifiedName), ("value", t.qualifiedValue value),
      ("value_name", EnumType.registeredValue value)]

/-- The block that registers an enum. -/
def registerEnum (e : Emitter) (t : EnumType) : Except TemplateError String := do
  let values ← t.values.mapM (e.addEnumValue t)
  e.templates.render "RegisterEnum"
    [("type_name", t.qualifiedName), ("registered_name", Name.simple t.qualifiedName),
      ("add_enum_values", Text.joinLines values)]

/-- The statement that writes a property. -/
def encodeProperty (e : Emitter) (p : Property) : Except TemplateError String :=
  e.templates.render p.encodeTemplate [("property_name", p.name)]

/-- The statement that reads a property. -/
def decodeProperty (e : Emitter) (p : Property) : Except TemplateError String :=
  e.templates.render p.decodeTemplate
    [("property_name", p.name), ("is_required", if p.isRequired then "true" else "false")]

/-- The function that writes the objects of a class. -/
def encodeFunction (e : Emitter) (c : ClassType) : Except TemplateError String := do
  let statements ← c.properties.mapM e.encodeProperty
  e.templates.render "SetEncodeFunction"
    [("type_name", c.qualifiedName), ("encode_properties", Text.joinLines statements)]

/-- The function that reads the objects of a class. -/
def decodeFunction (e : Emitter) (c : ClassType) : Except TemplateError String := do
  let statements ← c.properties.mapM e.decodeProperty
  e.templates.render "SetDecodeFunction"
    [("type_name", c.qualifiedName), ("decode_properties", Text.joinLines statements)]

/-- Whether the block of a class has the two functions. -/
def hasFunctions (c : ClassType) : Bool :=
  !c.properties.isEmpty && c.isSerializable

/-- The block that registers a class. -/
def registerClass (e : Emitter) (c : ClassType) : Except TemplateError String := do
  let encode ← if hasFunctions c then e.encodeFunction c else pure ""
  let decode ← if hasFunctions c then e.decodeFunction c else pure ""
  e.templates.render "RegisterClass"
    [("type_name", c.qualifiedName), ("registered_name", c.simpleName),
      ("set_encode_function", encode), ("set_decode_function", decode)]

/-! ## Roles -/

/-- The template of the call that enters a class into the registry of a role. -/
def roleTemplate : Role → String
  | .system => "RegisterSystem"
  | .scene => "RegisterScene"
  | _ => "RegisterComponent"

/-- The call that enters a class into the registry of a role; it is announced first. -/
def registerCall (e : Emitter) (role : Role) (c : ClassType) :
    ExceptT TemplateError Logged String := do
  Logged.say .info ("Found " ++ role.label ++ " '" ++ c.qualifiedName ++ "'")
  ExceptT.mk (pure (e.templates.render (roleTemplate role) [("type_name", c.qualifiedName)]))

/-- The calls for all planned classes of a role. -/
def registerRole (e : Emitter) (m : Model) (p : Plan) (role : Role) :
    ExceptT TemplateError Logged String := do
  let calls ← ((p.roleHandles role).filterMap m.class?).mapM (e.registerCall role)
  pure (Text.joinLines calls)

/-! ## The file -/

/-- A text that ends in a line feed. -/
def endLine (s : String) : String :=
  if Text.endsWith s "\n" then s else s ++ "\n"

/-- The generated file. -/
def emit (e : Emitter) (m : Model) (p : Plan) : ExceptT TemplateError Logged String := do
  let includes ← ExceptT.mk (pure (e.includes m p))
  let enums ← ExceptT.mk (pure ((p.enums.filterMap m.enum?).mapM e.registerEnum))
  let classes ← ExceptT.mk (pure ((p.classes.filterMap m.class?).mapM e.registerClass))
  let components ← e.registerRole m p .component
  let systems ← e.registerRole m p .system
  let scenes ← e.registerRole m p .scene
  let file ← ExceptT.mk (pure (e.templates.render "Layout"
    [("includes", includes), ("namespace", e.outerNamespace),
      ("register_enums", Text.removeBlankLines (Text.joinLines enums)),
      ("register_classes", Text.removeBlankLines (Text.joinLines classes)),
      ("register_components", components), ("register_systems", systems),
      ("register_scenes", scenes)]))
  pure (endLine file)

end Emitter

end Registrar
