/-
# Settings as JSON

A record of settings is written as an object under the names of its fields, or as an array of
its fields in order.  A field that is left out has its default; an unknown key is skipped,
whatever it holds; a field that is given twice, or with a value of another kind, is refused.
-/
import Registrar.Json.Basic
import Registrar.Settings.Basic

namespace Registrar

/-- A text. -/
def Json.toText? : Json → Option String
  | .string content => content
  | _ => none

/-- A list of texts. -/
def Json.toTexts? : Json → Option (List String)
  | .array elements => elements.mapM Json.toText?
  | _ => none

/-- A path, or its absence. -/
def Json.toOptionalPath? : Json → Option (Option Path)
  | .null => some none
  | .string content => content.map fun text => some ⟨text⟩
  | _ => none

namespace Settings

/-- One field of a record: its name, and what a value given for it makes of the record. -/
structure Field (α : Type) where
  name : String
  assign : Json → α → Option α

namespace Field

/-- The field of a given name that reads its value by `read`. -/
def of {α β : Type} (name : String) (read : Json → Option β) (set : β → α → α) : Field α :=
  ⟨name, fun value record => (read value).map fun b => set b record⟩

/-- Assigns the members of an object one after the other; `seen` holds the fields that have been
given so far. -/
def assignMembers {α : Type} (fields : List (Field α)) :
    List String → List (Option String × Json) → α → Option α
  | _, [], record => some record
  | _, (none, _) :: _, _ => none
  | seen, (some key, value) :: members, record =>
    match fields.find? fun field => field.name = key with
    | none => assignMembers fields seen members record
    | some field =>
      if key ∈ seen then none
      else (field.assign value record).bind (assignMembers fields (key :: seen) members)

/-- Assigns the elements of an array to the fields in order. -/
def assignElements {α : Type} : List (Field α) → List Json → α → Option α
  | _, [], record => some record
  | [], _ :: _, _ => none
  | field :: fields, value :: values, record =>
    (field.assign value record).bind (assignElements fields values)

/-- Reads a record whose fields are `default` where they are not given. -/
def readRecord {α : Type} (fields : List (Field α)) (default : α) : Json → Option α
  | .object members => assignMembers fields [] members default
  | .array elements => assignElements fields elements default
  | _ => none

end Field

/-- The fields of the markers. -/
def tagFields : List (Field TagSettings) :=
  [.of "component" Json.toTexts? fun v tags => { tags with component := v },
    .of "system" Json.toTexts? fun v tags => { tags with system := v },
    .of "scene" Json.toTexts? fun v tags => { tags with scene := v },
    .of "encodable" Json.toTexts? fun v tags => { tags with encodable := v },
    .of "property" Json.toText? fun v tags => { tags with property := v },
    .of "required" Json.toText? fun v tags => { tags with required := v },
    .of "enum" Json.toText? fun v tags => { tags with enumeration := v },
    .of "vector" Json.toText? fun v tags => { tags with vector := v }]

/-- The fields of the base class names. -/
def baseFields : List (Field BaseSettings) :=
  [.of "component" Json.toTexts? fun v bases => { bases with component := v },
    .of "system" Json.toTexts? fun v bases => { bases with system := v },
    .of "scene" Json.toTexts? fun v bases => { bases with scene := v }]

end Settings

/-- The markers that a value gives. -/
def TagSettings.ofJson? : Json → Option TagSettings :=
  Settings.Field.readRecord Settings.tagFields {}

/-- The base class names that a value gives. -/
def BaseSettings.ofJson? : Json → Option BaseSettings :=
  Settings.Field.readRecord Settings.baseFields {}

namespace Settings

/-- The fields of the settings. -/
def fields : List (Field Settings) :=
  [.of "file_patterns" Json.toTexts? fun v s => { s with filePatterns := v },
    .of "output_file_name" Json.toText? fun v s => { s with outputFileName := v },
    .of "scratch_dir_name" Json.toText? fun v s => { s with scratchDirName := v },
    .of "template_dir" Json.toOptionalPath? fun v s => { s with templateDir := v },
    .of "iterator_marker" Json.toText? fun v s => { s with iteratorMarker := v },
    .of "doxygen_executable" Json.toText? fun v s => { s with doxygenExecutable := v },
    .of "tags" TagSettings.ofJson? fun v s => { s with tags := v },
    .of "bases" BaseSettings.ofJson? fun v s => { s with bases := v }]

/-- The settings that a value gives. -/
def ofJson? : Json → Option Settings :=
  Field.readRecord fields {}

end Settings

/-- The markers as an object. -/
def TagSettings.toJson (tags : TagSettings) : Json :=
  .object [(some "component", .texts tags.component), (some "system", .texts tags.system),
    (some "scene", .texts tags.scene), (some "encodable", .texts tags.encodable),
    (some "property", .text tags.property), (some "required", .text tags.required),
    (some "enum", .text tags.enumeration), (some "vector", .text tags.vector)]

/-- The base class names as an object. -/
def BaseSettings.toJson (bases : BaseSettings) : Json :=
  .object [(some "component", .texts bases.component), (some "system", .texts bases.system),
    (some "scene", .texts bases.scene)]

/-- The settings as an object. -/
def Settings.toJson (s : Settings) : Json :=
  .object [(some "file_patterns", .texts s.filePatterns),
    (some "output_file_name", .text s.outputFileName),
    (some "scratch_dir_name", .text s.scratchDirName),
    (some "template_dir", match s.templateDir with
      | none => .null
      | some dir => .text dir.text),
    (some "iterator_marker", .text s.iteratorMarker),
    (some "doxygen_executable", .text s.doxygenExecutable),
    (some "tags", s.tags.toJson), (some "bases", s.bases.toJson)]

end Registrar
