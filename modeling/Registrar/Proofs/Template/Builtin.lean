/-
# The built-in templates as fragments

The templates of several lines, with their placeholders.
-/
import Registrar.Proofs.Template.Fragment

namespace Registrar.Template

/-- The fragments of the registration of an enum. -/
def registerEnumFragments : List (List Fragment) :=
  [[.text r"{"],
    [.text "        hect::Type& type = hect::Type::registerType<", .key "type_name",
      .text ">(hect::Kind_Enum, \"", .key "registered_name", .text "\");"],
    [.text "        hect::Enum& enumType = type.asEnum();"],
    [.key "add_enum_values"],
    [.text r"    }"]]

/-- The template of an enum is the text of its fragments. -/
theorem registerEnum_eq : registerEnum =
    Text.joinLines (registerEnumFragments.map fun l => String.join (l.map Fragment.source)) :=
  congrArg Text.joinLines rfl

/-- The fragments of the template of an enum can be told apart. -/
theorem isPlain_registerEnum :
    (registerEnumFragments.all fun l => l.all Fragment.isPlain) = true := by
  decide +kernel

/-- The fragments of the registration of a class. -/
def registerClassFragments : List (List Fragment) :=
  [[.text r"{"],
    [.text "        hect::Type& type = hect::Type::registerType<", .key "type_name",
      .text ">(hect::Kind_Class, \"", .key "registered_name", .text "\");"],
    [.key "set_encode_function"],
    [.key "set_decode_function"],
    [.text "        (void)type;"],
    [.text r"    }"]]

theorem registerClass_eq : registerClass =
    Text.joinLines (registerClassFragments.map fun l => String.join (l.map Fragment.source)) :=
  congrArg Text.joinLines rfl

theorem isPlain_registerClass :
    (registerClassFragments.all fun l => l.all Fragment.isPlain) = true := by
  decide +kernel

/-- The fragments of the function that writes the objects of a class. -/
def setEncodeFunctionFragments : List (List Fragment) :=
  [[.text "type.setEncodeFunction([](const void* value, hect::Encoder& encoder)"],
    [.text r"        {"],
    [.text "            const ", .key "type_name",
      .text "& typedValue = *reinterpret_cast<const ", .key "type_name", .text "*>(value);"],
    [.key "encode_properties"],
    [.text r"        });"]]

theorem setEncodeFunction_eq : setEncodeFunction =
    Text.joinLines (setEncodeFunctionFragments.map fun l => String.join (l.map Fragment.source)) :=
  congrArg Text.joinLines rfl

theorem isPlain_setEncodeFunction :
    (setEncodeFunctionFragments.all fun l => l.all Fragment.isPlain) = true := by
  decide +kernel

/-- The fragments of the function that reads the objects of a class. -/
def setDecodeFunctionFragments : List (List Fragment) :=
  [[.text "type.setDecodeFunction([](void* value, hect::Decoder& decoder)"],
    [.text r"        {"],
    [.text "            ", .key "type_name", .text "& typedValue = *reinterpret_cast<",
      .key "type_name", .text "*>(value);"],
    [.key "decode_properties"],
    [.text r"        });"]]

theorem setDecodeFunction_eq : setDecodeFunction =
    Text.joinLines (setDecodeFunctionFragments.map fun l => String.join (l.map Fragment.source)) :=
  congrArg Text.joinLines rfl

theorem isPlain_setDecodeFunction :
    (setDecodeFunctionFragments.all fun l => l.all Fragment.isPlain) = true := by
  decide +kernel

/-- The fragments of the whole file. -/
def layoutFragments : List (List Fragment) :=
  [[.text "// Generated by reflect; do not edit."],
    [.text "#pragma once"],
    [.text ""],
    [.text "#include <Hect/Logic/ComponentRegistry.h>"],
    [.text "#include <Hect/Logic/SceneRegistry.h>"],
    [.text "#include <Hect/Logic/SystemRegistry.h>"],
    [.text "#include <Hect/Reflection/Type.h>"],
    [.text ""],
    [.key "includes"],
    [.text ""],
    [.text "namespace ", .key "namespace"],
    [.text r"{"],
    [.text ""],
    [.text "inline void registerTypes()"],
    [.text r"{"],
    [.text "    // Enums"],
    [.key "register_enums"],
    [.text ""],
    [.text "    // Classes"],
    [.key "register_classes"],
    [.text ""],
    [.text "    // Components"],
    [.key "register_components"],
    [.text ""],
    [.text "    // Systems"],
    [.key "register_systems"],
    [.text ""],
    [.text "    // Scenes"],
    [.key "register_scenes"],
    [.text r"}"],
    [.text ""],
    [.text r"}"],
    [.text ""]]

theorem layout_eq : layout =
    Text.joinLines (layoutFragments.map fun l => String.join (l.map Fragment.source)) :=
  congrArg Text.joinLines rfl

theorem isPlain_layout : (layoutFragments.all fun l => l.all Fragment.isPlain) = true := by
  decide +kernel

end Registrar.Template
