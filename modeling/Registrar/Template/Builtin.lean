/-
# The built-in templates

The texts that target the registration interface of the engine.
-/
import Registrar.Template.Basic
import Registrar.Text.Lines

namespace Registrar.Template

/-- The whole generated file. -/
def layout : String :=
  Text.joinLines
    ["// Generated by reflect; do not edit.",
      "#pragma once",
      "",
      "#include <Hect/Logic/ComponentRegistry.h>",
      "#include <Hect/Logic/SceneRegistry.h>",
      "#include <Hect/Logic/SystemRegistry.h>",
      "#include <Hect/Reflection/Type.h>",
      "",
      "$(includes)",
      "",
      "namespace $(namespace)",
      r"{",
      "",
      "inline void registerTypes()",
      r"{",
      "    // Enums",
      "$(register_enums)",
      "",
      "    // Classes",
      "$(register_classes)",
      "",
      "    // Components",
      "$(register_components)",
      "",
      "    // Systems",
      "$(register_systems)",
      "",
      "    // Scenes",
      "$(register_scenes)",
      r"}",
      "",
      r"}",
      ""]

/-- The registration of an enum with its enumerators. -/
def registerEnum : String :=
  Text.joinLines
    [r"{",
      "        hect::Type& type = hect::Type::registerType<$(type_name)>(hect::Kind_Enum, \"$(registered_name)\");",
      "        hect::Enum& enumType = type.asEnum();",
      "$(add_enum_values)",
      r"    }"]

/-- The registration of a class with the functions that write and read it. -/
def registerClass : String :=
  Text.joinLines
    [r"{",
      "        hect::Type& type = hect::Type::registerType<$(type_name)>(hect::Kind_Class, \"$(registered_name)\");",
      "$(set_encode_function)",
      "$(set_decode_function)",
      "        (void)type;",
      r"    }"]

/-- The function that writes the objects of a class. -/
def setEncodeFunction : String :=
  Text.joinLines
    ["type.setEncodeFunction([](const void* value, hect::Encoder& encoder)",
      r"        {",
      "            const $(type_name)& typedValue = *reinterpret_cast<const $(type_name)*>(value);",
      "$(encode_properties)",
      r"        });"]

/-- The function that reads the objects of a class. -/
def setDecodeFunction : String :=
  Text.joinLines
    ["type.setDecodeFunction([](void* value, hect::Decoder& decoder)",
      r"        {",
      "            $(type_name)& typedValue = *reinterpret_cast<$(type_name)*>(value);",
      "$(decode_properties)",
      r"        });"]

/-- All built-in templates in the order of their names. -/
def builtin : List Template :=
  [⟨"AddEnumValue", "        enumType.addValue($(value), \"$(value_name)\");"⟩,
    ⟨"DecodePropertyEnum",
      "            decoder >> hect::decodeEnum(\"$(property_name)\", typedValue.$(property_name), $(is_required));"⟩,
    ⟨"DecodePropertyValue",
      "            decoder >> hect::decodeValue(\"$(property_name)\", typedValue.$(property_name), $(is_required));"⟩,
    ⟨"DecodePropertyVector",
      "            decoder >> hect::decodeVector(\"$(property_name)\", typedValue.$(property_name), $(is_required));"⟩,
    ⟨"EncodePropertyEnum",
      "            encoder << hect::encodeEnum(\"$(property_name)\", typedValue.$(property_name));"⟩,
    ⟨"EncodePropertyValue",
      "            encoder << hect::encodeValue(\"$(property_name)\", typedValue.$(property_name));"⟩,
    ⟨"EncodePropertyVector",
      "            encoder << hect::encodeVector(\"$(property_name)\", typedValue.$(property_name));"⟩,
    ⟨"Include", "#include \"$(file_name)\""⟩,
    ⟨"Layout", layout⟩,
    ⟨"RegisterClass", registerClass⟩,
    ⟨"RegisterComponent", "    hect::ComponentRegistry::registerType<$(type_name)>();"⟩,
    ⟨"RegisterEnum", registerEnum⟩,
    ⟨"RegisterScene", "    hect::SceneRegistry::registerType<$(type_name)>();"⟩,
    ⟨"RegisterSystem", "    hect::SystemRegistry::registerType<$(type_name)>();"⟩,
    ⟨"SetDecodeFunction", setDecodeFunction⟩,
    ⟨"SetEncodeFunction", setEncodeFunction⟩]

end Registrar.Template
