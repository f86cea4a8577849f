/-
# The blocks of the generated file

What the built-in templates make of one enum, one class and one call, line by line.
-/
import Registrar.Emission
import Registrar.Proofs.Model.Name
import Registrar.Proofs.Template.Builtin

namespace Registrar

open Text

/-! ## The lines -/

namespace EnumType

/-- The line that adds an enumerator. -/
def valueLine (t : EnumType) (value : String) : String :=
  "        enumType.addValue(" ++ t.qualifiedValue value ++ ", \"" ++ registeredValue value ++ "\");"

/-- The line that registers an enum. -/
def typeLine (t : EnumType) : String :=
  "        hect::Type& type = hect::Type::registerType<" ++ t.qualifiedName ++
    ">(hect::Kind_Enum, \"" ++ Name.simple t.qualifiedName ++ "\");"

/-- The block of an enum, with a line for each of its enumerators. -/
def blockLines (t : EnumType) : List String :=
  [r"{", t.typeLine, "        hect::Enum& enumType = type.asEnum();"] ++
    t.values.map t.valueLine ++ [r"    }"]

/-- The block of an enum as it is written at first: no enumerators leave an empty line. -/
def writtenLines (t : EnumType) : List String :=
  [r"{", t.typeLine, "        hect::Enum& enumType = type.asEnum();"] ++
    slot (t.values.map t.valueLine) ++ [r"    }"]

end EnumType

/-- How the values of a property are written and read. -/
inductive PropertyKind where
  | value
  | vector
  | enumeration
  deriving DecidableEq, Repr

namespace PropertyKind

/-- The function that writes a property. -/
def encoder : PropertyKind → String
  | value => "encodeValue"
  | vector => "encodeVector"
  | enumeration => "encodeEnum"

/-- The function that reads a property. -/
def decoder : PropertyKind → String
  | value => "decodeValue"
  | vector => "decodeVector"
  | enumeration => "decodeEnum"

end PropertyKind

namespace Property

/-- The kind of a property.  A vector is one whatever its elements are. -/
def kind (p : Property) : PropertyKind :=
  if p.isVector then .vector else if p.isEnum then .enumeration else .value

/-- The line that writes a property. -/
def encodeLine (p : Property) : String :=
  "            encoder << hect::" ++ p.kind.encoder ++ "(\"" ++ p.name ++ "\", typedValue." ++
    p.name ++ ");"

/-- The line that reads a property. -/
def decodeLine (p : Property) : String :=
  "            decoder >> hect::" ++ p.kind.decoder ++ "(\"" ++ p.name ++ "\", typedValue." ++
    p.name ++ ", " ++ (if p.isRequired then "true" else "false") ++ ");"

end Property

namespace ClassType

/-- The line that registers a class. -/
def typeLine (c : ClassType) : String :=
  "        hect::Type& type = hect::Type::registerType<" ++ c.qualifiedName ++
    ">(hect::Kind_Class, \"" ++ c.simpleName ++ "\");"

/-- The beginning of the function that writes the objects of a class. -/
def encodeHead (c : ClassType) : List String :=
  ["type.setEncodeFunction([](const void* value, hect::Encoder& encoder)", r"        {",
    "            const " ++ c.qualifiedName ++ "& typedValue = *reinterpret_cast<const " ++
      c.qualifiedName ++ "*>(value);"]

/-- The function that writes the objects of a class, with a line for each property. -/
def encodeLines (c : ClassType) : List String :=
  c.encodeHead ++ c.properties.map Property.encodeLine ++ [r"        });"]

/-- The beginning of the function that reads the objects of a class. -/
def decodeHead (c : ClassType) : List String :=
  ["type.setDecodeFunction([](void* value, hect::Decoder& decoder)", r"        {",
    "            " ++ c.qualifiedName ++ "& typedValue = *reinterpret_cast<" ++ c.qualifiedName ++
      "*>(value);"]

/-- The function that reads the objects of a class, with a line for each property. -/
def decodeLines (c : ClassType) : List String :=
  c.decodeHead ++ c.properties.map Property.decodeLine ++ [r"        });"]

/-- The block of a class, with the two functions if it has them. -/
def blockLines (c : ClassType) : List String :=
  [r"{", c.typeLine] ++
    (if Emitter.hasFunctions c then c.encodeLines ++ c.decodeLines else []) ++
    ["        (void)type;", r"    }"]

/-- The block of a class as it is written at first: each of the functions that the class does not
have leaves an empty line. -/
def writtenLines (c : ClassType) : List String :=
  [r"{", c.typeLine] ++ slot (if Emitter.hasFunctions c then c.encodeLines else []) ++
    slot (if Emitter.hasFunctions c then c.decodeLines else []) ++
    ["        (void)type;", r"    }"]

end ClassType

/-- The beginning of the line that enters a class into the registry of a role. -/
def Role.callStart : Role → String
  | .system => "    hect::SystemRegistry::registerType<"
  | .scene => "    hect::SceneRegistry::registerType<"
  | _ => "    hect::ComponentRegistry::registerType<"

/-- The line that enters a class into the registry of a role. -/
def Role.callLine (role : Role) (name : String) : String :=
  role.callStart ++ name ++ ">();"

/-! ## What holds of every line of a block -/

section

variable {P : String → Prop}

/-- Lines for some things, in a frame of lines before and behind them. -/
theorem forall_mem_framed {α : Type} {head tail : List String} {as : List α} {line : α → String}
    (hhead : ∀ l ∈ head, P l) (hline : ∀ a ∈ as, P (line a)) (htail : ∀ l ∈ tail, P l) :
    ∀ l ∈ head ++ as.map line ++ tail, P l := by
  rw [List.forall_mem_append, List.forall_mem_append, List.forall_mem_map]
  exact ⟨⟨hhead, hline⟩, htail⟩

/-- What holds of each kind of line holds of all lines of the block of an enum. -/
theorem EnumType.forall_mem_blockLines {t : EnumType}
    (hframe : ∀ l ∈ [r"{", "        hect::Enum& enumType = type.asEnum();", r"    }"], P l)
    (htype : P t.typeLine) (hvalue : ∀ value ∈ t.values, P (t.valueLine value)) :
    ∀ l ∈ t.blockLines, P l := by
  simp only [List.forall_mem_cons] at hframe
  obtain ⟨hopen, henum, hclose, hnil⟩ := hframe
  refine forall_mem_framed ?_ hvalue (List.forall_mem_cons.2 ⟨hclose, hnil⟩)
  simp only [List.forall_mem_cons]
  exact ⟨hopen, htype, henum, hnil⟩

/-- What holds of each kind of line holds of all lines of the block of a class. -/
theorem ClassType.forall_mem_blockLines {c : ClassType}
    (hframe : ∀ l ∈ [r"{", "        (void)type;", r"    }"], P l) (htype : P c.typeLine)
    (hencode : ∀ l ∈ c.encodeLines, P l) (hdecode : ∀ l ∈ c.decodeLines, P l) :
    ∀ l ∈ c.blockLines, P l := by
  rw [List.forall_mem_cons] at hframe
  rw [blockLines, List.forall_mem_append, List.forall_mem_append, List.forall_mem_cons,
    List.forall_mem_singleton]
  refine ⟨⟨⟨hframe.1, htype⟩, ?_⟩, hframe.2⟩
  split
  · rw [List.forall_mem_append]
    exact ⟨hencode, hdecode⟩
  · exact List.forall_mem_nil _

end

/-! ## What the built-in templates render to -/

theorem ok_bind {α β ε : Type} (a : α) (f : α → Except ε β) : (Except.ok a >>= f) = f a := rfl

/-- If every step succeeds, then so do all of them one after the other. -/
theorem mapM_eq_ok {α β ε : Type} {f : α → Except ε β} {g : α → β}
    (hf : ∀ a, f a = .ok (g a)) (as : List α) : as.mapM f = .ok (as.map g) := by
  have hpure : f = fun a => pure (g a) := funext hf
  rw [hpure, List.mapM_pure]
  rfl

namespace Emitter

section

variable {e : Emitter}

theorem addEnumValue_builtin (he : e.templates = {}) (t : EnumType) (value : String) :
    e.addEnumValue t value = .ok (t.valueLine value) := by
  rw [addEnumValue, he]
  exact TemplateSet.render_eq_line
    [.text "        enumType.addValue(", .key "value", .text ", \"", .key "value_name",
      .text "\");"] rfl rfl (by decide +kernel) rfl rfl

/-- The block of an enum with given lines for its enumerators. -/
theorem render_registerEnum (name simpleName values : String) :
    ({} : TemplateSet).render "RegisterEnum"
        [("type_name", name), ("registered_name", simpleName), ("add_enum_values", values)] =
      .ok (Text.joinLines
        [r"{",
          "        hect::Type& type = hect::Type::registerType<" ++ name ++
            ">(hect::Kind_Enum, \"" ++ simpleName ++ "\");",
          "        hect::Enum& enumType = type.asEnum();", values, r"    }"]) := by
  have hget : ({} : TemplateSet).get "RegisterEnum" =
      .ok ⟨"RegisterEnum", Template.registerEnum⟩ := rfl
  refine TemplateSet.render_eq_joinLines Template.registerEnumFragments hget
    Template.registerEnum_eq Template.isPlain_registerEnum rfl ?_
  simp [Template.registerEnumFragments, Fragment.fill, String.join, List.lookup_cons]

/-- With the built-in templates an enum is written as its lines. -/
theorem registerEnum_builtin (he : e.templates = {}) (t : EnumType) :
    e.registerEnum t = .ok (Text.joinLines t.writtenLines) := by
  rw [registerEnum, mapM_eq_ok (addEnumValue_builtin he t), he, ok_bind, EnumType.writtenLines,
    ← Text.joinLines_append_singleton_append]
  exact render_registerEnum _ _ _

/-- The template that is chosen for writing a property makes the line for its kind. -/
theorem render_encodeTemplate (p : Property) :
    ({} : TemplateSet).render p.encodeTemplate [("property_name", p.name)] = .ok p.encodeLine := by
  unfold Property.encodeTemplate Property.encodeLine Property.kind
  split
  · exact TemplateSet.render_eq_line
      [.text "            encoder << hect::", .text "encodeVector", .text "(\"",
        .key "property_name", .text "\", typedValue.", .key "property_name", .text ");"]
      rfl rfl (by decide +kernel) rfl rfl
  · split
    · exact TemplateSet.render_eq_line
        [.text "            encoder << hect::", .text "encodeEnum", .text "(\"",
          .key "property_name", .text "\", typedValue.", .key "property_name", .text ");"]
        rfl rfl (by decide +kernel) rfl rfl
    · exact TemplateSet.render_eq_line
        [.text "            encoder << hect::", .text "encodeValue", .text "(\"",
          .key "property_name", .text "\", typedValue.", .key "property_name", .text ");"]
        rfl rfl (by decide +kernel) rfl rfl

/-- The template that is chosen for reading a property makes the line for its kind. -/
theorem render_decodeTemplate (p : Property) :
    ({} : TemplateSet).render p.decodeTemplate
        [("property_name", p.name), ("is_required", if p.isRequired then "true" else "false")] =
      .ok p.decodeLine := by
  unfold Property.decodeTemplate Property.decodeLine Property.kind
  generalize (if p.isRequired then "true" else "false") = required
  split
  · exact TemplateSet.render_eq_line
      [.text "            decoder >> hect::", .text "decodeVector", .text "(\"",
        .key "property_name", .text "\", typedValue.", .key "property_name", .text ", ",
        .key "is_required", .text ");"] rfl rfl (by decide +kernel) rfl rfl
  · split
    · exact TemplateSet.render_eq_line
        [.text "            decoder >> hect::", .text "decodeEnum", .text "(\"",
          .key "property_name", .text "\", typedValue.", .key "property_name", .text ", ",
          .key "is_required", .text ");"] rfl rfl (by decide +kernel) rfl rfl
    · exact TemplateSet.render_eq_line
        [.text "            decoder >> hect::", .text "decodeValue", .text "(\"",
          .key "property_name", .text "\", typedValue.", .key "property_name", .text ", ",
          .key "is_required", .text ");"] rfl rfl (by decide +kernel) rfl rfl

/-- With the built-in templates the line is written that writes the property. -/
theorem encodeProperty_builtin (he : e.templates = {}) (p : Property) :
    e.encodeProperty p = .ok p.encodeLine := by
  rw [encodeProperty, he]
  exact render_encodeTemplate p

theorem decodeProperty_builtin (he : e.templates = {}) (p : Property) :
    e.decodeProperty p = .ok p.decodeLine := by
  rw [decodeProperty, he]
  exact render_decodeTemplate p

/-- Lines for some things may be joined before they are put into their frame. -/
theorem joinLines_framed {α : Type} {as : List α} (has : as ≠ []) (head tail : List String)
    (line : α → String) :
    Text.joinLines (head ++ as.map line ++ tail) =
      Text.joinLines (head ++ [Text.joinLines (as.map line)] ++ tail) := by
  rw [joinLines_append_singleton_append, slot, if_neg (by simpa using has)]

/-- The function that writes the objects of a class, with given statements. -/
theorem render_setEncodeFunction (name statements : String) :
    ({} : TemplateSet).render "SetEncodeFunction"
        [("type_name", name), ("encode_properties", statements)] =
      .ok (Text.joinLines
        ["type.setEncodeFunction([](const void* value, hect::Encoder& encoder)", r"        {",
          "            const " ++ name ++ "& typedValue = *reinterpret_cast<const " ++ name ++
            "*>(value);",
          statements, r"        });"]) := by
  have hget : ({} : TemplateSet).get "SetEncodeFunction" =
      .ok ⟨"SetEncodeFunction", Template.setEncodeFunction⟩ := rfl
  refine TemplateSet.render_eq_joinLines Template.setEncodeFunctionFragments hget
    Template.setEncodeFunction_eq Template.isPlain_setEncodeFunction rfl ?_
  simp [Template.setEncodeFunctionFragments, Fragment.fill, String.join, List.lookup_cons]

/-- With the built-in templates the function is written that writes the class. -/
theorem encodeFunction_builtin (he : e.templates = {}) {c : ClassType} (hc : c.properties ≠ []) :
    e.encodeFunction c = .ok (Text.joinLines c.encodeLines) := by
  rw [encodeFunction, mapM_eq_ok (encodeProperty_builtin he), he, ok_bind, ClassType.encodeLines,
    joinLines_framed hc]
  exact render_setEncodeFunction _ _

/-- The function that reads the objects of a class, with given statements. -/
theorem render_setDecodeFunction (name statements : String) :
    ({} : TemplateSet).render "SetDecodeFunction"
        [("type_name", name), ("decode_properties", statements)] =
      .ok (Text.joinLines
        ["type.setDecodeFunction([](void* value, hect::Decoder& decoder)", r"        {",
          "            " ++ name ++ "& typedValue = *reinterpret_cast<" ++ name ++ "*>(value);",
          statements, r"        });"]) := by
  have hget : ({} : TemplateSet).get "SetDecodeFunction" =
      .ok ⟨"SetDecodeFunction", Template.setDecodeFunction⟩ := rfl
  refine TemplateSet.render_eq_joinLines Template.setDecodeFunctionFragments hget
    Template.setDecodeFunction_eq Template.isPlain_setDecodeFunction rfl ?_
  simp [Template.setDecodeFunctionFragments, Fragment.fill, String.join, List.lookup_cons]

theorem decodeFunction_builtin (he : e.templates = {}) {c : ClassType} (hc : c.properties ≠ []) :
    e.decodeFunction c = .ok (Text.joinLines c.decodeLines) := by
  rw [decodeFunction, mapM_eq_ok (decodeProperty_builtin he), he, ok_bind, ClassType.decodeLines,
    joinLines_framed hc]
  exact render_setDecodeFunction _ _

/-- The block of a class with given functions. -/
theorem render_registerClass (name simpleName encode decode : String) :
    ({} : TemplateSet).render "RegisterClass"
        [("type_name", name), ("registered_name", simpleName), ("set_encode_function", encode),
          ("set_decode_function", decode)] =
      .ok (Text.joinLines
        [r"{",
          "        hect::Type& type = hect::Type::registerType<" ++ name ++
            ">(hect::Kind_Class, \"" ++ simpleName ++ "\");",
          encode, decode, "        (void)type;", r"    }"]) := by
  have hget : ({} : TemplateSet).get "RegisterClass" =
      .ok ⟨"RegisterClass", Template.registerClass⟩ := rfl
  refine TemplateSet.render_eq_joinLines Template.registerClassFragments hget
    Template.registerClass_eq Template.isPlain_registerClass rfl ?_
  simp [Template.registerClassFragments, Fragment.fill, String.join, List.lookup_cons]

/-- A class has the two functions if it has a property and is encodable, a component or a system. -/
theorem hasFunctions_iff (c : ClassType) :
    hasFunctions c = true ↔
      c.properties ≠ [] ∧ (c.isEncodable = true ∨ c.role = .component ∨ c.role = .system) := by
  rw [hasFunctions, Bool.and_eq_true, Bool.not_eq_true', List.isEmpty_eq_false_iff]
  simp [ClassType.isSerializable, or_assoc]

/-- The block of a class is written after its two functions, one after the other. -/
theorem registerClass_bind (e : Emitter) (c : ClassType) :
    e.registerClass c =
      (if hasFunctions c then e.encodeFunction c else pure "") >>= fun encode =>
        (if hasFunctions c then e.decodeFunction c else pure "") >>= fun decode =>
          e.templates.render "RegisterClass"
            [("type_name", c.qualifiedName), ("registered_name", c.simpleName),
              ("set_encode_function", encode), ("set_decode_function", decode)] := by
  unfold registerClass
  by_cases hc : hasFunctions c = true
  · simp only [if_pos hc]
  · simp only [if_neg hc, pure_bind]

/-- With the built-in templates a class is written as its lines. -/
theorem registerClass_builtin (he : e.templates = {}) (c : ClassType) :
    e.registerClass c = .ok (Text.joinLines c.writtenLines) := by
  have hencode : (if hasFunctions c then e.encodeFunction c else pure "") =
      .ok (Text.joinLines (if hasFunctions c then c.encodeLines else [])) := by
    split
    · next hc => exact encodeFunction_builtin he ((hasFunctions_iff c).1 hc).1
    · rfl
  have hdecode : (if hasFunctions c then e.decodeFunction c else pure "") =
      .ok (Text.joinLines (if hasFunctions c then c.decodeLines else [])) := by
    split
    · next hc => exact decodeFunction_builtin he ((hasFunctions_iff c).1 hc).1
    · rfl
  have hjoin : ∀ encode decode : List String, Text.joinLines
      ([r"{", c.typeLine] ++ slot encode ++ slot decode ++ ["        (void)type;", r"    }"]) =
      Text.joinLines [r"{", c.typeLine, Text.joinLines encode, Text.joinLines decode,
        "        (void)type;", r"    }"] := by
    intro encode decode
    rw [← joinLines_append_singleton_append, List.append_assoc (_ ++ _),
      ← joinLines_append_singleton_append]
    rfl
  rw [registerClass_bind, hencode, ok_bind, hdecode, ok_bind, ClassType.writtenLines, hjoin, he]
  exact render_registerClass _ _ _ _

/-- With the built-in templates a call is written for the name of the class. -/
theorem registerCall_builtin (he : e.templates = {}) (role : Role) (c : ClassType) :
    (e.registerCall role c).run.result = .ok (role.callLine c.qualifiedName) := by
  have hrender : e.templates.render (roleTemplate role) [("type_name", c.qualifiedName)] =
      .ok (role.callLine c.qualifiedName) := by
    rw [he]
    cases role with
    | system =>
      exact TemplateSet.render_eq_line
        [.text "    hect::SystemRegistry::registerType<", .key "type_name", .text ">();"]
        rfl rfl (by decide +kernel) rfl rfl
    | scene =>
      exact TemplateSet.render_eq_line
        [.text "    hect::SceneRegistry::registerType<", .key "type_name", .text ">();"]
        rfl rfl (by decide +kernel) rfl rfl
    | none | component =>
      exact TemplateSet.render_eq_line
        [.text "    hect::ComponentRegistry::registerType<", .key "type_name", .text ">();"]
        rfl rfl (by decide +kernel) rfl rfl
  exact hrender

end

end Emitter

end Registrar
