/-
# When emission fails

Which templates are rendered depends on the model and the plan, and which keys have values depends on
the template alone.  Emission fails exactly if some template that is rendered mentions a key without a
value, and then says so of such a template and such a key.
-/
import Registrar.Proofs.Emission.File
import Registrar.Proofs.Emission.Include
import Registrar.Proofs.Template.Missing

namespace Registrar

open Text

namespace Emitter

/-! ## The templates that are rendered -/

/-- A class that is listed in a plan and whose objects are serialized: it is encodable, a component or
a system. -/
def Serializes (m : Model) (p : Plan) (c : ClassType) : Prop :=
  (∃ h ∈ p.classes, m.class? h = some c) ∧
    (c.isEncodable = true ∨ c.role = .component ∨ c.role = .system)

/-- A template that is rendered for a plan, with the keys that have values. -/
inductive Uses (m : Model) (p : Plan) : String → List String → Prop where
  /-- Some enum or class that is listed has a header. -/
  | directive {h : Handle} {d : Declaration} {header : Path} (hh : h ∈ p.enums ++ p.classes)
      (hd : m.get? h = some d) (hheader : d.header = some header) :
      Uses m p "Include" ["file_name"]
  /-- Some enum that is listed has a value. -/
  | addEnumValue {h : Handle} {t : EnumType} {value : String} (hh : h ∈ p.enums)
      (ht : m.enum? h = some t) (hvalue : value ∈ t.values) :
      Uses m p "AddEnumValue" ["type_name", "value", "value_name"]
  | registerEnum {h : Handle} {t : EnumType} (hh : h ∈ p.enums) (ht : m.enum? h = some t) :
      Uses m p "RegisterEnum" ["type_name", "registered_name", "add_enum_values"]
  /-- Some serialized class has a property that is a vector. -/
  | encodeVector {c : ClassType} {q : Property} (hc : Serializes m p c) (hq : q ∈ c.properties)
      (hv : q.isVector = true) : Uses m p "EncodePropertyVector" ["property_name"]
  /-- Some serialized class has a property that is no vector but an enum. -/
  | encodeEnum {c : ClassType} {q : Property} (hc : Serializes m p c) (hq : q ∈ c.properties)
      (hv : q.isVector = false) (he : q.isEnum = true) :
      Uses m p "EncodePropertyEnum" ["property_name"]
  /-- Some serialized class has a property that is neither. -/
  | encodeValue {c : ClassType} {q : Property} (hc : Serializes m p c) (hq : q ∈ c.properties)
      (hv : q.isVector = false) (he : q.isEnum = false) :
      Uses m p "EncodePropertyValue" ["property_name"]
  | decodeVector {c : ClassType} {q : Property} (hc : Serializes m p c) (hq : q ∈ c.properties)
      (hv : q.isVector = true) : Uses m p "DecodePropertyVector" ["property_name", "is_required"]
  | decodeEnum {c : ClassType} {q : Property} (hc : Serializes m p c) (hq : q ∈ c.properties)
      (hv : q.isVector = false) (he : q.isEnum = true) :
      Uses m p "DecodePropertyEnum" ["property_name", "is_required"]
  | decodeValue {c : ClassType} {q : Property} (hc : Serializes m p c) (hq : q ∈ c.properties)
      (hv : q.isVector = false) (he : q.isEnum = false) :
      Uses m p "DecodePropertyValue" ["property_name", "is_required"]
  /-- Some serialized class has a property. -/
  | setEncodeFunction {c : ClassType} (hc : Serializes m p c) (hne : c.properties ≠ []) :
      Uses m p "SetEncodeFunction" ["type_name", "encode_properties"]
  | setDecodeFunction {c : ClassType} (hc : Serializes m p c) (hne : c.properties ≠ []) :
      Uses m p "SetDecodeFunction" ["type_name", "decode_properties"]
  | registerClass {h : Handle} {c : ClassType} (hh : h ∈ p.classes) (hc : m.class? h = some c) :
      Uses m p "RegisterClass"
        ["type_name", "registered_name", "set_encode_function", "set_decode_function"]
  | registerComponent {h : Handle} {c : ClassType} (hh : h ∈ p.components)
      (hc : m.class? h = some c) : Uses m p "RegisterComponent" ["type_name"]
  | registerSystem {h : Handle} {c : ClassType} (hh : h ∈ p.systems)
      (hc : m.class? h = some c) : Uses m p "RegisterSystem" ["type_name"]
  | registerScene {h : Handle} {c : ClassType} (hh : h ∈ p.scenes)
      (hc : m.class? h = some c) : Uses m p "RegisterScene" ["type_name"]
  | layout :
      Uses m p "Layout"
        ["includes", "namespace", "register_enums", "register_classes", "register_components",
          "register_systems", "register_scenes"]

section

variable {m : Model} {p : Plan} {c : ClassType} {q : Property}

/-- The template that is chosen for writing a property is rendered. -/
theorem Uses.encodeProperty (hc : Serializes m p c) (hq : q ∈ c.properties) :
    Uses m p q.encodeTemplate ["property_name"] := by
  unfold Property.encodeTemplate
  split
  · next hv => exact .encodeVector hc hq hv
  · next hv =>
    have hv' := Bool.eq_false_of_not_eq_true hv
    split
    · next he => exact .encodeEnum hc hq hv' he
    · next he => exact .encodeValue hc hq hv' (Bool.eq_false_of_not_eq_true he)

/-- The template that is chosen for reading a property is rendered. -/
theorem Uses.decodeProperty (hc : Serializes m p c) (hq : q ∈ c.properties) :
    Uses m p q.decodeTemplate ["property_name", "is_required"] := by
  unfold Property.decodeTemplate
  split
  · next hv => exact .decodeVector hc hq hv
  · next hv =>
    have hv' := Bool.eq_false_of_not_eq_true hv
    split
    · next he => exact .decodeEnum hc hq hv' he
    · next he => exact .decodeValue hc hq hv' (Bool.eq_false_of_not_eq_true he)

end

/-- A template that is rendered for a plan has a placeholder whose key has no value. -/
def LacksValue (e : Emitter) (m : Model) (p : Plan) (name key : String) : Prop :=
  ∃ given, Uses m p name given ∧ e.templates.LacksValue name given key

/-! ## What each part fails with -/

section

variable {e : Emitter}

/-- Rendering fails with the keys of the template that are not given. -/
theorem failsWith_render (he : e.templates.IsComplete) (name : String)
    (hname : name ∈ Template.builtin.map Template.name) (values : Values) :
    FailsWith (e.templates.missing name (values.map Prod.fst)) (e.templates.render name values) :=
  (he name hname).elim fun _ hget => TemplateSet.failsWith_render hget values

/-- The directives fail with what the template of a directive fails with, if there is any header to
include. -/
theorem failsWith_includes (he : e.templates.IsComplete) (m : Model) (p : Plan) :
    FailsWith (⋃ _ ∈ e.includeNames m p, e.templates.missing "Include" ["file_name"])
      (e.includes m p) := by
  have hline := fun name =>
    failsWith_render he "Include" (by decide +kernel) [("file_name", name)]
  exact (failsWith_mapM hline (e.includeNames m p)).map joinLines

/-- The line of an enumerator fails with what its template fails with. -/
theorem failsWith_addEnumValue (he : e.templates.IsComplete) (t : EnumType) (value : String) :
    FailsWith (e.templates.missing "AddEnumValue" ["type_name", "value", "value_name"])
      (e.addEnumValue t value) :=
  failsWith_render he "AddEnumValue" (by decide +kernel) [_, _, _]

/-- What the block of an enum fails with. -/
def enumErrors (e : Emitter) (t : EnumType) : Set TemplateError :=
  (⋃ _ ∈ t.values, e.templates.missing "AddEnumValue" ["type_name", "value", "value_name"]) ∪
    e.templates.missing "RegisterEnum" ["type_name", "registered_name", "add_enum_values"]

/-- The block of an enum fails with what the lines of its enumerators or its own template fail
with. -/
theorem failsWith_registerEnum (he : e.templates.IsComplete) (t : EnumType) :
    FailsWith (e.enumErrors t) (e.registerEnum t) :=
  (failsWith_mapM (failsWith_addEnumValue he t) t.values).bind fun _ =>
    failsWith_render he "RegisterEnum" (by decide +kernel) [_, _, _]

/-- The line that writes a property fails with what the template for the property fails with. -/
theorem failsWith_encodeProperty (he : e.templates.IsComplete) (q : Property) :
    FailsWith (e.templates.missing q.encodeTemplate ["property_name"]) (e.encodeProperty q) := by
  refine failsWith_render he q.encodeTemplate ?_ [_]
  unfold Property.encodeTemplate
  repeat' split
  all_goals decide +kernel

/-- The line that reads a property fails with what the template for the property fails with. -/
theorem failsWith_decodeProperty (he : e.templates.IsComplete) (q : Property) :
    FailsWith (e.templates.missing q.decodeTemplate ["property_name", "is_required"])
      (e.decodeProperty q) := by
  refine failsWith_render he q.decodeTemplate ?_ [_, _]
  unfold Property.decodeTemplate
  repeat' split
  all_goals decide +kernel

/-- What the function that writes the objects of a class fails with. -/
def encodeErrors (e : Emitter) (c : ClassType) : Set TemplateError :=
  (⋃ q ∈ c.properties, e.templates.missing q.encodeTemplate ["property_name"]) ∪
    e.templates.missing "SetEncodeFunction" ["type_name", "encode_properties"]

/-- The function that writes a class fails with what its lines or its own template fail with. -/
theorem failsWith_encodeFunction (he : e.templates.IsComplete) (c : ClassType) :
    FailsWith (e.encodeErrors c) (e.encodeFunction c) :=
  (failsWith_mapM (failsWith_encodeProperty he) c.properties).bind fun _ =>
    failsWith_render he "SetEncodeFunction" (by decide +kernel) [_, _]

/-- What the function that reads the objects of a class fails with. -/
def decodeErrors (e : Emitter) (c : ClassType) : Set TemplateError :=
  (⋃ q ∈ c.properties,
    e.templates.missing q.decodeTemplate ["property_name", "is_required"]) ∪
    e.templates.missing "SetDecodeFunction" ["type_name", "decode_properties"]

/-- The function that reads a class fails with what its lines or its own template fail with. -/
theorem failsWith_decodeFunction (he : e.templates.IsComplete) (c : ClassType) :
    FailsWith (e.decodeErrors c) (e.decodeFunction c) :=
  (failsWith_mapM (failsWith_decodeProperty he) c.properties).bind fun _ =>
    failsWith_render he "SetDecodeFunction" (by decide +kernel) [_, _]

/-- What the block of a class fails with. -/
def classErrors (e : Emitter) (c : ClassType) : Set TemplateError :=
  (⋃ _ : hasFunctions c = true, e.encodeErrors c) ∪
    ((⋃ _ : hasFunctions c = true, e.decodeErrors c) ∪
      e.templates.missing "RegisterClass"
        ["type_name", "registered_name", "set_encode_function", "set_decode_function"])

/-- The block of a class fails with what its functions or its own template fail with. -/
theorem failsWith_registerClass (he : e.templates.IsComplete) (c : ClassType) :
    FailsWith (e.classErrors c) (e.registerClass c) := by
  rw [registerClass_bind]
  exact ((failsWith_encodeFunction he c).ite _ _).bind fun encode =>
    ((failsWith_decodeFunction he c).ite _ _).bind fun decode =>
      failsWith_render he "RegisterClass" (by decide +kernel) _

/-- What the calls for a role fail with. -/
def roleErrors (e : Emitter) (m : Model) (p : Plan) (role : Role) : Set TemplateError :=
  ⋃ _ ∈ (p.roleHandles role).filterMap m.class?,
    e.templates.missing (roleTemplate role) ["type_name"]

/-- The calls for a role fail with what the template of such a call fails with. -/
theorem failsWith_registerRole (he : e.templates.IsComplete) (m : Model) (p : Plan) (role : Role) :
    FailsWith (e.roleErrors m p role) (e.registerRole m p role).run.result := by
  have hcall := fun c : ClassType => failsWith_render he (roleTemplate role)
    (by cases role <;> decide +kernel) [("type_name", c.qualifiedName)]
  rw [registerRole, result_bind, result_mapM]
  exact (failsWith_mapM hcall _).map joinLines

/-- What emission fails with. -/
def errors (e : Emitter) (m : Model) (p : Plan) : Set TemplateError :=
  (⋃ _ ∈ e.includeNames m p, e.templates.missing "Include" ["file_name"]) ∪
    ((⋃ t ∈ p.enums.filterMap m.enum?, e.enumErrors t) ∪
      ((⋃ c ∈ p.classes.filterMap m.class?, e.classErrors c) ∪
        (e.roleErrors m p .component ∪ (e.roleErrors m p .system ∪ (e.roleErrors m p .scene ∪
          e.templates.missing "Layout"
            ["includes", "namespace", "register_enums", "register_classes",
              "register_components", "register_systems", "register_scenes"])))))

/-- Emission fails with what one of the parts of the file fails with. -/
theorem failsWith_emit (he : e.templates.IsComplete) (m : Model) (p : Plan) :
    FailsWith (e.errors m p) (e.emit m p).run.result := by
  simp only [emit, result_bind]
  exact (failsWith_includes he m p).bind fun _ =>
    (failsWith_mapM (failsWith_registerEnum he) _).bind fun _ =>
      (failsWith_mapM (failsWith_registerClass he) _).bind fun _ =>
        (failsWith_registerRole he m p .component).bind fun _ =>
          (failsWith_registerRole he m p .system).bind fun _ =>
            (failsWith_registerRole he m p .scene).bind fun _ =>
              (failsWith_render he "Layout" (by decide +kernel) _).map endLine

end

/-! ## What is missing -/

variable (e : Emitter) (m : Model) (p : Plan)

section

variable {e m p} {c : ClassType} {q : Property} {name : String} {err : TemplateError}

/-- What the block of a listed class fails with, emission fails with. -/
theorem mem_errors_of_class (hc : ∃ h ∈ p.classes, m.class? h = some c)
    (herr : err ∈ e.classErrors c) : err ∈ e.errors m p :=
  .inr (.inr (.inl (Set.mem_iUnion₂.2 ⟨c, List.mem_filterMap.2 hc, herr⟩)))

/-- What the function that writes the objects of a class fails with, emission fails with. -/
theorem mem_errors_of_encode (hc : Serializes m p c) (hne : c.properties ≠ [])
    (herr : err ∈ e.encodeErrors c) : err ∈ e.errors m p :=
  mem_errors_of_class hc.1 (.inl (Set.mem_iUnion.2 ⟨(hasFunctions_iff c).2 ⟨hne, hc.2⟩, herr⟩))

/-- What the function that reads the objects of a class fails with, emission fails with. -/
theorem mem_errors_of_decode (hc : Serializes m p c) (hne : c.properties ≠ [])
    (herr : err ∈ e.decodeErrors c) : err ∈ e.errors m p :=
  mem_errors_of_class hc.1
    (.inr (.inl (Set.mem_iUnion.2 ⟨(hasFunctions_iff c).2 ⟨hne, hc.2⟩, herr⟩)))

/-- What the statement that writes a property fails with, emission fails with. -/
theorem mem_errors_of_encodeTemplate (hc : Serializes m p c) (hq : q ∈ c.properties)
    (hname : q.encodeTemplate = name) (herr : err ∈ e.templates.missing name ["property_name"]) :
    err ∈ e.errors m p := by
  subst hname
  exact mem_errors_of_encode hc (List.ne_nil_of_mem hq)
    (.inl (Set.mem_iUnion₂.2 ⟨q, hq, herr⟩))

/-- What the statement that reads a property fails with, emission fails with. -/
theorem mem_errors_of_decodeTemplate (hc : Serializes m p c) (hq : q ∈ c.properties)
    (hname : q.decodeTemplate = name)
    (herr : err ∈ e.templates.missing name ["property_name", "is_required"]) :
    err ∈ e.errors m p := by
  subst hname
  exact mem_errors_of_decode hc (List.ne_nil_of_mem hq)
    (.inl (Set.mem_iUnion₂.2 ⟨q, hq, herr⟩))

/-- What the call for a class fails with, the calls for its role fail with. -/
theorem mem_roleErrors (role : Role) {h : Handle} (hh : h ∈ p.roleHandles role)
    (hc : m.class? h = some c)
    (herr : err ∈ e.templates.missing (roleTemplate role) ["type_name"]) :
    err ∈ e.roleErrors m p role :=
  Set.mem_iUnion₂.2 ⟨c, List.mem_filterMap.2 ⟨h, hh, hc⟩, herr⟩

/-- Each template that is rendered is rendered by one part, and emission fails with what that part
fails with. -/
theorem mem_errors_of_uses {given : List String} (huse : Uses m p name given)
    (herr : err ∈ e.templates.missing name given) : err ∈ e.errors m p := by
  cases huse with
  | @directive h d header hh hd hheader =>
    have hname := (e.mem_includeNames m p (e.spelling header)).2 ⟨h, d, header, hh, hd, hheader, rfl⟩
    exact .inl (Set.mem_iUnion₂.2 ⟨_, hname, herr⟩)
  | @addEnumValue h t value hh ht hvalue =>
    have hblock : err ∈ e.enumErrors t := .inl (Set.mem_iUnion₂.2 ⟨value, hvalue, herr⟩)
    exact .inr (.inl (Set.mem_iUnion₂.2 ⟨t, List.mem_filterMap.2 ⟨h, hh, ht⟩, hblock⟩))
  | @registerEnum h t hh ht =>
    exact .inr (.inl (Set.mem_iUnion₂.2 ⟨t, List.mem_filterMap.2 ⟨h, hh, ht⟩, .inr herr⟩))
  | encodeVector hc hq hv =>
    exact mem_errors_of_encodeTemplate hc hq (by simp [Property.encodeTemplate, hv]) herr
  | encodeEnum hc hq hv he =>
    exact mem_errors_of_encodeTemplate hc hq (by simp [Property.encodeTemplate, hv, he]) herr
  | encodeValue hc hq hv he =>
    exact mem_errors_of_encodeTemplate hc hq (by simp [Property.encodeTemplate, hv, he]) herr
  | decodeVector hc hq hv =>
    exact mem_errors_of_decodeTemplate hc hq (by simp [Property.decodeTemplate, hv]) herr
  | decodeEnum hc hq hv he =>
    exact mem_errors_of_decodeTemplate hc hq (by simp [Property.decodeTemplate, hv, he]) herr
  | decodeValue hc hq hv he =>
    exact mem_errors_of_decodeTemplate hc hq (by simp [Property.decodeTemplate, hv, he]) herr
  | setEncodeFunction hc hne => exact mem_errors_of_encode hc hne (.inr herr)
  | setDecodeFunction hc hne => exact mem_errors_of_decode hc hne (.inr herr)
  | @registerClass h c hh hc => exact mem_errors_of_class ⟨h, hh, hc⟩ (.inr (.inr herr))
  | registerComponent hh hc =>
    exact .inr (.inr (.inr (.inl (mem_roleErrors .component hh hc herr))))
  | registerSystem hh hc =>
    exact .inr (.inr (.inr (.inr (.inl (mem_roleErrors .system hh hc herr)))))
  | registerScene hh hc =>
    exact .inr (.inr (.inr (.inr (.inr (.inl (mem_roleErrors .scene hh hc herr))))))
  | layout => exact .inr (.inr (.inr (.inr (.inr (.inr herr)))))

/-- What emission fails with comes from a template that is rendered. -/
theorem exists_uses_of_mem_errors (herr : err ∈ e.errors m p) :
    ∃ name given, Uses m p name given ∧ err ∈ e.templates.missing name given := by
  simp only [errors, enumErrors, classErrors, encodeErrors, decodeErrors, roleErrors,
    Set.mem_union, Set.mem_iUnion, List.mem_filterMap, mem_includeNames, hasFunctions_iff,
    exists_prop] at herr
  -- the parts stand in the order in which they are written
  obtain hinclude | henum | hclass | hcomponent | hsystem | hscene | hlayout := herr
  · obtain ⟨name, ⟨h, d, header, hh, hd, hheader, -⟩, herr⟩ := hinclude
    exact ⟨_, _, .directive hh hd hheader, herr⟩
  · obtain ⟨t, ⟨h, hh, ht⟩, ⟨value, hvalue, herr⟩ | herr⟩ := henum
    · exact ⟨_, _, .addEnumValue hh ht hvalue, herr⟩
    · exact ⟨_, _, .registerEnum hh ht, herr⟩
  · obtain ⟨c, hc, ⟨⟨hne, hs⟩, hencode⟩ | ⟨⟨hne, hs⟩, hdecode⟩ | herr⟩ := hclass
    · obtain ⟨q, hq, herr⟩ | herr := hencode
      · exact ⟨_, _, .encodeProperty ⟨hc, hs⟩ hq, herr⟩
      · exact ⟨_, _, .setEncodeFunction ⟨hc, hs⟩ hne, herr⟩
    · obtain ⟨q, hq, herr⟩ | herr := hdecode
      · exact ⟨_, _, .decodeProperty ⟨hc, hs⟩ hq, herr⟩
      · exact ⟨_, _, .setDecodeFunction ⟨hc, hs⟩ hne, herr⟩
    · obtain ⟨h, hh, hc⟩ := hc
      exact ⟨_, _, .registerClass hh hc, herr⟩
  · obtain ⟨c, ⟨h, hh, hc⟩, herr⟩ := hcomponent
    exact ⟨_, _, .registerComponent hh hc, herr⟩
  · obtain ⟨c, ⟨h, hh, hc⟩, herr⟩ := hsystem
    exact ⟨_, _, .registerSystem hh hc, herr⟩
  · obtain ⟨c, ⟨h, hh, hc⟩, herr⟩ := hscene
    exact ⟨_, _, .registerScene hh hc, herr⟩
  · exact ⟨_, _, .layout, hlayout⟩

end

/-- With the built-in templates nothing is missing, whatever the names are. -/
theorem exists_emit_eq_ok (he : e.templates = {}) : ∃ text, (e.emit m p).run.result = .ok text :=
  ⟨_, emit_eq_of_builtin he m p (joinLines_singleton _).symm (joinLines_singleton _).symm⟩

/-- Whatever templates are put into the built-in set, and whatever the model and the plan are, emission
fails exactly if some template that is rendered for the plan has a placeholder whose key has no value.
Then it reports the name of such a template and such a key, and never that a template does not exist.
With the built-in templates alone it does not fail. -/
theorem emit_fails_iff (ts : List Template) (outputDir : Path) (outerNamespace : String) (m : Model)
    (p : Plan) :
    let e : Emitter := ⟨ts.foldl TemplateSet.insert {}, outputDir, outerNamespace⟩
    ((∃ err, (e.emit m p).run.result = .error err) ↔ ∃ name key, e.LacksValue m p name key) ∧
    (∀ err, (e.emit m p).run.result = .error err →
      ∃ name key, err = .missingValue name key ∧ e.LacksValue m p name key) ∧
    ∃ text, ((Emitter.mk {} outputDir outerNamespace).emit m p).run.result = .ok text := by
  intro e
  have hfails : FailsWith (e.errors m p) (e.emit m p).run.result :=
    failsWith_emit (TemplateSet.isComplete_foldl_insert ts) m p
  have hmem : ∀ err, err ∈ e.errors m p ↔
      ∃ name key, err = .missingValue name key ∧ e.LacksValue m p name key := by
    intro err
    constructor
    · intro herr
      obtain ⟨name, given, huse, key, hlacks, rfl⟩ := exists_uses_of_mem_errors herr
      exact ⟨name, key, rfl, given, huse, hlacks⟩
    · rintro ⟨name, key, rfl, given, huse, hlacks⟩
      exact mem_errors_of_uses huse ⟨key, hlacks, rfl⟩
  refine ⟨?_, fun err herr => ?_, exists_emit_eq_ok _ m p rfl⟩
  · rw [hfails.exists_error_iff]
    constructor
    · rintro ⟨err, herr⟩
      obtain ⟨name, key, -, hlacks⟩ := (hmem err).1 herr
      exact ⟨name, key, hlacks⟩
    · rintro ⟨name, key, hlacks⟩
      exact ⟨_, (hmem _).2 ⟨name, key, rfl, hlacks⟩⟩
  · rw [herr] at hfails
    exact (hmem err).1 hfails

end Emitter

end Registrar
