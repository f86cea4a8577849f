/-
# The generated file, line by line

With the built-in templates the generated file is a fixed frame with six places in it: for the
includes, the blocks of the enums, the blocks of the classes, and the calls for each of three roles.
-/
import Registrar.Proofs.Emission.Section
import Registrar.Proofs.Model.Lookup

namespace Registrar

open Text

/-- The directive for a header. -/
def includeLine (name : String) : String :=
  "#include \"" ++ name ++ "\""

/-- What is put into the frame of the generated file. -/
structure FileParts where
  includes : List String
  outerNamespace : String
  enums : List String
  classes : List String
  components : List String
  systems : List String
  scenes : List String

namespace FileParts

/-- The lines above the directives. -/
def top : List String :=
  ["// Generated by reflect; do not edit.", "#pragma once", "",
    "#include <Hect/Logic/ComponentRegistry.h>", "#include <Hect/Logic/SceneRegistry.h>",
    "#include <Hect/Logic/SystemRegistry.h>", "#include <Hect/Reflection/Type.h>", ""]

/-- The lines that open the function. -/
def opening : List String :=
  [r"{", "", "inline void registerTypes()", r"{"]

/-- The lines below all sections. -/
def closing : List String :=
  [r"}", "", r"}"]

/-- The lines above the line of the namespace. -/
def above (f : FileParts) : List String :=
  top ++ slot f.includes ++ [""]

/-- The calls, with the headings between them. -/
def callLines (f : FileParts) : List String :=
  slot f.components ++ ["", "    // Systems"] ++ slot f.systems ++ ["", "    // Scenes"] ++
    slot f.scenes

/-- The lines below the line of the namespace.  Each place has at least one line. -/
def below (f : FileParts) : List String :=
  opening ++ ["    // Enums"] ++ (slot f.enums ++ [""]) ++ ["    // Classes"] ++
    (slot f.classes ++ [""]) ++ ["    // Components"] ++ (f.callLines ++ closing)

/-- The lines of the generated file. -/
def lines (f : FileParts) : List String :=
  f.above ++ ["namespace " ++ f.outerNamespace] ++ f.below

/-- The frame of the generated file with its places. -/
def frame (f : FileParts) : List (List String) :=
  [["// Generated by reflect; do not edit."], ["#pragma once"], [""],
    ["#include <Hect/Logic/ComponentRegistry.h>"], ["#include <Hect/Logic/SceneRegistry.h>"],
    ["#include <Hect/Logic/SystemRegistry.h>"], ["#include <Hect/Reflection/Type.h>"], [""],
    f.includes, [""], ["namespace " ++ f.outerNamespace], [r"{"], [""],
    ["inline void registerTypes()"], [r"{"], ["    // Enums"], f.enums, [""],
    ["    // Classes"], f.classes, [""], ["    // Components"], f.components, [""],
    ["    // Systems"], f.systems, [""], ["    // Scenes"], f.scenes, [r"}"], [""], [r"}"],
    [""]]

/-- The lines of the frame are those of the file and an empty one. -/
theorem flatMap_frame (f : FileParts) : f.frame.flatMap slot = f.lines ++ [""] := by
  simp [frame, lines, above, below, callLines, top, opening, closing, slot_singleton]

end FileParts

/-- The built-in layout puts the parts of the file below each other. -/
theorem render_layout (f : FileParts) :
    ({} : TemplateSet).render "Layout"
        [("includes", joinLines f.includes), ("namespace", f.outerNamespace),
          ("register_enums", joinLines f.enums), ("register_classes", joinLines f.classes),
          ("register_components", joinLines f.components),
          ("register_systems", joinLines f.systems), ("register_scenes", joinLines f.scenes)] =
      .ok (joinLines (f.lines ++ [""])) := by
  have hget : ({} : TemplateSet).get "Layout" = .ok ⟨"Layout", Template.layout⟩ := rfl
  rw [← FileParts.flatMap_frame, ← joinLines_map_joinLines]
  refine TemplateSet.render_eq_joinLines Template.layoutFragments hget Template.layout_eq
    Template.isPlain_layout rfl ?_
  simp [Template.layoutFragments, FileParts.frame, joinLines_singleton, Fragment.fill, String.join,
    List.lookup_cons]

/-! ## Emission succeeds -/

/-- The lines that are said on the way do not matter for the result. -/
theorem result_bind {α β : Type} (x : ExceptT TemplateError Logged α)
    (f : α → ExceptT TemplateError Logged β) :
    (x >>= f).run.result = x.run.result >>= fun a => (f a).run.result := by
  show (ExceptT.bindCont f x.run.result).result = _
  cases x.run.result <;> rfl

/-- Going through a list gives what going through it without the messages gives. -/
theorem result_mapM {α β : Type} (f : α → ExceptT TemplateError Logged β) (as : List α) :
    (as.mapM f).run.result = as.mapM fun a => (f a).run.result := by
  induction as with
  | nil => rfl
  | cons a as ih =>
    rw [List.mapM_cons, List.mapM_cons, result_bind]
    refine congrArg ((f a).run.result >>= ·) (funext fun b => ?_)
    rw [result_bind, ih]
    rfl

/-- After a success the next computation goes on with its result. -/
theorem result_bind_ok {α β : Type} {x : ExceptT TemplateError Logged α} {a : α}
    (hx : x.run.result = .ok a) (f : α → ExceptT TemplateError Logged β) :
    (x >>= f).run.result = (f a).run.result := by
  rw [result_bind, hx]
  rfl

/-- After a success without messages the next computation goes on with its result. -/
theorem result_mk_bind_ok {α β : Type} {x : Except TemplateError α} {a : α} (hx : x = .ok a)
    (f : α → ExceptT TemplateError Logged β) :
    ((ExceptT.mk (pure x) : ExceptT TemplateError Logged α) >>= f).run.result =
      (f a).run.result := by
  rw [hx]
  rfl

namespace Emitter

section

variable {e : Emitter}

/-- With the built-in templates there is a directive for each header. -/
theorem includes_builtin (he : e.templates = {}) (m : Model) (p : Plan) :
    e.includes m p = .ok (joinLines ((e.includeNames m p).map includeLine)) := by
  have hrender : ∀ name, e.templates.render "Include" [("file_name", name)] =
      .ok (includeLine name) := by
    intro name
    rw [he]
    exact TemplateSet.render_eq_line [.text "#include \"", .key "file_name", .text "\""]
      rfl rfl (by decide +kernel) rfl rfl
  rw [includes, mapM_eq_ok hrender, ok_bind]
  rfl

/-- With the built-in templates there is a call for each class of a role. -/
theorem registerRole_builtin (he : e.templates = {}) (m : Model) (p : Plan) (role : Role) :
    (e.registerRole m p role).run.result = .ok (joinLines
      (((p.roleHandles role).filterMap m.class?).map fun c => role.callLine c.qualifiedName)) := by
  have hcalls : (((p.roleHandles role).filterMap m.class?).mapM (e.registerCall role)).run.result =
      .ok _ := (result_mapM _ _).trans (mapM_eq_ok (registerCall_builtin he role) _)
  rw [registerRole, result_bind_ok hcalls]
  rfl

/-- The parts of the generated file for a plan. -/
def parts (e : Emitter) (m : Model) (p : Plan) : FileParts where
  includes := (e.includeNames m p).map includeLine
  outerNamespace := e.outerNamespace
  enums := (p.enums.filterMap m.enum?).flatMap EnumType.blockLines
  classes := (p.classes.filterMap m.class?).flatMap ClassType.blockLines
  components := (p.components.filterMap m.class?).map fun c =>
    Role.component.callLine c.qualifiedName
  systems := (p.systems.filterMap m.class?).map fun c => Role.system.callLine c.qualifiedName
  scenes := (p.scenes.filterMap m.class?).map fun c => Role.scene.callLine c.qualifiedName

/-- The enums of a plan have names of one line if all types have. -/
theorem hasLineNames_of_enum? {m : Model} (hm : ∀ d ∈ m.declarations, d.HasLineNames)
    (hs : List Handle) : ∀ t ∈ hs.filterMap m.enum?, t.HasLineNames := by
  intro t ht
  obtain ⟨h, -, hget⟩ := List.mem_filterMap.1 ht
  obtain ⟨d, hd, hdt⟩ := Option.bind_eq_some_iff.1 hget
  have hline := hm d (List.mem_of_getElem? hd)
  cases d with
  | enumType t' =>
    obtain rfl := Option.some.inj hdt
    exact hline
  | classType c => exact absurd hdt (by simp [Declaration.enum?])

/-- The classes of a plan have names of one line if all types have. -/
theorem hasLineNames_of_class? {m : Model} (hm : ∀ d ∈ m.declarations, d.HasLineNames)
    (hs : List Handle) : ∀ c ∈ hs.filterMap m.class?, c.HasLineNames := by
  intro c hc
  obtain ⟨h, -, hget⟩ := List.mem_filterMap.1 hc
  exact hm (.classType c) (List.mem_of_getElem? ((Model.class?_eq_some_iff m h c).1 hget))

/-- Lines with an empty one behind them end in a line feed. -/
theorem endsWith_joinLines {ls : List String} (hls : ls ≠ []) :
    endsWith (joinLines (ls ++ [""])) "\n" = true := by
  rw [endsWith, toList_joinLines, List.map_append, Chars.joinLines_append (by simpa using hls)
    (by simp), List.isSuffixOf_iff_suffix]
  exact ⟨_, rfl⟩

/-- With the built-in templates every model is written, in the frame of the file, whatever lines the two
sections of types come to. -/
theorem emit_eq_of_builtin (he : e.templates = {}) (m : Model) (p : Plan)
    {enums classes : List String}
    (henums : removeBlankLines (joinLines ((p.enums.filterMap m.enum?).map fun t =>
      joinLines t.writtenLines)) = joinLines enums)
    (hclasses : removeBlankLines (joinLines ((p.classes.filterMap m.class?).map fun c =>
      joinLines c.writtenLines)) = joinLines classes) :
    (e.emit m p).run.result = .ok (joinLines
      (({ e.parts m p with enums := enums, classes := classes } : FileParts).lines ++ [""])) := by
  have hwritten : (p.enums.filterMap m.enum?).mapM e.registerEnum = .ok _ :=
    mapM_eq_ok (registerEnum_builtin he) _
  have hwritten' : (p.classes.filterMap m.class?).mapM e.registerClass = .ok _ :=
    mapM_eq_ok (registerClass_builtin he) _
  have hrole := fun role => registerRole_builtin he m p role
  let f : FileParts := { e.parts m p with enums := enums, classes := classes }
  have hlayout := render_layout f
  rw [← he] at hlayout
  have hne : f.lines ≠ [] := by
    simp [FileParts.lines]
  rw [emit, result_mk_bind_ok (includes_builtin he m p), result_mk_bind_ok hwritten,
    result_mk_bind_ok hwritten', result_bind_ok (hrole .component), result_bind_ok (hrole .system),
    result_bind_ok (hrole .scene), henums, hclasses]
  refine (result_mk_bind_ok hlayout _).trans ?_
  have hend : endLine (joinLines (f.lines ++ [""])) = _ :=
    if_pos (endsWith_joinLines hne)
  exact congrArg Except.ok hend

/-- With the built-in templates a model whose names are lines is written, and the lines are those of
its parts. -/
theorem emit_builtin (he : e.templates = {}) {m : Model}
    (hm : ∀ d ∈ m.declarations, d.HasLineNames) (p : Plan) :
    (e.emit m p).run.result = .ok (joinLines ((e.parts m p).lines ++ [""])) :=
  emit_eq_of_builtin he m p (removeBlankLines_enums (hasLineNames_of_enum? hm p.enums))
    (removeBlankLines_classes (hasLineNames_of_class? hm p.classes))

end

end Emitter

end Registrar
