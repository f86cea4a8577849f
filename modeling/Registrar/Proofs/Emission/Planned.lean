/-
# What is planned is registered

Every handle of a plan leads to a type, so each one has its place in the generated file, and the
lines there are those of its type.
-/
import Registrar.Proofs.Emission.Registration

namespace Registrar

open Text

/-! ## The types of a plan -/

theorem exists_filterMap_eq {α β : Type} {get : α → Option β} {as : List α}
    (has : ∀ a ∈ as, ∃ b, get a = some b) :
    ∃ bs, as.map get = bs.map some ∧ as.filterMap get = bs := by
  induction as with
  | nil => exact ⟨[], rfl, rfl⟩
  | cons a as ih =>
    obtain ⟨b, hb⟩ := has a List.mem_cons_self
    obtain ⟨bs, hmap, hfilter⟩ := ih fun a' h => has a' (List.mem_cons_of_mem a h)
    refine ⟨b :: bs, ?_, ?_⟩
    · rw [List.map_cons, List.map_cons, hb, hmap]
    · rw [List.filterMap_cons_some hb, hfilter]

namespace Plan

theorem exists_enum?_of_mem {m : Model} {s : Settings} :
    ∀ h ∈ (ofModel m s).enums, ∃ t, m.enum? h = some t := by
  intro h hh
  exact (Model.mem_enumHandles m h).1 ((List.mergeSort_perm _ _).mem_iff.1 hh)

theorem exists_class?_of_mem_sorted {m : Model} {s : Settings} {p : ClassType → Bool} :
    ∀ h ∈ sorted m (registrable m s p), ∃ c, m.class? h = some c := by
  intro h hh
  have hmem : h ∈ registrable m s p := (List.mergeSort_perm _ _).mem_iff.1 hh
  exact (Model.mem_classHandles m h).1 (List.mem_filter.1 hmem).1

theorem exists_class?_of_mem_roleHandles {m : Model} {s : Settings} (role : Role) :
    ∀ h ∈ (ofModel m s).roleHandles role, ∃ c, m.class? h = some c := by
  cases role with
  | none => exact fun h hh => absurd hh List.not_mem_nil
  | component | system | scene => exact exists_class?_of_mem_sorted

end Plan

theorem map_qualifiedName_filterMap {m : Model} {hs : List Handle}
    (hhs : ∀ h ∈ hs, ∃ c, m.class? h = some c) :
    (hs.filterMap m.class?).map ClassType.qualifiedName = hs.map m.nameAt := by
  induction hs with
  | nil => rfl
  | cons h hs ih =>
    obtain ⟨c, hc⟩ := hhs h List.mem_cons_self
    rw [List.filterMap_cons_some hc, List.map_cons, List.map_cons,
      ih fun h' hh => hhs h' (List.mem_cons_of_mem h hh),
      Model.nameAt_eq_of_get? ((Model.class?_eq_some_iff m h c).1 hc)]
    rfl

namespace Emitter

/-! ## The generated file of a plan -/

/-- If the names of a model are lines, then no part of its file can be taken for another one. -/
theorem isProper_parts {e : Emitter} {m : Model} {p : Plan}
    (hm : ∀ d ∈ m.declarations, d.HasLineNames) (hns : IsLine e.outerNamespace)
    (hincludes : ∀ name ∈ e.includeNames m p, IsLine name) : (e.parts m p).IsProper where
  includes := ⟨_, rfl, hincludes⟩
  outerNamespace := hns
  enums := by
    intro l hl
    obtain ⟨t, ht, hlt⟩ := List.mem_flatMap.1 hl
    exact ⟨EnumType.isLine_blockLines (hasLineNames_of_enum? hm _ t ht) l hlt,
      t.endsVisibly_blockLines l hlt, t.isInner_blockLines l hlt⟩
  classes := by
    intro l hl
    obtain ⟨c, hc, hlc⟩ := List.mem_flatMap.1 hl
    exact ⟨ClassType.isLine_blockLines (hasLineNames_of_class? hm _ c hc) l hlc,
      c.endsVisibly_blockLines l hlc, c.isInner_blockLines l hlc⟩
  calls := by
    have hnames : ∀ hs : List Handle,
        ∀ name ∈ (hs.filterMap m.class?).map ClassType.qualifiedName, IsLine name := by
      intro hs
      rw [List.forall_mem_map]
      exact fun c hc => (hasLineNames_of_class? hm hs c hc).1
    have hmap : ∀ (role : Role) (hs : List Handle),
        (hs.filterMap m.class?).map (fun c => role.callLine c.qualifiedName) =
          ((hs.filterMap m.class?).map ClassType.qualifiedName).map role.callLine := by
      intro role hs
      rw [List.map_map]
      rfl
    intro role
    cases role with
    | none | component => exact ⟨_, hmap .component p.components, hnames p.components⟩
    | system => exact ⟨_, hmap .system p.systems, hnames p.systems⟩
    | scene => exact ⟨_, hmap .scene p.scenes, hnames p.scenes⟩

/-- The calls in the parts of a plan are those for its handles. -/
theorem calls_parts (e : Emitter) {m : Model} {s : Settings} {role : Role} (hrole : role ≠ .none) :
    (e.parts m (Plan.ofModel m s)).calls role =
      ((Plan.ofModel m s).roleHandles role).map fun h => role.callLine (m.nameAt h) := by
  have hnames := map_qualifiedName_filterMap
    (Plan.exists_class?_of_mem_roleHandles (m := m) (s := s) role)
  have hcalls : (e.parts m (Plan.ofModel m s)).calls role =
      (((Plan.ofModel m s).roleHandles role).filterMap m.class?).map fun c =>
        role.callLine c.qualifiedName := by
    cases role with
    | none => exact absurd rfl hrole
    | component | system | scene => rfl
  have hsplit := congrArg (List.map role.callLine) hnames
  rw [List.map_map, List.map_map] at hsplit
  exact hcalls.trans hsplit

/-- A text registers what a plan lists. -/
structure Registers (e : Emitter) (m : Model) (p : Plan) (text : String) : Prop where
  /-- Nothing stands in the text besides its parts. -/
  text_eq : text = joinLines ((e.parts m p).lines ++ [""])
  /-- The lines that call for a role are those for its handles, in order, each with the name of its
  class. -/
  calls : ∀ role, role ≠ .none → (lines text).filter (startsWith · role.callStart) =
    (p.roleHandles role).map fun h => role.callStart ++ m.nameAt h ++ ">();"
  /-- The section of the enums is the blocks for their handles, in order, each with a line for every
  enumerator. -/
  enums : ∃ ts : List EnumType, p.enums.map m.enum? = ts.map some ∧
    between "    // Enums" "    // Classes" (lines text) =
      slot (ts.flatMap EnumType.blockLines) ++ [""]
  /-- The section of the classes is the blocks for their handles, in order. -/
  classes : ∃ cs : List ClassType, p.classes.map m.class? = cs.map some ∧
    between "    // Classes" "    // Components" (lines text) =
      slot (cs.flatMap ClassType.blockLines) ++ [""]
  enum_block : ∀ t : EnumType, "" ∉ t.blockLines
  class_block : ∀ c : ClassType, "" ∉ c.blockLines
  /-- The directives give the spellings of the headers, in order. -/
  includes : (lines text).filter (startsWith · "#include \"") =
    (e.includeNames m p).map fun name => "#include \"" ++ name ++ "\""
  endsWith_lineFeed : endsWith text "\n" = true

/-- With the built-in templates everything that is planned is registered, once and in order. -/
theorem exists_registers_of_plan (e : Emitter) (he : e.templates = {}) (m : Model) (s : Settings)
    (hm : ∀ d ∈ m.declarations, d.HasLineNames) (hns : IsLine e.outerNamespace)
    (hincludes : ∀ name ∈ e.includeNames m (Plan.make m s).result, IsLine name) :
    ∃ text, (e.emit m (Plan.make m s).result).run.result = .ok text ∧
      e.Registers m (Plan.make m s).result text := by
  have hproper := isProper_parts hm hns hincludes
  obtain ⟨ts, hts, henums⟩ := exists_filterMap_eq (Plan.exists_enum?_of_mem (m := m) (s := s))
  obtain ⟨cs, hcs, hclasses⟩ := exists_filterMap_eq
    (Plan.exists_class?_of_mem_sorted (m := m) (s := s) (p := fun _ => true))
  refine ⟨_, emit_builtin he hm _, rfl, ?_, ⟨ts, hts, ?_⟩, ⟨cs, hcs, ?_⟩, ?_, ?_, ?_, ?_⟩
  · intro role hrole
    rw [hproper.filter_calls hrole]
    exact calls_parts e hrole
  · rw [hproper.between_enums, ← henums]
    rfl
  · rw [hproper.between_classes, ← hclasses]
    rfl
  · exact fun t h => (t.endsVisibly_blockLines "" h).ne_empty rfl
  · exact fun c h => (c.endsVisibly_blockLines "" h).ne_empty rfl
  · exact hproper.filter_includes
  · exact endsWith_joinLines (by simp [FileParts.lines])

/-- Names that look like placeholders or end in a carriage return are registered as they are. -/
theorem exists_registers_of_odd_names :
    let e : Emitter := { outputDir := ⟨"/out"⟩, outerNamespace := "n\r" }
    let kind : EnumType :=
      { header := some ⟨"/in/Kind.h"⟩, qualifiedName := "n::Kind",
        values := ["Kind_$(value)", "Kind_B"] }
    let position : ClassType :=
      { qualifiedName := "n::$(type_name)>();", role := .component,
        properties := [{ name := "x\r", isVector := true }] }
    let m : Model := ⟨[.enumType kind, .classType position]⟩
    ∃ text, (e.emit m (Plan.make m {}).result).run.result = .ok text ∧
      e.Registers m (Plan.make m {}).result text :=
  exists_registers_of_plan _ rfl _ _ (by decide) (by decide) (by decide +kernel)

end Emitter

end Registrar
