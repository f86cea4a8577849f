/-
# What linking does to a model

Linking changes every class in its place and nothing else.  The main statement gives the class that
stands at a handle after linking, with all its fields, in terms of the model before it.
-/
import Registrar.Proofs.Linking.Nesting
import Registrar.Proofs.Linking.Writing

namespace Registrar.Model

/-! ## The members of templates -/

/-- The types that are nested in a template right away. -/
def templateMembers (m : Model) : List Handle :=
  (m.classes.filter ClassType.isTemplate).flatMap m.innerHandles

/-- What is nested in a template right away is what a template lists as inner. -/
theorem mem_templateMembers (m : Model) (h : Handle) :
    h ∈ m.templateMembers ↔
      ∃ x c, m.class? x = some c ∧ c.isTemplate = true ∧ h ∈ m.innerHandles c := by
  simp only [templateMembers, List.mem_flatMap, List.mem_filter, mem_classes]
  constructor
  · rintro ⟨c, ⟨⟨x, hx⟩, ht⟩, hin⟩
    exact ⟨x, c, hx, ht, hin⟩
  · rintro ⟨x, c, hx, ht, hin⟩
    exact ⟨c, ⟨⟨x, hx⟩, ht⟩, hin⟩

/-- A change that keeps the names, the templates and what is nested where. -/
structure KeepsMembers (f : Handle → ClassType → ClassType) : Prop where
  names : KeepsNames f
  isTemplate : ∀ h c, (f h c).isTemplate = c.isTemplate
  innerClasses : ∀ h c, (f h c).innerClasses = c.innerClasses

/-- A change that keeps the names and everything that nesting depends on. -/
structure KeepsNesting (f : Handle → ClassType → ClassType) : Prop where
  names : KeepsNames f
  isTemplate : ∀ h c, (f h c).isTemplate = c.isTemplate
  isWithinTemplate : ∀ h c, (f h c).isWithinTemplate = c.isWithinTemplate
  innerClasses : ∀ h c, (f h c).innerClasses = c.innerClasses

/-- A change that keeps all nesting keeps what is nested where. -/
theorem KeepsNesting.keepsMembers {f : Handle → ClassType → ClassType} (hf : KeepsNesting f) :
    KeepsMembers f :=
  ⟨hf.names, hf.isTemplate, hf.innerClasses⟩

/-- What is nested in a class stays nested in it. -/
theorem innerHandles_mapClasses {m : Model} {f : Handle → ClassType → ClassType}
    (hf : KeepsMembers f) (h : Handle) (c : ClassType) :
    (m.mapClasses f).innerHandles (f h c) = m.innerHandles c := by
  rw [innerHandles, innerHandles, hf.innerClasses]
  congr 1
  funext i
  exact byIdentifier?_mapClasses m f hf.names i

/-- What is nested in a template right away stays so. -/
theorem templateMembers_mapClasses {m : Model} {f : Handle → ClassType → ClassType}
    (hf : KeepsMembers f) (h : Handle) :
    h ∈ (m.mapClasses f).templateMembers ↔ h ∈ m.templateMembers := by
  rw [mem_templateMembers, mem_templateMembers]
  simp only [class?_mapClasses, Option.map_eq_some_iff]
  constructor
  · rintro ⟨x, -, ⟨c, hc, rfl⟩, ht, hin⟩
    rw [hf.isTemplate] at ht
    rw [innerHandles_mapClasses hf] at hin
    exact ⟨x, c, hc, ht, hin⟩
  · rintro ⟨x, c, hc, ht, hin⟩
    refine ⟨x, f x c, ⟨c, hc, rfl⟩, ?_, ?_⟩
    · rw [hf.isTemplate]
      exact ht
    · rw [innerHandles_mapClasses hf]
      exact hin

/-- What is reached depends only on the members of templates, the marks and the inner classes. -/
theorem nestedIn_mapClasses {m : Model} {f : Handle → ClassType → ClassType}
    (hf : KeepsNesting f) (h : Handle) :
    (m.mapClasses f).NestedIn (m.mapClasses f).templateMembers h ↔
      m.NestedIn m.templateMembers h := by
  constructor
  · intro hn
    induction hn with
    | start hmem hc hw =>
      rw [class?_mapClasses, Option.map_eq_some_iff] at hc
      obtain ⟨c, hc, rfl⟩ := hc
      rw [hf.isWithinTemplate] at hw
      exact .start ((templateMembers_mapClasses hf.keepsMembers _).1 hmem) hc hw
    | inner _ hc hmem hc' hw ih =>
      rw [class?_mapClasses, Option.map_eq_some_iff] at hc hc'
      obtain ⟨c, hc, rfl⟩ := hc
      obtain ⟨c', hc', rfl⟩ := hc'
      rw [hf.isWithinTemplate] at hw
      rw [innerHandles_mapClasses hf.keepsMembers] at hmem
      exact .inner ih hc hmem hc' hw
  · intro hn
    induction hn with
    | @start h c hmem hc hw =>
      refine .start ((templateMembers_mapClasses hf.keepsMembers _).2 hmem) (c := f h c) ?_ ?_
      · rw [class?_mapClasses, hc, Option.map_some]
      · rw [hf.isWithinTemplate]
        exact hw
    | @inner h h' c d _ hc hmem hd hw ih =>
      refine .inner ih (c := f h c) (d := f h' d) ?_ ?_ ?_ ?_
      · rw [class?_mapClasses, hc, Option.map_some]
      · rw [innerHandles_mapClasses hf.keepsMembers]
        exact hmem
      · rw [class?_mapClasses, hd, Option.map_some]
      · rw [hf.isWithinTemplate]
        exact hw

/-! ## Linked classes -/

/-- A class with its base and the marks of its properties. -/
def typedClass (m : Model) (h : Handle) (c : ClassType) : ClassType :=
  { m.basedClass h c with properties := c.properties.map m.linkedProperty }

/-- A class as linking leaves it, where `marked` says what is reached from a template. -/
def linkedClass (m : Model) (marked : Handle → Bool) (h : Handle) (c : ClassType) : ClassType :=
  { m.typedClass h c with isWithinTemplate := c.isWithinTemplate || marked h }

/-- Giving each class its base keeps the names. -/
theorem keepsNames_basedClass (m : Model) : KeepsNames m.basedClass :=
  fun _ _ => ⟨rfl, rfl⟩

/-- Giving each class its base and the marks of its properties keeps all nesting. -/
theorem keepsNesting_typedClass (m : Model) : KeepsNesting m.typedClass where
  names _ _ := ⟨rfl, rfl⟩
  isTemplate _ _ := rfl
  isWithinTemplate _ _ := rfl
  innerClasses _ _ := rfl

/-- Linking a class keeps its names. -/
theorem keepsNames_linkedClass (m : Model) (marked : Handle → Bool) :
    KeepsNames (m.linkedClass marked) :=
  fun _ _ => ⟨rfl, rfl⟩

/-- Whether an identifier is that of an enum does not change with the classes. -/
theorem isEnumIdentifier_mapClasses (m : Model) {f : Handle → ClassType → ClassType}
    (hf : KeepsNames f) (identifier : String) :
    (m.mapClasses f).isEnumIdentifier identifier = m.isEnumIdentifier identifier := by
  rw [isEnumIdentifier, isEnumIdentifier, byIdentifier?_mapClasses m f hf]
  congr 2
  funext h
  exact enum?_mapClasses m f h

/-- The bases and the marks of the properties are given to all classes at once. -/
theorem inferEnumProperties_resolveBases (m : Model) :
    m.resolveBases.inferEnumProperties = m.mapClasses m.typedClass := by
  have hproperty : (m.mapClasses m.basedClass).linkedProperty = m.linkedProperty := by
    funext p
    rw [linkedProperty, linkedProperty]
    congr 3
    funext i
    exact isEnumIdentifier_mapClasses m m.keepsNames_basedClass i
  rw [inferEnumProperties_eq, resolveBases_eq, mapClasses_mapClasses, hproperty]
  rfl

/-- The whole effect of linking: every class is replaced by its linked form, and it counts as nested
in a template if it did before or is reached from a template. -/
theorem exists_link_eq (m : Model) :
    ∃ marked : Handle → Bool,
      (∀ h, marked h = true ↔ m.NestedIn m.templateMembers h) ∧
        m.link = m.mapClasses (m.linkedClass marked) := by
  obtain ⟨marked, hmarked, hm⟩ :=
    exists_markPending_eq_markAll (m.mapClasses m.typedClass) (templateMembers _)
  refine ⟨marked, fun h => ?_, ?_⟩
  · rw [hmarked]
    exact nestedIn_mapClasses m.keepsNesting_typedClass h
  · rw [templateMembers] at hm
    rw [link, inferEnumProperties_resolveBases, markTemplateMembers, hm, markAll,
      mapClasses_mapClasses]
    rfl

@[simp] theorem size_link (m : Model) : m.link.size = m.size := by
  obtain ⟨marked, -, hm⟩ := m.exists_link_eq
  rw [hm, size_mapClasses]

@[simp] theorem classHandles_link (m : Model) : m.link.classHandles = m.classHandles := by
  obtain ⟨marked, -, hm⟩ := m.exists_link_eq
  rw [hm, classHandles_mapClasses]

@[simp] theorem nameAt_link (m : Model) (h : Handle) : m.link.nameAt h = m.nameAt h := by
  obtain ⟨marked, -, hm⟩ := m.exists_link_eq
  rw [hm, nameAt_mapClasses m _ (m.keepsNames_linkedClass marked)]

end Registrar.Model
