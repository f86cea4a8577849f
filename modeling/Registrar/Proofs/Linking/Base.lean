/-
# Linked models

What linking makes of the types that were taken in, read off the two models side by side.  Every class
has the base that its reference leads to, unless that is the class itself, and it is marked as a base if
and only if it has become the base of some other class.  A property is marked if its type is an enum.
Nothing else has changed, but for the marks of what is nested in templates.
-/
import Registrar.Proofs.Model.Catalogue

namespace Registrar.Model

/-! ## Classes from which others derive -/

/-- Whether some other class of the model has the one at a place as its base. -/
def hasDerived (m : Model) (h : Handle) : Bool :=
  m.classHandles.any fun h' =>
    decide (h' ≠ h) && (m.class? h').any fun c => c.resolvedBase = some h

theorem hasDerived_iff (m : Model) (h : Handle) :
    m.hasDerived h = true ↔
      ∃ h' c, h' ≠ h ∧ m.class? h' = some c ∧ c.resolvedBase = some h := by
  simp only [hasDerived, List.any_eq_true, Bool.and_eq_true, decide_eq_true_iff, Option.any_eq_true,
    mem_classHandles]
  constructor
  · rintro ⟨h', -, hne, c, hc, hbase⟩
    exact ⟨h', c, hne, hc, hbase⟩
  · rintro ⟨h', c, hne, hc, hbase⟩
    exact ⟨h', ⟨c, hc⟩, hne, c, hc, hbase⟩

theorem baseOf?_eq_some_iff (m : Model) (h b : Handle) (c : ClassType) :
    m.baseOf? h c = some b ↔ m.resolveBase? c.base = some b ∧ b ≠ h := by
  rw [baseOf?, Option.filter_eq_some_iff, decide_eq_true_iff]

/-- The bases in a linked model are those that were found out before. -/
theorem hasDerived_link (m : Model) (h : Handle) : m.link.hasDerived h = m.isBase h := by
  obtain ⟨marked, -, hm⟩ := m.exists_link_eq
  rw [Bool.eq_iff_iff, hasDerived_iff, isBase_iff]
  simp only [hm, class?_mapClasses, Option.map_eq_some_iff]
  constructor
  · rintro ⟨h', -, -, ⟨c, hc, rfl⟩, hbase⟩
    exact ⟨h', c, hc, hbase⟩
  · rintro ⟨h', c, hc, hbase⟩
    -- no class is its own base
    have hne : h ≠ h' := ((m.baseOf?_eq_some_iff h' h c).1 hbase).2
    exact ⟨h', _, hne.symm, ⟨c, hc, rfl⟩, hbase⟩

/-! ## Enum properties -/

/-- An identifier is that of an enum if the first type that has it is one. -/
theorem isEnumIdentifier_iff (m : Model) (identifier : String) :
    m.isEnumIdentifier identifier = true ↔
      ∃ h e, IsLeast (m.handlesOf fun d => d.identifier = some identifier) h ∧
        m.enum? h = some e := by
  have hfirst := m.isFirst_byIdentifier? identifier
  rw [isEnumIdentifier, Option.isSome_iff_exists, exists_comm]
  simp only [Option.bind_eq_some_iff, hfirst.eq_some_iff]

/-! ## Models before and after -/

/-- A property before and after linking: it is marked if it was marked, or if the first type that has the
identifier of its type is an enum. -/
structure LinksProperty (m : Model) (p q : Property) : Prop where
  isEnum : q.isEnum = true ↔ p.isEnum = true ∨
    ∃ i h e, p.typeReference = some i ∧
      IsLeast (m.handlesOf fun d => d.identifier = some i) h ∧ m.enum? h = some e
  others : q = { p with isEnum := q.isEnum }

/-- The class at a handle before linking, in the model `m`, and after it, in the model `m'`. -/
structure LinksClass (m m' : Model) (h : Handle) (c d : ClassType) : Prop where
  base : ∀ b, d.resolvedBase = some b ↔ m.resolveBase? c.base = some b ∧ b ≠ h
  named : ∀ b, d.resolvedBase = some b →
    b < m'.size ∧ ∃ x, m'.class? b = some x ∧ d.effectiveBaseName = some x.qualifiedName
  unnamed : d.resolvedBase = none → d.effectiveBaseName = c.base.name?
  derived : d.isDerivedFrom = true ↔
    ∃ h' d', h' ≠ h ∧ m'.class? h' = some d' ∧ d'.resolvedBase = some h
  properties : List.Forall₂ m.LinksProperty c.properties d.properties
  others : d = { c with
    resolvedBase := d.resolvedBase
    effectiveBaseName := d.effectiveBaseName
    isDerivedFrom := d.isDerivedFrom
    isWithinTemplate := d.isWithinTemplate
    properties := d.properties }

/-- A model before and after linking. -/
structure Links (m m' : Model) : Prop where
  size : m'.size = m.size
  bases : ∀ base, m'.resolveBase? base = m.resolveBase? base
  enums : ∀ h e, m.enum? h = some e → m'.enum? h = some e
  classes : ∀ h c, m.class? h = some c → ∃ d, m'.class? h = some d ∧ LinksClass m m' h c d

theorem linksProperty_linkedProperty (m : Model) (p : Property) :
    m.LinksProperty p (m.linkedProperty p) where
  isEnum := by
    rw [linkedProperty, Bool.or_eq_true, Option.any_eq_true]
    simp only [isEnumIdentifier_iff]
    constructor
    · rintro (hp | ⟨i, hi, h, e, hleast, he⟩)
      · exact .inl hp
      · exact .inr ⟨i, h, e, hi, hleast, he⟩
    · rintro (hp | ⟨i, h, e, hi, hleast, he⟩)
      · exact .inl hp
      · exact .inr ⟨i, hi, h, e, hleast, he⟩
  others := rfl

/-- The base of a class is a class of the linked model, by whose name it goes. -/
theorem exists_class?_link_of_baseOf? {m : Model} {h b : Handle} {c : ClassType}
    (hb : m.baseOf? h c = some b) :
    ∃ x, m.link.class? b = some x ∧ m.baseNameOf? h c = some x.qualifiedName := by
  obtain ⟨x, hx⟩ := exists_class?_of_baseOf? hb
  obtain ⟨d, hd⟩ : ∃ d, m.link.class? b = some d := by
    rw [← mem_classHandles, classHandles_link, mem_classHandles]
    exact ⟨x, hx⟩
  refine ⟨d, hd, ?_⟩
  simp only [baseNameOf?, hb]
  rw [← nameAt_eq_of_class? hd, nameAt_link]

/-- Linking relates a class in which no mark of a base is set to the class that stands in its place. -/
theorem linksClass_linkedClass (m : Model) (marked : Handle → Bool) {h : Handle} {c : ClassType}
    (hunset : c.isDerivedFrom = false) :
    LinksClass m m.link h c (m.linkedClass marked h c) where
  base b := m.baseOf?_eq_some_iff h b c
  named b hb := by
    obtain ⟨x, hx, hname⟩ := exists_class?_link_of_baseOf? hb
    exact ⟨lt_size_of_class? hx, x, hx, hname⟩
  unnamed hb := by
    replace hb : m.baseOf? h c = none := hb
    show m.baseNameOf? h c = c.base.name?
    simp only [baseNameOf?, hb]
  derived := by
    rw [← hasDerived_iff, hasDerived_link]
    show (c.isDerivedFrom || m.isBase h) = true ↔ _
    rw [hunset, Bool.false_or]
  properties := by
    show List.Forall₂ _ c.properties (c.properties.map m.linkedProperty)
    rw [List.forall₂_map_right_iff, List.forall₂_same]
    exact fun p _ => m.linksProperty_linkedProperty p
  others := rfl

/-- Linking a model in which no mark of a base is set. -/
theorem links_link (m : Model) (hunset : ∀ c ∈ m.classes, c.isDerivedFrom = false) :
    Links m m.link := by
  obtain ⟨marked, -, hlink⟩ := m.exists_link_eq
  refine ⟨m.size_link, fun base => ?_, fun h e he => ?_, fun h c hc => ?_⟩
  · rw [hlink]
    exact resolveBase?_mapClasses m _ (m.keepsNames_linkedClass marked) base
  · rw [hlink, enum?_mapClasses]
    exact he
  · have hmem : c ∈ m.classes := (m.mem_classes c).2 ⟨h, hc⟩
    refine ⟨m.linkedClass marked h c, ?_, m.linksClass_linkedClass marked (hunset c hmem)⟩
    rw [hlink, class?_mapClasses, hc, Option.map_some]

/-- Whatever types are taken in, linking gives every class its base, marks the bases and the properties of
enum types, and leaves everything else as it is. -/
theorem links_of_pushed_types (ds : List Declaration)
    (hunset : ∀ c, .classType c ∈ ds → c.isDerivedFrom = false) :
    let m := ds.foldl push {}
    m.declarations = ds ∧ Links m m.link := by
  intro m
  have hm : m.declarations = ds := by
    rw [show m = _ from foldl_push {} ds]
    exact List.nil_append ds
  refine ⟨hm, m.links_link fun c hc => hunset c ?_⟩
  obtain ⟨h, hc⟩ := (m.mem_classes c).1 hc
  rw [← hm]
  exact List.mem_of_getElem? (get?_eq_some_of_class? hc)

/-- A class that names itself as its base and from which two others derive, and a property of an enum
type whose identifier a class has as well. -/
def derivedTypes : List Declaration :=
  [.classType { identifier := some "base", qualifiedName := "n::Base", base := .byName "Base" },
    .enumType { identifier := some "mode", qualifiedName := "n::Mode" },
    .classType { identifier := some "mode", qualifiedName := "n::Light",
                 base := .byIdentifier "base" (some "n::Decoy"),
                 properties := [{ name := "mode", typeReference := some "mode" }] },
    .classType { qualifiedName := "n::Sound", base := .byName " n::Base " }]

theorem links_derivedTypes :
    (∀ c, .classType c ∈ derivedTypes → c.isDerivedFrom = false) ∧
      let m := derivedTypes.foldl push {}
      m.declarations = derivedTypes ∧ Links m m.link := by
  have hunset : ∀ c, .classType c ∈ derivedTypes → c.isDerivedFrom = false := by
    simp [derivedTypes]
  exact ⟨hunset, links_of_pushed_types derivedTypes hunset⟩

end Registrar.Model
