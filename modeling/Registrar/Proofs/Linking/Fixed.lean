/-
# Models that linking leaves as they are

Linking writes the bases anew and sets marks, and it never takes a mark away.  So it leaves a model as it
is if and only if every class has its base and every mark that linking would set.  A linked model is of
that kind, whatever was filled in before: what linking goes by are the names, the references and the
lists of inner classes, and it changes none of these.
-/
import Mathlib.Tactic.MkIffOfInductiveProp
import Registrar.Proofs.Linking.Effect

namespace Registrar.Model

/-! ## What linking goes by -/

/-- A change that keeps everything that linking goes by. -/
structure KeepsReferences (f : Handle → ClassType → ClassType) : Prop extends KeepsMembers f where
  base : ∀ h c, (f h c).base = c.base

section

variable {m : Model} {f : Handle → ClassType → ClassType}

theorem baseOf?_mapClasses (hf : KeepsNames f) (h : Handle) (c : ClassType) :
    (m.mapClasses f).baseOf? h c = m.baseOf? h c := by
  rw [baseOf?, baseOf?, resolveBase?_mapClasses m f hf]

theorem baseNameOf?_mapClasses (hf : KeepsNames f) (h : Handle) (c : ClassType) :
    (m.mapClasses f).baseNameOf? h c = m.baseNameOf? h c := by
  rw [baseNameOf?, baseNameOf?, baseOf?_mapClasses hf]
  cases m.baseOf? h c with
  | none => rfl
  | some b => exact congrArg some (nameAt_mapClasses m f hf b)

theorem isBase_mapClasses (hf : KeepsReferences f) (b : Handle) :
    (m.mapClasses f).isBase b = m.isBase b := by
  have hbase : ∀ h c, (m.mapClasses f).baseOf? h (f h c) = m.baseOf? h c := by
    intro h c
    rw [baseOf?_mapClasses hf.names, baseOf?, baseOf?, hf.base]
  rw [Bool.eq_iff_iff, isBase_iff, isBase_iff]
  simp only [class?_mapClasses, Option.map_eq_some_iff]
  constructor
  · rintro ⟨h, -, ⟨c, hc, rfl⟩, hb⟩
    exact ⟨h, c, hc, (hbase h c).symm.trans hb⟩
  · rintro ⟨h, c, hc, hb⟩
    exact ⟨h, _, ⟨c, hc, rfl⟩, (hbase h c).trans hb⟩

end

/-! ## Linked classes -/

/-- A class that linking leaves as it is: it has its base, and no mark is to be set. -/
@[mk_iff]
structure IsLinkedClass (m : Model) (h : Handle) (c : ClassType) : Prop where
  resolvedBase : c.resolvedBase = m.baseOf? h c
  effectiveBaseName : c.effectiveBaseName = m.baseNameOf? h c
  isDerivedFrom : m.isBase h = true → c.isDerivedFrom = true
  isEnum : ∀ p ∈ c.properties, p.typeReference.any m.isEnumIdentifier = true → p.isEnum = true
  isWithinTemplate : h ∈ m.templateMembers → c.isWithinTemplate = true

/-- A model of which every class is linked. -/
def IsLinked (m : Model) : Prop :=
  ∀ h c, m.class? h = some c → m.IsLinkedClass h c

/-- Whether a class is linked depends only on what linking goes by. -/
theorem isLinkedClass_mapClasses {m : Model} {f : Handle → ClassType → ClassType}
    (hf : KeepsReferences f) (h : Handle) (c : ClassType) :
    (m.mapClasses f).IsLinkedClass h c ↔ m.IsLinkedClass h c := by
  have hbase := baseOf?_mapClasses (m := m) hf.names h c
  have hname := baseNameOf?_mapClasses (m := m) hf.names h c
  have hderived := isBase_mapClasses (m := m) hf h
  have henum : (m.mapClasses f).isEnumIdentifier = m.isEnumIdentifier :=
    funext (isEnumIdentifier_mapClasses m hf.names)
  have hmember := templateMembers_mapClasses (m := m) hf.toKeepsMembers h
  rw [isLinkedClass_iff, isLinkedClass_iff, hbase, hname, hderived, henum, hmember]

/-! ## Linking a linked model -/

/-- A property with the mark that it should have stays. -/
theorem linkedProperty_eq_self {m : Model} {p : Property}
    (hp : p.typeReference.any m.isEnumIdentifier = true → p.isEnum = true) :
    m.linkedProperty p = p := by
  have hmark : (p.isEnum || p.typeReference.any m.isEnumIdentifier) = p.isEnum := by
    cases hany : p.typeReference.any m.isEnumIdentifier with
    | false => exact Bool.or_false _
    | true => rw [hp hany, Bool.or_true]
  rw [linkedProperty, hmark]

/-- Once all members of templates are marked, the marking finds nothing to go on from. -/
theorem not_nestedIn_templateMembers {m : Model} (hm : m.IsLinked) (h : Handle) :
    ¬ m.NestedIn m.templateMembers h := by
  intro hn
  induction hn with
  | @start h c hmem hc hw =>
    rw [(hm h c hc).isWithinTemplate hmem] at hw
    exact Bool.false_ne_true hw.symm
  | inner _ _ _ _ _ ih => exact ih

theorem link_eq_self {m : Model} (hm : m.IsLinked) : m.link = m := by
  obtain ⟨marked, hmarked, hlink⟩ := m.exists_link_eq
  have hnone : ∀ h, marked h = false := fun h =>
    Bool.eq_false_iff.2 fun hh => not_nestedIn_templateMembers hm h ((hmarked h).1 hh)
  have hclass : m.mapClasses (m.linkedClass marked) = m.mapClasses fun _ c => c := by
    apply mapClasses_congr
    intro h c hc
    have hlinked := hm h c hc
    have hderived : (c.isDerivedFrom || m.isBase h) = c.isDerivedFrom := by
      cases hb : m.isBase h with
      | false => exact Bool.or_false _
      | true => rw [hlinked.isDerivedFrom hb, Bool.or_true]
    have hproperties : c.properties.map m.linkedProperty = c.properties :=
      (List.map_congr_left fun p hp => linkedProperty_eq_self (hlinked.isEnum p hp)).trans
        (List.map_id _)
    rw [linkedClass, typedClass, basedClass, hproperties, hderived, hnone h, Bool.or_false,
      ← hlinked.resolvedBase, ← hlinked.effectiveBaseName]
  rw [hlink, hclass, mapClasses_id]

theorem keepsReferences_linkedClass (m : Model) (marked : Handle → Bool) :
    KeepsReferences (m.linkedClass marked) where
  names := m.keepsNames_linkedClass marked
  isTemplate _ _ := rfl
  innerClasses _ _ := rfl
  base _ _ := rfl

/-- Linking leaves linked classes behind, whatever was filled in before. -/
theorem isLinked_link (m : Model) : m.link.IsLinked := by
  obtain ⟨marked, hmarked, hlink⟩ := m.exists_link_eq
  intro h d hd
  rw [hlink, class?_mapClasses, Option.map_eq_some_iff] at hd
  obtain ⟨c, hc, rfl⟩ := hd
  rw [hlink, isLinkedClass_mapClasses (m.keepsReferences_linkedClass marked)]
  refine ⟨rfl, rfl, fun hb => ?_, fun p hp hany => ?_, fun hmem => ?_⟩
  · show (c.isDerivedFrom || m.isBase h) = true
    rw [hb, Bool.or_true]
  · obtain ⟨q, -, rfl⟩ := List.mem_map.1 (show p ∈ c.properties.map m.linkedProperty from hp)
    show (q.isEnum || q.typeReference.any m.isEnumIdentifier) = true
    rw [show q.typeReference.any m.isEnumIdentifier = true from hany, Bool.or_true]
  · show (c.isWithinTemplate || marked h) = true
    -- a member of a template that was not marked before is where the marking starts
    cases hw : c.isWithinTemplate with
    | true => rfl
    | false => rw [(hmarked h).2 (.start hmem hc hw), Bool.or_true]

/-- Linking leaves exactly the linked models as they are. -/
theorem link_eq_self_iff (m : Model) : m.link = m ↔ m.IsLinked := by
  constructor
  · intro hm
    rw [← hm]
    exact m.isLinked_link
  · exact link_eq_self

end Registrar.Model
