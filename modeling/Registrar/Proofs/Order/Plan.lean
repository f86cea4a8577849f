/-
# Plans of renumbered models

Linked and classified, the same types in another order differ only by their handles.  A plan lists
types in the order of their names, which are distinct, so the two plans are alike up to the handles.
-/
import Registrar.Plan
import Registrar.Proofs.Order.Renumbering

namespace Registrar

/-! ## What is left of a type without handles -/

/-- A class without the handle of its base. -/
def ClassType.withoutBase (c : ClassType) : ClassType :=
  { c with resolvedBase := none }

/-- A type without the handle of its base. -/
def Declaration.withoutBase : Declaration → Declaration :=
  Declaration.mapClass ClassType.withoutBase

/-- A renumbering of handles in a plan. -/
def Plan.renumber (σ : Equiv.Perm Handle) (p : Plan) : Plan :=
  { enums := p.enums.map σ
    classes := p.classes.map σ
    components := p.components.map σ
    systems := p.systems.map σ
    scenes := p.scenes.map σ }

namespace Model

/-- Two models that have the same types under a renumbering, apart from the handles of bases. -/
def Agrees (σ : Equiv.Perm Handle) (m m' : Model) : Prop :=
  ∀ h, (m'.get? (σ h)).map Declaration.withoutBase = (m.get? h).map Declaration.withoutBase

/-- No two types share a qualified name. -/
def HasDistinctNames (m : Model) : Prop :=
  ∀ a < m.size, ∀ b < m.size, m.nameAt a = m.nameAt b → a = b

/-- Linked and classified, a renumbered model agrees with the model. -/
theorem agrees_link_withRoles {σ : Equiv.Perm Handle} {m m' : Model} (hσ : Renumbers σ m m')
    (hd : m.IsDistinct) {role role' : Handle → Role}
    (hrole : ∀ h c, m.class? h = some c → role' (σ h) = role h) :
    Agrees σ (m.link.withRoles role) (m'.link.withRoles role') := by
  obtain ⟨marked, hmarked, hm⟩ := m.exists_link_eq
  obtain ⟨marked', hmarked', hm'⟩ := m'.exists_link_eq
  -- every field that linking fills in goes by names, by identifiers, or by what is nested where
  have hmark : ∀ h, marked' (σ h) = marked h := by
    intro h
    rw [Bool.eq_iff_iff, hmarked, hmarked']
    exact nestedIn_renumbers hσ hd h
  have hproperty : m'.linkedProperty = m.linkedProperty := by
    funext p
    rw [linkedProperty, linkedProperty]
    congr 3
    funext i
    exact isEnumIdentifier_renumbers hσ hd i
  intro h
  rw [hm, hm', withRoles, withRoles, mapClasses_mapClasses, mapClasses_mapClasses,
    get?_mapClasses_eq_map, get?_mapClasses_eq_map, hσ h]
  cases hg : m.get? h with
  | none => rfl
  | some d =>
    cases d with
    | enumType e => rfl
    | classType c =>
      have hc := (class?_eq_some_iff m h c).2 hg
      simp only [Option.map_some, Declaration.withoutBase, Declaration.mapClass,
        ClassType.withoutBase, linkedClass, typedClass, basedClass, hmark, hproperty,
        baseNameOf?_renumbers hσ hd, isBase_renumbers hσ hd, hrole h c hc]

section

variable {σ : Equiv.Perm Handle} {m m' : Model}

/-- Whatever does not look at the handle of the base is the same under both numbers. -/
theorem bind_agrees {α : Type} (hA : Agrees σ m m') {f : Declaration → Option α}
    (hf : ∀ d : Declaration, f d.withoutBase = f d) (h : Handle) :
    (m'.get? (σ h)).bind f = (m.get? h).bind f := by
  have hmap : ∀ o : Option Declaration,
      o.bind f = (o.map Declaration.withoutBase).bind f := by
    intro o
    cases o with
    | none => rfl
    | some d => exact (hf d).symm
  rw [hmap, hA h, ← hmap]

theorem enum?_agrees (hA : Agrees σ m m') (h : Handle) : m'.enum? (σ h) = m.enum? h := by
  apply bind_agrees hA
  intro d
  cases d <;> rfl

/-- The class at a handle stands at the new handle, apart from the handle of its base. -/
theorem class?_agrees (hA : Agrees σ m m') (h : Handle) :
    (m'.class? (σ h)).map ClassType.withoutBase = (m.class? h).map ClassType.withoutBase := by
  rw [class?, class?, Option.map_bind, Option.map_bind]
  apply bind_agrees hA
  intro d
  cases d <;> rfl

/-- The header of a type is as before. -/
theorem header_agrees (hA : Agrees σ m m') (h : Handle) :
    (m'.get? (σ h)).bind Declaration.header = (m.get? h).bind Declaration.header := by
  apply bind_agrees hA
  intro d
  cases d <;> rfl

theorem nameAt_agrees (hA : Agrees σ m m') (h : Handle) : m'.nameAt (σ h) = m.nameAt h := by
  have hname : (m'.get? (σ h)).map Declaration.qualifiedName =
      (m.get? h).map Declaration.qualifiedName := by
    rw [Option.map_eq_bind, Option.map_eq_bind]
    apply bind_agrees hA
    intro d
    cases d <;> rfl
  rw [nameAt, nameAt, hname]

/-- A property of classes that does not look at the handle of the base holds under both numbers. -/
theorem any_class?_agrees (hA : Agrees σ m m') {p : ClassType → Bool}
    (hp : ∀ c : ClassType, p c.withoutBase = p c) (h : Handle) :
    (m'.class? (σ h)).any p = (m.class? h).any p := by
  have hmap : ∀ o : Option ClassType, o.any p = (o.map ClassType.withoutBase).any p := by
    intro o
    cases o with
    | none => rfl
    | some c => exact (hp c).symm
  rw [hmap, class?_agrees hA h, ← hmap]

end

end Model

namespace Plan

open Model

section

variable {σ : Equiv.Perm Handle} {m m' : Model}

/-- Two lists of handles without repetition, of which one holds what the other one holds renumbered,
are renumbered permutations. -/
theorem perm_map_of_mem_iff {hs hs' : List Handle} (hn : hs.Nodup) (hn' : hs'.Nodup)
    (hmem : ∀ h, σ h ∈ hs' ↔ h ∈ hs) : hs'.Perm (hs.map σ) := by
  rw [List.perm_ext_iff_of_nodup hn' (hn.map σ.injective)]
  intro x
  rw [List.mem_map]
  constructor
  · intro hx
    refine ⟨σ.symm x, ?_, Equiv.apply_symm_apply σ x⟩
    rw [← hmem, Equiv.apply_symm_apply]
    exact hx
  · rintro ⟨h, hh, rfl⟩
    exact (hmem h).2 hh

theorem nameAt_le_trans (m : Model) (a b c : Handle)
    (hab : decide (m.nameAt a ≤ m.nameAt b) = true)
    (hbc : decide (m.nameAt b ≤ m.nameAt c) = true) :
    decide (m.nameAt a ≤ m.nameAt c) = true := by
  rw [decide_eq_true_eq] at hab hbc ⊢
  exact String.le_trans hab hbc

theorem nameAt_le_total (m : Model) (a b : Handle) :
    (decide (m.nameAt a ≤ m.nameAt b) || decide (m.nameAt b ≤ m.nameAt a)) = true := by
  rw [Bool.or_eq_true, decide_eq_true_eq, decide_eq_true_eq]
  exact String.le_total _ _

/-- Handles sorted by names of which no two are alike stand in one order only. -/
theorem sorted_agrees (hA : Agrees σ m m') {hs hs' : List Handle} (hp : hs'.Perm (hs.map σ))
    (hnames : ∀ a ∈ hs, ∀ b ∈ hs, m.nameAt a = m.nameAt b → a = b) :
    sorted m' hs' = (sorted m hs).map σ := by
  have hsorted := List.pairwise_mergeSort (nameAt_le_trans m) (nameAt_le_total m) hs
  have hsorted' := List.pairwise_mergeSort (nameAt_le_trans m') (nameAt_le_total m') hs'
  -- both lists are in order and hold the same classes, and no two of these have the same name
  refine List.Perm.eq_of_pairwise ?_ hsorted' ?_ ?_
  · intro a b ha hb hab hba
    rw [List.mem_map] at hb
    obtain ⟨y, hy, rfl⟩ := hb
    have ha' : a ∈ hs.map σ := (hp.mem_iff).1 ((List.mergeSort_perm _ _).mem_iff.1 ha)
    rw [List.mem_map] at ha'
    obtain ⟨x, hx, rfl⟩ := ha'
    rw [decide_eq_true_eq, nameAt_agrees hA, nameAt_agrees hA] at hab hba
    rw [hnames x hx y ((List.mergeSort_perm _ _).mem_iff.1 hy) (String.le_antisymm hab hba)]
  · rw [List.pairwise_map]
    refine hsorted.imp fun {a b} hab => ?_
    rw [nameAt_agrees hA, nameAt_agrees hA]
    exact hab
  · exact (List.mergeSort_perm _ _).trans (hp.trans ((List.mergeSort_perm _ _).map σ).symm)

/-- The classes of a list are those that can be registered and are picked for it. -/
theorem mem_registrable (m : Model) (s : Settings) (p : ClassType → Bool) (h : Handle) :
    h ∈ registrable m s p ↔ ((m.class? h).any fun c => c.isRegistrable s && p c) = true := by
  rw [registrable, List.mem_filter, mem_classHandles]
  constructor
  · rintro ⟨-, hh⟩
    exact hh
  · intro hh
    have hany := hh
    rw [Option.any_eq_true] at hany
    obtain ⟨c, hc, -⟩ := hany
    exact ⟨⟨c, hc⟩, hh⟩

/-- No class is listed twice. -/
theorem nodup_registrable (m : Model) (s : Settings) (p : ClassType → Bool) :
    (registrable m s p).Nodup :=
  m.nodup_classHandles.filter _

/-- The registrable classes with a property that does not look at the handle of the base, in the
order of their names. -/
theorem sorted_registrable_agrees (hA : Agrees σ m m') (hn : m.HasDistinctNames) (s : Settings)
    {p : ClassType → Bool} (hp : ∀ c : ClassType, p c.withoutBase = p c) :
    sorted m' (registrable m' s p) = (sorted m (registrable m s p)).map σ := by
  refine sorted_agrees hA (perm_map_of_mem_iff (nodup_registrable m s p)
    (nodup_registrable m' s p) fun h => ?_) ?_
  · rw [mem_registrable, mem_registrable, any_class?_agrees hA]
    intro c
    show (c.isRegistrable s && p c.withoutBase) = (c.isRegistrable s && p c)
    rw [hp c]
  · have hlt : ∀ h ∈ registrable m s p, h < m.size := by
      intro h hh
      obtain ⟨c, hc⟩ := (mem_classHandles m h).1 (List.mem_filter.1 hh).1
      exact lt_size_of_class? hc
    exact fun a ha b hb => hn a (hlt a ha) b (hlt b hb)

/-- The plan of a model that agrees with another one is the plan of that one, renumbered. -/
theorem ofModel_agrees (hA : Agrees σ m m') (hn : m.HasDistinctNames) (s : Settings) :
    ofModel m' s = (ofModel m s).renumber σ := by
  have henums : sorted m' m'.enumHandles = (sorted m m.enumHandles).map σ := by
    refine sorted_agrees hA (perm_map_of_mem_iff m.nodup_enumHandles m'.nodup_enumHandles
      fun h => ?_) ?_
    · rw [mem_enumHandles, mem_enumHandles, enum?_agrees hA]
    · have hlt : ∀ h ∈ m.enumHandles, h < m.size := fun h hh =>
        List.mem_range.1 (List.mem_filter.1 hh).1
      exact fun a ha b hb => hn a (hlt a ha) b (hlt b hb)
  have hclasses := fun (p : ClassType → Bool) hp =>
    sorted_registrable_agrees (p := p) hA hn s hp
  rw [ofModel, henums, hclasses _ fun _ => rfl, hclasses _ fun _ => rfl, hclasses _ fun _ => rfl,
    hclasses _ fun _ => rfl]
  rfl

end

end Plan

end Registrar
