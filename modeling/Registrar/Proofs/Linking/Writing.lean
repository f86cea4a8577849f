/-
# What is written while classes are linked

The bases of all classes are found out first and then written one after the other, and so are the
properties whose type is an enum.  Each write changes one class, or two, by their handles.  What a class
holds in the end is what was found out about it, and whether it is the base of any other one, no matter
in which order the writes come.
-/
import Mathlib.Data.List.Basic
import Registrar.Proofs.Model.Lookup

namespace Registrar.Model

/-- Changes of all classes one after the other are one change, which treats every class on its own. -/
theorem foldl_mapClasses {α : Type} (f : α → Handle → ClassType → ClassType) (ws : List α)
    (m : Model) :
    (ws.foldl (fun m w => m.mapClasses (f w)) m) =
      m.mapClasses fun h c => ws.foldl (fun c w => f w h c) c := by
  induction ws generalizing m with
  | nil => exact m.mapClasses_id.symm
  | cons w ws ih =>
    rw [List.foldl_cons, ih, mapClasses_mapClasses]
    rfl

/-! ## Bases -/

/-- Whether some class has the one at a place as its base. -/
def isBase (m : Model) (h : Handle) : Bool :=
  m.classHandles.any fun h' => (m.class? h').any fun c => m.baseOf? h' c = some h

theorem isBase_iff (m : Model) (b : Handle) :
    m.isBase b = true ↔ ∃ h c, m.class? h = some c ∧ m.baseOf? h c = some b := by
  simp only [isBase, List.any_eq_true, mem_classHandles, Option.any_eq_true, decide_eq_true_eq]
  constructor
  · rintro ⟨h, -, c, hc, hb⟩
    exact ⟨h, c, hc, hb⟩
  · rintro ⟨h, c, hc, hb⟩
    exact ⟨h, ⟨c, hc⟩, c, hc, hb⟩

/-- The name of the base of a class: that of the class it leads to, or the one that is written. -/
def baseNameOf? (m : Model) (h : Handle) (c : ClassType) : Option String :=
  match m.baseOf? h c with
  | some b => some (m.nameAt b)
  | none => c.base.name?

/-- A class with its base. -/
def basedClass (m : Model) (h : Handle) (c : ClassType) : ClassType :=
  { c with
    resolvedBase := m.baseOf? h c
    effectiveBaseName := m.baseNameOf? h c
    isDerivedFrom := c.isDerivedFrom || m.isBase h }

/-- The class at a place after a base has been written. -/
def BaseLink.write (l : BaseLink) (h : Handle) (c : ClassType) : ClassType :=
  { c with
    resolvedBase := if h = l.handle then l.base else c.resolvedBase
    effectiveBaseName := if h = l.handle then l.name else c.effectiveBaseName
    isDerivedFrom := c.isDerivedFrom || decide (l.base = some h) }

/-- Writing a base changes the class that has it and the base itself, and nothing else. -/
theorem writeBaseLink_eq (m : Model) (l : BaseLink) :
    m.writeBaseLink l = m.mapClasses l.write := by
  cases hb : l.base with
  | none =>
    rw [writeBaseLink, hb]
    apply mapClasses_congr
    intro h c _
    by_cases hh : h = l.handle
    · simp [BaseLink.write, hh, hb]
    · simp [BaseLink.write, hh, hb]
  | some b =>
    -- the two writes go to different fields, so it does not matter whether they meet in one class
    rw [writeBaseLink, hb]
    show (m.modifyClass _ _).modifyClass _ _ = _
    rw [modifyClass, modifyClass, mapClasses_mapClasses]
    apply mapClasses_congr
    intro h c _
    by_cases hh : h = l.handle
    · by_cases hbase : h = b
      · simp [BaseLink.write, ← hh, ← hbase, hb]
      · simp [BaseLink.write, ← hh, hbase, Ne.symm hbase, hb]
    · by_cases hbase : h = b
      · simp [BaseLink.write, hh, ← hbase, hb]
      · simp [BaseLink.write, hh, hbase, Ne.symm hbase, hb]

/-- Bases of other classes leave a class as it is, but for the mark of a base. -/
theorem foldl_write_of_notMem {ls : List BaseLink} {h : Handle}
    (hls : h ∉ ls.map BaseLink.handle) (c : ClassType) :
    ls.foldl (fun c l => l.write h c) c =
      { c with isDerivedFrom := c.isDerivedFrom || ls.any fun l => l.base = some h } := by
  induction ls generalizing c with
  | nil => simp
  | cons l ls ih =>
    rw [List.map_cons, List.mem_cons, not_or] at hls
    rw [List.foldl_cons, ih hls.2]
    simp [BaseLink.write, hls.1, Bool.or_assoc]

/-- If every class has one base at most, then a class gets its own one, whatever else is written. -/
theorem foldl_write_of_mem {ls : List BaseLink} (hnodup : (ls.map BaseLink.handle).Nodup)
    {l : BaseLink} (hl : l ∈ ls) (c : ClassType) :
    ls.foldl (fun c k => k.write l.handle c) c =
      { c with
        resolvedBase := l.base
        effectiveBaseName := l.name
        isDerivedFrom := c.isDerivedFrom || ls.any fun k => k.base = some l.handle } := by
  induction ls generalizing c with
  | nil => simp at hl
  | cons k ls ih =>
    rw [List.map_cons, List.nodup_cons] at hnodup
    rw [List.foldl_cons]
    rcases List.mem_cons.1 hl with rfl | hl'
    · -- no other base is written into this class
      rw [foldl_write_of_notMem hnodup.1]
      simp [BaseLink.write, Bool.or_assoc]
    · rw [ih hnodup.2 hl']
      simp [BaseLink.write, Bool.or_assoc]

theorem map_handle_baseLinks (m : Model) :
    m.baseLinks.map BaseLink.handle = m.classHandles := by
  have hall : ∀ h ∈ m.classHandles,
      ((m.class? h).map (m.baseLink h)).map BaseLink.handle = some h := by
    intro h hh
    obtain ⟨c, hc⟩ := (mem_classHandles m h).1 hh
    rw [hc]
    rfl
  rw [baseLinks, List.map_filterMap, List.filterMap_congr hall, List.filterMap_some]

theorem any_baseLinks (m : Model) (h : Handle) :
    (m.baseLinks.any fun l => l.base = some h) = m.isBase h := by
  rw [baseLinks, List.any_filterMap, isBase]
  congr 1
  funext x
  cases m.class? x with
  | none => rfl
  | some c => rfl

/-- In the end every class has its base, and the bases of others are marked. -/
theorem resolveBases_eq (m : Model) : m.resolveBases = m.mapClasses m.basedClass := by
  have hnodup : (m.baseLinks.map BaseLink.handle).Nodup := by
    rw [map_handle_baseLinks]
    exact m.nodup_classHandles
  have hwrite : writeBaseLink = fun m l => m.mapClasses (BaseLink.write l) := by
    funext m l
    exact m.writeBaseLink_eq l
  -- each write changes the classes one by one, so the writes can be followed on a single class
  rw [resolveBases, hwrite, foldl_mapClasses]
  apply mapClasses_congr
  intro h c hc
  have hmem : m.baseLink h c ∈ m.baseLinks := by
    rw [baseLinks, List.mem_filterMap]
    exact ⟨h, (mem_classHandles m h).2 ⟨c, hc⟩, by rw [hc, Option.map_some]⟩
  have hfold := foldl_write_of_mem hnodup hmem c
  rw [show (m.baseLink h c).handle = h from rfl, any_baseLinks] at hfold
  rw [hfold, basedClass, baseNameOf?, baseLink]
  cases hb : m.baseOf? h c with
  | none => rfl
  | some b =>
    obtain ⟨c', hc'⟩ := exists_class?_of_baseOf? hb
    have hd := get?_eq_some_of_class? hc'
    simp only [hd, nameAt_eq_of_get? hd, Option.map_some]

/-! ## Enum properties -/

/-- A property with the mark of an enum if its type is one. -/
def linkedProperty (m : Model) (p : Property) : Property :=
  { p with isEnum := p.isEnum || p.typeReference.any m.isEnumIdentifier }

/-- The class at a handle after the property at a place has been marked. -/
def markedAt (place : Handle × Nat) (h : Handle) (c : ClassType) : ClassType :=
  if h = place.1 then
    { c with properties := c.properties.modify place.2 fun p => { p with isEnum := true } }
  else c

/-- Marking some properties of a class marks those and no others. -/
theorem foldl_markedAt (places : List (Handle × Nat)) (h : Handle) (c : ClassType) :
    places.foldl (fun c place => markedAt place h c) c =
      { c with
        properties := c.properties.mapIdx fun i p =>
          { p with isEnum := p.isEnum || decide ((h, i) ∈ places) } } := by
  induction places generalizing c with
  | nil =>
    have hsame : (c.properties.mapIdx fun i p =>
        { p with isEnum := p.isEnum || decide ((h, i) ∈ ([] : List (Handle × Nat))) }) =
        c.properties := by
      apply List.ext_getElem?
      intro i
      simp
    rw [List.foldl_nil, hsame]
  | cons place places ih =>
    obtain ⟨x, k⟩ := place
    rw [List.foldl_cons, ih]
    by_cases hx : h = x
    · subst hx
      rw [markedAt, if_pos rfl]
      congr 1
      apply List.ext_getElem?
      intro i
      rw [List.getElem?_mapIdx, List.getElem?_mapIdx, List.getElem?_modify, Option.map_eq_map,
        Option.map_map]
      congr 1
      funext p
      by_cases hi : k = i
      · simp [hi]
      · simp [hi, Ne.symm hi]
    · rw [markedAt, if_neg hx]
      simp [hx]

theorem mem_enumPlaces (m : Model) (h : Handle) (i : Nat) :
    (h, i) ∈ m.enumPlaces ↔ ∃ c p, m.class? h = some c ∧ c.properties[i]? = some p ∧
      p.typeReference.any m.isEnumIdentifier = true ∧ p.isEnum = false := by
  simp only [enumPlaces, enumIndices, List.mem_flatMap, mem_classHandles, Option.mem_toList,
    List.mem_map, List.mem_filter, Prod.exists, List.mk_mem_zipIdx_iff_getElem?, Prod.mk.injEq,
    Bool.and_eq_true, Bool.not_eq_true']
  constructor
  · rintro ⟨x, -, k, ⟨c, hc, p, k', ⟨hp, htype, hmark⟩, rfl⟩, rfl, rfl⟩
    exact ⟨c, p, hc, hp, htype, hmark⟩
  · rintro ⟨c, p, hc, hp, htype, hmark⟩
    exact ⟨h, ⟨c, hc⟩, i, ⟨c, hc, p, i, ⟨hp, htype, hmark⟩, rfl⟩, rfl, rfl⟩

/-- In the end every property whose type is an enum is marked. -/
theorem inferEnumProperties_eq (m : Model) :
    m.inferEnumProperties = m.mapClasses fun _ c =>
      { c with properties := c.properties.map m.linkedProperty } := by
  have hmark : markEnumProperty = fun m place => m.mapClasses (markedAt place) := rfl
  -- the marks are followed on a single class, and then on a single property of it
  rw [inferEnumProperties, hmark, foldl_mapClasses]
  apply mapClasses_congr
  intro h c hc
  rw [foldl_markedAt]
  congr 1
  apply List.ext_getElem?
  intro i
  rw [List.getElem?_mapIdx, List.getElem?_map]
  cases hp : c.properties[i]? with
  | none => rfl
  | some p =>
    have hmem : (h, i) ∈ m.enumPlaces ↔
        p.typeReference.any m.isEnumIdentifier = true ∧ p.isEnum = false := by
      rw [mem_enumPlaces]
      constructor
      · rintro ⟨c', p', hc', hp', hmarked⟩
        obtain rfl := Option.some.inj (hc.symm.trans hc')
        obtain rfl := Option.some.inj (hp.symm.trans hp')
        exact hmarked
      · intro hmarked
        exact ⟨c, p, hc, hp, hmarked⟩
    simp only [Option.map_some, linkedProperty, hmem]
    cases p.isEnum <;> simp

end Registrar.Model
