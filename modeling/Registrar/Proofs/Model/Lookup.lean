/-
# Handles and look-ups

What is known of the entry at a handle: which handles are those of classes, that a look-up leads
to the first entry that answers, and that a change of the classes which keeps their identifiers and
names leaves every look-up as it was.
-/
import Registrar.Linking

namespace Registrar

namespace Declaration

/-- A type after a change of classes; enums stay. -/
def mapClass (f : ClassType → ClassType) : Declaration → Declaration
  | enumType e => enumType e
  | classType c => classType (f c)

theorem class?_eq_some_iff (d : Declaration) (c : ClassType) :
    d.class? = some c ↔ d = classType c := by
  cases d <;> simp [class?]

end Declaration

namespace Model

/-! ## Entries -/

/-- Two models with the same entries are one model. -/
theorem ext_get? (m m' : Model) (h : ∀ i, m.get? i = m'.get? i) : m = m' := by
  obtain ⟨ds⟩ := m
  obtain ⟨ds'⟩ := m'
  have hds : ds = ds' := List.ext_getElem? h
  rw [hds]

/-- Pushing types one after the other puts them behind those that are there. -/
theorem foldl_push (m : Model) (ds : List Declaration) :
    ds.foldl push m = ⟨m.declarations ++ ds⟩ := by
  induction ds generalizing m with
  | nil => simp
  | cons d ds ih =>
    rw [List.foldl_cons, ih]
    simp [push]

/-- The class at a place is the type at this place. -/
theorem get?_eq_some_of_class? {m : Model} {h : Handle} {c : ClassType}
    (hc : m.class? h = some c) : m.get? h = some (.classType c) := by
  simp only [class?, Option.bind_eq_some_iff] at hc
  obtain ⟨d, hd, hdc⟩ := hc
  rw [hd, (Declaration.class?_eq_some_iff d c).1 hdc]

/-- A class is at a place exactly if the type there is this class. -/
theorem class?_eq_some_iff (m : Model) (h : Handle) (c : ClassType) :
    m.class? h = some c ↔ m.get? h = some (.classType c) := by
  constructor
  · exact get?_eq_some_of_class?
  · intro hd
    simp [class?, hd, Declaration.class?]

/-- Where a type is found is one of the places of the model. -/
theorem lt_size_of_get? {m : Model} {h : Handle} {d : Declaration} (hd : m.get? h = some d) :
    h < m.size :=
  (List.getElem?_eq_some_iff.1 hd).1

/-- Where a class is found is one of the places of the model. -/
theorem lt_size_of_class? {m : Model} {h : Handle} {c : ClassType} (hc : m.class? h = some c) :
    h < m.size :=
  lt_size_of_get? (get?_eq_some_of_class? hc)

/-- The class handles are the handles at which there is a class. -/
theorem mem_classHandles (m : Model) (h : Handle) :
    h ∈ m.classHandles ↔ ∃ c, m.class? h = some c := by
  simp only [classHandles, List.mem_filter, List.mem_range, Option.isSome_iff_exists]
  constructor
  · rintro ⟨-, hc⟩
    exact hc
  · rintro ⟨c, hc⟩
    exact ⟨lt_size_of_class? hc, c, hc⟩

/-- The places of enums are those where an enum is found. -/
theorem mem_enumHandles (m : Model) (h : Handle) :
    h ∈ m.enumHandles ↔ ∃ e, m.enum? h = some e := by
  simp only [enumHandles, List.mem_filter, List.mem_range, Option.isSome_iff_exists]
  constructor
  · rintro ⟨-, he⟩
    exact he
  · rintro ⟨e, he⟩
    refine ⟨?_, e, he⟩
    simp only [enum?, Option.bind_eq_some_iff] at he
    obtain ⟨d, hd, -⟩ := he
    exact lt_size_of_get? hd

/-- No place of a class is listed twice. -/
theorem nodup_classHandles (m : Model) : m.classHandles.Nodup :=
  List.nodup_range.filter _

/-- No place of an enum is listed twice. -/
theorem nodup_enumHandles (m : Model) : m.enumHandles.Nodup :=
  List.nodup_range.filter _

/-- The class handles stand in ascending order. -/
theorem pairwise_lt_classHandles (m : Model) : m.classHandles.Pairwise (· < ·) :=
  List.pairwise_lt_range.filter _

/-- The name at a place is that of the type there. -/
theorem nameAt_eq_of_get? {m : Model} {h : Handle} {d : Declaration} (hd : m.get? h = some d) :
    m.nameAt h = d.qualifiedName := by
  simp [nameAt, hd]

/-- The name at the place of a class is that of the class. -/
theorem nameAt_eq_of_class? {m : Model} {h : Handle} {c : ClassType} (hc : m.class? h = some c) :
    m.nameAt h = c.qualifiedName :=
  nameAt_eq_of_get? (get?_eq_some_of_class? hc)

/-- A class of the model has a handle. -/
theorem mem_classes (m : Model) (c : ClassType) :
    c ∈ m.classes ↔ ∃ h, m.class? h = some c := by
  simp only [classes, List.mem_filterMap, class?_eq_some_iff]
  constructor
  · rintro ⟨d, hd, hdc⟩
    rw [(Declaration.class?_eq_some_iff d c).1 hdc] at hd
    exact List.mem_iff_getElem?.1 hd
  · rintro ⟨h, hc⟩
    exact ⟨_, List.mem_of_getElem? hc, rfl⟩

/-! ## Look-ups -/

/-- A search for the first type of a kind finds a type of that kind. -/
theorem get?_of_findIdx? {m : Model} {p : Declaration → Bool} {h : Handle}
    (hh : m.declarations.findIdx? p = some h) : ∃ d, m.get? h = some d ∧ p d = true := by
  rw [List.findIdx?_eq_some_iff_getElem] at hh
  obtain ⟨hlt, hp, -⟩ := hh
  exact ⟨m.declarations[h], List.getElem?_eq_getElem hlt, hp⟩

/-- Whatever a base reference leads to is a class. -/
theorem exists_class?_of_resolveBase? {m : Model} {base : BaseReference} {h : Handle}
    (hh : m.resolveBase? base = some h) : ∃ c, m.class? h = some c := by
  have hfilter : ∀ found : Option Handle, found.filter (fun h => (m.class? h).isSome) = some h →
      ∃ c, m.class? h = some c := by
    intro found hfound
    exact Option.isSome_iff_exists.1 (Option.filter_eq_some_iff.1 hfound).2
  rw [resolveBase?] at hh
  cases hid : (base.identifier?.bind m.byIdentifier?).filter fun h => (m.class? h).isSome with
  | some h' =>
    rw [hid] at hh
    exact hfilter _ (hid.trans hh)
  | none =>
    rw [hid] at hh
    exact hfilter _ hh

/-- The base of a class is a class. -/
theorem exists_class?_of_baseOf? {m : Model} {h b : Handle} {c : ClassType}
    (hb : m.baseOf? h c = some b) : ∃ c', m.class? b = some c' := by
  simp only [baseOf?, Option.filter_eq_some_iff] at hb
  exact exists_class?_of_resolveBase? hb.1

/-! ## Changes that keep the names -/

/-- A change of classes that keeps the identifiers and the names. -/
def KeepsNames (f : Handle → ClassType → ClassType) : Prop :=
  ∀ h c, (f h c).identifier = c.identifier ∧ (f h c).qualifiedName = c.qualifiedName

/-- A change of all classes changes the type at each place by itself. -/
theorem get?_mapClasses_eq_map (m : Model) (f : Handle → ClassType → ClassType) (h : Handle) :
    (m.mapClasses f).get? h = (m.get? h).map (Declaration.mapClass (f h)) := by
  rw [get?_mapClasses]
  congr 1

/-- A search that a change does not influence finds the same handle after it. -/
theorem findIdx?_mapClasses (m : Model) (f : Handle → ClassType → ClassType)
    (p : Declaration → Bool)
    (hp : ∀ h c, p (.classType (f h c)) = p (.classType c)) :
    (m.mapClasses f).declarations.findIdx? p = m.declarations.findIdx? p := by
  have hall : ∀ (ds : List Declaration) (k : Nat),
      (ds.mapIdx fun h d => Declaration.mapClass (f (h + k)) d).findIdx? p = ds.findIdx? p := by
    intro ds
    induction ds with
    | nil => intro k; rfl
    | cons d ds ih =>
      intro k
      have hd : p (Declaration.mapClass (f (0 + k)) d) = p d := by
        cases d with
        | enumType e => rfl
        | classType c => exact hp _ c
      have htail := ih (k + 1)
      rw [List.mapIdx_cons, List.findIdx?_cons, List.findIdx?_cons, hd]
      simp only [show ∀ i, i + 1 + k = i + (k + 1) from fun i => by omega]
      rw [htail]
  exact hall m.declarations 0

/-- Identifiers are found where they were after a change that keeps the names. -/
theorem byIdentifier?_mapClasses (m : Model) (f : Handle → ClassType → ClassType)
    (hf : KeepsNames f) (identifier : String) :
    (m.mapClasses f).byIdentifier? identifier = m.byIdentifier? identifier := by
  apply findIdx?_mapClasses
  intro h c
  refine decide_eq_decide.2 ?_
  rw [Declaration.identifier, Declaration.identifier, (hf h c).1]

/-- Names are found where they were after a change that keeps them. -/
theorem byName?_mapClasses (m : Model) (f : Handle → ClassType → ClassType)
    (hf : KeepsNames f) (name : String) : (m.mapClasses f).byName? name = m.byName? name := by
  rw [byName?, byName?, findIdx?_mapClasses m f, findIdx?_mapClasses m f]
  · intro h c
    refine decide_eq_decide.2 ?_
    rw [Declaration.simpleName, Declaration.simpleName, Declaration.qualifiedName,
      Declaration.qualifiedName, (hf h c).2]
  · intro h c
    refine decide_eq_decide.2 ?_
    rw [Declaration.qualifiedName, Declaration.qualifiedName, (hf h c).2]

/-- A change that keeps the names leads every base reference where it led before. -/
theorem resolveBase?_mapClasses (m : Model) (f : Handle → ClassType → ClassType)
    (hf : KeepsNames f) (base : BaseReference) :
    (m.mapClasses f).resolveBase? base = m.resolveBase? base := by
  have hidentifier : (m.mapClasses f).byIdentifier? = m.byIdentifier? :=
    funext (byIdentifier?_mapClasses m f hf)
  have hname : (m.mapClasses f).byName? = m.byName? := funext (byName?_mapClasses m f hf)
  simp only [resolveBase?, hidentifier, hname, class?_mapClasses, Option.isSome_map]

/-- Each place has its name after a change that keeps the names. -/
theorem nameAt_mapClasses (m : Model) (f : Handle → ClassType → ClassType)
    (hf : KeepsNames f) (h : Handle) : (m.mapClasses f).nameAt h = m.nameAt h := by
  rw [nameAt, nameAt, get?_mapClasses_eq_map]
  cases m.get? h with
  | none => rfl
  | some d =>
    cases d with
    | enumType e => rfl
    | classType c => exact (hf h c).2

/-- A change of classes leaves the enums. -/
theorem enum?_mapClasses (m : Model) (f : Handle → ClassType → ClassType) (h : Handle) :
    (m.mapClasses f).enum? h = m.enum? h := by
  rw [enum?, enum?, get?_mapClasses_eq_map]
  cases m.get? h with
  | none => rfl
  | some d => cases d <;> rfl

/-- Two changes of all classes one after the other are one change. -/
theorem mapClasses_mapClasses (m : Model) (f g : Handle → ClassType → ClassType) :
    (m.mapClasses f).mapClasses g = m.mapClasses fun h c => g h (f h c) := by
  apply ext_get?
  intro h
  rw [get?_mapClasses_eq_map, get?_mapClasses_eq_map, get?_mapClasses_eq_map, Option.map_map]
  congr 1
  funext d
  cases d <;> rfl

/-- Two changes that agree on the classes of a model change it alike. -/
theorem mapClasses_congr (m : Model) (f g : Handle → ClassType → ClassType)
    (hfg : ∀ h c, m.class? h = some c → f h c = g h c) : m.mapClasses f = m.mapClasses g := by
  apply ext_get?
  intro h
  rw [get?_mapClasses_eq_map, get?_mapClasses_eq_map]
  cases hd : m.get? h with
  | none => rfl
  | some d =>
    cases d with
    | enumType e => rfl
    | classType c =>
      have hc := (class?_eq_some_iff m h c).2 hd
      simp only [Option.map_some, Declaration.mapClass, hfg h c hc]

/-- A change that leaves every class as it is changes nothing. -/
theorem mapClasses_id (m : Model) : (m.mapClasses fun _ c => c) = m := by
  apply ext_get?
  intro h
  rw [get?_mapClasses_eq_map]
  cases m.get? h with
  | none => rfl
  | some d => cases d <;> rfl

end Model

end Registrar
