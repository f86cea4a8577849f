/-
# Where a base reference leads

A base reference leads to a class that answers to it, or nowhere.  But classes and enums are looked up
together, and of the types that answer to one identifier or name only the first one is looked at: if it
is an enum, the classes behind it are out of reach, and the reference may lead nowhere although a class
answers to it.
-/
import Registrar.Proofs.Model.Catalogue

namespace Registrar.Model

variable {m : Model}

/-! ## Types that answer to a reference -/

/-- The types with the identifier that a base reference gives. -/
def identifiedBy (m : Model) (base : BaseReference) : Set Handle :=
  m.handlesOf fun d => ∃ i, base.identifier? = some i ∧ d.identifier = some i

/-- The types with the name that a base reference gives as their qualified name. -/
def namedBy (m : Model) (base : BaseReference) : Set Handle :=
  m.handlesOf fun d => ∃ n, base.name? = some n ∧ d.qualifiedName = Text.trim n

/-- The types with the name that a base reference gives as their simple name. -/
def knownBy (m : Model) (base : BaseReference) : Set Handle :=
  m.handlesOf fun d => ∃ n, base.name? = some n ∧ Name.IsSimple d.qualifiedName (Text.trim n)

/-- The types that answer to a base reference. -/
def answering (m : Model) (base : BaseReference) : Set Handle :=
  m.identifiedBy base ∪ m.namedBy base ∪ m.knownBy base

theorem isFirst_none (m : Model) : IsFirst (m.handlesOf fun _ => False) none := by
  refine Set.eq_empty_iff_forall_notMem.2 fun h hh => ?_
  obtain ⟨d, -, hfalse⟩ := hh
  exact hfalse

/-- The search by identifier leads to the first type that has it. -/
theorem isFirst_identifiedBy (m : Model) (base : BaseReference) :
    IsFirst (m.identifiedBy base) (base.identifier?.bind m.byIdentifier?) := by
  rw [identifiedBy]
  cases base.identifier? with
  | none => simpa using m.isFirst_none
  | some i => simpa using m.isFirst_byIdentifier? i

/-- The search by name leads to the first type of that qualified name, or else to the first one of
that simple name. -/
theorem isFirst_namedBy (m : Model) (base : BaseReference) :
    ((m.namedBy base).Nonempty → IsFirst (m.namedBy base) (base.name?.bind m.byName?)) ∧
      (m.namedBy base = ∅ → IsFirst (m.knownBy base) (base.name?.bind m.byName?)) := by
  rw [namedBy, knownBy]
  cases base.name? with
  | none =>
    simp only [reduceCtorEq, false_and, exists_false, Option.bind_none]
    exact ⟨fun _ => m.isFirst_none, fun _ => m.isFirst_none⟩
  | some n => simpa using m.isFirst_byName? n

/-! ## The first class -/

/-- The first one of some types, if it is a class. -/
def IsFirstClass (m : Model) (handles : Set Handle) (h : Handle) : Prop :=
  IsLeast handles h ∧ ∃ c, m.class? h = some c

theorem filter_class?_eq_some_iff {handles : Set Handle} {found : Option Handle}
    (hfound : IsFirst handles found) (b : Handle) :
    found.filter (fun h => (m.class? h).isSome) = some b ↔ m.IsFirstClass handles b := by
  rw [Option.filter_eq_some_iff, hfound.eq_some_iff, Option.isSome_iff_exists]
  rfl

/-- Where the name of a reference leads, if it is to a class. -/
def IsFirstByName (m : Model) (base : BaseReference) (b : Handle) : Prop :=
  m.IsFirstClass (m.namedBy base) b ∨ m.namedBy base = ∅ ∧ m.IsFirstClass (m.knownBy base) b

theorem filter_byName?_eq_some_iff (m : Model) (base : BaseReference) (b : Handle) :
    (base.name?.bind m.byName?).filter (fun h => (m.class? h).isSome) = some b ↔
      m.IsFirstByName base b := by
  obtain ⟨hnamed, hknown⟩ := m.isFirst_namedBy base
  rw [IsFirstByName]
  -- simple names count only if no type, class or enum, has the qualified name
  rcases Set.eq_empty_or_nonempty (m.namedBy base) with hempty | hne
  · rw [filter_class?_eq_some_iff (hknown hempty)]
    constructor
    · intro hb
      exact .inr ⟨hempty, hb⟩
    · rintro (hb | ⟨-, hb⟩)
      · rw [hempty] at hb
        exact absurd hb.1.1 (Set.notMem_empty b)
      · exact hb
  · rw [filter_class?_eq_some_iff (hnamed hne)]
    constructor
    · exact .inl
    · rintro (hb | ⟨hempty, -⟩)
      · exact hb
      · exact absurd hempty hne.ne_empty

/-- The search for a base leads to the first type with the identifier if that is a class, and else to
the type that the name leads to if that one is. -/
theorem resolveBase?_eq_some_iff (m : Model) (base : BaseReference) (b : Handle) :
    m.resolveBase? base = some b ↔ m.IsFirstClass (m.identifiedBy base) b ∨
      (∀ x, ¬ m.IsFirstClass (m.identifiedBy base) x) ∧ m.IsFirstByName base b := by
  have hidentified := filter_class?_eq_some_iff (m := m) (m.isFirst_identifiedBy base)
  rw [resolveBase?, ← filter_byName?_eq_some_iff]
  simp only [← hidentified]
  cases (base.identifier?.bind m.byIdentifier?).filter fun h => (m.class? h).isSome with
  | none => simp
  | some h => simp

/-! ## References that lead somewhere -/

theorem mem_answering_of_resolveBase? {base : BaseReference} {b : Handle}
    (hb : m.resolveBase? base = some b) : b ∈ m.answering base := by
  rcases (m.resolveBase?_eq_some_iff base b).1 hb with hid | ⟨-, hname | ⟨-, hname⟩⟩
  · exact .inl (.inl hid.1.1)
  · exact .inl (.inr hname.1.1)
  · exact .inr hname.1.1

/-- If some types are all classes, then so is the first of them. -/
theorem exists_isFirstClass {handles : Set Handle} {found : Option Handle}
    (hfound : IsFirst handles found) (hne : handles.Nonempty)
    (hclass : ∀ h ∈ handles, ∃ c, m.class? h = some c) : ∃ b, m.IsFirstClass handles b := by
  cases found with
  | none => exact absurd hfound hne.ne_empty
  | some b =>
    have hleast : IsLeast handles b := hfound
    exact ⟨b, hleast, hclass b hleast.1⟩

/-- A base reference leads to a class that answers to it, or nowhere.  It leads to one if and only if the
first type with its identifier is a class, or the first one with its name: its qualified name, or its
simple name if there is none.  In particular it leads to a class if some type answers to it and no
enum does. -/
theorem resolves_iff_firstClass (m : Model) (base : BaseReference) :
    (∀ b, m.resolveBase? base = some b → b ∈ m.answering base ∧ ∃ c, m.class? b = some c) ∧
    ((∃ b, m.resolveBase? base = some b) ↔
      (∃ b, m.IsFirstClass (m.identifiedBy base) b) ∨ ∃ b, m.IsFirstByName base b) ∧
    ((m.answering base).Nonempty → (∀ h ∈ m.answering base, ∃ c, m.class? h = some c) →
      ∃ b, m.resolveBase? base = some b) := by
  have hresolves : (∃ b, m.resolveBase? base = some b) ↔
      (∃ b, m.IsFirstClass (m.identifiedBy base) b) ∨ ∃ b, m.IsFirstByName base b := by
    simp only [resolveBase?_eq_some_iff]
    constructor
    · rintro ⟨b, hb | ⟨-, hb⟩⟩
      · exact .inl ⟨b, hb⟩
      · exact .inr ⟨b, hb⟩
    · rintro (⟨b, hb⟩ | ⟨b, hb⟩)
      · exact ⟨b, .inl hb⟩
      · by_cases hid : ∃ x, m.IsFirstClass (m.identifiedBy base) x
        · obtain ⟨x, hx⟩ := hid
          exact ⟨x, .inl hx⟩
        · exact ⟨b, .inr ⟨not_exists.1 hid, hb⟩⟩
  refine ⟨fun b hb => ⟨mem_answering_of_resolveBase? hb, exists_class?_of_resolveBase? hb⟩,
    hresolves, fun hne hclass => hresolves.2 ?_⟩
  obtain ⟨hnamed, hknown⟩ := m.isFirst_namedBy base
  -- the first kind of answer that some type gives decides, and its first type is a class
  rcases Set.eq_empty_or_nonempty (m.identifiedBy base) with hid | hid
  · right
    rcases Set.eq_empty_or_nonempty (m.namedBy base) with hempty | hname
    · have hne' : (m.knownBy base).Nonempty := by simpa [answering, hid, hempty] using hne
      obtain ⟨b, hb⟩ := exists_isFirstClass (hknown hempty) hne' fun h hh => hclass h (.inr hh)
      exact ⟨b, .inr ⟨hempty, hb⟩⟩
    · obtain ⟨b, hb⟩ := exists_isFirstClass (hnamed hname) hname fun h hh => hclass h (.inl (.inr hh))
      exact ⟨b, .inl hb⟩
  · exact .inl (exists_isFirstClass (m.isFirst_identifiedBy base) hid fun h hh =>
      hclass h (.inl (.inl hh)))

/-- An enum and a class of one simple name. -/
def enumBeforeClass : Model where
  declarations :=
    [.enumType { qualifiedName := "a::Mode" }, .classType { qualifiedName := "b::Mode" }]

/-- The class answers to its simple name, but the enum before it hides it. -/
theorem not_resolves_enumBeforeClass :
    1 ∈ enumBeforeClass.answering (.byName "Mode") ∧ (∃ c, enumBeforeClass.class? 1 = some c) ∧
      enumBeforeClass.resolveBase? (.byName "Mode") = none := by
  refine ⟨.inr ⟨_, rfl, "Mode", rfl, ?_⟩, ⟨_, rfl⟩, by decide⟩
  rw [Name.isSimple_iff]
  decide

end Registrar.Model
