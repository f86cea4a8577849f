/-
# Linking

References between types become handles: the base of every class, the classes that others derive
from, the properties whose type is an enum, and the classes that are nested in templates.
-/
import Registrar.Model.Basic

namespace Registrar.Model

/-! ## Bases -/

/-- The class that a base reference leads to: by its identifier, or else by its name.  A type
that is no class does not count. -/
def resolveBase? (m : Model) (base : BaseReference) : Option Handle :=
  let ofClass (h : Handle) : Bool := (m.class? h).isSome
  ((base.identifier?.bind m.byIdentifier?).filter ofClass).orElse fun _ =>
    (base.name?.bind m.byName?).filter ofClass

/-- The base of the class at a place.  No class is its own base. -/
def baseOf? (m : Model) (h : Handle) (c : ClassType) : Option Handle :=
  (m.resolveBase? c.base).filter fun b => b ≠ h

/-- What is found out about the base of one class. -/
structure BaseLink where
  /-- The class that names the base. -/
  handle : Handle
  /-- The class that the base reference leads to. -/
  base : Option Handle
  /-- The name of the base: the qualified name of the class it leads to, or the name as it was
  written. -/
  name : Option String
  deriving DecidableEq, Repr

/-- What is found out about the base of the class at a place. -/
def baseLink (m : Model) (h : Handle) (c : ClassType) : BaseLink :=
  let base := m.baseOf? h c
  { handle := h
    base := base
    name :=
      match base with
      | some b => (m.get? b).map Declaration.qualifiedName
      | none => c.base.name? }

/-- What is found out about the bases of all classes. -/
def baseLinks (m : Model) : List BaseLink :=
  m.classHandles.filterMap fun h => (m.class? h).map (m.baseLink h)

/-- Writes the base into its class, and marks the base as one that others derive from. -/
def writeBaseLink (m : Model) (l : BaseLink) : Model :=
  let linked := m.modifyClass l.handle fun c =>
    { c with resolvedBase := l.base, effectiveBaseName := l.name }
  match l.base with
  | some b => linked.modifyClass b fun c => { c with isDerivedFrom := true }
  | none => linked

/-- Gives every class its base, and marks the classes that others derive from.  All bases are found out
before the first one is written. -/
def resolveBases (m : Model) : Model :=
  m.baseLinks.foldl writeBaseLink m

/-! ## Enum properties -/

/-- Whether an identifier is that of an enum. -/
def isEnumIdentifier (m : Model) (identifier : String) : Bool :=
  ((m.byIdentifier? identifier).bind m.enum?).isSome

/-- The indices of the properties of a class that are to be marked: their type is an enum, and they are
not marked yet. -/
def enumIndices (m : Model) (c : ClassType) : List Nat :=
  (c.properties.zipIdx.filter fun (p, _) =>
    p.typeReference.any m.isEnumIdentifier && !p.isEnum).map Prod.snd

/-- The places of all properties that are to be marked, by class and index. -/
def enumPlaces (m : Model) : List (Handle × Nat) :=
  m.classHandles.flatMap fun h =>
    ((m.class? h).toList.flatMap m.enumIndices).map fun i => (h, i)

/-- Marks the property at a place. -/
def markEnumProperty (m : Model) (place : Handle × Nat) : Model :=
  m.modifyClass place.1 fun c =>
    { c with properties := c.properties.modify place.2 fun p => { p with isEnum := true } }

/-- Marks every property whose type is an enum.  All places are found out before the first property is
marked. -/
def inferEnumProperties (m : Model) : Model :=
  m.enumPlaces.foldl markEnumProperty m

/-! ## Members of templates -/

/-- The types nested in a class. -/
def innerHandles (m : Model) (c : ClassType) : List Handle :=
  c.innerClasses.filterMap m.byIdentifier?

/-- Marks a class as nested in a template. -/
def markWithinTemplate (m : Model) (h : Handle) : Model :=
  m.modifyClass h fun c => { c with isWithinTemplate := true }

/-- How many classes are not yet marked as nested in a template. -/
def unmarkedCount (m : Model) : Nat :=
  m.classHandles.countP fun h => (m.class? h).any fun c => !c.isWithinTemplate

theorem classHandles_mapClasses (m : Model) (f : Handle → ClassType → ClassType) :
    (m.mapClasses f).classHandles = m.classHandles := by
  simp only [classHandles, size_mapClasses, class?_mapClasses, Option.isSome_map]

/-- Less is counted if nothing counts that did not count before, and something does not any more. -/
theorem countP_lt_countP {α : Type} {p q : α → Bool} {as : List α} {a : α}
    (h : ∀ b ∈ as, q b = true → p b = true) (ha : a ∈ as) (hp : p a = true) (hq : q a = false) :
    as.countP q < as.countP p := by
  induction as with
  | nil => exact absurd ha List.not_mem_nil
  | cons b as ih =>
    obtain ⟨hb, has⟩ := List.forall_mem_cons.1 h
    rw [List.countP_cons, List.countP_cons]
    rcases List.mem_cons.1 ha with rfl | ha
    · have hle := List.countP_mono_left has
      simp only [hp, hq]
      simpa using Nat.lt_succ_of_le hle
    · have hlt := ih has ha
      cases hqb : q b with
      | true =>
        rw [hb hqb]
        simpa using hlt
      | false => exact Nat.lt_of_lt_of_le (by simpa using hlt) (Nat.le_add_right _ _)

theorem unmarkedCount_markWithinTemplate_lt {m : Model} {h : Handle} {c : ClassType}
    (hc : m.class? h = some c) (hw : c.isWithinTemplate = false) :
    (m.markWithinTemplate h).unmarkedCount < m.unmarkedCount := by
  have hmem : h ∈ m.classHandles := by
    have hlt : h < m.size := by
      simp only [class?, get?, Option.bind_eq_some_iff] at hc
      obtain ⟨d, hd, -⟩ := hc
      exact (List.getElem?_eq_some_iff.1 hd).1
    simp [classHandles, hlt, hc]
  have hself : (m.markWithinTemplate h).class? h = some { c with isWithinTemplate := true } := by
    rw [markWithinTemplate, class?_modifyClass, if_pos rfl, hc]
    rfl
  have hsame : (m.markWithinTemplate h).classHandles = m.classHandles :=
    classHandles_mapClasses m _
  rw [unmarkedCount, unmarkedCount, hsame]
  -- only the class at the handle changes, and it is not counted any more
  refine countP_lt_countP (fun h' _ hcounts => ?_) hmem (by simp [hc, hw]) (by simp [hself])
  by_cases hne : h' = h
  · rw [hne, hself] at hcounts
    exact absurd hcounts (by simp)
  · rwa [markWithinTemplate, class?_modifyClass, if_neg hne] at hcounts

/-- Marks the pending classes and what is nested in them.  What is nested in a class that was
marked before is not looked at again. -/
def markPending (m : Model) : List Handle → Model
  | [] => m
  | h :: pending =>
    match hc : m.class? h with
    | none => m.markPending pending
    | some c =>
      if hw : c.isWithinTemplate then m.markPending pending
      else
        have : (m.markWithinTemplate h).unmarkedCount < m.unmarkedCount :=
          unmarkedCount_markWithinTemplate_lt hc (by simpa using hw)
        (m.markWithinTemplate h).markPending (m.innerHandles c ++ pending)
termination_by pending => (m.unmarkedCount, pending.length)

/-- Marks every class that is nested in a template, at any depth. -/
def markTemplateMembers (m : Model) : Model :=
  m.markPending ((m.classes.filter ClassType.isTemplate).flatMap m.innerHandles)

/-! ## All links -/

/-- Links a model whose types have all been pushed. -/
def link (m : Model) : Model :=
  m.resolveBases.inferEnumProperties.markTemplateMembers

end Registrar.Model
