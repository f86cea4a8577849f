/-
# Parts of names

The simple name is what follows the first separator of a name.  It and the other shortened forms of
a name are parts of it, so they have no line feeds if the name has none.
-/
import Registrar.Model.Declaration
import Registrar.Proofs.Text.Lines
import Registrar.Proofs.Text.Search

namespace Registrar

/-! ## Simple names -/

namespace Name

/-- A simple name of a qualified one: what follows its first `::`, or the whole name if there is
none. -/
def IsSimple (qualified simple : String) : Prop :=
  (∃ scope, qualified = scope ++ "::" ++ simple ∧
    ∀ before after, qualified = before ++ "::" ++ after → scope.length ≤ before.length) ∨
  ((∀ before after, qualified ≠ before ++ "::" ++ after) ∧ simple = qualified)

theorem isSimple_iff (qualified simple : String) :
    IsSimple qualified simple ↔ Name.simple qualified = simple := by
  unfold Name.simple
  cases hbreak : Text.breakOn? "::" qualified with
  | none =>
    have hnone := (Text.breakOn?_eq_none_iff _ _).1 hbreak
    constructor
    · rintro (⟨scope, heq, -⟩ | ⟨-, rfl⟩)
      · exact absurd heq (hnone scope simple)
      · rfl
    · rintro rfl
      exact .inr ⟨hnone, rfl⟩
  | some sides =>
    obtain ⟨scope, rest⟩ := sides
    have hfirst := (Text.breakOn?_eq_some_iff _ _ _ _).1 hbreak
    constructor
    · rintro (⟨scope', hfirst'⟩ | ⟨hnone, -⟩)
      · have hsame := hbreak.symm.trans ((Text.breakOn?_eq_some_iff _ _ _ _).2 hfirst')
        exact (Prod.mk.inj (Option.some.inj hsame)).2
      · exact absurd hfirst.1 (hnone _ _)
    · rintro rfl
      exact .inl ⟨scope, hfirst⟩

end Name

/-! ## Names without line feeds -/

/-- The two sides with the last separator between them are the text. -/
theorem Chars.eq_append_of_breakOnLast? {separator cs before after : List Char}
    (h : breakOnLast? separator cs = some (before, after)) :
    cs = before ++ separator ++ after := by
  induction cs generalizing before with
  | nil =>
    simp only [breakOnLast?] at h
    split at h <;> simp_all
  | cons c cs ih =>
    simp only [breakOnLast?] at h
    split at h
    · next before' after' hrest =>
      obtain ⟨rfl, rfl⟩ := Prod.mk.inj (Option.some.inj h)
      rw [ih hrest]
      rfl
    · rw [Option.map_eq_some_iff] at h
      obtain ⟨rest, hrest, heq⟩ := h
      obtain ⟨rfl, rfl⟩ := Prod.mk.inj heq
      exact eq_append_of_isPrefixOf? hrest

namespace Text

/-- What follows the first separator of a line is a line. -/
theorem IsLine.of_breakOn? {separator s before after : String} (hs : IsLine s)
    (h : breakOn? separator s = some (before, after)) : IsLine after := by
  rw [IsLine, (eq_append_iff _ _ _ _).1 ((breakOn?_eq_some_iff _ _ _ _).1 h).1] at hs
  exact fun hmem => hs (List.mem_append_right _ hmem)

/-- What stands before the last separator of a line is a line. -/
theorem IsLine.of_breakOnLast? {separator s before after : String} (hs : IsLine s)
    (h : breakOnLast? separator s = some (before, after)) : IsLine before := by
  rw [breakOnLast?, Option.map_eq_some_iff] at h
  obtain ⟨⟨b, a⟩, hba, heq⟩ := h
  obtain ⟨rfl, -⟩ := Prod.mk.inj heq
  intro hmem
  rw [String.toList_ofList] at hmem
  rw [IsLine, Chars.eq_append_of_breakOnLast? hba, List.append_assoc] at hs
  exact hs (List.mem_append_left _ hmem)

end Text

open Text

theorem isLine_simple {name : String} (hname : IsLine name) : IsLine (Name.simple name) := by
  unfold Name.simple
  split
  · next h => exact hname.of_breakOn? h
  · exact hname

theorem isLine_scope? {name scope : String} (hname : IsLine name)
    (h : Name.scope? name = some scope) : IsLine scope := by
  rw [Name.scope?, Option.map_eq_some_iff] at h
  obtain ⟨⟨before, after⟩, hbreak, rfl⟩ := h
  exact hname.of_breakOnLast? hbreak

namespace EnumType

/-- An enum whose names are lines. -/
def HasLineNames (t : EnumType) : Prop :=
  IsLine t.qualifiedName ∧ ∀ value ∈ t.values, IsLine value

theorem isLine_qualifiedValue {t : EnumType} (ht : IsLine t.qualifiedName) {value : String}
    (hvalue : IsLine value) : IsLine (t.qualifiedValue value) := by
  unfold qualifiedValue
  split
  · next scope h =>
    refine IsLine.append (IsLine.append ?_ (by decide)) hvalue
    split at h
    · obtain rfl := Option.some.inj h
      exact ht
    · exact isLine_scope? ht h
  · exact hvalue

theorem isLine_registeredValue {value : String} (hvalue : IsLine value) :
    IsLine (registeredValue value) := by
  unfold registeredValue
  split
  · next h => exact hvalue.of_breakOn? h
  · exact hvalue

end EnumType

/-- A class whose names are lines. -/
def ClassType.HasLineNames (c : ClassType) : Prop :=
  IsLine c.qualifiedName ∧ ∀ p ∈ c.properties, IsLine p.name

instance : DecidablePred ClassType.HasLineNames := fun c =>
  inferInstanceAs (Decidable (IsLine c.qualifiedName ∧ ∀ p ∈ c.properties, IsLine p.name))

/-- A type whose names are lines. -/
def Declaration.HasLineNames : Declaration → Prop
  | enumType t => t.HasLineNames
  | classType c => c.HasLineNames

instance : DecidablePred Declaration.HasLineNames
  | .enumType t =>
    inferInstanceAs (Decidable (IsLine t.qualifiedName ∧ ∀ value ∈ t.values, IsLine value))
  | .classType c => inferInstanceAs (Decidable c.HasLineNames)

end Registrar
