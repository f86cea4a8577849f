/-
# What documents can declare

Whatever a document says, every name that is taken from it is trimmed and not empty, a class comes
from a public compound and its properties from members that are not private.  So a type is found
under its own qualified name before any type that is only known by that name.
-/
import Mathlib.Data.List.DropRight
import Registrar.Proofs.Documentation.Lookup
import Registrar.Proofs.Model.Catalogue

namespace Registrar

/-- A class in which nothing is set that linking fills in. -/
structure ClassType.IsUnlinked (c : ClassType) : Prop where
  resolvedBase : c.resolvedBase = none
  effectiveBaseName : c.effectiveBaseName = none
  isDerivedFrom : c.isDerivedFrom = false
  isWithinTemplate : c.isWithinTemplate = false

namespace Documentation

open Xml (Node)

variable {tags : TagSettings} {n : Node}

/-! ## Names -/

/-- A trimmed text begins with no blank, as far as it has a beginning. -/
theorem isBlank_head?_trim (cs : List Char) :
    ∀ c ∈ (Chars.trim cs).head?, Chars.isBlank c = false := by
  intro c hc
  obtain ⟨rest, hrest⟩ : Chars.trim cs <+: Chars.trimStart cs := List.rdropWhile_prefix _ _
  have hhead : (Chars.trimStart cs).head? = some c := by
    rw [← hrest, List.head?_append, hc]
    rfl
  have hnot := List.head?_dropWhile_not Chars.isBlank cs
  unfold Chars.trimStart at hhead
  rw [hhead] at hnot
  exact hnot

/-- A trimmed text ends with no blank, as far as it has an end. -/
theorem isBlank_getLast?_trim (cs : List Char) :
    ∀ c ∈ (Chars.trim cs).getLast?, Chars.isBlank c = false := by
  intro c hc
  have hhead : ((Chars.trimStart cs).reverse.dropWhile Chars.isBlank).head? = some c := by
    rw [← List.getLast?_reverse]
    exact hc
  have hnot := List.head?_dropWhile_not Chars.isBlank (Chars.trimStart cs).reverse
  rw [hhead] at hnot
  exact hnot

/-- A text without the blanks around it is a name unless nothing is left. -/
theorem isName_of_trimmed? {s t : String} (h : Text.trimmed? s = some t) : IsName t := by
  unfold Text.trimmed? at h
  split at h
  · exact absurd h (by simp)
  · next hne =>
    obtain rfl := Option.some.inj h
    refine ⟨hne, ?_, ?_⟩
    · rw [Text.toList_trim]
      exact isBlank_head?_trim s.toList
    · rw [Text.toList_trim]
      exact isBlank_getLast?_trim s.toList

/-- A name is the same without the blanks around it. -/
theorem IsName.trim_eq {s : String} (h : IsName s) : Text.trim s = s := by
  have htrimmed := h.trimmed?
  unfold Text.trimmed? at htrimmed
  split at htrimmed
  · exact absurd htrimmed (by simp)
  · exact Option.some.inj htrimmed

/-- Two names make up a name, whatever stands between them. -/
theorem IsName.append {s t : String} (hs : IsName s) (ht : IsName t) (between : String) :
    IsName (s ++ between ++ t) := by
  have hsChars : s.toList ≠ [] := by simpa using hs.nonempty
  have htChars : t.toList ≠ [] := by simpa using ht.nonempty
  refine ⟨fun hempty => ?_, fun c hc => hs.front c ?_, fun c hc => ht.back c ?_⟩
  · have hchars := congrArg String.toList hempty
    rw [String.toList_append] at hchars
    exact htChars (List.append_eq_nil_iff.1 hchars).2
  · obtain ⟨d, ds, hd⟩ := List.exists_cons_of_ne_nil hsChars
    rw [String.toList_append, String.toList_append, hd] at hc
    rw [hd]
    exact hc
  · rw [String.toList_append, List.getLast?_append_of_ne_nil _ htChars] at hc
    exact hc

/-- The text of a child that is found is a name. -/
theorem isName_of_childText? {name s : String} (h : childText? n name = some s) : IsName s := by
  obtain ⟨c, -, hc⟩ := Option.bind_eq_some_iff.1 h
  exact isName_of_trimmed? hc

/-! ## Enums -/

/-- An enum that documents can declare. -/
structure IsDeclaredEnum (e : EnumType) : Prop where
  named : IsName e.qualifiedName
  values : ∀ value ∈ e.values, IsName value

/-- An enum that is read is one that documents can declare. -/
theorem isDeclaredEnum_of_enum? {scope : String} {e : EnumType} (hscope : IsName scope)
    (h : enum? scope n = some e) : IsDeclaredEnum e := by
  obtain ⟨name, hname, rfl⟩ := Option.map_eq_some_iff.1 h
  refine ⟨hscope.append (isName_of_childText? hname) "::", fun value hvalue => ?_⟩
  obtain ⟨v, -, hv⟩ := List.mem_filterMap.1 hvalue
  exact isName_of_childText? hv

/-- The enums of a namespace are such as documents can declare. -/
theorem isDeclaredEnum_of_enums {es : List EnumType} (h : enums n = .ok es) :
    ∀ e ∈ es, IsDeclaredEnum e := by
  unfold enums at h
  split at h
  · cases h
  · next scope hscope =>
    cases h
    intro e he
    obtain ⟨member, -, hmember⟩ := List.mem_filterMap.1 he
    exact isDeclaredEnum_of_enum? (isName_of_childText? hscope) hmember

/-! ## Classes -/

/-- The members of a class that are not private. -/
def visibleMembers (n : Node) : List Node :=
  (members n).filter fun member => member.attribute? "prot" ≠ some "private"

/-- A class that a compound can declare. -/
structure IsDeclaredClass (tags : TagSettings) (n : Node) (c : ClassType) : Prop where
  declares : compound tags n = .ok [.classType c]
  isPublic : n.attribute? "prot" = some "public"
  identified : c.identifier.isSome = true
  unlinked : c.IsUnlinked
  named : IsName c.qualifiedName
  baseNamed : ∀ name ∈ c.base.name?, IsName name
  propertiesNamed : ∀ p ∈ c.properties, IsName p.name
  properties : c.properties = (visibleMembers n).filterMap (property? tags)

/-- The name of a base that is read is a name. -/
theorem isName_of_baseReference {name : String} (h : name ∈ (baseReference n).name?) :
    IsName name := by
  unfold baseReference at h
  split at h
  · exact absurd h (by simp [BaseReference.name?])
  · next base _ =>
    split at h
    · exact isName_of_trimmed? h
    · next hname =>
      obtain rfl := Option.some.inj h
      exact isName_of_trimmed? hname
    · exact absurd h (by simp [BaseReference.name?])

/-- The type says nothing about the name of a property. -/
theorem name_withType (n : Node) (p : Property) : (withType n p).name = p.name := by
  unfold withType
  split <;> rfl

/-- A property has the name of its member, which is not private. -/
theorem of_property? {p : Property} (h : property? tags n = some p) :
    n.attribute? "prot" ≠ some "private" ∧ childText? n "name" = some p.name := by
  unfold property? at h
  split at h
  · exact absurd h (by simp)
  · next hvisible =>
    obtain ⟨name, hname, h⟩ := Option.bind_eq_some_iff.1 h
    obtain ⟨q, hq, h⟩ := Option.bind_eq_some_iff.1 h
    obtain ⟨paragraph, -, rfl⟩ := Option.map_eq_some_iff.1 hq
    obtain rfl := Option.some.inj h
    exact ⟨hvisible, by rw [hname, name_withType]⟩

/-- The members that are left out because they are private would give no property. -/
theorem filterMap_visibleMembers (tags : TagSettings) (n : Node) :
    (visibleMembers n).filterMap (property? tags) = (members n).filterMap (property? tags) := by
  unfold visibleMembers
  rw [List.filterMap_filter]
  refine List.filterMap_congr fun member _ => ?_
  -- a member that the filter leaves out is private, so that nothing is made of it anyway
  split
  · rfl
  · next hprivate =>
    cases hproperty : property? tags member with
    | none => rfl
    | some p => exact absurd (decide_eq_true (of_property? hproperty).1) hprivate

/-- In a class that is read nothing is set that linking fills in. -/
theorem isUnlinked_of_class? {kind : String} {c : ClassType}
    (h : class? tags kind n = .ok (some c)) : c.IsUnlinked := by
  unfold class? at h
  split at h
  · cases h
  · split at h
    · cases h
    · cases h
    · cases h
      exact ⟨rfl, rfl, rfl, rfl⟩
  · cases h

/-- A class that is read is one that its compound can declare. -/
theorem isDeclaredClass_of_class? {kind : String} {c : ClassType}
    (hdeclares : compound tags n = .ok [.classType c]) (h : class? tags kind n = .ok (some c)) :
    IsDeclaredClass tags n c := by
  have hunlinked := isUnlinked_of_class? h
  unfold class? at h
  split at h
  · cases h
  · next hpublic =>
    split at h
    · cases h
    · cases h
    · next identifier name _ hname =>
      obtain rfl := Option.some.inj (Except.ok.inj h)
      refine ⟨hdeclares, hpublic, rfl, hunlinked, isName_of_childText? hname,
        fun _ => isName_of_baseReference, fun p hp => ?_, (filterMap_visibleMembers tags n).symm⟩
      obtain ⟨member, -, hmember⟩ := List.mem_filterMap.1 hp
      exact isName_of_childText? (of_property? hmember).2
  · cases h

/-! ## Documents -/

/-- A type that the compounds of a document can declare. -/
def IsDeclared (tags : TagSettings) (document : List Node) : Declaration → Prop
  | .enumType e => IsDeclaredEnum e
  | .classType c => ∃ n ∈ compounds document, IsDeclaredClass tags n c

/-- A type that is declared has a name. -/
theorem IsDeclared.named {document : List Node} {d : Declaration}
    (h : IsDeclared tags document d) : IsName d.qualifiedName := by
  cases d with
  | enumType e => exact IsDeclaredEnum.named h
  | classType c =>
    obtain ⟨n, -, hn⟩ := h
    exact hn.named

/-- What a compound is turned into comes from what was found in it. -/
theorem exists_of_map_eq_ok {α β ε : Type} {f : α → β} {found : Except ε α} {b : β}
    (h : found.map f = .ok b) : ∃ a, found = .ok a ∧ f a = b := by
  cases found with
  | error e => cases h
  | ok a => exact ⟨a, rfl, Except.ok.inj h⟩

/-- What a compound of a document declares is such as the document can declare. -/
theorem isDeclared_of_compound {document : List Node} {ds : List Declaration}
    (hn : n ∈ compounds document) (h : compound tags n = .ok ds) :
    ∀ d ∈ ds, IsDeclared tags document d := by
  intro d hd
  have hdeclares := h
  unfold compound at h
  split at h
  · cases h
  · next kind _ =>
    split at h
    · -- a namespace gives enums only
      obtain ⟨es, hes, rfl⟩ := exists_of_map_eq_ok h
      obtain ⟨e, he, rfl⟩ := List.mem_map.1 hd
      exact isDeclaredEnum_of_enums hes e he
    · split at h
      · obtain ⟨found, hfound, rfl⟩ := exists_of_map_eq_ok h
        obtain ⟨c, rfl, rfl⟩ := Option.map_eq_some_iff.1 (Option.mem_toList.1 hd)
        exact ⟨n, hn, isDeclaredClass_of_class? hdeclares hfound⟩
      · cases h
        exact absurd hd List.not_mem_nil

/-- What a document declares is such as it can declare. -/
theorem isDeclared_of_mem_declarations {document : List Node} {d : Declaration}
    (h : d ∈ (declarations tags document).result) : IsDeclared tags document d := by
  obtain ⟨found, hfound, hmem⟩ := List.mem_flatMap.1 h
  obtain ⟨n, hn, rfl⟩ := List.mem_map.1 hfound
  cases hcompound : compound tags n with
  | error missing =>
    rw [hcompound] at hmem
    exact absurd hmem List.not_mem_nil
  | ok ds =>
    rw [hcompound] at hmem
    exact isDeclared_of_compound hn hcompound d hmem

end Documentation

/-! ## Look-ups -/

/-- A catalogue of some types holds these types, and its tables are in step with them. -/
theorem Catalogue.isInStep_ofDeclarations (ds : List Declaration) :
    (ofDeclarations ds).IsInStep ∧ (ofDeclarations ds).model = ⟨ds⟩ := by
  have hall : ∀ (ds : List Declaration) (t : Catalogue), t.IsInStep →
      (ds.foldl (fun t d => (t.push d).2) t).IsInStep ∧
        (ds.foldl (fun t d => (t.push d).2) t).model = ds.foldl Model.push t.model := by
    intro ds
    induction ds with
    | nil =>
      intro t ht
      exact ⟨ht, rfl⟩
    | cons d ds ih =>
      intro t ht
      exact ih _ (ht.push d)
  obtain ⟨hstep, hmodel⟩ := hall ds {} .empty
  refine ⟨hstep, hmodel.trans ?_⟩
  rw [Model.foldl_push]
  rfl

/-- A type whose name is trimmed is found under its name before any type that is only known by it. -/
theorem Model.isLeast_byName? {m : Model} {h : Handle} {d : Declaration}
    (hd : m.get? h = some d) (hname : Text.trim d.qualifiedName = d.qualifiedName) :
    ∃ first, m.byName? d.qualifiedName = some first ∧
      IsLeast (m.handlesOf fun d' => d'.qualifiedName = d.qualifiedName) first := by
  have hnamed := (m.isFirst_byName? d.qualifiedName).1
  rw [hname] at hnamed
  have hfirst := hnamed ⟨h, d, hd, rfl⟩
  cases hfound : m.byName? d.qualifiedName with
  | none =>
    rw [hfound] at hfirst
    have hmem : h ∈ m.handlesOf fun d' => d'.qualifiedName = d.qualifiedName := ⟨d, hd, rfl⟩
    rw [show m.handlesOf _ = ∅ from hfirst] at hmem
    exact absurd hmem (Set.notMem_empty h)
  | some first =>
    rw [hfound] at hfirst
    exact ⟨first, rfl, hfirst⟩

namespace Documentation

/-- Every type that a document declares is well formed.  So in a catalogue of the types of any
documents, every type finds the first one of its own qualified name under this name. -/
theorem declared_wellFormed (tags : TagSettings) :
    (∀ document, ∀ d ∈ (declarations tags document).result, IsDeclared tags document d) ∧
      ∀ documents : List (List Xml.Node),
        let t := Catalogue.ofDeclarations
          (documents.flatMap fun document => (declarations tags document).result)
        ∀ h d, t.model.get? h = some d →
          ∃ first, t.byName? d.qualifiedName = some first ∧
            IsLeast (t.model.handlesOf fun d' => d'.qualifiedName = d.qualifiedName) first := by
  refine ⟨fun document d hd => isDeclared_of_mem_declarations hd, fun documents => ?_⟩
  intro t h d hd
  obtain ⟨hstep, hmodel⟩ : t.IsInStep ∧ t.model = _ := Catalogue.isInStep_ofDeclarations _
  have hmem : d ∈ documents.flatMap fun document => (declarations tags document).result := by
    rw [hmodel] at hd
    exact List.mem_of_getElem? hd
  obtain ⟨document, -, hdocument⟩ := List.mem_flatMap.1 hmem
  rw [hstep.byName?_eq]
  exact Model.isLeast_byName? hd (isDeclared_of_mem_declarations hdocument).named.trim_eq

end Documentation

end Registrar
