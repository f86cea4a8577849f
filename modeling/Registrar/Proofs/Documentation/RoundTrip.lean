/-
# Reading a written documentation

From what the reader looks up in the elements of a written document, each enum, each property and
each class is found as it was written, and a document gives its declarations in their order, without
a warning.
-/
import Registrar.Proofs.Documentation.Lookup

namespace Registrar.Documentation

open Xml (Node)

/-! ## Enums -/

/-- The children of an enum by their names. -/
theorem childrenNamed_enumMember (name : String) (e : EnumType) (tag : String) :
    (enumMember name e).childrenNamed tag =
      (if "name" = tag then [textElement "name" name] else []) ++
        ((if "enumvalue" = tag then e.values.map enumeratorElement else []) ++
          if "location" = tag then locationElements e.header else []) := by
  show (textElement "name" name :: (e.values.map enumeratorElement ++
    locationElements e.header)).filter (Node.isNamed tag) = _
  rw [List.filter_cons, List.filter_append, (allNamed_enumerators e.values).filter,
    (allNamed_locationElements e.header).filter, isNamed_textElement]
  split <;> simp_all

/-- An enum is written with its identifier. -/
theorem attribute?_id_enumMember (name : String) (e : EnumType) :
    (enumMember name e).attribute? "id" = e.identifier := by
  unfold enumMember
  rw [attribute?_element]
  cases e.identifier <;> simp

theorem attribute?_strong_enumMember (name : String) (e : EnumType) :
    (enumMember name e).attribute? "strong" = some (if e.isScoped then "yes" else "no") := by
  unfold enumMember
  rw [attribute?_element]
  simp

/-- An enumerator is read by its name. -/
theorem childText?_enumeratorElement {value : String} (h : IsName value) :
    childText? (enumeratorElement value) "name" = some value :=
  childText?_of_childrenNamed h rfl

/-- What is read of some things as they are written is these things. -/
theorem filterMap_map_eq_self {α β : Type} {write : α → β} {read : β → Option α} {as : List α}
    (h : ∀ a ∈ as, read (write a) = some a) : (as.map write).filterMap read = as := by
  rw [List.filterMap_map]
  exact (List.filterMap_congr h).trans List.filterMap_some

/-- The member of an enum declares this enum. -/
theorem enum?_enumMember {scope name : String} {e : EnumType} (hname : IsName name)
    (hvalues : ∀ value ∈ e.values, IsName value) (hq : e.qualifiedName = scope ++ "::" ++ name) :
    enum? scope (enumMember name e) = some e := by
  have hread : childText? (enumMember name e) "name" = some name :=
    childText?_of_childrenNamed hname (by rw [childrenNamed_enumMember]; simp)
  have hheader : location? (enumMember name e) = e.header :=
    location?_of_childrenNamed (by rw [childrenNamed_enumMember]; simp)
  have hfound : ((enumMember name e).childrenNamed "enumvalue").filterMap
      (fun v => childText? v "name") = e.values := by
    have hgroup : (enumMember name e).childrenNamed "enumvalue" =
        e.values.map enumeratorElement := by
      rw [childrenNamed_enumMember]
      simp
    rw [hgroup]
    exact filterMap_map_eq_self fun value hvalue =>
      childText?_enumeratorElement (hvalues value hvalue)
  have hscoped : decide (some (if e.isScoped then "yes" else "no") = some "yes") = e.isScoped := by
    cases e.isScoped <;> decide
  unfold enum?
  rw [hread, Option.map_some, hheader, hfound, attribute?_id_enumMember,
    attribute?_strong_enumMember, hscoped, ← hq]

/-! ## Classes -/

/-- The paragraph of a property holds the marker of properties and just its own qualifiers. -/
theorem contains_propertyParagraph (isRequired isEnum isVector : Bool) :
    Text.contains (propertyParagraph isRequired isEnum isVector) "[property]" = true ∧
      Text.contains (propertyParagraph isRequired isEnum isVector) r"{required}" =
        isRequired ∧
      Text.contains (propertyParagraph isRequired isEnum isVector) r"{enum}" = isEnum ∧
      Text.contains (propertyParagraph isRequired isEnum isVector) r"{vector}" =
        isVector := by
  revert isRequired isEnum isVector
  decide

/-- The paragraphs of a class say its role and whether it is encodable. -/
theorem classTags_paragraphs (role : Role) (isEncodable : Bool) :
    (({} : TagSettings).classTags
      (roleParagraphs role ++ if isEncodable then ["[encodable]"] else [])) =
        ⟨if role = .none then none else some role, isEncodable⟩ := by
  cases role <;> cases isEncodable <;> decide

/-- The identifier of a type is read from where it is written. -/
theorem typeReference_typeElement (typeReference : Option String) :
    ((typeElement typeReference).child? "ref").bind (fun r => r.attribute? "refid") =
      typeReference := by
  cases typeReference <;> rfl

/-- A type that holds a reference only has no text. -/
theorem content_typeElement (typeReference : Option String) :
    (typeElement typeReference).content = "" := by
  cases typeReference <;> rfl

/-- The children of a property by their names. -/
theorem childrenNamed_propertyMember (p : Property) (tag : String) :
    (propertyMember p).childrenNamed tag =
      (if "type" = tag then [typeElement p.typeReference] else []) ++
        (if "name" = tag then [textElement "name" p.name] else []) ++
        if "detaileddescription" = tag then
          [description [propertyParagraph p.isRequired p.isEnum p.isVector]]
        else [] := by
  have htype : AllNamed "type" [typeElement p.typeReference] :=
    allNamed_map (f := typeElement) (fun _ => rfl) [p.typeReference]
  have hname : AllNamed "name" [textElement "name" p.name] :=
    allNamed_map (fun _ => rfl) [p.name]
  have hdescription : AllNamed "detaileddescription"
      [description [propertyParagraph p.isRequired p.isEnum p.isVector]] :=
    allNamed_map (f := description) (fun _ => rfl)
      [[propertyParagraph p.isRequired p.isEnum p.isVector]]
  show ([typeElement p.typeReference] ++ [textElement "name" p.name] ++
    [description [propertyParagraph p.isRequired p.isEnum p.isVector]]).filter
      (Node.isNamed tag) = _
  rw [List.filter_append, List.filter_append, htype.filter, hname.filter, hdescription.filter]

/-- The member of a property gives this property. -/
theorem property?_propertyMember {p : Property} (hname : IsName p.name) :
    property? {} (propertyMember p) = some p := by
  have hread : childText? (propertyMember p) "name" = some p.name :=
    childText?_of_childrenNamed hname (by rw [childrenNamed_propertyMember]; simp)
  have hparagraphs : paragraphs (propertyMember p) =
      [propertyParagraph p.isRequired p.isEnum p.isVector] :=
    paragraphs_of_childrenNamed (by rw [childrenNamed_propertyMember]; simp)
      (by rw [childrenNamed_propertyMember]; simp)
  have htype : (propertyMember p).child? "type" = some (typeElement p.typeReference) := by
    rw [child?_eq_head?, childrenNamed_propertyMember]
    simp
  obtain ⟨hmarker, hrequired, henum, hvector⟩ :=
    contains_propertyParagraph p.isRequired p.isEnum p.isVector
  have htag : ({} : TagSettings).propertyTag? p.name
      [propertyParagraph p.isRequired p.isEnum p.isVector] =
        some { p with typeReference := none } := by
    show ((List.find? (fun paragraph => Text.contains paragraph "[property]")
      [propertyParagraph p.isRequired p.isEnum p.isVector]).map _) = _
    rw [List.find?_cons, hmarker]
    simp only [Option.map_some, hrequired, henum, hvector]
  -- the written type is no vector, so the paragraph alone says whether the property is one
  have hwith : withType (propertyMember p) { p with typeReference := none } = p := by
    have hvectorText : "std::vector".toList.isPrefixOf
        (Chars.trimStart (typeElement p.typeReference).content.toList) = false := by
      rw [content_typeElement]
      rfl
    simp only [withType, htype, hvectorText, typeReference_typeElement, Bool.or_false]
  have hpublic : ¬(propertyMember p).attribute? "prot" = some "private" := by
    have hprot : (propertyMember p).attribute? "prot" = some "public" := rfl
    rw [hprot]
    simp
  unfold property?
  rw [if_neg hpublic, hread, hparagraphs]
  show ((({} : TagSettings).propertyTag? p.name _).bind fun q =>
    some (withType (propertyMember p) q)) = some p
  rw [htag, Option.bind_some, hwith]

/-- The children of a class by their names. -/
theorem childrenNamed_classCompound (c : ClassType) (tag : String) :
    (classCompound c).childrenNamed tag =
      (if "compoundname" = tag then [textElement "compoundname" c.qualifiedName] else []) ++
        (if "basecompoundref" = tag then baseElements c.base else []) ++
        (if "templateparamlist" = tag then templateElements c.isTemplate else []) ++
        (if "innerclass" = tag then c.innerClasses.map innerElement else []) ++
        (if "detaileddescription" = tag then [description (classParagraphs c)] else []) ++
        (if "sectiondef" = tag then [classSection c] else []) ++
        if "location" = tag then locationElements c.header else [] := by
  have hname : AllNamed "compoundname" [textElement "compoundname" c.qualifiedName] :=
    allNamed_map (fun _ => rfl) [c.qualifiedName]
  have hdescription : AllNamed "detaileddescription" [description (classParagraphs c)] :=
    allNamed_map (fun _ => rfl) [classParagraphs c]
  have hsection : AllNamed "sectiondef" [classSection c] :=
    allNamed_map (f := classSection) (fun _ => rfl) [c]
  -- the children of one group have one tag, so a filter takes all of them or none
  have hgroups : (classCompound c).children =
      [textElement "compoundname" c.qualifiedName] ++ baseElements c.base ++
        templateElements c.isTemplate ++ c.innerClasses.map innerElement ++
        [description (classParagraphs c)] ++ [classSection c] ++ locationElements c.header := by
    simp [classCompound, element, Node.children]
  unfold Node.childrenNamed
  rw [hgroups]
  simp only [List.filter_append, hname.filter, (allNamed_baseElements c.base).filter,
    (allNamed_templateElements c.isTemplate).filter,
    (allNamed_innerElements c.innerClasses).filter, hdescription.filter, hsection.filter,
    (allNamed_locationElements c.header).filter]

theorem attribute?_id_classCompound (c : ClassType) :
    (classCompound c).attribute? "id" = c.identifier := by
  unfold classCompound
  rw [attribute?_element]
  cases c.identifier <;> simp

theorem attribute?_prot_classCompound (c : ClassType) :
    (classCompound c).attribute? "prot" = some "public" :=
  rfl

theorem attribute?_kind_classCompound (c : ClassType) :
    (classCompound c).attribute? "kind" = some "class" :=
  rfl

/-- The members of a written class are its properties. -/
theorem members_classCompound (c : ClassType) :
    members (classCompound c) = c.properties.map propertyMember := by
  have hsections : (classCompound c).childrenNamed "sectiondef" = [classSection c] := by
    rw [childrenNamed_classCompound]
    simp
  have hgroup : (classSection c).childrenNamed "memberdef" = c.properties.map propertyMember := by
    have hfilter := (allNamed_propertyMembers c.properties).filter "memberdef"
    rwa [if_pos rfl] at hfilter
  unfold members
  rw [hsections, List.flatMap_singleton, hgroup]

/-- Linking has left no trace in a class that can be written. -/
theorem IsWritableClass.eq {c : ClassType} (h : IsWritableClass c) :
    ({ header := c.header
       identifier := c.identifier
       qualifiedName := c.qualifiedName
       isTemplate := c.isTemplate
       base := c.base
       role := c.role
       isEncodable := c.isEncodable
       properties := c.properties
       innerClasses := c.innerClasses } : ClassType) = c := by
  obtain ⟨-, -, -, -, hderived, hwithin, hresolved, heffective⟩ := h
  cases c
  simp_all

/-- The compound of a class gives this class. -/
theorem class?_classCompound {c : ClassType} (h : IsWritableClass c) :
    class? {} "class" (classCompound c) = .ok (some c) := by
  obtain ⟨identifier, hidentifier⟩ := Option.isSome_iff_exists.1 h.identified
  have hid : (classCompound c).attribute? "id" = some identifier := by
    rw [attribute?_id_classCompound, hidentifier]
  have hname : childText? (classCompound c) "compoundname" = some c.qualifiedName :=
    childText?_of_childrenNamed h.named (by rw [childrenNamed_classCompound]; simp)
  have hheader : location? (classCompound c) = c.header :=
    location?_of_childrenNamed (by rw [childrenNamed_classCompound]; simp)
  have hbase : baseReference (classCompound c) = c.base :=
    baseReference_of_childrenNamed h.baseNamed (by rw [childrenNamed_classCompound]; simp)
  have htemplate : ((classCompound c).child? "templateparamlist").isSome = c.isTemplate := by
    rw [child?_eq_head?, childrenNamed_classCompound]
    cases c.isTemplate <;> simp [templateElements]
  have hinner : ((classCompound c).childrenNamed "innerclass").filterMap
      (fun i => i.attribute? "refid") = c.innerClasses := by
    have hgroup : (classCompound c).childrenNamed "innerclass" =
        c.innerClasses.map innerElement := by
      rw [childrenNamed_classCompound]
      simp
    rw [hgroup]
    exact filterMap_map_eq_self fun _ _ => rfl
  have hparagraphs : paragraphs (classCompound c) = classParagraphs c :=
    paragraphs_of_childrenNamed (by rw [childrenNamed_classCompound]; simp)
      (by rw [childrenNamed_classCompound]; simp)
  have htags := classTags_paragraphs c.role c.isEncodable
  have hrole : (if c.role = .none then none else some c.role).getD .none = c.role := by
    cases c.role <;> rfl
  have hproperties : (members (classCompound c)).filterMap (property? {}) = c.properties := by
    rw [members_classCompound]
    exact filterMap_map_eq_self fun p hp => property?_propertyMember (h.propertiesNamed p hp)
  unfold class?
  rw [attribute?_prot_classCompound]
  simp only [hid, hname, hheader, hbase, htemplate, hinner, hparagraphs, classParagraphs, htags,
    hrole, hproperties]
  rw [← hidentifier, h.eq]

/-! ## Documents -/

/-- In a header nothing but the header is found. -/
theorem lacks_of_mem_locationElements {tag : String} (htag : "location" ≠ tag)
    (header : Option Path) : ∀ n ∈ locationElements header, Lacks tag n := by
  cases header <;> simp [locationElements, lacks_element_iff, htag]

/-- In an enumerator nothing but the enumerator and its name is found. -/
theorem lacks_of_mem_enumerators {tag : String} (htag : "enumvalue" ≠ tag ∧ "name" ≠ tag)
    (values : List String) : ∀ n ∈ values.map enumeratorElement, Lacks tag n := by
  simp [enumeratorElement, lacks_element_iff, lacks_textElement_iff, htag]

/-- Neither a compound nor another member is written into the member of an enum. -/
theorem lacks_of_mem_enumParts {tag : String}
    (htag : "name" ≠ tag ∧ "enumvalue" ≠ tag ∧ "location" ≠ tag) (name : String) (e : EnumType) :
    ∀ n ∈ textElement "name" name :: (e.values.map enumeratorElement ++ locationElements e.header),
      Lacks tag n := by
  obtain ⟨hname, hvalue, hlocation⟩ := htag
  rw [List.forall_mem_cons, List.forall_mem_append, lacks_textElement_iff]
  exact ⟨hname, lacks_of_mem_enumerators ⟨hvalue, hname⟩ e.values,
    lacks_of_mem_locationElements hlocation e.header⟩

/-- No compound is in a property. -/
theorem lacks_compounddef_propertyMember (p : Property) :
    Lacks "compounddef" (propertyMember p) := by
  simp [propertyMember, typeElement, description, lacks_element_iff, lacks_textElement_iff]

theorem lacks_compounddef_baseElements (base : BaseReference) :
    ∀ n ∈ baseElements base, Lacks "compounddef" n := by
  cases base <;> simp [baseElements, lacks_element_iff, lacks_textElement_iff, lacks_text]

/-- No compound is written into the compound of a class. -/
theorem lacks_of_mem_classParts (c : ClassType) :
    ∀ n ∈ [textElement "compoundname" c.qualifiedName] ++ baseElements c.base ++
      templateElements c.isTemplate ++ c.innerClasses.map innerElement ++
      [description (classParagraphs c)] ++ [classSection c] ++ locationElements c.header,
      Lacks "compounddef" n := by
  have htemplate : ∀ n ∈ templateElements c.isTemplate, Lacks "compounddef" n := by
    cases c.isTemplate <;> simp [templateElements, lacks_element_iff]
  have hinner : ∀ n ∈ c.innerClasses.map innerElement, Lacks "compounddef" n := by
    simp [innerElement, lacks_element_iff]
  have hdescription : Lacks "compounddef" (description (classParagraphs c)) := by
    simp [description, lacks_element_iff, lacks_textElement_iff]
  have hsection : Lacks "compounddef" (classSection c) := by
    simp [classSection, lacks_element_iff, lacks_compounddef_propertyMember]
  have hname : Lacks "compounddef" (textElement "compoundname" c.qualifiedName) :=
    (lacks_textElement_iff ..).2 (by decide)
  simp only [List.forall_mem_append, List.forall_mem_singleton]
  exact ⟨⟨⟨⟨⟨⟨hname, lacks_compounddef_baseElements c.base⟩, htemplate⟩, hinner⟩, hdescription⟩,
    hsection⟩, lacks_of_mem_locationElements (by decide) c.header⟩

/-- The compound that is written for an enum is the only one in it. -/
theorem compounds_enumCompound (scope name : String) (e : EnumType) :
    (enumCompound scope name e).descendants.filter (Node.isNamed "compounddef") =
      [enumCompound scope name e] := by
  have hmember : Lacks "compounddef" (enumMember name e) :=
    (lacks_element_iff ..).2 ⟨by decide, lacks_of_mem_enumParts (by decide) name e⟩
  refine filter_descendants_element (fun _ hn => hn) rfl ?_
  rw [List.forall_mem_cons, List.forall_mem_singleton]
  refine ⟨(lacks_textElement_iff ..).2 (by decide), (lacks_element_iff ..).2 ⟨by decide, ?_⟩⟩
  rw [List.forall_mem_singleton]
  exact hmember

/-- A written compound is the only compound in itself. -/
theorem compounds_compoundOf (d : Declaration) :
    (compoundOf d).descendants.filter (Node.isNamed "compounddef") = [compoundOf d] := by
  cases d with
  | enumType e =>
    exact compounds_enumCompound _ _ e
  | classType c =>
    exact filter_descendants_element (fun _ hn => hn) rfl (lacks_of_mem_classParts c)

/-- The enums of a written namespace are the one that is written into it. -/
theorem enums_enumCompound {scope name : String} {e : EnumType} (hscope : IsName scope)
    (hname : IsName name) (hvalues : ∀ value ∈ e.values, IsName value)
    (hq : e.qualifiedName = scope ++ "::" ++ name) :
    enums (enumCompound scope name e) = .ok [e] := by
  have hnamed : ∀ n : Node, isEnumMember n = true → n.isNamed "memberdef" = true :=
    fun n hn => (Bool.and_eq_true_iff.1 hn).1
  have hmember : (enumMember name e).descendants.filter isEnumMember = [enumMember name e] :=
    filter_descendants_element hnamed rfl (lacks_of_mem_enumParts (by decide) name e)
  have hscopeText : (textElement "compoundname" scope).descendants.filter isEnumMember = [] :=
    filter_descendants_of_lacks hnamed ((lacks_textElement_iff ..).2 (by decide))
  -- the name of the namespace holds no member, and the section holds this one
  have hfound : (enumCompound scope name e).descendants.filter isEnumMember =
      [enumMember name e] := by
    unfold enumCompound
    rw [descendants_element, List.filter_cons_of_neg (by simp [isEnumMember]),
      List.flatMap_cons, List.flatMap_singleton, List.filter_append, hscopeText, List.nil_append,
      descendants_element, List.filter_cons_of_neg (by simp [isEnumMember]), List.flatMap_singleton,
      hmember]
  have hread : childText? (enumCompound scope name e) "compoundname" = some scope :=
    childText?_of_childrenNamed hscope (by
      simp [enumCompound, element, Node.childrenNamed, Node.children, textElement, Node.isNamed])
  unfold enums
  rw [hread]
  show Except.ok (((enumCompound scope name e).descendants.filter isEnumMember).filterMap
    (enum? scope)) = _
  rw [hfound, List.filterMap_cons_some (enum?_enumMember hname hvalues hq), List.filterMap_nil]

/-- The compound that is written for a declaration gives this declaration. -/
theorem compound_compoundOf {d : Declaration} (h : IsWritable d) :
    compound {} (compoundOf d) = .ok [d] := by
  cases d with
  | enumType e =>
    obtain ⟨scope, name, hfound, hscope, hname, hq⟩ := exists_scopedName? h.named
    have hof : compoundOf (.enumType e) = enumCompound scope name e := by
      show enumCompound ((scopedName? e.qualifiedName).getD ("", e.qualifiedName)).1
        ((scopedName? e.qualifiedName).getD ("", e.qualifiedName)).2 e = _
      rw [hfound]
      rfl
    have hkind : (enumCompound scope name e).attribute? "kind" = some "namespace" := rfl
    rw [hof]
    unfold compound
    simp only [hkind, if_pos, enums_enumCompound hscope hname h.values hq]
    rfl
  | classType c =>
    show compound {} (classCompound c) = _
    unfold compound
    rw [attribute?_kind_classCompound]
    show (if "class" = "namespace" then _ else if "class" = "class" ∨ "class" = "struct" then
      (class? {} "class" (classCompound c)).map fun c => (c.map Declaration.classType).toList
      else Except.ok []) = _
    rw [if_neg (by decide), if_pos (Or.inl rfl), class?_classCompound h]
    rfl

/-- The compounds of a written document are those of its declarations. -/
theorem compounds_documentOf (ds : List Declaration) :
    compounds (documentOf ds) = ds.map compoundOf := by
  unfold compounds documentOf
  rw [allDescendants_eq_flatMap, List.flatMap_singleton, descendants_element,
    List.filter_cons_of_neg (by simp), List.flatMap_map, List.filter_flatMap]
  simp only [compounds_compoundOf]
  exact List.map_eq_flatMap.symm

/-- Reading a written document gives the declarations that it was written for, in their order and
without a warning. -/
theorem declarations_documentOf {ds : List Declaration} (h : ∀ d ∈ ds, IsWritable d) :
    declarations {} (documentOf ds) = ⟨ds, []⟩ := by
  have hfound : (compounds (documentOf ds)).map (compound {}) = ds.map fun d => .ok [d] := by
    rw [compounds_documentOf, List.map_map]
    exact List.map_congr_left fun d hd => compound_compoundOf (h d hd)
  unfold declarations
  simp only [hfound, List.flatMap_map, List.filterMap_map]
  have hresult : ds.flatMap (fun d => [d]) = ds := List.flatMap_singleton' ds
  have hlog : ds.filterMap (fun _ => (none : Option LogLine)) = [] := List.filterMap_none ds
  exact congrArg₂ Logged.mk hresult hlog

/-- An enum behind two double colons of which only the first one parts two names, an enum without
anything, a class with all that a class can have, and a class that names its base by its identifier
only. -/
def writtenTypes : List Declaration :=
  [.enumType
    { header := some ⟨"/src/hect/Axis.h"⟩
      identifier := some "hect_axis"
      qualifiedName := "hect::Axis:: Kind"
      values := ["Axis_X", "Axis_Y"]
      isScoped := true },
    .enumType { qualifiedName := "a::b" },
    .classType
      { header := some ⟨"/src/hect/Mesh.h"⟩
        identifier := some "hect_mesh"
        qualifiedName := "hect::Mesh< T >"
        isTemplate := true
        base := .byName "Component< Mesh >"
        role := .scene
        isEncodable := true
        properties :=
          [{ name := "axis", isRequired := true, isVector := true, isEnum := true
             typeReference := some "hect_axis" },
            { name := "[property]" }]
        innerClasses := ["hect_mesh_handle", ""] },
    .classType
      { identifier := some "", qualifiedName := "Plain", base := .byIdentifier "hect_mesh" none }]

/-- All of the written types can be written. -/
theorem isWritable_writtenTypes : ∀ d ∈ writtenTypes, IsWritable d := by
  simp only [writtenTypes, List.forall_mem_cons]
  refine ⟨?axis, ?plainEnum, ?mesh, ?plain, fun _ h => absurd h List.not_mem_nil⟩
  case axis =>
    exact ⟨⟨"hect", "Axis:: Kind", by decide, by decide, rfl⟩, by decide⟩
  case plainEnum =>
    exact ⟨⟨"a", "b", by decide, by decide, rfl⟩, by decide⟩
  case mesh =>
    exact ⟨rfl, by decide, by decide, by decide, rfl, rfl, rfl, rfl⟩
  case plain =>
    exact ⟨rfl, by decide, by decide, by decide, rfl, rfl, rfl, rfl⟩

/-- These types are read back from the document that is written for them. -/
theorem declarations_writtenTypes :
    (∀ d ∈ writtenTypes, IsWritable d) ∧
      declarations {} (documentOf writtenTypes) = ⟨writtenTypes, []⟩ :=
  ⟨isWritable_writtenTypes, declarations_documentOf isWritable_writtenTypes⟩

end Registrar.Documentation
