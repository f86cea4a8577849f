/-
# Writing a documentation

How declared types are written as the tree of a document: one compound for each type, an enum as
the one member of a namespace and a class as a public class with its markers in the paragraphs of
its description.
-/
import Registrar.Documentation.Compound

namespace Registrar.Documentation

open Xml (Node)

/-! ## Names -/

/-- A name is not empty, and no blank stands at either of its ends. -/
structure IsName (s : String) : Prop where
  nonempty : s ≠ ""
  front : ∀ c ∈ s.toList.head?, Chars.isBlank c = false
  back : ∀ c ∈ s.toList.getLast?, Chars.isBlank c = false

theorem all_not_isBlank_iff (o : Option Char) :
    (o.all fun c => !Chars.isBlank c) = true ↔ ∀ c ∈ o, Chars.isBlank c = false := by
  cases o <;> simp

-- not by the quantifiers themselves, which may be decided by trying every character there is
instance (s : String) : Decidable (IsName s) :=
  decidable_of_iff
    (s ≠ "" ∧ (s.toList.head?.all fun c => !Chars.isBlank c) = true ∧
      (s.toList.getLast?.all fun c => !Chars.isBlank c) = true) <| by
    rw [all_not_isBlank_iff, all_not_isBlank_iff]
    exact ⟨fun ⟨nonempty, front, back⟩ => ⟨nonempty, front, back⟩,
      fun ⟨nonempty, front, back⟩ => ⟨nonempty, front, back⟩⟩

/-- What stands on the two sides of each double colon of a text. -/
def scopings : List Char → List (List Char × List Char)
  | [] => []
  | c :: cs =>
    let later := (scopings cs).map fun (scope, name) => (c :: scope, name)
    match "::".toList.isPrefixOf? (c :: cs) with
    | some name => ([], name) :: later
    | none => later

/-- A namespace and a name in it that make up a qualified name. -/
def scopedName? (qualifiedName : String) : Option (String × String) :=
  ((scopings qualifiedName.toList).map fun (scope, name) =>
    (String.ofList scope, String.ofList name)).find? fun (scope, name) =>
      IsName scope ∧ IsName name

/-! ## Elements -/

/-- An element whose name and attributes are outside of every namespace. -/
def element (name : String) (attributes : List (String × String)) (children : List Node) : Node :=
  .element ⟨none, name⟩ (attributes.map fun (name, value) => ⟨⟨none, name⟩, value⟩) children

/-- An element with nothing but a text in it. -/
def textElement (name content : String) : Node :=
  element name [] [.text content]

/-- Where something is declared, if it is known. -/
def locationElements (header : Option Path) : List Node :=
  header.toList.map fun file => element "location" [("file", file.text)] []

/-- A description with the given paragraphs. -/
def description (paragraphs : List String) : Node :=
  element "detaileddescription" [] (paragraphs.map (textElement "para"))

/-! ## Enums -/

/-- An enumerator. -/
def enumeratorElement (value : String) : Node :=
  element "enumvalue" [] [textElement "name" value]

/-- The member that declares an enum. -/
def enumMember (name : String) (e : EnumType) : Node :=
  element "memberdef"
    (("kind", "enum") :: ("strong", (if e.isScoped then "yes" else "no")) ::
      e.identifier.toList.map fun identifier => ("id", identifier))
    (textElement "name" name :: (e.values.map enumeratorElement ++ locationElements e.header))

/-- A namespace with one enum in it. -/
def enumCompound (scope name : String) (e : EnumType) : Node :=
  element "compounddef" [("kind", "namespace")]
    [textElement "compoundname" scope,
      element "sectiondef" [("kind", "enum")] [enumMember name e]]

/-! ## Classes -/

/-- How a class refers to its base. -/
def baseElements : BaseReference → List Node
  | .byIdentifier identifier name =>
    [element "basecompoundref" [("refid", identifier)] (name.toList.map Node.text)]
  | .byName name => [textElement "basecompoundref" name]
  | .unresolved => []

/-- The paragraph that gives a class its role. -/
def roleParagraphs : Role → List String
  | .component => ["[component]"]
  | .system => ["[system]"]
  | .scene => ["[scene]"]
  | .none => []

/-- The paragraphs of a class: its role, then whether it is encodable. -/
def classParagraphs (c : ClassType) : List String :=
  roleParagraphs c.role ++ if c.isEncodable then ["[encodable]"] else []

/-- The paragraph of a property: the marker, then the qualifiers. -/
def propertyParagraph (isRequired isEnum isVector : Bool) : String :=
  "[property]" ++ (if isRequired then r"{required}" else "") ++
    (if isEnum then r"{enum}" else "") ++ if isVector then r"{vector}" else ""

/-- The type of a property: a reference without a text, if there is one. -/
def typeElement (typeReference : Option String) : Node :=
  element "type" [] (typeReference.toList.map fun r => element "ref" [("refid", r)] [])

/-- The member that declares a property. -/
def propertyMember (p : Property) : Node :=
  element "memberdef" [("kind", "variable"), ("prot", "public")]
    [typeElement p.typeReference, textElement "name" p.name,
      description [propertyParagraph p.isRequired p.isEnum p.isVector]]

/-- The mark of a template. -/
def templateElements (isTemplate : Bool) : List Node :=
  if isTemplate then [element "templateparamlist" [] []] else []

/-- A type that is nested in a class. -/
def innerElement (identifier : String) : Node :=
  element "innerclass" [("refid", identifier)] []

/-- The section with the properties of a class. -/
def classSection (c : ClassType) : Node :=
  element "sectiondef" [("kind", "public-attrib")] (c.properties.map propertyMember)

/-- A public class. -/
def classCompound (c : ClassType) : Node :=
  element "compounddef"
    (("kind", "class") :: ("prot", "public") ::
      c.identifier.toList.map fun identifier => ("id", identifier))
    ([textElement "compoundname" c.qualifiedName] ++ baseElements c.base ++
      templateElements c.isTemplate ++ c.innerClasses.map innerElement ++
      [description (classParagraphs c)] ++ [classSection c] ++ locationElements c.header)

/-! ## Documents -/

/-- The compound that declares a type. -/
def compoundOf : Declaration → Node
  | .enumType e =>
    let (scope, name) := (scopedName? e.qualifiedName).getD ("", e.qualifiedName)
    enumCompound scope name e
  | .classType c => classCompound c

/-- A document that declares some types. -/
def documentOf (ds : List Declaration) : List Node :=
  [element "doxygen" [] (ds.map compoundOf)]

/-! ## What can be written -/

/-- An enum in a namespace whose names are all names. -/
structure IsWritableEnum (e : EnumType) : Prop where
  named : ∃ scope name, IsName scope ∧ IsName name ∧ e.qualifiedName = scope ++ "::" ++ name
  values : ∀ value ∈ e.values, IsName value

/-- A class with an identifier that has not been linked and whose names are all names. -/
structure IsWritableClass (c : ClassType) : Prop where
  identified : c.identifier.isSome = true
  named : IsName c.qualifiedName
  baseNamed : ∀ name ∈ c.base.name?, IsName name
  propertiesNamed : ∀ p ∈ c.properties, IsName p.name
  isDerivedFrom : c.isDerivedFrom = false
  isWithinTemplate : c.isWithinTemplate = false
  resolvedBase : c.resolvedBase = none
  effectiveBaseName : c.effectiveBaseName = none

/-- A declaration that the format can say. -/
def IsWritable : Declaration → Prop
  | .enumType e => IsWritableEnum e
  | .classType c => IsWritableClass c

end Registrar.Documentation
